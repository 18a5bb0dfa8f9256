/-
  File:      Helpdesk/Attachments/Finalization.lean
  Subject:   Calls of `finalize` beside the uploads of clients
             (apps/api/app/attachments/service.py, storage.py).

  A call holds the lock of its row until its transaction ends. The object it reads,
  scans and copies has no lock: whoever holds the upload URL may replace it at any
  time. A transaction that is rolled back gives the lock away while a storage call of
  it may still be under way.
-/
import Helpdesk.Attachments.Service
import Helpdesk.Lib.Buckets

namespace Helpdesk.Attachments

open Helpdesk.Python

/-! ## 1. Calls -/

/-- The bucket, and every input of a scan that came back clean. -/
structure Storage where
  bucket : Bucket String Bytes
  scanned : List Bytes

/-- What a call is about to record. -/
inductive Outcome where
  | clean (detected protectedKey engine version : String)
  | infected (detected engine version threat : String)
  | invalid (detected reason : String)
  | unavailable
  deriving DecidableEq, Repr

/-- The row of an outcome. -/
def Outcome.apply (settings : Settings) (now : Instant) (outcome : Outcome) (row : Attachment) :
    Attachment :=
  match outcome with
  | .clean detected protectedKey engine version => markClean detected protectedKey engine version row
  | .infected detected engine version threat => markInfected detected engine version threat row
  | .invalid detected reason => markInvalid detected reason row
  | .unavailable =>
      markError now "SCAN_OR_STORAGE_UNAVAILABLE" settings.clamavRetrySeconds row

/-- How far a call of `finalize` has come. -/
inductive Phase where
  | scanning
  | validated (content : Bytes) (detected : String)
  | scanned (content : Bytes) (detected engine version : String)
  /-- half of `promote` is done -/
  | copied (content : Bytes) (detected engine version : String)
  /-- `reject` is called, then the outcome is recorded -/
  | rejecting (outcome : Outcome)
  | recording (outcome : Outcome)
  | finished
  deriving DecidableEq, Repr

/-- A call: the row it has read, and whether its transaction is open. -/
structure Call where
  attachment : Attachment
  phase : Phase
  open_ : Bool
  deriving DecidableEq, Repr

structure System where
  rows : List Attachment
  calls : List Call
  deriving DecidableEq, Repr

inductive ScanResult where
  | clean (engine version : String)
  | threat (engine version : String) (threatName : Option String)
  deriving DecidableEq, Repr

/-- What a call of `finalize` does next. -/
inductive Event where
  | read
  | scan (result : ScanResult)
  | copy
  | delete
  | reject
  /-- a `StorageError` or a `ScannerError` -/
  | fail
  | commit (now : Instant)
  /-- the transaction is rolled back: an exception, a cancelled request, a lost connection -/
  | rollback
  deriving DecidableEq, Repr

inductive Action where
  | authorize (attachmentId tenantId ticketId : Uuid) (command : UploadRequest)
  /-- a PUT of the client: the URL signs the key and the length -/
  | upload (attachmentId : Uuid) (content : Bytes)
  | begin (now : Instant) (attachmentId : Uuid)
  | call (index : Nat) (event : Event)
  deriving DecidableEq, Repr

/-! ## 2. Steps -/

variable (sha256 : Bytes → String) (settings : Settings)

/-- `finalize` up to `mark_scanning`; the row lock is free. -/
def begin (now : Instant) (attachmentId : Uuid) (s : System) : Option System := do
  let row ← s.rows.find? fun row => row.attachmentId = attachmentId
  if s.calls.any fun call => call.open_ && call.attachment.attachmentId = attachmentId then none
  else if row.quarantineStatus = .released ∨ row.quarantineStatus = .rejected then none
  else if row.nextScanAt.any (now < ·) then none
  else if settings.clamavMaxAttempts ≤ row.scanAttemptCount then none
  else some { s with calls := s.calls ++ [⟨row, .scanning, true⟩] }

/-- `read`, `_detect_mime` and `_validate_content`. -/
def readContent (attachment : Attachment) (bucket : Bucket String Bytes) : Phase :=
  match bucket attachment.quarantineObjectUri with
  | none => .recording .unavailable
  | some content =>
      if settings.attachmentMaxBytes < content.length then
        .rejecting (.invalid "application/octet-stream" "Stored object exceeds the permitted size")
      else
        let detected := detectMime content
        match validateContent sha256 attachment content detected with
        | .ok _ => .validated content detected
        | .error reason => .rejecting (.invalid detected reason)

/-- What an event of a call does to the storage, and the phase it leads to. -/
def callEvent (attachment : Attachment) (phase : Phase) (event : Event) (storage : Storage) :
    Option (Storage × Phase) :=
  match event, phase with
  | .read, .scanning => some (storage, readContent sha256 settings attachment storage.bucket)
  | .scan (.clean engine version), .validated content detected =>
      some ({ storage with scanned := storage.scanned ++ [content] },
        .scanned content detected engine version)
  | .scan (.threat engine version threatName), .validated _ detected =>
      -- `result.threat_name or "UNSPECIFIED"`
      let name := threatName.getD ""
      some (storage, .rejecting (.infected detected engine version
        (if name = "" then "UNSPECIFIED" else name)))
  | .copy, .scanned content detected engine version => do
      let bucket ← storage.bucket.copy attachment.quarantineObjectUri attachment.protectedKey
      return ({ storage with bucket }, .copied content detected engine version)
  | .delete, .copied _ detected engine version =>
      some ({ storage with bucket := storage.bucket.delete attachment.quarantineObjectUri },
        .recording (.clean detected attachment.protectedKey engine version))
  | .reject, .rejecting outcome =>
      some ({ storage with bucket := storage.bucket.delete attachment.quarantineObjectUri },
        .recording outcome)
  -- a failing `reject` of an invalid file is caught by nothing
  | .fail, .rejecting (.infected _ _ _ _) | .fail, .scanning | .fail, .validated _ _
  | .fail, .scanned _ _ _ _ | .fail, .copied _ _ _ _ => some (storage, .recording .unavailable)
  | _, _ => none

/-- The row that a call records its outcome in. -/
def System.record (now : Instant) (call : Call) (outcome : Outcome) (s : System) : System :=
  { s with
    rows := s.rows.map fun row =>
      if row.attachmentId = call.attachment.attachmentId then
        outcome.apply settings now (markScanning row)
      else row }

def System.setCall (index : Nat) (call : Call) (s : System) : System :=
  { s with calls := s.calls.set index call }

/-- **One step.** -/
def next (storage : Storage) (s : System) (action : Action) : Option (Storage × System) :=
  match action with
  | .authorize attachmentId tenantId ticketId command =>
      -- `uuid4()`: 128 bits, and the primary key
      if attachmentId < 2 ^ 128 ∧ ∀ row ∈ s.rows, row.attachmentId ≠ attachmentId then
        match authorizeUpload settings attachmentId tenantId ticketId command with
        | .ok row => some (storage, { s with rows := s.rows ++ [row] })
        | .error _ => none
      else none
  | .upload attachmentId content => do
      let row ← s.rows.find? fun row => row.attachmentId = attachmentId
      if content.length = row.fileSizeBytes then
        some ({ storage with bucket := storage.bucket.put row.quarantineObjectUri content }, s)
      else none
  | .begin now attachmentId => (begin settings now attachmentId s).map fun s => (storage, s)
  | .call index (.commit now) => do
      let call ← s.calls[index]?
      match call.open_, call.phase with
      | true, .recording outcome =>
          some (storage, (s.record settings now call outcome).setCall index
            { call with phase := .finished, open_ := false })
      | _, _ => none
  | .call index .rollback => do
      let call ← s.calls[index]?
      return (storage, s.setCall index { call with open_ := false })
  | .call index event => do
      let call ← s.calls[index]?
      let (storage, phase) ← callEvent sha256 settings call.attachment call.phase event storage
      return (storage, s.setCall index { call with phase })

end Helpdesk.Attachments
