/-
  File:      Helpdesk/Attachments/Service.lean
  Subject:   Attachments: what is accepted, and the rows of their life cycle
             (apps/api/app/attachments/service.py and repository.py).

  The idempotency record, the events and who may see the ticket are left out: they can
  only end a call earlier.
-/
import Helpdesk.Python.Datetime
import Helpdesk.Python.Uuid

namespace Helpdesk.Attachments

open Helpdesk.Python

/-! ## 1. Rows -/

abbrev Bytes := List UInt8

inductive ScanStatus where
  | pending | clean | infected | error | quarantined
  deriving DecidableEq, Repr

inductive QuarantineStatus where
  | quarantined | scanning | released | rejected | deleted
  deriving DecidableEq, Repr

/-- A row of `itsm.ticket_attachment` with the tenant of its ticket. -/
structure Attachment where
  attachmentId : Uuid
  tenantId : Uuid
  ticketId : Uuid
  originalFilename : String
  quarantineObjectUri : String
  protectedObjectUri : Option String
  clientDeclaredContentType : Option String
  detectedMimeType : Option String
  fileSizeBytes : Nat
  sha256Checksum : String
  malwareScanStatus : ScanStatus
  quarantineStatus : QuarantineStatus
  scannerEngine : Option String
  scannerVersion : Option String
  threatName : Option String
  scanErrorDetails : Option String
  scanAttemptCount : Nat
  nextScanAt : Option Instant
  deriving DecidableEq, Repr

structure UploadRequest where
  filename : String
  contentType : String
  fileSizeBytes : Nat
  sha256Checksum : String
  deriving DecidableEq, Repr

structure Settings where
  attachmentMaxBytes : Nat
  clamavMaxAttempts : Nat
  clamavRetrySeconds : Nat

/-! ## 2. What is accepted -/

/-- `_ALLOWED.get(extension, frozenset())`. -/
def allowed (extension : String) : List String :=
  if extension = ".pdf" then ["application/pdf"]
  else if extension = ".png" then ["image/png"]
  else if extension = ".jpg" then ["image/jpeg"]
  else if extension = ".jpeg" then ["image/jpeg"]
  else if extension = ".gif" then ["image/gif"]
  else if extension = ".txt" then ["text/plain"]
  else if extension = ".csv" then ["text/csv", "text/plain"]
  else []

/-- `Path(filename).suffix` of a base filename. -/
def suffix (filename : String) : String :=
  let name := filename.toList
  let extension := (name.reverse.takeWhile (· ≠ '.')).reverse
  -- a name that starts or ends with its last dot has no suffix
  if extension ≠ [] ∧ extension.length + 1 < name.length then String.ofList ('.' :: extension)
  else ""

/-- `_detect_mime`. -/
def detectMime (content : Bytes) : String :=
  let startsWith := fun (first : Bytes) => first.isPrefixOf content
  if startsWith [0x25, 0x50, 0x44, 0x46, 0x2d] then "application/pdf"
  else if startsWith [0x89, 0x50, 0x4e, 0x47, 0x0d, 0x0a, 0x1a, 0x0a] then "image/png"
  else if startsWith [0xff, 0xd8, 0xff] then "image/jpeg"
  else if startsWith [0x47, 0x49, 0x46, 0x38, 0x37, 0x61] ||
      startsWith [0x47, 0x49, 0x46, 0x38, 0x39, 0x61] then "image/gif"
  else if !content.contains 0 && (String.fromUTF8? ⟨content.toArray⟩).isSome then "text/plain"
  else "application/octet-stream"

/-- `_validate_content`: the detail of the error it raises. -/
def validateContent (sha256 : Bytes → String) (attachment : Attachment) (content : Bytes)
    (detected : String) : Except String Unit :=
  if content.length ≠ attachment.fileSizeBytes then
    .error "The uploaded size does not match the authorized upload."
  else if sha256 content ≠ attachment.sha256Checksum then
    .error "The uploaded checksum does not match the authorized upload."
  else if detected ∉ allowed (lower (suffix attachment.originalFilename)) then
    .error "The detected MIME type does not match the filename extension."
  else .ok ()

/-- What `_validate_content` accepts has the checksum of the upload. -/
theorem validateContent_eq_ok {sha256 : Bytes → String} {attachment : Attachment} {content : Bytes}
    {detected : String} {u : Unit} (h : validateContent sha256 attachment content detected = .ok u) :
    content.length = attachment.fileSizeBytes ∧ sha256 content = attachment.sha256Checksum := by
  unfold validateContent at h
  by_cases hsize : content.length ≠ attachment.fileSizeBytes
  · rw [if_pos hsize] at h
    cases h
  · rw [if_neg hsize] at h
    by_cases hsha : sha256 content ≠ attachment.sha256Checksum
    · rw [if_pos hsha] at h
      cases h
    · exact ⟨not_not.mp hsize, not_not.mp hsha⟩

/-! ## 3. The statements -/

/-- The key a client uploads to. -/
def quarantineKey (tenantId ticketId attachmentId : Uuid) : String :=
  "quarantine/" ++ uuidText tenantId ++ "/" ++ uuidText ticketId ++ "/" ++ uuidText attachmentId

/-- The key a released attachment is served from. -/
def Attachment.protectedKey (attachment : Attachment) : String :=
  "protected/" ++ uuidText attachment.tenantId ++ "/" ++ uuidText attachment.ticketId ++ "/" ++
    String.ofList (attachment.sha256Checksum.toList.take 2) ++ "/" ++
    uuidText attachment.attachmentId

/-- The row of `AttachmentRepository.create`. -/
def newAttachment (attachmentId tenantId ticketId : Uuid) (command : UploadRequest) : Attachment where
  attachmentId
  tenantId
  ticketId
  originalFilename := command.filename
  quarantineObjectUri := quarantineKey tenantId ticketId attachmentId
  protectedObjectUri := none
  clientDeclaredContentType := some command.contentType
  detectedMimeType := none
  fileSizeBytes := command.fileSizeBytes
  sha256Checksum := command.sha256Checksum
  malwareScanStatus := .pending
  quarantineStatus := .quarantined
  scannerEngine := none
  scannerVersion := none
  threatName := none
  scanErrorDetails := none
  scanAttemptCount := 0
  nextScanAt := none

/-- `authorize_upload`: the detail of the error it raises, or the row it inserts. -/
def authorizeUpload (settings : Settings) (attachmentId tenantId ticketId : Uuid)
    (command : UploadRequest) : Except String Attachment :=
  if settings.attachmentMaxBytes < command.fileSizeBytes then
    .error "The attachment exceeds the configured size limit."
  else if command.contentType ∉ allowed (lower (suffix command.filename)) then
    .error "The filename extension and declared MIME type are not allowed."
  else .ok (newAttachment attachmentId tenantId ticketId command)

/-- The row of `mark_scanning`. -/
def markScanning (row : Attachment) : Attachment :=
  { row with
    malwareScanStatus := .quarantined
    quarantineStatus := .scanning
    scanAttemptCount := row.scanAttemptCount + 1
    nextScanAt := none
    scanErrorDetails := none }

/-- The row of `mark_clean`. -/
def markClean (detected protectedKey engine version : String) (row : Attachment) : Attachment :=
  { row with
    detectedMimeType := some detected
    protectedObjectUri := some protectedKey
    malwareScanStatus := .clean
    quarantineStatus := .released
    scannerEngine := some engine
    scannerVersion := some version
    threatName := none
    scanErrorDetails := none
    nextScanAt := none }

/-- The row of `mark_infected`. -/
def markInfected (detected engine version threat : String) (row : Attachment) : Attachment :=
  { row with
    detectedMimeType := some detected
    malwareScanStatus := .infected
    quarantineStatus := .rejected
    scannerEngine := some engine
    scannerVersion := some version
    threatName := some threat
    nextScanAt := none }

/-- The row of `mark_error`. -/
def markError (now : Instant) (errorCode : String) (retrySeconds : Nat) (row : Attachment) :
    Attachment :=
  { row with
    malwareScanStatus := .error
    quarantineStatus := .quarantined
    scanErrorDetails := some errorCode
    nextScanAt := some (now + retrySeconds * second) }

/-- The row of `mark_invalid`. -/
def markInvalid (detected reason : String) (row : Attachment) : Attachment :=
  { row with
    detectedMimeType := some detected
    malwareScanStatus := .error
    quarantineStatus := .rejected
    scanErrorDetails := some reason
    nextScanAt := none }

end Helpdesk.Attachments
