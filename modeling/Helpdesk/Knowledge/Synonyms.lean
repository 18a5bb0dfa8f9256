/-
  File:      Helpdesk/Knowledge/Synonyms.lean
  Subject:   The synonym registry (apps/api/app/knowledge/retrieval_synonym_service.py:
             `RetrievalSynonymService.change`, with its statements).

  `change` reads the entry and counts the term's active expansions without a lock. Its
  INSERT waits for another INSERT of the same entry, its UPDATE for another UPDATE of
  the same row, which it matches again once it has the lock.

  Left out: the audit rows. `str.lower` and the hash of a request are parameters.
-/
import Helpdesk.Lib.Transactions
import Helpdesk.Tickets.Comments

namespace Helpdesk.Knowledge.Synonyms

open Helpdesk.Python Helpdesk.Tickets Helpdesk.Transactions
open Helpdesk.Transactions.Procedure

/-! ## 1. Tables -/

inductive SynonymStatus where
  | draft | approved | retired
  deriving DecidableEq, Repr

def SynonymStatus.text : SynonymStatus → String
  | .draft => "DRAFT"
  | .approved => "APPROVED"
  | .retired => "RETIRED"

/-- `_ALLOWED_TRANSITIONS` -/
def allowedTransitions : List (SynonymStatus × SynonymStatus) :=
  [(.draft, .draft), (.draft, .approved), (.draft, .retired), (.approved, .retired),
    (.retired, .draft)]

/-- `MAX_ACTIVE_EXPANSIONS` -/
def maxActiveExpansions : Nat := 10

/-- `UNIQUE (tenant_id,term,expansion)` -/
structure EntryKey where
  tenantId : Uuid
  term : String
  expansion : String
  deriving DecidableEq, Repr

/-- kb.retrieval_synonym -/
structure Synonym where
  synonymId : Uuid
  key : EntryKey
  status : SynonymStatus
  note : Option String
  decidedBy : Uuid
  decidedAt : Instant
  rowVersion : Nat
  deriving DecidableEq, Repr

/-- integration.idempotency_record, of the operation `KNOWLEDGE_SYNONYM_CHANGE` -/
structure ClaimRecord where
  recordId : Uuid
  tenantId : Uuid
  idempotencyKey : String
  principalId : Uuid
  requestHash : String
  processingStatus : String
  resultResourceId : Option Uuid
  deriving DecidableEq, Repr

structure Registry where
  synonyms : List Synonym
  records : List ClaimRecord

inductive Lock where
  | idempotency (tenantId : Uuid) (idempotencyKey : String)
  /-- the unique index, for an INSERT that is not committed -/
  | insertion (key : EntryKey)
  /-- a row, for an UPDATE that is not committed -/
  | row (key : EntryKey)
  deriving DecidableEq

inductive Statement where
  | claim (record : ClaimRecord)
  | complete (recordId resourceId : Uuid)
  | insert (synonym : Synonym)
  | update (key : EntryKey) (expectedRowVersion : Nat) (status : SynonymStatus)
      (note : Option String) (decidedBy : Uuid) (decidedAt : Instant)

/-- The UPDATE of `update_entry`, on one row. -/
def updated (key : EntryKey) (expectedRowVersion : Nat) (status : SynonymStatus)
    (note : Option String) (decidedBy : Uuid) (decidedAt : Instant) (s : Synonym) : Synonym :=
  if s.key = key ∧ s.rowVersion = expectedRowVersion then
    { s with status, note, decidedBy, decidedAt, rowVersion := s.rowVersion + 1 }
  else s

def ClaimRecord.keyed (tenantId : Uuid) (idempotencyKey : String) (r : ClaimRecord) : Bool :=
  r.tenantId = tenantId ∧ r.idempotencyKey = idempotencyKey

def Registry.change (d : Registry) : Statement → Registry
  | .claim record =>
      if d.records.any (·.keyed record.tenantId record.idempotencyKey) then d
      else { d with records := d.records ++ [record] }
  | .complete recordId resourceId =>
      { d with records := d.records.map fun r =>
          if r.recordId = recordId then
            { r with processingStatus := "COMPLETED", resultResourceId := some resourceId }
          else r }
  | .insert synonym =>
      if d.synonyms.any (·.key = synonym.key) then d
      else { d with synonyms := d.synonyms ++ [synonym] }
  | .update key expectedRowVersion status note decidedBy decidedAt =>
      let row := updated key expectedRowVersion status note decidedBy decidedAt
      { d with synonyms := d.synonyms.map row }

instance : Database Registry Statement where
  change := Registry.change

/-! ## 2. Requests -/

structure SynonymCommand where
  term : String
  expansion : String
  synonymStatus : SynonymStatus
  synonymNote : Option String
  expectedRowVersion : Option Nat

structure ChangeRequest where
  context : RequestContext
  command : SynonymCommand
  idempotencyKey : String
  /-- `now()`: when the transaction starts -/
  startedAt : Instant
  /-- the defaults of new rows' ids -/
  newSynonymId : Uuid
  newRecordId : Uuid

structure SynonymResponse where
  entry : Synonym
  replayed : Bool
  deriving DecidableEq, Repr

abbrev SynonymCall := Procedure Registry Lock Statement AppError

def conflict (detail : String) : AppError := .conflict "conflict" detail

section Change

variable (lower : String → String) (requestHash : EntryKey → SynonymCommand → String)

/-- `normalize_synonym_text` -/
def normalizeSynonymText (value : String) : String := collapseText (lower (stripText value))

/-- The entry of a request. -/
def ChangeRequest.key (request : ChangeRequest) (tenantId : Uuid) : EntryKey :=
  ⟨tenantId, normalizeSynonymText lower request.command.term,
    normalizeSynonymText lower request.command.expansion⟩

/-! ## 3. `change` -/

/-- `entry` -/
def entry (key : EntryKey) (d : Registry) : Option Synonym := d.synonyms.find? (·.key = key)

/-- An active expansion of the term. -/
def Synonym.active (tenantId : Uuid) (term : String) (s : Synonym) : Bool :=
  s.key.tenantId = tenantId ∧ s.key.term = term ∧ s.status ≠ .retired

/-- `active_expansion_count` -/
def activeExpansionCount (tenantId : Uuid) (term : String) (d : Registry) : Nat :=
  d.synonyms.countP (·.active tenantId term)

/-- `claim_idempotency` -/
def claimIdempotency (record : ClaimRecord) : SynonymCall ClaimRecord := do
  acquire (.idempotency record.tenantId record.idempotencyKey)
  write (.claim record)
  let claimed ← query fun d => d.records.find? (·.keyed record.tenantId record.idempotencyKey)
  -- `.one()`
  demand claimed (.value "No row was found when one was required")

/-- `_enforce_expansion_cap` -/
def enforceExpansionCap (key : EntryKey) : SynonymCall Unit := do
  let active ← query (activeExpansionCount key.tenantId key.term)
  check (active < maxActiveExpansions)
    (conflict "Term already has 10 active expansions; retire one first.")

/-- `insert_entry`; `none` where the entry exists. -/
def insertEntry (request : ChangeRequest) (key : EntryKey) (userId : Uuid) :
    SynonymCall (Option Synonym) := do
  acquire (.insertion key)
  let taken ← query fun d => (entry key d).isSome
  if taken then return none
  else do
    let row : Synonym := ⟨request.newSynonymId, key, request.command.synonymStatus,
      request.command.synonymNote, userId, request.startedAt, 1⟩
    write (.insert row)
    return some row

/-- The row that the UPDATE matches. -/
def matching (key : EntryKey) (expectedRowVersion : Nat) (d : Registry) : Option Synonym :=
  d.synonyms.find? fun s => s.key = key ∧ s.rowVersion = expectedRowVersion

/-- `update_entry`: the row is matched in the statement's snapshot, and again under its
    lock; `none` where it is not. -/
def updateEntry (request : ChangeRequest) (key : EntryKey) (userId : Uuid)
    (expectedRowVersion : Nat) : SynonymCall (Option Synonym) := do
  let seen ← query (matching key expectedRowVersion)
  if seen.isNone then return none
  else do
    acquire (.row key)
    let locked ← query (matching key expectedRowVersion)
    match locked with
    | none => return none
    | some row => do
        write (.update key expectedRowVersion request.command.synonymStatus
          request.command.synonymNote userId request.startedAt)
        return some (updated key expectedRowVersion request.command.synonymStatus
          request.command.synonymNote userId request.startedAt row)

/-- `change` of an entry that the caller takes to be new. -/
def insertNew (request : ChangeRequest) (key : EntryKey) (userId : Uuid)
    (previous : Option Synonym) : SynonymCall (Option Synonym) := do
  check (previous = none) (conflict "Synonym entry already exists; supply expected_row_version.")
  check (request.command.synonymStatus = .draft) (conflict "New synonym entries must start in DRAFT.")
  enforceExpansionCap key
  insertEntry request key userId

/-- A retired entry is only reopened under the cap. -/
def guardReopening (key : EntryKey) (previous : Option Synonym) : SynonymCall Unit :=
  if previous.any (·.status = .retired) then enforceExpansionCap key else pure ()

def transitionError (previous : Option Synonym) (status : SynonymStatus) : AppError :=
  conflict ("Synonym status transition " ++ (previous.elim "" (·.status.text)) ++ " to " ++
    status.text ++ " is not allowed.")

/-- `change` of an entry that the caller has seen. -/
def updateKnown (request : ChangeRequest) (key : EntryKey) (userId : Uuid)
    (previous : Option Synonym) (expectedRowVersion : Nat) : SynonymCall (Option Synonym) := do
  check (∀ s ∈ previous, (s.status, request.command.synonymStatus) ∈ allowedTransitions)
    (transitionError previous request.command.synonymStatus)
  guardReopening key previous
  updateEntry request key userId expectedRowVersion

/-- The part of `change` that is not a replay. -/
def changeEntry (request : ChangeRequest) (key : EntryKey) (userId recordId : Uuid) :
    SynonymCall SynonymResponse := do
  let previous ← query (entry key)
  let written ← match request.command.expectedRowVersion with
    | none => insertNew request key userId previous
    | some expectedRowVersion => updateKnown request key userId previous expectedRowVersion
  let row ← demand written
    (conflict "Synonym entry was changed concurrently; reload and retry.")
  write (.complete recordId row.synonymId)
  save
  return ⟨row, false⟩

/-- The answer to a key whose request was completed. -/
def replay (key : EntryKey) : SynonymCall SynonymResponse := do
  let found ← query (entry key)
  let row ← demand found (conflict "Synonym change result is unavailable.")
  save
  return ⟨row, true⟩

/-- `_validate_claim` -/
def validateClaim (claim : ClaimRecord) (userId : Uuid) (hash : String) : SynonymCall Unit := do
  check (claim.principalId = userId ∧ claim.requestHash = hash)
    (conflict "Idempotency key was already used for another request.")
  check (claim.processingStatus = "IN_PROGRESS" ∨ claim.processingStatus = "COMPLETED")
    (conflict "Idempotent operation cannot be resumed.")

/-- `change` -/
def change (request : ChangeRequest) : SynonymCall SynonymResponse := do
  liftM (authorize request.context .knowledgeSourceUpdate notPermitted)
  let (tenantId, userId) ← liftM (identity request.context (.authorization notPermitted))
  let key := request.key lower tenantId
  check (key.term ≠ "" ∧ key.expansion ≠ "" ∧ key.term ≠ key.expansion)
    (conflict "Synonym term and expansion must differ and be non-empty.")
  let hash := requestHash key request.command
  let claim ← claimIdempotency ⟨request.newRecordId, tenantId, request.idempotencyKey, userId, hash,
    "IN_PROGRESS", none⟩
  validateClaim claim userId hash
  if claim.processingStatus = "COMPLETED" then replay key
  else changeEntry request key userId claim.recordId

end Change

end Helpdesk.Knowledge.Synonyms
