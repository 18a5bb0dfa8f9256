/-
  File:      Helpdesk/Knowledge/World.lean
  Subject:   Ingestion, processing and publication working at the same time.

  A step is one committed transaction, or the read with which a worker loads its
  work. A call of `process_one` is a claim followed by steps of its own; between
  them anything else may happen, and it can end at any of them: the exception it
  ends with, or the crash of its worker, leaves no other trace than what was
  committed.
-/
import Helpdesk.Knowledge.Documents
import Helpdesk.Lib.Runs

namespace Helpdesk.Knowledge

open Helpdesk.Python

/-! ## 1. Calls of `process_one` -/

/-- How far a call of an acquisition worker has come. -/
inductive AcquisitionPhase where
  | claimed
  | working (work : AcquisitionWork)
  /-- what was found is recorded; `_safe_reject` follows, whose exception is recorded too -/
  | cleaning (work : AcquisitionWork)
  | done
  deriving DecidableEq, Repr

/-- The work of a call, once it is loaded. -/
def AcquisitionPhase.work : AcquisitionPhase → Option AcquisitionWork
  | .working work | .cleaning work => some work
  | .claimed | .done => none

structure AcquisitionCall where
  settings : WorkerSettings
  claim : Claim
  phase : AcquisitionPhase

/-- How far a call of a processing worker has come. -/
inductive ProcessingPhase where
  | claimed
  /-- with the processing version that was started, and whether it was complete already -/
  | working (work : ProcessingWork) (processing : Option (Uuid × Bool))
  | done
  deriving DecidableEq, Repr

def ProcessingPhase.work : ProcessingPhase → Option ProcessingWork
  | .working work _ => some work
  | .claimed | .done => none

structure ProcessingCall where
  settings : WorkerSettings
  claim : Claim
  phase : ProcessingPhase

/-- Content that was acquired: for whom, and where it was stored. -/
structure Acquired where
  manifest : ManifestEntry
  documentId : Uuid
  versionId : Option Uuid
  deriving DecidableEq, Repr

structure World where
  store : Store
  acquisitions : List AcquisitionCall
  processings : List ProcessingCall
  /-- everything acquired so far -/
  acquired : List Acquired

/-! ## 2. What can happen -/

/-- What a call of an acquisition worker does next. -/
inductive AcquisitionEvent where
  | load (now : Instant)
  | block (now : Instant)
  | skip (now : Instant) (removed : Bool)
  | complete (now : Instant) (content : Content)
  | fail (now : Instant) (code : String) (final : Bool)
  deriving DecidableEq, Repr

/-- What a call of a processing worker does next. -/
inductive ProcessingEvent where
  | load (now : Instant)
  | start (now : Instant) (parser : Parser) (model : EmbeddingModel)
  | replay
  | persist (now : Instant) (parsed : ParsedDocument) (context : ValidationContext)
  | fail (now : Instant) (code : String) (final : Bool)

inductive Action where
  /-- sources and authorizations are administered -/
  | govern (sources : List Source) (authorizations : List SourceAuthorization)
  | importEntry (tenantId : Uuid) (entry : ManifestEntryInput)
  | decideManifest (actor : Actor) (entryId : Uuid) (command : ManifestApprovalCommand)
  | createRun (now : Instant) (tenantId : Uuid) (entryIds : List Uuid)
  | createRefreshRun (now : Instant) (tenantId sourceId : Uuid) (expectedVersion : Nat)
  | authorizeUpload (now : Instant) (tenantId : Uuid) (command : ManualUploadCommand)
  | completeUpload (now : Instant) (tenantId itemId : Uuid)
  | approveDocument (actor : Actor) (documentId : Uuid) (approved : Bool) (expectedVersion : Nat)
  | publishDocument (now : Instant) (actor : Actor) (documentId processingId : Uuid)
      (expectedVersion : Nat)
  | retireDocument (actor : Actor) (documentId : Uuid) (expectedVersion : Nat)
  | claimAcquisition (settings : WorkerSettings) (env : ClaimEnv)
  | acquisition (index : Nat) (event : AcquisitionEvent)
  /-- a call of an acquisition worker returns, raises or crashes -/
  | leaveAcquisition (index : Nat)
  | claimProcessing (settings : WorkerSettings) (env : ClaimEnv)
  | processing (index : Nat) (event : ProcessingEvent)
  /-- a call of a processing worker returns, raises or crashes -/
  | leaveProcessing (index : Nat)

/-- What is the same for all of a deployment. -/
structure Deployment where
  py : Runtime
  chunking : ChunkingConfig
  modelCode : String
  oracleEnabled : Bool

/-- What an event of an acquisition call leads to: its phase, the store, and what was
    acquired. -/
def acquisitionEvent (d : Deployment) (call : AcquisitionCall) (event : AcquisitionEvent)
    (store : Store) : Option (AcquisitionPhase × Store × List Acquired) :=
  match call.phase, event with
  | .claimed, .load now =>
      match loadAcquisition call.settings now call.claim store with
      | .ok work => some (.working work, store, [])
      | .error _ => none
  | .working work, .block now =>
      if work.permissionReasons call.settings ≠ [] then
        some (.done, blockItem now work store, [])
      else none
  | .working work, .skip now removed =>
      if work.permissionReasons call.settings = [] ∧ work.runType = .refresh then
        some (.cleaning work, skipRemote now work removed store, [])
      else none
  | .working work, .complete now content =>
      if work.permissionReasons call.settings = [] ∧
          (present work.manifest.expectedSha256 →
            work.manifest.expectedSha256 = some content.checksum) then
        match (completeAcquisition d.py now work content).run store with
        | .ok ((documentId, versionId), store') =>
            some (.cleaning work, store', [⟨work.manifest, documentId, versionId⟩])
        | .error _ => none
      else none
  | .working work, .fail now code final =>
      some (.done, acquisitionFailed call.settings now work code final store, [])
  | .cleaning work, .fail now code final =>
      some (.done, acquisitionFailed call.settings now work code final store, [])
  | _, _ => none

/-- What an event of a processing call leads to. -/
def processingEvent (d : Deployment) (call : ProcessingCall) (event : ProcessingEvent)
    (store : Store) : Option (ProcessingPhase × Store) :=
  match call.phase, event with
  | .claimed, .load now =>
      match loadProcessing call.settings now call.claim store with
      | .ok work => some (.working work none, store)
      | .error _ => none
  | .working work none, .start now parser model =>
      if work.permissionReasons call.settings = [] then
        match (startProcessing now model (processingKey d.py d.chunking parser d.modelCode)
            work).run store with
        | .ok (processing, store') => some (.working work (some processing), store')
        | .error _ => none
      else none
  | .working work (some (_, true)), .replay => some (.done, markReplayed work store)
  | .working work (some (processingId, false)), .persist now parsed context =>
      let chunks := chunk d.py d.chunking work.documentTitle parsed
      if parsed.normalizedText ≠ "" ∧ chunks ≠ [] then
        let validation := validateCorpus parsed chunks { context with embeddedCount := chunks.length }
        match (persist d.py now d.modelCode work processingId chunks validation.status).run store with
        | .ok (_, store') => some (.done, store')
        | .error _ => none
      else none
  | .working work processing, .fail now code final =>
      some (.done, processingFailed call.settings now work (processing.map (·.1)) code final store)
  | _, _ => none

/-- The command of an action that is no worker's. -/
def command (d : Deployment) (action : Action) (store : Store) : Option Store :=
  match action with
  | .govern sources authorizations =>
      some { store with sources := sources, authorizations := authorizations }
  | .importEntry tenantId entry => importEntry tenantId entry store
  | .decideManifest actor entryId command =>
      decideManifest d.oracleEnabled actor entryId command store
  | .createRun now tenantId entryIds =>
      createAcquisitionRun d.oracleEnabled now tenantId entryIds store
  | .createRefreshRun now tenantId sourceId expectedVersion =>
      createRefreshRun d.oracleEnabled now tenantId sourceId expectedVersion store
  | .authorizeUpload now tenantId command =>
      authorizeManualUpload d.oracleEnabled now tenantId command store
  | .completeUpload now tenantId itemId => some (completeUpload now tenantId itemId store)
  | .approveDocument actor documentId approved expectedVersion =>
      approveDocument actor documentId approved expectedVersion store
  | .publishDocument now actor documentId processingId expectedVersion =>
      publishDocument d.oracleEnabled now actor documentId processingId expectedVersion store
  | .retireDocument actor documentId expectedVersion =>
      retireDocument actor documentId expectedVersion store
  | _ => none

/-- **One step.** -/
def World.next (d : Deployment) (world : World) (action : Action) : Option World :=
  match action with
  | .claimAcquisition settings env =>
      (claimAcquisitionItem settings env world.store).map fun (claim, store) =>
        { world with
          store
          acquisitions := world.acquisitions ++ [⟨settings, claim, .claimed⟩] }
  | .acquisition index event => do
      let call ← world.acquisitions[index]?
      let (phase, store, acquired) ← acquisitionEvent d call event world.store
      return { world with
        store
        acquisitions := world.acquisitions.set index { call with phase }
        acquired := world.acquired ++ acquired }
  | .leaveAcquisition index =>
      some { world with acquisitions := world.acquisitions.eraseIdx index }
  | .claimProcessing settings env =>
      (claimProcessingItem settings env world.store).map fun (claim, store) =>
        { world with
          store
          processings := world.processings ++ [⟨settings, claim, .claimed⟩] }
  | .processing index event => do
      let call ← world.processings[index]?
      let (phase, store) ← processingEvent d call event world.store
      return { world with store, processings := world.processings.set index { call with phase } }
  | .leaveProcessing index =>
      some { world with processings := world.processings.eraseIdx index }
  | action => (command d action world.store).map fun store => { world with store }

/-- The step relation of a deployment. -/
def WorldStep (d : Deployment) (world : World) (action : Action) (world' : World) : Prop :=
  world.next d action = some world'

/-! ## 3. What a step can do -/

variable {d : Deployment}

/-- What a command has done. -/
inductive Commanded (store : Store) : Store → Prop where
  | governed {sources : List Source} {authorizations : List SourceAuthorization} :
      Commanded store { store with sources := sources, authorizations := authorizations }
  | imported {tenantId : Option Uuid} {sourceId : Uuid} {manifestKey : String}
      {write : ManifestEntry → ManifestEntry} :
      Commanded store (upsertManifest store tenantId sourceId manifestKey write)
  | decided {change : ManifestEntry → ManifestEntry} :
      Commanded store { store with manifests := store.manifests.map change }
  | created {now : Instant} {tenantId : Uuid} {entries : List (ManifestEntry × Nat)}
      {runType : RunType} {sources : List Source} :
      Commanded store (createRun now tenantId entries false runType { store with sources := sources })
  | authorized {now : Instant} {tenantId : Uuid} {entries : List (ManifestEntry × Nat)}
      {owner : Option Uuid} {sourceId : Uuid} {manifestKey : String}
      {write : ManifestEntry → ManifestEntry} :
      Commanded store (createRun now tenantId entries true .acquisition
        (upsertManifest store owner sourceId manifestKey write))
  | uploaded {now : Instant} {tenantId itemId : Uuid} :
      Commanded store (completeUpload now tenantId itemId store)
  | approved {documentId : Uuid} {status : DocumentApproval} :
      Commanded store (store.updateDocument documentId fun d =>
        { d with approvalStatus := status, rowVersion := d.rowVersion + 1 })
  | published {tenantId versionId processingId : Uuid} {document : Document} :
      Commanded store (publishVersion tenantId document versionId processingId store)
  | superseded {documentId versionId : Uuid} :
      Commanded store
        { store with versions := store.versions.map (supersededVersion documentId versionId) }
  | retired {documentId versionId : Uuid} :
      Commanded store ((store.updateDocument documentId fun d =>
        { d with approvalStatus := .retired, activeFlag := false, rowVersion := d.rowVersion + 1 }
        ).updateVersion versionId fun v => { v with currentVersionFlag := false })

theorem publishDocument_commanded {oracleEnabled : Bool} {now : Instant} {actor : Actor}
    {documentId processingId : Uuid} {expectedVersion : Nat} {store store' : Store}
    (h : publishDocument oracleEnabled now actor documentId processingId expectedVersion store =
      some store') : Commanded store store' := by
  simp only [publishDocument, Option.bind_eq_bind, Option.bind_eq_some_iff] at h
  obtain ⟨document, _, h⟩ := h
  split at h
  · cases h
  · simp only [Option.bind_eq_some_iff] at h
    obtain ⟨candidate, _, source, _, h⟩ := h
    split at h
    · cases h
    · simp only [Option.bind_eq_some_iff] at h
      obtain ⟨version, _, h⟩ := h
      split at h
      · cases h
        exact .published
      · split at h
        · cases h
          exact .superseded
        · cases h

/-- **What the command of an action can do.** -/
theorem command_commanded {action : Action} {store store' : Store}
    (h : command d action store = some store') : Commanded store store' := by
  unfold command at h
  split at h
  · cases h
    exact .governed
  · simp only [importEntry, Option.bind_eq_bind, Option.bind_eq_some_iff] at h
    obtain ⟨source, _, h⟩ := h
    split at h
    · cases h
    · cases h
      exact .imported
  · simp only [decideManifest, Option.bind_eq_bind, Option.bind_eq_some_iff] at h
    obtain ⟨entry, _, source, _, h⟩ := h
    split at h
    · cases h
    · split at h
      · cases h
      · split at h
        · cases h
        · cases h
          exact .decided
  · simp only [createAcquisitionRun, Option.bind_eq_bind, Option.bind_eq_some_iff,
      Option.pure_def, Option.some.injEq] at h
    obtain ⟨entries, _, items, _, rfl⟩ := h
    exact .created
  · simp only [createRefreshRun, Option.bind_eq_bind, Option.bind_eq_some_iff] at h
    obtain ⟨source, _, h⟩ := h
    split at h
    · cases h
    · split at h
      · cases h
      · simp only [Option.bind_eq_some_iff, Option.pure_def, Option.some.injEq] at h
        obtain ⟨items, _, rfl⟩ := h
        exact .created
  · simp only [authorizeManualUpload, Option.bind_eq_bind, Option.bind_eq_some_iff] at h
    obtain ⟨source, _, h⟩ := h
    split at h
    · cases h
    · split at h
      · cases h
      · simp only [Option.bind_eq_some_iff, Option.pure_def, Option.some.injEq] at h
        obtain ⟨entry, _, rfl⟩ := h
        exact .authorized
  · cases h
    exact .uploaded
  · simp only [approveDocument, Option.bind_eq_bind, Option.bind_eq_some_iff] at h
    obtain ⟨document, _, source, _, h⟩ := h
    split at h
    · cases h
    · split at h
      · cases h
      · cases h
        exact .approved
  · exact publishDocument_commanded h
  · simp only [retireDocument, Option.bind_eq_bind, Option.bind_eq_some_iff] at h
    obtain ⟨document, _, current, _, h⟩ := h
    split at h
    · cases h
    · cases h
      exact .retired
  · cases h

/-- What an event of an acquisition call has done. -/
inductive AcquisitionStep (d : Deployment) (call : AcquisitionCall) (store : Store) :
    AcquisitionEvent → AcquisitionPhase → Store → List Acquired → Prop where
  | load {now : Instant} {work : AcquisitionWork} (hphase : call.phase = .claimed)
      (hload : loadAcquisition call.settings now call.claim store = .ok work) :
      AcquisitionStep d call store (.load now) (.working work) store []
  | block {now : Instant} {work : AcquisitionWork} (hphase : call.phase = .working work)
      (hreasons : work.permissionReasons call.settings ≠ []) :
      AcquisitionStep d call store (.block now) .done (blockItem now work store) []
  | skip {now : Instant} {work : AcquisitionWork} {removed : Bool}
      (hphase : call.phase = .working work) (hreasons : work.permissionReasons call.settings = [])
      (hrefresh : work.runType = .refresh) :
      AcquisitionStep d call store (.skip now removed) (.cleaning work)
        (skipRemote now work removed store) []
  | complete {now : Instant} {work : AcquisitionWork} {content : Content} {store' : Store}
      {documentId : Uuid} {versionId : Option Uuid} (hphase : call.phase = .working work)
      (hreasons : work.permissionReasons call.settings = [])
      (hcomplete : (completeAcquisition d.py now work content).run store =
        .ok ((documentId, versionId), store')) :
      AcquisitionStep d call store (.complete now content) (.cleaning work) store'
        [⟨work.manifest, documentId, versionId⟩]
  | fail {now : Instant} {work : AcquisitionWork} {code : String} {final : Bool}
      (hphase : call.phase = .working work ∨ call.phase = .cleaning work) :
      AcquisitionStep d call store (.fail now code final) .done
        (acquisitionFailed call.settings now work code final store) []

theorem acquisitionEvent_step {call : AcquisitionCall} {event : AcquisitionEvent} {store store' : Store}
    {phase : AcquisitionPhase} {acquired : List Acquired}
    (h : acquisitionEvent d call event store = some (phase, store', acquired)) :
    AcquisitionStep d call store event phase store' acquired := by
  unfold acquisitionEvent at h
  split at h
  · next now hphase =>
      split at h
      · next work hload =>
          cases h
          exact .load hphase hload
      · cases h
  · next work now hphase =>
      by_cases hreasons : work.permissionReasons call.settings ≠ []
      · rw [if_pos hreasons] at h
        cases h
        exact .block hphase hreasons
      · rw [if_neg hreasons] at h
        cases h
  · next work now removed hphase =>
      by_cases hguard : work.permissionReasons call.settings = [] ∧ work.runType = .refresh
      · rw [if_pos hguard] at h
        cases h
        exact .skip hphase hguard.1 hguard.2
      · rw [if_neg hguard] at h
        cases h
  · next work now content hphase =>
      by_cases hguard : work.permissionReasons call.settings = [] ∧
          (present work.manifest.expectedSha256 →
            work.manifest.expectedSha256 = some content.checksum)
      · rw [if_pos hguard] at h
        split at h
        · next documentId versionId mid hcomplete =>
            cases h
            exact .complete hphase hguard.1 hcomplete
        · cases h
      · rw [if_neg hguard] at h
        cases h
  · next work now code final hphase =>
      cases h
      exact .fail (Or.inl hphase)
  · next work now code final hphase =>
      cases h
      exact .fail (Or.inr hphase)
  · cases h

/-- What an event of a processing call has done. -/
inductive ProcessingStep (d : Deployment) (call : ProcessingCall) (store : Store) :
    ProcessingEvent → ProcessingPhase → Store → Prop where
  | load {now : Instant} {work : ProcessingWork} (hphase : call.phase = .claimed)
      (hload : loadProcessing call.settings now call.claim store = .ok work) :
      ProcessingStep d call store (.load now) (.working work none) store
  | start {now : Instant} {work : ProcessingWork} {parser : Parser} {model : EmbeddingModel}
      {processing : Uuid × Bool} {store' : Store} (hphase : call.phase = .working work none)
      (hstart : (startProcessing now model (processingKey d.py d.chunking parser d.modelCode)
        work).run store = .ok (processing, store')) :
      ProcessingStep d call store (.start now parser model) (.working work (some processing)) store'
  | replay {work : ProcessingWork} {processingId : Uuid}
      (hphase : call.phase = .working work (some (processingId, true))) :
      ProcessingStep d call store .replay .done (markReplayed work store)
  | persist {now : Instant} {work : ProcessingWork} {processingId : Uuid} {parsed : ParsedDocument}
      {context : ValidationContext} {status : ValidationStatus} {u : Unit} {store' : Store}
      (hphase : call.phase = .working work (some (processingId, false)))
      (hpersist : (persist d.py now d.modelCode work processingId
        (chunk d.py d.chunking work.documentTitle parsed) status).run store = .ok (u, store')) :
      ProcessingStep d call store (.persist now parsed context) .done store'
  | fail {now : Instant} {work : ProcessingWork} {processing : Option (Uuid × Bool)} {code : String}
      {final : Bool} (hphase : call.phase = .working work processing) :
      ProcessingStep d call store (.fail now code final) .done
        (processingFailed call.settings now work (processing.map (·.1)) code final store)

theorem processingEvent_step {call : ProcessingCall} {event : ProcessingEvent} {store store' : Store}
    {phase : ProcessingPhase} (h : processingEvent d call event store = some (phase, store')) :
    ProcessingStep d call store event phase store' := by
  unfold processingEvent at h
  split at h
  · next now hphase =>
      split at h
      · next work hload =>
          cases h
          exact .load hphase hload
      · cases h
  · next work now parser model hphase =>
      by_cases hreasons : work.permissionReasons call.settings = []
      · rw [if_pos hreasons] at h
        split at h
        · next processing mid hstart =>
            cases h
            exact .start hphase hstart
        · cases h
      · rw [if_neg hreasons] at h
        cases h
  · next work processingId hphase =>
      cases h
      exact .replay hphase
  · next work processingId now parsed context hphase =>
      dsimp only at h
      by_cases hguard : parsed.normalizedText ≠ "" ∧
          chunk d.py d.chunking work.documentTitle parsed ≠ []
      · rw [if_pos hguard] at h
        split at h
        · next u mid hpersist =>
            cases h
            exact .persist hphase hpersist
        · cases h
      · rw [if_neg hguard] at h
        cases h
  · next work processing now code final hphase =>
      cases h
      exact .fail hphase
  · cases h

/-- **What a step has done.** -/
inductive World.Stepped (d : Deployment) (world : World) : Action → World → Prop where
  | command {action : Action} {store' : Store} (h : command d action world.store = some store') :
      world.Stepped d action { world with store := store' }
  | claimAcquisition {settings : WorkerSettings} {env : ClaimEnv} {item : RunItem}
      (h : acquisitionCandidate env world.store = some item) :
      world.Stepped d (.claimAcquisition settings env)
        { world with
          store := world.store.updateItem item.itemId item.tenantId (fun _ => true)
            (acquisitionClaimed env.now settings.workerId)
          acquisitions :=
            world.acquisitions ++ [⟨settings, ⟨item.itemId, item.tenantId⟩, .claimed⟩] }
  | acquisition {index : Nat} {event : AcquisitionEvent} {call : AcquisitionCall}
      {phase : AcquisitionPhase} {store' : Store} {acquired : List Acquired}
      (hcall : world.acquisitions[index]? = some call)
      (h : AcquisitionStep d call world.store event phase store' acquired) :
      world.Stepped d (.acquisition index event)
        { world with
          store := store'
          acquisitions := world.acquisitions.set index { call with phase }
          acquired := world.acquired ++ acquired }
  | leaveAcquisition {index : Nat} :
      world.Stepped d (.leaveAcquisition index)
        { world with acquisitions := world.acquisitions.eraseIdx index }
  | claimProcessing {settings : WorkerSettings} {env : ClaimEnv} {item : RunItem}
      (h : processingCandidate env world.store = some item) :
      world.Stepped d (.claimProcessing settings env)
        { world with
          store := world.store.updateItem item.itemId item.tenantId (fun _ => true)
            (processingClaimed env.now settings.workerId)
          processings :=
            world.processings ++ [⟨settings, ⟨item.itemId, item.tenantId⟩, .claimed⟩] }
  | processing {index : Nat} {event : ProcessingEvent} {call : ProcessingCall}
      {phase : ProcessingPhase} {store' : Store} (hcall : world.processings[index]? = some call)
      (h : ProcessingStep d call world.store event phase store') :
      world.Stepped d (.processing index event)
        { world with
          store := store'
          processings := world.processings.set index { call with phase } }
  | leaveProcessing {index : Nat} :
      world.Stepped d (.leaveProcessing index)
        { world with processings := world.processings.eraseIdx index }

theorem WorldStep.stepped {world world' : World} {action : Action} (h : WorldStep d world action world') :
    world.Stepped d action world' := by
  unfold WorldStep World.next at h
  split at h
  · next settings env =>
      unfold claimAcquisitionItem at h
      rw [Option.map_map, Option.map_eq_some_iff] at h
      obtain ⟨item, hitem, rfl⟩ := h
      exact .claimAcquisition hitem
  · next index event =>
      simp only [Option.bind_eq_bind, Option.bind_eq_some_iff, Option.pure_def,
        Option.some.injEq] at h
      obtain ⟨call, hcall, ⟨phase, store', acquired⟩, hevent, rfl⟩ := h
      exact .acquisition hcall (acquisitionEvent_step hevent)
  · cases h
    exact .leaveAcquisition
  · next settings env =>
      unfold claimProcessingItem at h
      rw [Option.map_map, Option.map_eq_some_iff] at h
      obtain ⟨item, hitem, rfl⟩ := h
      exact .claimProcessing hitem
  · next index event =>
      simp only [Option.bind_eq_bind, Option.bind_eq_some_iff, Option.pure_def,
        Option.some.injEq] at h
      obtain ⟨call, hcall, ⟨phase, store'⟩, hevent, rfl⟩ := h
      exact .processing hcall (processingEvent_step hevent)
  · cases h
    exact .leaveProcessing
  · rw [Option.map_eq_some_iff] at h
    obtain ⟨store', hcommand, rfl⟩ := h
    exact .command hcommand

end Helpdesk.Knowledge
