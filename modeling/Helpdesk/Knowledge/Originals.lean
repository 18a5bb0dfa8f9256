/-
  File:      Helpdesk/Knowledge/Originals.lean
  Subject:   The objects behind acquired documents
             (apps/worker/worker/acquisition_worker.py).

  The worker reads, checks and scans the bytes of its quarantine key, then copies the
  object of that key to where the new version is stored. The key is one that somebody
  may hold an upload URL for.

  * `Originals`: what each call has in its hands, beside the steps of `World`;
  * `Store.Files`: no other step renames a file;
  * `Originals.Sound`: the invariant, the object of every version is what was checked
    and scanned;
  * `originals_sound`: every step whose copy takes what its call has scanned keeps it.
-/
import Helpdesk.Attachments.Release
import Helpdesk.Knowledge.Reverts

namespace Helpdesk.Knowledge

open Helpdesk.Python Helpdesk.Attachments

/-! ## 1. Calls with their content -/

/-- What a call has read or fetched, and whether its scan came back clean. -/
structure Holding where
  content : Bytes
  clean : Bool
  deriving DecidableEq, Repr

structure Originals where
  world : World
  /-- in the order of the calls -/
  holdings : List (Option Holding)

inductive OriginalAction where
  /-- every step but the one that completes an acquisition -/
  | world (action : Action)
  /-- a PUT of the holder of an item's upload URL -/
  | upload (itemId : Uuid) (content : Bytes)
  | fetch (index : Nat) (content : Bytes)
  | read (index : Nat)
  | scanClean (index : Nat)
  | complete (index : Nat) (now : Instant) (detectedType : String)
  /-- the copy of `_complete`, whose transaction is rolled back -/
  | copy (index : Nat) (now : Instant) (detectedType : String)
  /-- `reject` of the quarantine key -/
  | discard (index : Nat)

/-- The work of a call that may go on with its document. -/
def World.working (world : World) (index : Nat) : Option AcquisitionWork :=
  match world.acquisitions[index]? with
  | some ⟨settings, _, .working work⟩ =>
      if work.permissionReasons settings = [] then some work else none
  | _ => none

def Originals.holding (o : Originals) (index : Nat) : Option Holding := (o.holdings[index]?).join

/-- The `original_key` of `_complete`, unless the content is known. -/
def originalKey (py : Runtime) (now : Instant) (work : AcquisitionWork) (content : Content)
    (store : Store) : Option String :=
  match store.documentOf work.source.sourceId work.manifest.manifestKey with
  | some document =>
      if (store.versionsOf document.documentId).any fun v => v.sha256Checksum = content.checksum then
        none
      else some (newVersion py work content document.documentId []).originalFileUri
  | none => some (newVersion py work content (newDocument py now work).documentId []).originalFileUri

/-- New content is copied to its key; content that is known is rejected. -/
def completedBucket (quarantineKey : String) (key : Option String) (bucket : Bucket String Bytes) :
    Option (Bucket String Bytes) :=
  match key with
  | some key => bucket.copy quarantineKey key
  | none => some (bucket.delete quarantineKey)

/-- The transaction of `_complete` is a step of its own. -/
def Action.completes : Action → Bool
  | .acquisition _ (.complete _ _) => true
  | _ => false

/-- What the calls hold after a step of the world. -/
def heldAfter (action : Action) (holdings : List (Option Holding)) : List (Option Holding) :=
  match action with
  | .claimAcquisition _ _ => holdings ++ [none]
  | .leaveAcquisition index => holdings.eraseIdx index
  | _ => holdings

/-- An upload URL is issued for the item of a manual upload. -/
def Store.uploadKey (store : Store) (itemId : Uuid) : Option String := do
  let item ← store.items.find? fun item => item.itemId = itemId
  if store.manifests.any fun m => m.manifestEntryId = item.manifestEntryId &&
      m.acquisitionMethod = .manualUpload then some item.quarantineObjectKey
  else none

/-- **One step.** -/
def Originals.next (sha256 : Bytes → String) (d : Deployment) (storage : Storage) (o : Originals) :
    OriginalAction → Option (Storage × Originals)
  | .world action =>
      if action.completes then none
      else do
        let world ← o.world.next d action
        return (storage, ⟨world, heldAfter action o.holdings⟩)
  | .upload itemId content => do
      let key ← o.world.store.uploadKey itemId
      return ({ storage with bucket := storage.bucket.put key content }, o)
  | .fetch index content => do
      let work ← o.world.working index
      if work.manifest.acquisitionMethod = .manualUpload then none
      else some ({ storage with bucket := storage.bucket.put work.quarantineKey content },
        { o with holdings := o.holdings.set index (some ⟨content, false⟩) })
  | .read index => do
      let work ← o.world.working index
      let content ← storage.bucket work.quarantineKey
      if work.manifest.acquisitionMethod = .manualUpload then
        some (storage, { o with holdings := o.holdings.set index (some ⟨content, false⟩) })
      else none
  | .scanClean index => do
      let holding ← o.holding index
      return ({ storage with scanned := storage.scanned ++ [holding.content] },
        { o with holdings := o.holdings.set index (some { holding with clean := true }) })
  | .complete index now detectedType => do
      let work ← o.world.working index
      let holding ← o.holding index
      let content : Content := ⟨sha256 holding.content, detectedType⟩
      if holding.clean then do
        let world ← o.world.next d (.acquisition index (.complete now content))
        let bucket ← completedBucket work.quarantineKey (originalKey d.py now work content
          o.world.store) storage.bucket
        return ({ storage with bucket }, { o with world })
      else none
  | .copy index now detectedType => do
      let work ← o.world.working index
      let holding ← o.holding index
      let key ← originalKey d.py now work ⟨sha256 holding.content, detectedType⟩ o.world.store
      let bucket ← storage.bucket.copy work.quarantineKey key
      if holding.clean then some ({ storage with bucket }, o) else none
  | .discard index => do
      let call ← o.world.acquisitions[index]?
      let work ← call.phase.work
      return ({ storage with bucket := storage.bucket.delete work.quarantineKey }, o)

/-! ## 2. What other steps do to the names of files -/

variable {d : Deployment} {store store' : Store}

/-- Where a version is stored, and what its checksum is. -/
def DocumentVersion.file (version : DocumentVersion) : String × String :=
  (version.originalFileUri, version.sha256Checksum)

/-- Items and versions keep their files; the keys of new items are quarantined. -/
structure Store.Files (store store' : Store) : Prop where
  items : ∃ new, (∀ key ∈ new, Under "quarantine/" key) ∧
    store'.items.map (·.quarantineObjectKey) = store.items.map (·.quarantineObjectKey) ++ new
  versions : store'.versions.map (·.file) = store.versions.map (·.file)

theorem Store.Files.of_eq
    (hitems : store'.items.map (·.quarantineObjectKey) = store.items.map (·.quarantineObjectKey))
    (hversions : store'.versions.map (·.file) = store.versions.map (·.file)) :
    store.Files store' :=
  ⟨⟨[], by simp, by rw [hitems, List.append_nil]⟩, hversions⟩

theorem updateItem_keys {itemId tenantId : Uuid} {selected : RunItem → Bool}
    {change : RunItem → RunItem}
    (hchange : ∀ item, (change item).quarantineObjectKey = item.quarantineObjectKey) :
    (store.updateItem itemId tenantId selected change).items.map (·.quarantineObjectKey) =
      store.items.map (·.quarantineObjectKey) := by
  refine map_update_column (fun item => ?_) store.items
  split
  · exact hchange item
  · rfl

theorem createRun_files {now : Instant} {tenantId : Uuid} {entries : List (ManifestEntry × Nat)}
    {awaitingUpload : Bool} {runType : RunType} :
    store.Files (createRun now tenantId entries awaitingUpload runType store) := by
  refine ⟨⟨_, ?_, List.map_append⟩, rfl⟩
  intro key hkey
  obtain ⟨item, hitem, rfl⟩ := List.mem_map.mp hkey
  obtain ⟨entry, _, rfl⟩ := List.mem_map.mp hitem
  unfold newItem
  iterate 5 refine Under.append ?_ _
  exact List.prefix_append "quarantine/".toList "knowledge/".toList

theorem upsertManifest_versions {tenantId : Option Uuid} {sourceId : Uuid} {manifestKey : String}
    {write : ManifestEntry → ManifestEntry} :
    (upsertManifest store tenantId sourceId manifestKey write).versions = store.versions := by
  unfold upsertManifest
  dsimp only
  split <;> rfl

theorem updateVersion_files {versionId : Uuid} {change : DocumentVersion → DocumentVersion}
    (hchange : ∀ v, (change v).file = v.file) :
    (store.updateVersion versionId change).versions.map (·.file) = store.versions.map (·.file) := by
  refine map_update_column (fun v => ?_) store.versions
  split
  · exact hchange v
  · rfl

theorem supersededVersion_file {documentId versionId : Uuid} (v : DocumentVersion) :
    (supersededVersion documentId versionId v).file = v.file := by
  unfold supersededVersion
  split <;> rfl

theorem publishedVersion_file {documentId versionId processingId : Uuid} (v : DocumentVersion) :
    (publishedVersion documentId versionId processingId v).file = v.file := by
  unfold publishedVersion
  split
  · rfl
  · exact supersededVersion_file v

theorem publishedItem_key {versionId tenantId : Uuid} (item : RunItem) :
    (publishedItem versionId tenantId item).quarantineObjectKey = item.quarantineObjectKey := by
  unfold publishedItem
  split <;> rfl

theorem command_files {action : Action} (h : command d action store = some store') :
    store.Files store' := by
  cases command_commanded h with
  | governed | decided | approved => exact .of_eq rfl rfl
  | imported =>
      refine .of_eq ?_ ?_
      · rw [upsertManifest_items]
      · rw [upsertManifest_versions]
  | created =>
      obtain ⟨hitems, hversions⟩ := createRun_files
      exact ⟨hitems, hversions⟩
  | authorized =>
      obtain ⟨hitems, hversions⟩ := createRun_files
      rw [upsertManifest_items] at hitems
      rw [upsertManifest_versions] at hversions
      exact ⟨hitems, hversions⟩
  | uploaded => exact .of_eq (updateItem_keys fun _ => rfl) rfl
  | published =>
      exact .of_eq (map_update_column publishedItem_key _) (map_update_column publishedVersion_file _)
  | superseded => exact .of_eq rfl (map_update_column supersededVersion_file _)
  | retired => exact .of_eq rfl (updateVersion_files fun _ => rfl)

/-- The item of an attempt is written, and its run. -/
theorem finalized_files {now : Instant} {work : AcquisitionWork} {selected : RunItem → Bool}
    {change : RunItem → RunItem}
    (hchange : ∀ item, (change item).quarantineObjectKey = item.quarantineObjectKey) :
    store.Files (finalizeRun now work (store.updateItem work.itemId work.tenantId selected change)) := by
  refine .of_eq ?_ ?_
  · rw [finalizeRun_items]
    exact updateItem_keys hchange
  · rw [finalizeRun_versions]
    rfl

theorem acquisition_files {call : AcquisitionCall} {event : AcquisitionEvent}
    {phase : AcquisitionPhase} {acquired : List Acquired}
    (h : AcquisitionStep d call store event phase store' acquired)
    (hevent : ∀ now content, event ≠ .complete now content) : store.Files store' := by
  cases h with
  | load => exact .of_eq rfl rfl
  | block => exact finalized_files fun _ => rfl
  | skip => exact finalized_files fun _ => rfl
  | fail => exact finalized_files fun _ => rfl
  | @complete now work content => exact absurd rfl (hevent now content)

theorem processing_files {call : ProcessingCall} {event : ProcessingEvent} {phase : ProcessingPhase}
    (h : ProcessingStep d call store event phase store') : store.Files store' := by
  cases h with
  | load => exact .of_eq rfl rfl
  | replay => exact .of_eq (updateItem_keys fun _ => rfl) rfl
  | start hphase hstart => cases startProcessing_started hstart <;> exact .of_eq rfl rfl
  | persist hphase hpersist =>
      obtain ⟨embeddings, rfl⟩ := persist_eq_ok hpersist
      exact .of_eq (updateItem_keys fun _ => rfl) (updateVersion_files fun _ => rfl)
  | @fail now work processing code final hphase =>
      refine .of_eq ?_ ?_
      · rw [processingFailed_items]
        exact updateItem_keys fun _ => rfl
      · unfold processingFailed
        dsimp only
        cases processing with
        | none =>
            split
            · exact updateVersion_files fun _ => rfl
            · rfl
        | some processing =>
            split
            · exact updateVersion_files fun _ => rfl
            · rfl

/-- **No step but a completion touches files.** -/
theorem step_files {world world' : World} {action : Action} (hstep : WorldStep d world action world')
    (hcompletes : action.completes = false) : world.store.Files world'.store := by
  cases hstep.stepped with
  | command hcommand => exact command_files hcommand
  | claimAcquisition | claimProcessing => exact .of_eq (updateItem_keys fun _ => rfl) rfl
  | leaveAcquisition | leaveProcessing => exact .of_eq rfl rfl
  | acquisition hcall hevent =>
      refine acquisition_files hevent ?_
      rintro now content rfl
      cases hcompletes
  | processing hcall hevent => exact processing_files hevent

theorem completeAcquisition_known {py : Runtime} {now : Instant} {work : AcquisitionWork}
    {content : Content} {documentId : Uuid}
    (h : (completeAcquisition py now work content).run store = .ok ((documentId, none), store')) :
    originalKey py now work content store = none := by
  unfold completeAcquisition at h
  rw [Transaction.get_bind] at h
  dsimp only at h
  split at h
  · next document hdocument =>
      unfold originalKey
      simp only [hdocument]
      split at h
      · next hknown => exact if_pos hknown
      · obtain ⟨version, _, _, hresult, _⟩ := storeVersion_eq_ok h
        cases hresult
  · rw [Transaction.bind_eq_ok] at h
    obtain ⟨_, mid, _, h⟩ := h
    obtain ⟨version, _, _, hresult, _⟩ := storeVersion_eq_ok h
    cases hresult

/-- **What a completion does to them**: nothing, or a version at the key of its copy. -/
theorem completeAcquisition_files {py : Runtime} {now : Instant} {work : AcquisitionWork}
    {content : Content} {result : Uuid × Option Uuid}
    (h : (completeAcquisition py now work content).run store = .ok (result, store')) :
    store'.items.map (·.quarantineObjectKey) = store.items.map (·.quarantineObjectKey) ∧
      store'.versions.map (·.file) = store.versions.map (·.file) ++
        ((originalKey py now work content store).map fun key => (key, content.checksum)).toList := by
  have hfinish : ∀ (acquired : Bool) (documentId : Uuid) (versionId : Option Uuid) (mid : Store),
      (finalizeRun now work (finishItem now work acquired content.checksum documentId versionId
        (classification work content) mid)).items.map (·.quarantineObjectKey) =
          mid.items.map (·.quarantineObjectKey) := by
    intro acquired documentId versionId mid
    rw [finalizeRun_items]
    exact updateItem_keys fun _ => rfl
  cases completeAcquisition_completed h with
  | known =>
      refine ⟨hfinish _ _ _ _, ?_⟩
      rw [finalizeRun_versions, completeAcquisition_known h]
      exact (List.append_nil _).symm
  | stored hdocument hnew hversion =>
      refine ⟨hfinish _ _ _ _, ?_⟩
      rw [finalizeRun_versions, originalKey, hdocument]
      dsimp only
      rw [if_neg (by simpa using hnew), hversion]
      exact List.map_append
  | created hdocument hnone hunused hversion =>
      refine ⟨hfinish _ _ _ _, ?_⟩
      rw [finalizeRun_versions, originalKey, hnone, hversion, hdocument]
      exact List.map_append

/-! ## 3. The invariant -/

variable {sha256 : Bytes → String} {storage storage' : Storage} {o o' : Originals}

/-- What was checked and scanned is where the file is. -/
def Kept (sha256 : Bytes → String) (storage : Storage) (file : String × String) : Prop :=
  storage.bucket.Holds file.1 fun content => sha256 content = file.2 ∧ content ∈ storage.scanned

structure Originals.Sound (sha256 : Bytes → String) (storage : Storage) (o : Originals) : Prop where
  items : ∀ key ∈ o.world.store.items.map (·.quarantineObjectKey), Under "quarantine/" key
  works : ∀ call ∈ o.world.acquisitions, ∀ work, call.phase.work = some work →
    Under "quarantine/" work.quarantineKey
  holdings : ∀ holding, some holding ∈ o.holdings → holding.clean → holding.content ∈ storage.scanned
  versions : ∀ file ∈ o.world.store.versions.map (·.file),
    Under "knowledge/" file.1 ∧ Kept sha256 storage file

/-- **A copy takes what its call has scanned**, to a key that no other content is stored at. -/
def UnalteredOriginal (sha256 : Bytes → String) (d : Deployment) (storage : Storage) (o : Originals)
    (index : Nat) (now : Instant) (detectedType : String) : Prop :=
  ∀ work ∈ o.world.working index, ∀ holding ∈ o.holding index,
    ∀ key ∈ originalKey d.py now work ⟨sha256 holding.content, detectedType⟩ o.world.store,
      storage.bucket work.quarantineKey = some holding.content ∧
        ∀ file ∈ o.world.store.versions.map (·.file), file.1 = key → file.2 = sha256 holding.content

def Originals.Unaltered (sha256 : Bytes → String) (d : Deployment) (storage : Storage)
    (o : Originals) : OriginalAction → Prop
  | .complete index now detectedType | .copy index now detectedType =>
      UnalteredOriginal sha256 d storage o index now detectedType
  | _ => True

instance (index : Nat) (now : Instant) (detectedType : String) :
    Decidable (UnalteredOriginal sha256 d storage o index now detectedType) := by
  unfold UnalteredOriginal
  infer_instance

instance (action : OriginalAction) : Decidable (o.Unaltered sha256 d storage action) := by
  unfold Originals.Unaltered
  split <;> infer_instance

theorem Kept.mono {file : String × String} (h : Kept sha256 storage file)
    (hscanned : storage.scanned ⊆ storage'.scanned) (hkey : Under "knowledge/" file.1)
    (hsame : Bucket.SameOn (Under "knowledge/") storage.bucket storage'.bucket) :
    Kept sha256 storage' file :=
  (hsame.holds hkey h).mono fun _ hcontent => ⟨hcontent.1, hscanned hcontent.2⟩

/-- Objects outside of `knowledge/` do not matter. -/
theorem Originals.Sound.sameOn (h : o.Sound sha256 storage)
    (hscanned : storage.scanned ⊆ storage'.scanned)
    (hsame : Bucket.SameOn (Under "knowledge/") storage.bucket storage'.bucket) :
    o.Sound sha256 storage' where
  items := h.items
  works := h.works
  holdings holding hmem hclean := hscanned (h.holdings holding hmem hclean)
  versions file hfile := ⟨(h.versions file hfile).1,
    (h.versions file hfile).2.mono hscanned (h.versions file hfile).1 hsame⟩

theorem quarantined_not_original {key : String} (h : Under "quarantine/" key) :
    ¬ Under "knowledge/" key := h.not_under (by decide)

theorem originalKey_under {py : Runtime} {now : Instant} {work : AcquisitionWork} {content : Content}
    {key : String} (h : originalKey py now work content store = some key) : Under "knowledge/" key := by
  have hnew : ∀ documentId : Uuid,
      Under "knowledge/" (newVersion py work content documentId []).originalFileUri := by
    intro documentId
    unfold newVersion
    dsimp only
    iterate 9 refine Under.append ?_ _
    exact Under.self _
  unfold originalKey at h
  split at h
  · split at h
    · cases h
    · obtain rfl := Option.some.inj h
      exact hnew _
  · obtain rfl := Option.some.inj h
    exact hnew _

/-! ## 4. Steps -/

theorem loadAcquisition_quarantineKey {settings : WorkerSettings} {now : Instant} {claim : Claim}
    {work : AcquisitionWork} (h : loadAcquisition settings now claim store = .ok work) :
    work.quarantineKey ∈ store.items.map (·.quarantineObjectKey) := by
  unfold loadAcquisition at h
  dsimp only at h
  split at h
  · next item hitem =>
      split at h
      · split at h
        · split at h
          · cases h
            exact List.mem_map_of_mem (List.mem_of_find?_eq_some hitem)
          · cases h
        · cases h
      · cases h
  · cases h

/-- The quarantine keys of the calls after a step. -/
theorem step_works {world world' : World} {action : Action} (hstep : WorldStep d world action world')
    (hitems : ∀ key ∈ world.store.items.map (·.quarantineObjectKey), Under "quarantine/" key)
    (hworks : ∀ call ∈ world.acquisitions, ∀ work, call.phase.work = some work →
      Under "quarantine/" work.quarantineKey) :
    ∀ call ∈ world'.acquisitions, ∀ work, call.phase.work = some work →
      Under "quarantine/" work.quarantineKey := by
  cases hstep.stepped with
  | command | claimProcessing | processing | leaveProcessing => exact hworks
  | claimAcquisition =>
      intro call hcall work hwork
      rcases List.mem_append.mp hcall with hold | hnew
      · exact hworks call hold work hwork
      · obtain rfl := List.mem_singleton.mp hnew
        cases hwork
  | leaveAcquisition => exact fun call hcall => hworks call (List.mem_of_mem_eraseIdx hcall)
  | @acquisition index event call phase _ acquired hcall hevent =>
      have hmem := List.mem_of_getElem? hcall
      intro other hother work hwork
      rcases List.mem_or_eq_of_mem_set hother with hold | rfl
      · exact hworks other hold work hwork
      · cases hevent with
        | load hphase hload =>
            obtain rfl := Option.some.inj hwork
            exact hitems _ (loadAcquisition_quarantineKey hload)
        | block | fail => cases hwork
        | skip hphase | complete hphase =>
            obtain rfl := Option.some.inj hwork
            exact hworks call hmem _ (by rw [hphase]; rfl)

theorem mem_heldAfter {action : Action} {holdings : List (Option Holding)} {holding : Holding}
    (h : some holding ∈ heldAfter action holdings) : some holding ∈ holdings := by
  unfold heldAfter at h
  split at h
  · rcases List.mem_append.mp h with hold | hnew
    · exact hold
    · cases List.mem_singleton.mp hnew
  · exact List.mem_of_mem_eraseIdx h
  · exact h

theorem working_eq_some {world : World} {index : Nat} {work : AcquisitionWork}
    (h : world.working index = some work) :
    ∃ call, world.acquisitions[index]? = some call ∧ call.phase = .working work := by
  unfold World.working at h
  split at h
  · next settings claim held hcall =>
      split at h
      · obtain rfl := Option.some.inj h
        exact ⟨_, hcall, rfl⟩
      · cases h
  · cases h

theorem Originals.Sound.working (h : o.Sound sha256 storage) {index : Nat} {work : AcquisitionWork}
    (hwork : o.world.working index = some work) : Under "quarantine/" work.quarantineKey := by
  obtain ⟨call, hcall, hphase⟩ := working_eq_some hwork
  exact h.works call (List.mem_of_getElem? hcall) work (by rw [hphase]; rfl)

theorem Originals.Sound.holding (h : o.Sound sha256 storage) {index : Nat} {holding : Holding}
    (hholding : o.holding index = some holding) (hclean : holding.clean) :
    holding.content ∈ storage.scanned := by
  refine h.holdings holding ?_ hclean
  unfold Originals.holding at hholding
  cases hget : o.holdings[index]? with
  | none =>
      rw [hget] at hholding
      cases hholding
  | some held =>
      rw [hget] at hholding
      have hheld : held = some holding := hholding
      exact hheld ▸ List.mem_of_getElem? hget

theorem uploadKey_mem {itemId : Uuid} {key : String} (h : store.uploadKey itemId = some key) :
    key ∈ store.items.map (·.quarantineObjectKey) := by
  simp only [Store.uploadKey, Option.bind_eq_bind, Option.bind_eq_some_iff] at h
  obtain ⟨item, hitem, h⟩ := h
  split at h
  · obtain rfl := Option.some.inj h
    exact List.mem_map_of_mem (List.mem_of_find?_eq_some hitem)
  · cases h

/-- A call has new content in its hands. -/
theorem Originals.Sound.hold (h : o.Sound sha256 storage) {index : Nat} {holding : Holding}
    (hclean : holding.clean → holding.content ∈ storage.scanned) :
    ({ o with holdings := o.holdings.set index (some holding) } : Originals).Sound sha256 storage where
  items := h.items
  works := h.works
  holdings other hother := by
    rcases List.mem_or_eq_of_mem_set hother with hold | heq
    · exact h.holdings other hold
    · obtain rfl := Option.some.inj heq
      exact hclean
  versions := h.versions

/-- The copy of content that was scanned spoils no file. -/
theorem Originals.Sound.copied (h : o.Sound sha256 storage) {content : Bytes} {key : String}
    (hscanned : content ∈ storage.scanned)
    (hkey : ∀ file ∈ o.world.store.versions.map (·.file), file.1 = key → file.2 = sha256 content) :
    o.Sound sha256 { storage with bucket := storage.bucket.put key content } where
  items := h.items
  works := h.works
  holdings := h.holdings
  versions file hfile := by
    obtain ⟨hunder, hkept⟩ := h.versions file hfile
    exact ⟨hunder, hkept.put fun heq => ⟨(hkey file hfile heq).symm, hscanned⟩⟩

/-- An object that is quarantined is put or deleted. -/
theorem Originals.Sound.quarantine (h : o.Sound sha256 storage) {key : String}
    (hkey : Under "quarantine/" key) {bucket : Bucket String Bytes}
    (hsame : ∀ S : String → Prop, ¬ S key → Bucket.SameOn S storage.bucket bucket) :
    o.Sound sha256 { storage with bucket } :=
  h.sameOn (List.Subset.refl _) (hsame _ (quarantined_not_original hkey))

/-- A step of the world but a completion. -/
theorem Originals.Sound.worldStep (h : o.Sound sha256 storage) {action : Action} {world : World}
    (hcompletes : action.completes = false) (hstep : WorldStep d o.world action world) :
    Originals.Sound sha256 storage ⟨world, heldAfter action o.holdings⟩ where
  items key hkey := by
    obtain ⟨new, hnew, hitems⟩ := (step_files hstep hcompletes).items
    rw [hitems] at hkey
    rcases List.mem_append.mp hkey with hold | hadded
    · exact h.items key hold
    · exact hnew key hadded
  works := step_works hstep h.items h.works
  holdings holding hmem := h.holdings holding (mem_heldAfter hmem)
  versions := by
    rw [(step_files hstep hcompletes).versions]
    exact h.versions

/-- A completion stores the version its copy is for. -/
theorem Originals.Sound.completed (h : o.Sound sha256 storage) {index : Nat} {now : Instant}
    {content : Content} {work : AcquisitionWork} {world : World}
    (hwork : o.world.working index = some work)
    (hstep : WorldStep d o.world (.acquisition index (.complete now content)) world)
    (hkept : ∀ key, originalKey d.py now work content o.world.store = some key →
      Kept sha256 storage (key, content.checksum)) :
    Originals.Sound sha256 storage { o with world } := by
  have hworks := step_works hstep h.items h.works
  have hfiles : world.store.items.map (·.quarantineObjectKey) =
        o.world.store.items.map (·.quarantineObjectKey) ∧
      world.store.versions.map (·.file) = o.world.store.versions.map (·.file) ++
        ((originalKey d.py now work content o.world.store).map fun key =>
          (key, content.checksum)).toList := by
    obtain ⟨call, hcall, hphase⟩ := working_eq_some hwork
    cases hstep.stepped with
    | command hcommand => cases hcommand
    | acquisition hcall' hevent =>
        obtain rfl := Option.some.inj (hcall.symm.trans hcall')
        cases hevent with
        | complete hphase' hreasons hcomplete =>
            rw [hphase] at hphase'
            cases hphase'
            exact completeAcquisition_files hcomplete
  refine ⟨?_, hworks, h.holdings, fun file hfile => ?_⟩
  · rw [hfiles.1]
    exact h.items
  · rw [hfiles.2] at hfile
    rcases List.mem_append.mp hfile with hold | hadded
    · exact h.versions file hold
    · obtain ⟨key, hkey, rfl⟩ := Option.map_eq_some_iff.mp (Option.mem_toList.mp hadded)
      exact ⟨originalKey_under hkey, hkept key hkey⟩

/-- What a step has done. -/
inductive Originals.Stepped (sha256 : Bytes → String) (d : Deployment) (storage : Storage)
    (o : Originals) : OriginalAction → Storage → Originals → Prop where
  | world {action : Action} {world : World} (hcompletes : action.completes = false)
      (hstep : WorldStep d o.world action world) :
      o.Stepped sha256 d storage (.world action) storage ⟨world, heldAfter action o.holdings⟩
  | uploaded {itemId : Uuid} {content : Bytes} {key : String}
      (hkey : key ∈ o.world.store.items.map (·.quarantineObjectKey)) :
      o.Stepped sha256 d storage (.upload itemId content)
        { storage with bucket := storage.bucket.put key content } o
  | fetched {index : Nat} {content : Bytes} {work : AcquisitionWork}
      (hwork : o.world.working index = some work) :
      o.Stepped sha256 d storage (.fetch index content)
        { storage with bucket := storage.bucket.put work.quarantineKey content }
        { o with holdings := o.holdings.set index (some ⟨content, false⟩) }
  | read {index : Nat} {content : Bytes} :
      o.Stepped sha256 d storage (.read index) storage
        { o with holdings := o.holdings.set index (some ⟨content, false⟩) }
  | scanned {index : Nat} {holding : Holding} :
      o.Stepped sha256 d storage (.scanClean index)
        { storage with scanned := storage.scanned ++ [holding.content] }
        { o with holdings := o.holdings.set index (some { holding with clean := true }) }
  | stored {index : Nat} {now : Instant} {detectedType key : String} {work : AcquisitionWork}
      {holding : Holding} {world : World} {object : Bytes}
      (hwork : o.world.working index = some work) (hholding : o.holding index = some holding)
      (hclean : holding.clean)
      (hstep : WorldStep d o.world
        (.acquisition index (.complete now ⟨sha256 holding.content, detectedType⟩)) world)
      (hkey : originalKey d.py now work ⟨sha256 holding.content, detectedType⟩ o.world.store = some key)
      (hobject : storage.bucket work.quarantineKey = some object) :
      o.Stepped sha256 d storage (.complete index now detectedType)
        { storage with bucket := storage.bucket.put key object } { o with world }
  | known {index : Nat} {now : Instant} {detectedType : String} {work : AcquisitionWork}
      {holding : Holding} {world : World} (hwork : o.world.working index = some work)
      (hstep : WorldStep d o.world
        (.acquisition index (.complete now ⟨sha256 holding.content, detectedType⟩)) world)
      (hkey : originalKey d.py now work ⟨sha256 holding.content, detectedType⟩ o.world.store = none) :
      o.Stepped sha256 d storage (.complete index now detectedType)
        { storage with bucket := storage.bucket.delete work.quarantineKey } { o with world }
  | copied {index : Nat} {now : Instant} {detectedType key : String} {work : AcquisitionWork}
      {holding : Holding} {object : Bytes}
      (hwork : o.world.working index = some work) (hholding : o.holding index = some holding)
      (hclean : holding.clean)
      (hkey : originalKey d.py now work ⟨sha256 holding.content, detectedType⟩ o.world.store = some key)
      (hobject : storage.bucket work.quarantineKey = some object) :
      o.Stepped sha256 d storage (.copy index now detectedType)
        { storage with bucket := storage.bucket.put key object } o
  | discarded {index : Nat} {call : AcquisitionCall} {work : AcquisitionWork}
      (hcall : call ∈ o.world.acquisitions) (hwork : call.phase.work = some work) :
      o.Stepped sha256 d storage (.discard index)
        { storage with bucket := storage.bucket.delete work.quarantineKey } o

theorem originals_stepped {action : OriginalAction}
    (hnext : o.next sha256 d storage action = some (storage', o')) :
    o.Stepped sha256 d storage action storage' o' := by
  unfold Originals.next at hnext
  split at hnext
  · next action =>
      split at hnext
      · cases hnext
      · next hcompletes =>
          simp only [Option.bind_eq_bind, Option.bind_eq_some_iff] at hnext
          obtain ⟨world, hworld, hnext⟩ := hnext
          cases hnext
          exact .world (by simpa using hcompletes) hworld
  · simp only [Option.bind_eq_bind, Option.bind_eq_some_iff] at hnext
    obtain ⟨key, hkey, hnext⟩ := hnext
    cases hnext
    exact .uploaded (uploadKey_mem hkey)
  · simp only [Option.bind_eq_bind, Option.bind_eq_some_iff] at hnext
    obtain ⟨work, hwork, hnext⟩ := hnext
    split at hnext
    · cases hnext
    · cases hnext
      exact .fetched hwork
  · simp only [Option.bind_eq_bind, Option.bind_eq_some_iff] at hnext
    obtain ⟨work, hwork, content, hcontent, hnext⟩ := hnext
    split at hnext
    · cases hnext
      exact .read
    · cases hnext
  · simp only [Option.bind_eq_bind, Option.bind_eq_some_iff] at hnext
    obtain ⟨holding, hholding, hnext⟩ := hnext
    cases hnext
    exact .scanned
  · simp only [Option.bind_eq_bind, Option.bind_eq_some_iff] at hnext
    obtain ⟨work, hwork, holding, hholding, hnext⟩ := hnext
    split at hnext
    · next hclean =>
        simp only [Option.bind_eq_some_iff] at hnext
        obtain ⟨world, hworld, bucket, hbucket, hnext⟩ := hnext
        cases hnext
        unfold completedBucket at hbucket
        split at hbucket
        · next key hkey =>
            obtain ⟨object, hobject, rfl⟩ := Bucket.copy_eq_some.mp hbucket
            exact .stored hwork hholding hclean hworld hkey hobject
        · next hkey =>
            obtain rfl := Option.some.inj hbucket
            exact .known hwork hworld hkey
    · cases hnext
  · simp only [Option.bind_eq_bind, Option.bind_eq_some_iff] at hnext
    obtain ⟨work, hwork, holding, hholding, key, hkey, bucket, hbucket, hnext⟩ := hnext
    split at hnext
    · next hclean =>
        cases hnext
        obtain ⟨object, hobject, rfl⟩ := Bucket.copy_eq_some.mp hbucket
        exact .copied hwork hholding hclean hkey hobject
    · cases hnext
  · simp only [Option.bind_eq_bind, Option.bind_eq_some_iff] at hnext
    obtain ⟨call, hcall, work, hwork, hnext⟩ := hnext
    cases hnext
    exact .discarded (List.mem_of_getElem? hcall) hwork

/-- **Every step whose copy takes what was scanned keeps the invariant.** -/
theorem originals_sound {action : OriginalAction} (h : o.Sound sha256 storage)
    (hunaltered : o.Unaltered sha256 d storage action)
    (hnext : o.next sha256 d storage action = some (storage', o')) : o'.Sound sha256 storage' := by
  cases originals_stepped hnext with
  | world hcompletes hstep => exact h.worldStep hcompletes hstep
  | uploaded hkey => exact h.quarantine (h.items _ hkey) fun _ hS => Bucket.sameOn_put hS
  | fetched hwork =>
      refine Originals.Sound.hold ?_ nofun
      exact h.quarantine (h.working hwork) fun _ hS => Bucket.sameOn_put hS
  | read => exact h.hold nofun
  | @scanned index holding =>
      have hsound : o.Sound sha256 { storage with scanned := storage.scanned ++ [holding.content] } :=
        h.sameOn (List.subset_append_left _ _) (.refl _)
      exact hsound.hold fun _ => List.mem_append_right _ (List.mem_singleton_self _)
  | @stored index now detectedType key work holding world object hwork hholding hclean hstep hkey hobject =>
      obtain ⟨hread, hapart⟩ := hunaltered work hwork holding hholding key hkey
      obtain rfl : object = holding.content := Option.some.inj (hobject.symm.trans hread)
      have hscanned := h.holding hholding hclean
      refine (h.copied hscanned hapart).completed hwork hstep fun key' hkey' => ?_
      obtain rfl : key = key' := Option.some.inj (hkey.symm.trans hkey')
      exact Bucket.holds_put ⟨rfl, hscanned⟩
  | known hwork hstep hnone =>
      refine Originals.Sound.completed ?_ hwork hstep fun key hkey => ?_
      · exact h.quarantine (h.working hwork) fun _ hS => Bucket.sameOn_delete hS
      · rw [hnone] at hkey
        cases hkey
  | @copied index now detectedType key work holding object hwork hholding hclean hkey hobject =>
      obtain ⟨hread, hapart⟩ := hunaltered work hwork holding hholding key hkey
      obtain rfl : object = holding.content := Option.some.inj (hobject.symm.trans hread)
      exact h.copied (h.holding hholding hclean) hapart
  | discarded hcall hwork =>
      exact h.quarantine (h.works _ hcall _ hwork) fun _ hS => Bucket.sameOn_delete hS

/-- **Nothing else of the bucket is touched**, and no scan is forgotten. -/
theorem originals_sameOn {action : OriginalAction} (h : o.Sound sha256 storage) {folder : String}
    (hquarantine : ∀ key, Under "quarantine/" key → ¬ Under folder key)
    (horiginal : ∀ key, Under "knowledge/" key → ¬ Under folder key)
    (hnext : o.next sha256 d storage action = some (storage', o')) :
    Bucket.SameOn (Under folder) storage.bucket storage'.bucket ∧
      storage.scanned ⊆ storage'.scanned := by
  cases originals_stepped hnext with
  | world | read => exact ⟨.refl _, List.Subset.refl _⟩
  | scanned => exact ⟨.refl _, List.subset_append_left _ _⟩
  | uploaded hkey =>
      exact ⟨Bucket.sameOn_put (hquarantine _ (h.items _ hkey)), List.Subset.refl _⟩
  | fetched hwork => exact ⟨Bucket.sameOn_put (hquarantine _ (h.working hwork)), List.Subset.refl _⟩
  | stored _ _ _ _ hkey | copied _ _ _ hkey =>
      exact ⟨Bucket.sameOn_put (horiginal _ (originalKey_under hkey)), List.Subset.refl _⟩
  | known hwork =>
      exact ⟨Bucket.sameOn_delete (hquarantine _ (h.working hwork)), List.Subset.refl _⟩
  | discarded hcall hwork =>
      exact ⟨Bucket.sameOn_delete (hquarantine _ (h.works _ hcall _ hwork)), List.Subset.refl _⟩

end Helpdesk.Knowledge
