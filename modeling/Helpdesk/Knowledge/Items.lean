/-
  File:      Helpdesk/Knowledge/Items.lean
  Subject:   What each transaction does to the rows of `kb.ingestion_run_item`.

  Commands create items, queue and publish them; an acquisition or processing worker
  writes the item of its call only. Nothing deletes an item.
-/
import Helpdesk.Knowledge.Persistence
import Helpdesk.Knowledge.World

namespace Helpdesk.Knowledge

open Helpdesk.Python

variable {d : Deployment} {store store' : Store} {item' : RunItem}

/-! ## 1. `UPDATE kb.ingestion_run_item` -/

theorem mem_updateItem {itemId tenantId : Uuid} {selected : RunItem → Bool}
    {change : RunItem → RunItem} (h : item' ∈ (store.updateItem itemId tenantId selected change).items) :
    (item' ∈ store.items ∧ ¬ (item'.itemId = itemId ∧ item'.tenantId = tenantId ∧ selected item')) ∨
      ∃ item ∈ store.items, item.itemId = itemId ∧ item.tenantId = tenantId ∧ selected item ∧
        item' = change item := by
  obtain ⟨item, hitem, hchange⟩ := List.mem_map.mp h
  by_cases hmatch : item.itemId = itemId ∧ item.tenantId = tenantId ∧ selected item
  · obtain ⟨hid, htenant, hselected⟩ := hmatch
    refine Or.inr ⟨item, hitem, hid, htenant, hselected, ?_⟩
    rw [← hchange, if_pos (by simp [hid, htenant, hselected])]
  · rw [if_neg (by simpa [and_assoc] using hmatch)] at hchange
    exact Or.inl ⟨hchange ▸ hitem, hchange ▸ hmatch⟩

/-! ## 2. Commands -/

/-- An item of a new run. -/
structure RunItem.IsNew (item : RunItem) : Prop where
  status : item.itemStatus = .queued ∨ item.itemStatus = .awaitingUpload
  stage : item.pipelineStage = .acquisition
  notFinal : item.finalFailure = false
  noVersion : item.documentVersionId = none

/-- Where an item of the store after a command comes from. -/
inductive CommandItem (store : Store) (item' : RunItem) : Prop where
  | kept (h : item' ∈ store.items)
  | created (h : item'.IsNew)
  | queued {item : RunItem} {now : Instant} (h : item ∈ store.items) (hstatus : item.itemStatus = .awaitingUpload)
      (heq : item' = { item with
        itemStatus := .queued, nextAttemptAt := now, rowVersion := item.rowVersion + 1 })
  | published {item : RunItem} {versionId tenantId : Uuid} (h : item ∈ store.items)
      (hversion : item.documentVersionId = some versionId)
      (heq : item' = publishedItem versionId tenantId item)
      (hstatus : item'.itemStatus = .published)

theorem newItem_isNew (now : Instant) (runId itemId tenantId : Uuid) (awaitingUpload : Bool)
    (entry : ManifestEntry) (sourceVersion : Nat) :
    (newItem now runId itemId tenantId awaitingUpload entry sourceVersion).IsNew where
  status := by cases awaitingUpload <;> simp [newItem]
  stage := rfl
  notFinal := rfl
  noVersion := rfl

theorem createRun_items {now : Instant} {tenantId : Uuid} {entries : List (ManifestEntry × Nat)}
    {awaitingUpload : Bool} {runType : RunType}
    (h : item' ∈ (createRun now tenantId entries awaitingUpload runType store).items) :
    item' ∈ store.items ∨ item'.IsNew := by
  rcases List.mem_append.mp h with hold | hnew
  · exact Or.inl hold
  · obtain ⟨e, _, rfl⟩ := List.mem_map.mp hnew
    exact Or.inr (newItem_isNew _ _ _ _ _ _ _)

theorem upsertManifest_items {tenantId : Option Uuid} {sourceId : Uuid} {manifestKey : String}
    {write : ManifestEntry → ManifestEntry} :
    (upsertManifest store tenantId sourceId manifestKey write).items = store.items := by
  unfold upsertManifest
  dsimp only
  split <;> rfl

/-- **What a command does to the items.** -/
theorem command_items {action : Action} (h : command d action store = some store')
    (hitem : item' ∈ store'.items) : CommandItem store item' := by
  cases command_commanded h with
  | governed | decided | approved | superseded | retired => exact .kept hitem
  | imported =>
      rw [upsertManifest_items] at hitem
      exact .kept hitem
  | created =>
      rcases createRun_items hitem with hold | hnew
      · exact .kept hold
      · exact .created hnew
  | authorized =>
      rcases createRun_items hitem with hold | hnew
      · rw [upsertManifest_items] at hold
        exact .kept hold
      · exact .created hnew
  | uploaded =>
      rcases mem_updateItem hitem with ⟨hold, _⟩ | ⟨item, hold, _, _, hselected, heq⟩
      · exact .kept hold
      · exact .queued hold (by simpa using hselected) heq
  | @published tenantId versionId processingId document =>
      obtain ⟨item, hold, rfl⟩ := List.mem_map.mp hitem
      by_cases hmatch : item.documentVersionId = some versionId ∧ item.tenantId = tenantId
      · refine .published hold hmatch.1 rfl ?_
        rw [publishedItem, if_pos (by simp [hmatch])]
      · rw [publishedItem, if_neg (by simpa using hmatch)]
        exact .kept hold

/-! ## 3. Workers -/

theorem mem_of_head?_insertionSort {α : Type} {r : α → α → Prop} [DecidableRel r] {xs : List α}
    {x : α} (h : (xs.insertionSort r).head? = some x) : x ∈ xs :=
  (List.mem_insertionSort r).mp (List.mem_of_mem_head? h)

/-- The claimed item is one the claim may take. -/
theorem acquisitionCandidate_acquirable {env : ClaimEnv} {item : RunItem}
    (h : acquisitionCandidate env store = some item) :
    item ∈ store.items ∧ acquirable env.now item = true := by
  obtain ⟨hmem, hfilter⟩ := List.mem_filter.mp (mem_of_head?_insertionSort h)
  exact ⟨hmem, (Bool.and_eq_true_iff.mp hfilter).1⟩

theorem processingCandidate_processable {env : ClaimEnv} {item : RunItem}
    (h : processingCandidate env store = some item) :
    item ∈ store.items ∧ processable env.now item = true := by
  obtain ⟨hmem, hfilter⟩ := List.mem_filter.mp (mem_of_head?_insertionSort h)
  exact ⟨hmem, (Bool.and_eq_true_iff.mp hfilter).1⟩

theorem finalizeRun_items {now : Instant} {work : AcquisitionWork} :
    (finalizeRun now work store).items = store.items := by
  unfold finalizeRun
  dsimp only
  split <;> rfl

theorem insertDocument_eq_ok {row : Document} {u : Unit}
    (h : (insertDocument row).run store = .ok (u, store')) :
    (∀ d ∈ store.documents, d.documentId ≠ row.documentId) ∧
      store' = { store with documents := store.documents ++ [row] } := by
  unfold insertDocument at h
  rw [Transaction.get_bind, Transaction.guard_eq_ok, Transaction.set_eq_ok] at h
  refine ⟨fun d hd heq => h.1 ?_, h.2.symm⟩
  rw [List.any_eq_true]
  exact ⟨d, hd, by simp [heq]⟩

theorem insertVersion_eq_ok {row : DocumentVersion} {u : Unit}
    (h : (insertVersion row).run store = .ok (u, store')) :
    (∀ v ∈ store.versions, v.documentVersionId ≠ row.documentVersionId) ∧
      store' = { store with versions := store.versions ++ [row] } := by
  unfold insertVersion at h
  rw [Transaction.get_bind, Transaction.guard_eq_ok, Transaction.set_eq_ok] at h
  refine ⟨fun v hv heq => h.1 ?_, h.2.symm⟩
  rw [List.any_eq_true]
  exact ⟨v, hv, by simp [heq]⟩

theorem storeVersion_eq_ok {py : Runtime} {now : Instant} {work : AcquisitionWork}
    {content : Content} {documentId : Uuid} {result : Uuid × Option Uuid}
    (h : (storeVersion py now work content documentId).run store = .ok (result, store')) :
    ∃ version, version = newVersion py work content documentId (store.versionsOf documentId) ∧
      (∀ v ∈ store.versions, v.documentVersionId ≠ version.documentVersionId) ∧
      result = (documentId, some version.documentVersionId) ∧
      store' = finalizeRun now work (finishItem now work true content.checksum documentId
        (some version.documentVersionId) (classification work content)
        { store with versions := store.versions ++ [version] }) := by
  unfold storeVersion at h
  rw [Transaction.get_bind] at h
  dsimp only at h
  rw [Transaction.bind_eq_ok] at h
  obtain ⟨_, mid, hinsert, h⟩ := h
  obtain ⟨hfresh, rfl⟩ := insertVersion_eq_ok hinsert
  rw [Transaction.bind_eq_ok] at h
  obtain ⟨_, mid, hfinish, h⟩ := h
  obtain rfl := Transaction.modify_eq_ok.mp hfinish
  rw [Transaction.bind_eq_ok] at h
  obtain ⟨_, mid, hfinal, h⟩ := h
  obtain rfl := Transaction.modify_eq_ok.mp hfinal
  obtain ⟨rfl, rfl⟩ := Transaction.pure_eq_ok.mp h
  exact ⟨_, rfl, hfresh, rfl, rfl⟩

/-- **What `_complete` has done**: the content was known, or it is a new version of the
    document there was or of a new one. -/
inductive Completed (py : Runtime) (now : Instant) (work : AcquisitionWork) (content : Content)
    (store : Store) : Uuid × Option Uuid → Store → Prop where
  | known {document : Document}
      (hdocument : store.documentOf work.source.sourceId work.manifest.manifestKey = some document) :
      Completed py now work content store (document.documentId, none)
        (finalizeRun now work (finishItem now work false content.checksum document.documentId none
          (classification work content) store))
  | stored {document : Document} {version : DocumentVersion}
      (hdocument : store.documentOf work.source.sourceId work.manifest.manifestKey = some document)
      (hnew : (store.versionsOf document.documentId).any
        (·.sha256Checksum = content.checksum) = false)
      (hversion : version = newVersion py work content document.documentId
        (store.versionsOf document.documentId))
      (hfresh : ∀ v ∈ store.versions, v.documentVersionId ≠ version.documentVersionId) :
      Completed py now work content store (document.documentId, some version.documentVersionId)
        (finalizeRun now work (finishItem now work true content.checksum document.documentId
          (some version.documentVersionId) (classification work content)
          { store with versions := store.versions ++ [version] }))
  | created {document : Document} {version : DocumentVersion}
      (hdocument : document = newDocument py now work)
      (hnone : store.documentOf work.source.sourceId work.manifest.manifestKey = none)
      (hunused : ∀ d ∈ store.documents, d.documentId ≠ document.documentId)
      (hversion : version = newVersion py work content document.documentId
        (store.versionsOf document.documentId))
      (hfresh : ∀ v ∈ store.versions, v.documentVersionId ≠ version.documentVersionId) :
      Completed py now work content store (document.documentId, some version.documentVersionId)
        (finalizeRun now work (finishItem now work true content.checksum document.documentId
          (some version.documentVersionId) (classification work content)
          { store with
            documents := store.documents ++ [document]
            versions := store.versions ++ [version] }))

theorem completeAcquisition_completed {py : Runtime} {now : Instant} {work : AcquisitionWork}
    {content : Content} {result : Uuid × Option Uuid}
    (h : (completeAcquisition py now work content).run store = .ok (result, store')) :
    Completed py now work content store result store' := by
  unfold completeAcquisition at h
  rw [Transaction.get_bind] at h
  dsimp only at h
  split at h
  · next document hdocument =>
      split at h
      · rw [Transaction.set_bind, Transaction.pure_eq_ok] at h
        obtain ⟨rfl, rfl⟩ := h
        exact .known hdocument
      · next hnew =>
          obtain ⟨version, hversion, hfresh, rfl, rfl⟩ := storeVersion_eq_ok h
          exact .stored hdocument (by simpa using hnew) hversion hfresh
  · next hnone =>
      rw [Transaction.bind_eq_ok] at h
      obtain ⟨_, mid, hinsert, h⟩ := h
      obtain ⟨hunused, rfl⟩ := insertDocument_eq_ok hinsert
      obtain ⟨version, hversion, hfresh, rfl, rfl⟩ := storeVersion_eq_ok h
      exact .created rfl hnone hunused hversion hfresh

/-- The items after `_complete`. -/
theorem Completed.items {py : Runtime} {now : Instant} {work : AcquisitionWork} {content : Content}
    {result : Uuid × Option Uuid} (h : Completed py now work content store result store') :
    ∃ acquired, store'.items = (finishItem now work acquired content.checksum result.1 result.2
      (classification work content) store).items ∧ (acquired = true ↔ result.2.isSome) := by
  cases h with
  | known => exact ⟨false, finalizeRun_items, by simp⟩
  | stored => exact ⟨true, finalizeRun_items, by simp⟩
  | created => exact ⟨true, finalizeRun_items, by simp⟩

/-- The processing version of a document version with the columns of the key. -/
def Store.processingOf (store : Store) (versionId : Uuid) (key : ProcessingKey) :
    Option ProcessingVersion :=
  store.processings.find? fun p => p.documentVersionId = versionId && p.key = key

/-- A processing version that is started again. -/
def restartedProcessing (now : Instant) (p : ProcessingVersion) : ProcessingVersion :=
  { p with
    processingStatus := .running, validationStatus := .pending
    startedAt := now, completedAt := none }

/-- **What `_start_processing` has done**: the processing version was complete, or it is
    started again, or it is a new one. -/
inductive Started (now : Instant) (key : ProcessingKey) (work : ProcessingWork) (store : Store) :
    Uuid × Bool → Store → Prop where
  | complete {p : ProcessingVersion}
      (hfind : store.processingOf work.documentVersionId key = some p)
      (hstatus : p.processingStatus = .completed) :
      Started now key work store (p.processingVersionId, true) store
  | restarted {p : ProcessingVersion}
      (hfind : store.processingOf work.documentVersionId key = some p)
      (hstatus : p.processingStatus ≠ .completed) :
      Started now key work store (p.processingVersionId, false)
        (store.updateProcessing p.processingVersionId (restartedProcessing now))
  | created {row : ProcessingVersion}
      (hfind : store.processingOf work.documentVersionId key = none)
      (hid : row.processingVersionId = store.nextId) (hcreated : row.createdAt = now) :
      Started now key work store (row.processingVersionId, false)
        { store with processings := store.processings ++ [row], nextId := store.nextId + 1 }

theorem startProcessing_started {now : Instant} {model : EmbeddingModel} {key : ProcessingKey}
    {work : ProcessingWork} {result : Uuid × Bool}
    (h : (startProcessing now model key work).run store = .ok (result, store')) :
    Started now key work store result store' := by
  unfold startProcessing at h
  rw [Transaction.guard_eq_ok] at h
  obtain ⟨_, h⟩ := h
  rw [Transaction.guard_eq_ok, Transaction.get_bind] at h
  obtain ⟨_, h⟩ := h
  split at h
  · next p hfind =>
      split at h
      · next hstatus =>
          obtain ⟨rfl, rfl⟩ := Transaction.pure_eq_ok.mp h
          exact .complete hfind hstatus
      · next hstatus =>
          rw [Transaction.set_bind, Transaction.pure_eq_ok] at h
          obtain ⟨rfl, rfl⟩ := h
          exact .restarted hfind hstatus
  · next hfind =>
      rw [Transaction.set_bind, Transaction.pure_eq_ok] at h
      obtain ⟨rfl, rfl⟩ := h
      exact .created hfind rfl rfl

theorem startProcessing_items {now : Instant} {model : EmbeddingModel} {key : ProcessingKey}
    {work : ProcessingWork} {result : Uuid × Bool}
    (h : (startProcessing now model key work).run store = .ok (result, store')) :
    store'.items = store.items := by
  cases startProcessing_started h <;> rfl

theorem persist_items {py : Runtime} {now : Instant} {modelCode : String} {work : ProcessingWork}
    {processingId : Uuid} {chunks : List Chunk} {status : ValidationStatus} {u : Unit}
    (h : (persist py now modelCode work processingId chunks status).run store = .ok (u, store')) :
    store'.items =
      (store.updateItem work.itemId work.tenantId (fun _ => true) (processedItem status)).items := by
  obtain ⟨_, rfl⟩ := persist_eq_ok h
  rfl

theorem processingFailed_items {settings : WorkerSettings} {now : Instant} {work : ProcessingWork}
    {processingId : Option Uuid} {code : String} {final : Bool} :
    (processingFailed settings now work processingId code final store).items =
      (store.updateItem work.itemId work.tenantId (fun _ => true) (processingFailedItem now work code
        (final || settings.workerMaxAttempts ≤ work.processingAttemptCount))).items := by
  unfold processingFailed
  dsimp only
  cases processingId <;> split <;> rfl

end Helpdesk.Knowledge
