/-
  File:      Helpdesk/Knowledge/Reverts.lean
  Subject:   What is acquired, what is stored, and what is said to have changed.

  `_complete` compares new content with two things: the classification of a refresh with the
  newest version, as `_load` read it, and the check for duplicates with every version of
  the document. Content that returns to an older version is CHANGED and is not stored.

  * `Store.Grows`: no step forgets a document or the checksum of a version;
  * `World.Remembers`: the previous checksum of a refresh is one of the document's;
  * `tracked_iff`: in every run an acquisition leaves its content as the newest version, and
    skips a refreshed page exactly if it is unchanged, exactly when it is no revert;
  * `reverted_page_lost`: a page that goes back is CHANGED, skipped and not the newest.
-/
import Helpdesk.Knowledge.Access
import Mathlib.Data.List.MinMax

namespace Helpdesk.Knowledge

open Helpdesk.Python

variable {d : Deployment} {store store' : Store}

/-! ## 1. What is never forgotten -/

/-- What a document is found by. -/
def Document.key (document : Document) : Uuid × Uuid × String :=
  (document.documentId, document.sourceId, document.externalDocumentKey)

/-- Whose content a version is. -/
def DocumentVersion.content (version : DocumentVersion) : Uuid × String :=
  (version.documentId, version.sha256Checksum)

/-- Documents keep their keys and versions their content; both are only added to. -/
structure Store.Grows (store store' : Store) : Prop where
  documents : store.documents.map (·.key) <+: store'.documents.map (·.key)
  versions : store.versions.map (·.content) <+: store'.versions.map (·.content)

theorem Store.Grows.trans {store'' : Store} (h : store.Grows store') (h' : store'.Grows store'') :
    store.Grows store'' :=
  ⟨h.documents.trans h'.documents, h.versions.trans h'.versions⟩

/-- Both tables are as they were, but for other columns. -/
theorem Store.Grows.of_eq
    (hdocuments : store'.documents.map (·.key) = store.documents.map (·.key))
    (hversions : store'.versions.map (·.content) = store.versions.map (·.content)) :
    store.Grows store' :=
  ⟨hdocuments ▸ List.prefix_rfl, hversions ▸ List.prefix_rfl⟩

theorem updateDocument_grows {documentId : Uuid} {change : Document → Document}
    (hchange : ∀ d, (change d).key = d.key) :
    store.Grows (store.updateDocument documentId change) := by
  refine .of_eq (map_update_column (fun d => ?_) store.documents) rfl
  split
  · exact hchange d
  · rfl

theorem mapVersions_grows {change : DocumentVersion → DocumentVersion}
    (hchange : ∀ v, (change v).content = v.content) :
    store.Grows { store with versions := store.versions.map change } :=
  .of_eq rfl (map_update_column hchange store.versions)

theorem updateVersion_grows {versionId : Uuid} {change : DocumentVersion → DocumentVersion}
    (hchange : ∀ v, (change v).content = v.content) :
    store.Grows (store.updateVersion versionId change) := by
  refine mapVersions_grows fun v => ?_
  split
  · exact hchange v
  · rfl

theorem supersededVersion_content {documentId versionId : Uuid} (v : DocumentVersion) :
    (supersededVersion documentId versionId v).content = v.content := by
  unfold supersededVersion
  split <;> rfl

theorem publishedVersion_content {documentId versionId processingId : Uuid} (v : DocumentVersion) :
    (publishedVersion documentId versionId processingId v).content = v.content := by
  unfold publishedVersion
  split
  · rfl
  · exact supersededVersion_content v

theorem upsertManifest_grows {tenantId : Option Uuid} {sourceId : Uuid} {manifestKey : String}
    {write : ManifestEntry → ManifestEntry} :
    store.Grows (upsertManifest store tenantId sourceId manifestKey write) := by
  unfold upsertManifest
  dsimp only
  split <;> exact .of_eq rfl rfl

theorem command_grows {action : Action} (h : command d action store = some store') :
    store.Grows store' := by
  cases command_commanded h with
  | governed | decided | created | uploaded => exact .of_eq rfl rfl
  | imported => exact upsertManifest_grows
  | authorized => exact upsertManifest_grows.trans (.of_eq rfl rfl)
  | approved => exact updateDocument_grows fun _ => rfl
  | @published tenantId versionId processingId document =>
      have hdocument : store.Grows (store.updateDocument document.documentId fun d =>
          { d with rowVersion := d.rowVersion + 1 }) := updateDocument_grows fun _ => rfl
      exact hdocument.trans (.of_eq rfl (map_update_column publishedVersion_content _))
  | superseded => exact mapVersions_grows supersededVersion_content
  | @retired documentId versionId =>
      have hdocument : store.Grows (store.updateDocument documentId fun d =>
          { d with approvalStatus := .retired, activeFlag := false, rowVersion := d.rowVersion + 1 }) :=
        updateDocument_grows fun _ => rfl
      exact hdocument.trans (updateVersion_grows fun _ => rfl)

theorem finalizeRun_versions {now : Instant} {work : AcquisitionWork} :
    (finalizeRun now work store).versions = store.versions := by
  unfold finalizeRun
  dsimp only
  split <;> rfl

theorem Store.Grows.finalized {mid : Store} {now : Instant} {work : AcquisitionWork}
    (h : store.Grows mid) : store.Grows (finalizeRun now work mid) :=
  h.trans (.of_eq (congrArg _ finalizeRun_documents) (congrArg _ finalizeRun_versions))

theorem acquisition_grows {call : AcquisitionCall} {event : AcquisitionEvent}
    {phase : AcquisitionPhase} {acquired : List Acquired}
    (h : AcquisitionStep d call store event phase store' acquired) : store.Grows store' := by
  cases h with
  | load => exact .of_eq rfl rfl
  | block =>
      unfold blockItem
      exact .finalized (.of_eq rfl rfl)
  | skip =>
      unfold skipRemote
      exact .finalized (.of_eq rfl rfl)
  | fail =>
      unfold acquisitionFailed
      exact .finalized (.of_eq rfl rfl)
  | complete hphase hreasons hcomplete =>
      cases completeAcquisition_completed hcomplete with
      | known => exact .finalized (.of_eq rfl rfl)
      | stored =>
          refine .finalized ⟨List.prefix_rfl, ?_⟩
          rw [finishItem, Store.updateItem, List.map_append]
          exact List.prefix_append _ _
      | created =>
          refine .finalized ⟨?_, ?_⟩ <;> rw [finishItem, Store.updateItem, List.map_append]
          · exact List.prefix_append _ _
          · exact List.prefix_append _ _

theorem processing_grows {call : ProcessingCall} {event : ProcessingEvent} {phase : ProcessingPhase}
    (h : ProcessingStep d call store event phase store') : store.Grows store' := by
  cases h with
  | load | replay => exact .of_eq rfl rfl
  | start hphase hstart => cases startProcessing_started hstart <;> exact .of_eq rfl rfl
  | persist hphase hpersist =>
      obtain ⟨embeddings, rfl⟩ := persist_eq_ok hpersist
      refine .of_eq rfl (map_update_column (fun v => ?_) store.versions)
      split <;> rfl
  | @fail now work processing code final hphase =>
      unfold processingFailed
      dsimp only
      have hversions : ∀ versionId : Uuid, ((store.updateVersion versionId fun v =>
          { v with extractionStatus := .failed, validationStatus := .failed }).versions.map
            (·.content)) = store.versions.map (·.content) := by
        intro versionId
        refine map_update_column (fun v => ?_) store.versions
        split <;> rfl
      cases processing with
      | none =>
          split
          · exact .of_eq rfl (hversions _)
          · exact .of_eq rfl rfl
      | some processing =>
          split
          · exact .of_eq rfl (hversions _)
          · exact .of_eq rfl rfl

/-- **No step forgets.** -/
theorem step_grows {world world' : World} {action : Action} (h : WorldStep d world action world') :
    world.store.Grows world'.store := by
  cases h.stepped with
  | command hcommand => exact command_grows hcommand
  | claimAcquisition | claimProcessing | leaveAcquisition | leaveProcessing => exact .of_eq rfl rfl
  | acquisition hcall hevent => exact acquisition_grows hevent
  | processing hcall hevent => exact processing_grows hevent

/-! ## 2. The previous checksum -/

/-- The document of a manifest key has a version with the checksum. -/
def Store.Holds (store : Store) (sourceId : Uuid) (manifestKey checksum : String) : Prop :=
  ∃ document, store.documentOf sourceId manifestKey = some document ∧
    ∃ v ∈ store.versionsOf document.documentId, v.sha256Checksum = checksum

/-- The document of a manifest key, read from what documents are found by. -/
theorem documentOf_ids (store : Store) (sourceId : Uuid) (manifestKey : String) :
    (store.documentOf sourceId manifestKey).map (·.documentId) =
      ((store.documents.map (·.key)).find? fun key => key.2 = (sourceId, manifestKey)).map (·.1) := by
  have hkey : ((fun key : Uuid × Uuid × String => decide (key.2 = (sourceId, manifestKey))) ∘
      Document.key) = fun d => d.sourceId = sourceId && d.externalDocumentKey = manifestKey := by
    funext d
    simp [Document.key]
  rw [List.find?_map, hkey, Option.map_map]
  rfl

theorem mem_contents {documentId : Uuid} {checksum : String} :
    (documentId, checksum) ∈ store.versions.map (·.content) ↔
      ∃ v ∈ store.versionsOf documentId, v.sha256Checksum = checksum := by
  simp [Store.versionsOf, DocumentVersion.content, and_assoc]

theorem Store.Grows.holds (h : store.Grows store') {sourceId : Uuid} {manifestKey checksum : String}
    (hholds : store.Holds sourceId manifestKey checksum) :
    store'.Holds sourceId manifestKey checksum := by
  obtain ⟨document, hdocument, hversion⟩ := hholds
  have hids := documentOf_ids store sourceId manifestKey
  have hids' := documentOf_ids store' sourceId manifestKey
  obtain ⟨added, hadded⟩ := h.documents
  rw [hdocument, Option.map_some] at hids
  obtain ⟨key, hkey, hid⟩ := Option.map_eq_some_iff.mp hids.symm
  rw [← hadded, List.find?_append, hkey, Option.some_or, Option.map_some] at hids'
  obtain ⟨document', hdocument', hsame⟩ := Option.map_eq_some_iff.mp hids'
  refine ⟨document', hdocument', mem_contents.mp (h.versions.subset ?_)⟩
  rw [hsame, hid]
  exact mem_contents.mpr hversion

theorem loadAcquisition_previous {settings : WorkerSettings} {now : Instant} {claim : Claim}
    {work : AcquisitionWork} (h : loadAcquisition settings now claim store = .ok work) {p : String}
    (hp : work.previousSha256 = some p) :
    store.previousSha256 work.source.sourceId work.manifest.manifestKey = some p := by
  unfold loadAcquisition at h
  dsimp only at h
  split at h
  · split at h
    · split at h
      · split at h
        · cases h
          dsimp only at hp
          split at hp
          · exact hp
          · cases hp
        · cases h
      · cases h
    · cases h
  · cases h

theorem previousSha256_holds {sourceId : Uuid} {manifestKey p : String}
    (h : store.previousSha256 sourceId manifestKey = some p) :
    store.Holds sourceId manifestKey p := by
  simp only [Store.previousSha256, Option.bind_eq_bind, Option.bind_eq_some_iff, Option.pure_def,
    Option.some.injEq] at h
  obtain ⟨document, hdocument, version, hversion, rfl⟩ := h
  exact ⟨document, hdocument, version, mem_of_head?_insertionSort hversion, rfl⟩

/-- **The previous checksum of a refresh is one of the document's.** -/
def World.Remembers (world : World) : Prop :=
  ∀ call ∈ world.acquisitions, ∀ work ∈ call.phase.work, ∀ p, work.previousSha256 = some p →
    world.store.Holds work.source.sourceId work.manifest.manifestKey p

theorem World.Remembers.step {world world' : World} {action : Action} (h : world.Remembers)
    (hstep : WorldStep d world action world') : world'.Remembers := by
  have hgrows := step_grows hstep
  cases hstep.stepped with
  | command | claimProcessing | processing | leaveProcessing =>
      exact fun call hcall work hwork p hp => hgrows.holds (h call hcall work hwork p hp)
  | claimAcquisition hcandidate =>
      intro call hcall work hwork p hp
      rcases List.mem_append.mp hcall with hold | hnew
      · exact hgrows.holds (h call hold work hwork p hp)
      · rw [List.mem_singleton.mp hnew] at hwork
        cases hwork
  | leaveAcquisition =>
      intro call hcall work hwork p hp
      exact h call (List.mem_of_mem_eraseIdx hcall) work hwork p hp
  | @acquisition index event call phase store' acquired hcall hevent =>
      have hmem := List.mem_of_getElem? hcall
      intro other hother work hwork p hp
      rcases List.mem_or_eq_of_mem_set hother with hold | rfl
      · exact hgrows.holds (h other hold work hwork p hp)
      · cases hevent with
        | load hphase hload =>
            obtain rfl := Option.some.inj hwork
            exact previousSha256_holds (loadAcquisition_previous hload hp)
        | block | fail => cases hwork
        | skip hphase | complete hphase =>
            obtain rfl := Option.some.inj hwork
            exact hgrows.holds (h call hmem _ (by rw [hphase]; rfl) p hp)

/-! ## 3. What a completed acquisition says and stores -/

/-- The newest version of the document has the checksum. -/
def Latest (store : Store) (documentId : Uuid) (checksum : String) : Prop :=
  ∃ v ∈ store.versionsOf documentId, v.sha256Checksum = checksum ∧
    ∀ w ∈ store.versionsOf documentId, w.versionNumber ≤ v.versionNumber

/-- **What was acquired is tracked**: it is the newest version of its document, and an item of
    a refresh run that is written is skipped exactly if it is classified as unchanged. -/
structure Tracked (work : AcquisitionWork) (content : Content) (store store' : Store) : Prop where
  newest : ∃ document, store'.documentOf work.source.sourceId work.manifest.manifestKey =
    some document ∧ Latest store' document.documentId content.checksum
  classified : work.runType = .refresh → List.Forall₂ (fun item item' => item' = item ∨
    (item'.itemStatus = .skippedUnchanged ↔ item'.changeClassification = some .unchanged))
    store.items store'.items

/-- The item of an attempt waits for its result. -/
def AwaitsResult (work : AcquisitionWork) (store : Store) : Prop :=
  ∃ item ∈ store.items, item.itemId = work.itemId ∧ item.tenantId = work.tenantId ∧
    item.itemStatus = .acquiring

/-- **The content is no revert**: if a version of the document has it, then the newest one
    does, and for the item of a refresh run the newest one did when its work was loaded. -/
def NoRevert (work : AcquisitionWork) (content : Content) (store : Store) : Prop :=
  ∀ document, store.documentOf work.source.sourceId work.manifest.manifestKey = some document →
    (∃ v ∈ store.versionsOf document.documentId, v.sha256Checksum = content.checksum) →
      Latest store document.documentId content.checksum ∧
        (work.runType = .refresh → AwaitsResult work store →
          work.previousSha256 = some content.checksum)

/-- The classification of the items that `_finish_item` writes. -/
theorem classified_iff {now : Instant} {work : AcquisitionWork} {acquired : Bool} {checksum : String}
    {documentId : Uuid} {versionId : Option Uuid} {change : Option ChangeClassification} :
    List.Forall₂ (fun item item' => item' = item ∨
      (item'.itemStatus = .skippedUnchanged ↔ item'.changeClassification = some .unchanged))
      store.items (finishItem now work acquired checksum documentId versionId change store).items ↔
    (AwaitsResult work store → (acquired = false ↔ change = some .unchanged)) := by
  rw [finishItem, Store.updateItem, List.forall₂_map_right_iff, List.forall₂_same]
  have hwritten : ∀ item : RunItem, finishedItem now work acquired checksum documentId versionId
      change item ≠ item := by
    intro item hsame
    exact Nat.succ_ne_self item.rowVersion (congrArg RunItem.rowVersion hsame)
  constructor
  · rintro hall ⟨item, hitem, hid, htenant, hstatus⟩
    have hrow := hall item hitem
    rw [if_pos (by simp [hid, htenant, hstatus])] at hrow
    have hiff := hrow.resolve_left (hwritten item)
    simpa [finishedItem] using hiff
  · intro hiff item hitem
    by_cases hmatch : item.itemId = work.itemId ∧ item.tenantId = work.tenantId ∧
        item.itemStatus = .acquiring
    · rw [if_pos (by simp [hmatch])]
      right
      simpa [finishedItem] using hiff ⟨item, hitem, hmatch⟩
    · rw [if_neg (by simpa [and_assoc] using hmatch)]
      exact Or.inl rfl

theorem classification_unchanged_iff {work : AcquisitionWork} {content : Content}
    (hrefresh : work.runType = .refresh) :
    classification work content = some .unchanged ↔ work.previousSha256 = some content.checksum := by
  unfold classification
  rw [if_pos hrefresh]
  by_cases hsame : some content.checksum = work.previousSha256
  · simp [hsame]
  · simp [hsame, Ne.symm hsame]

/-- Content is skipped when a version of the document has it. -/
theorem completeAcquisition_skipped {py : Runtime} {now : Instant} {work : AcquisitionWork}
    {content : Content} {documentId : Uuid}
    (h : (completeAcquisition py now work content).run store = .ok ((documentId, none), store')) :
    ∃ document, store.documentOf work.source.sourceId work.manifest.manifestKey = some document ∧
      ∃ v ∈ store.versionsOf document.documentId, v.sha256Checksum = content.checksum := by
  unfold completeAcquisition at h
  rw [Transaction.get_bind] at h
  dsimp only at h
  split at h
  · next document hdocument =>
      split at h
      · next hduplicate =>
          obtain ⟨v, hv, hsame⟩ := List.any_eq_true.mp hduplicate
          exact ⟨document, hdocument, v, hv, of_decide_eq_true hsame⟩
      · obtain ⟨_, _, _, hresult, _⟩ := storeVersion_eq_ok h
        cases hresult
  · rw [Transaction.bind_eq_ok] at h
    obtain ⟨_, mid, _, h⟩ := h
    obtain ⟨_, _, _, hresult, _⟩ := storeVersion_eq_ok h
    cases hresult

theorem latest_congr {documentId : Uuid} {checksum : String}
    (hversions : store'.versions = store.versions) :
    Latest store' documentId checksum ↔ Latest store documentId checksum := by
  unfold Latest Store.versionsOf
  rw [hversions]

theorem documentOf_congr {sourceId : Uuid} {manifestKey : String}
    (hdocuments : store'.documents = store.documents) :
    store'.documentOf sourceId manifestKey = store.documentOf sourceId manifestKey := by
  unfold Store.documentOf
  rw [hdocuments]

/-- The version that is stored is the newest. -/
theorem newVersion_latest {py : Runtime} {work : AcquisitionWork} {content : Content}
    {documentId : Uuid} (hversions : store'.versions = store.versions ++
      [newVersion py work content documentId (store.versionsOf documentId)]) :
    Latest store' documentId content.checksum := by
  have hrows : store'.versionsOf documentId = store.versionsOf documentId ++
      [newVersion py work content documentId (store.versionsOf documentId)] := by
    show List.filter _ store'.versions = List.filter _ store.versions ++ _
    rw [hversions, List.filter_append]
    congr 1
    simp [newVersion]
  refine ⟨_, by rw [hrows]; exact List.mem_append_right _ (List.mem_singleton_self _), rfl, ?_⟩
  intro w hw
  rw [hrows] at hw
  rcases List.mem_append.mp hw with hold | hself
  · exact Nat.le_succ_of_le (List.le_max_of_le' 0 (List.mem_map_of_mem hold) le_rfl)
  · rw [List.mem_singleton.mp hself]

section Finished

variable {now : Instant} {work : AcquisitionWork} {content : Content} {acquired : Bool}
  {documentId : Uuid} {versionId : Option Uuid}

/-- The tables after an attempt that recorded its result. -/
theorem finished_documentOf {sourceId : Uuid} {manifestKey : String} :
    (finalizeRun now work (finishItem now work acquired content.checksum documentId versionId
      (classification work content) store)).documentOf sourceId manifestKey =
      store.documentOf sourceId manifestKey :=
  documentOf_congr finalizeRun_documents

theorem finished_versions : (finalizeRun now work (finishItem now work acquired content.checksum
    documentId versionId (classification work content) store)).versions = store.versions :=
  finalizeRun_versions

theorem finished_classified_iff (hrefresh : work.runType = .refresh) :
    List.Forall₂ (fun item item' => item' = item ∨
      (item'.itemStatus = .skippedUnchanged ↔ item'.changeClassification = some .unchanged))
      store.items (finalizeRun now work (finishItem now work acquired content.checksum documentId
        versionId (classification work content) store)).items ↔
    (AwaitsResult work store → (acquired = false ↔ work.previousSha256 = some content.checksum)) := by
  rw [finalizeRun_items, classified_iff, classification_unchanged_iff hrefresh]

/-- Content that a version has is tracked if it is the newest, then as now. -/
theorem tracked_of_known_iff {document : Document}
    (hdocument : store.documentOf work.source.sourceId work.manifest.manifestKey = some document) :
    Tracked work content store (finalizeRun now work (finishItem now work false content.checksum
      documentId versionId (classification work content) store)) ↔
    Latest store document.documentId content.checksum ∧ (work.runType = .refresh →
      AwaitsResult work store → work.previousSha256 = some content.checksum) := by
  constructor
  · rintro ⟨⟨found, hfound, hlatest⟩, hclassified⟩
    rw [finished_documentOf, hdocument] at hfound
    obtain rfl := Option.some.inj hfound
    refine ⟨(latest_congr finished_versions).mp hlatest, fun hrefresh hawaits => ?_⟩
    exact ((finished_classified_iff hrefresh).mp (hclassified hrefresh) hawaits).mp rfl
  · rintro ⟨hlatest, hsame⟩
    refine ⟨⟨document, ?_, (latest_congr finished_versions).mpr hlatest⟩, fun hrefresh => ?_⟩
    · rw [finished_documentOf, hdocument]
    · exact (finished_classified_iff hrefresh).mpr fun hawaits =>
        iff_of_true rfl (hsame hrefresh hawaits)

/-- Content that is new to its document is tracked. -/
theorem tracked_of_new {py : Runtime} {mid : Store} {document : Document}
    (hprevious : work.previousSha256 ≠ some content.checksum)
    (hdocument : mid.documentOf work.source.sourceId work.manifest.manifestKey = some document)
    (hversions : mid.versions = store.versions ++
      [newVersion py work content document.documentId (store.versionsOf document.documentId)])
    (hitems : mid.items = store.items) :
    Tracked work content store (finalizeRun now work (finishItem now work true content.checksum
      documentId versionId (classification work content) mid)) := by
  constructor
  · refine ⟨document, ?_, newVersion_latest (finished_versions.trans hversions)⟩
    rw [finished_documentOf, hdocument]
  · intro hrefresh
    rw [← hitems]
    exact (finished_classified_iff hrefresh).mpr fun _ => iff_of_false nofun hprevious

/-- **A completed acquisition is tracked exactly when its content is no revert.** -/
theorem Completed.stored_iff {py : Runtime} {result : Uuid × Option Uuid}
    (hholds : ∀ p, work.previousSha256 = some p →
      store.Holds work.source.sourceId work.manifest.manifestKey p)
    (hcomplete : (completeAcquisition py now work content).run store = .ok (result, store')) :
    Tracked work content store store' ↔ NoRevert work content store := by
  unfold NoRevert
  cases completeAcquisition_completed hcomplete with
  | @known document hdocument =>
      obtain ⟨document', hdocument', hknown⟩ := completeAcquisition_skipped hcomplete
      obtain rfl := Option.some.inj (hdocument.symm.trans hdocument')
      rw [tracked_of_known_iff hdocument]
      constructor
      · intro htracked other hother _
        obtain rfl := Option.some.inj (hdocument.symm.trans hother)
        exact htracked
      · exact fun hno => hno document hdocument hknown
  | @stored document version hdocument hnew hversion hfresh =>
      have hunknown : ¬ ∃ v ∈ store.versionsOf document.documentId,
          v.sha256Checksum = content.checksum := by
        rintro ⟨v, hv, hsame⟩
        exact absurd (decide_eq_true hsame) (List.any_eq_false.mp hnew v hv)
      have hprevious : work.previousSha256 ≠ some content.checksum := by
        intro hprevious
        obtain ⟨other, hother, hversion⟩ := hholds _ hprevious
        obtain rfl := Option.some.inj (hdocument.symm.trans hother)
        exact hunknown hversion
      refine iff_of_true (tracked_of_new hprevious hdocument (by rw [hversion]) rfl) ?_
      intro other hother hknown
      obtain rfl := Option.some.inj (hdocument.symm.trans hother)
      exact absurd hknown hunknown
  | @created document version hdocument hnone hunused hversion hfresh =>
      have hprevious : work.previousSha256 ≠ some content.checksum := by
        intro hprevious
        obtain ⟨other, hother, _⟩ := hholds _ hprevious
        rw [hnone] at hother
        cases hother
      refine iff_of_true (tracked_of_new hprevious ?_ (by rw [hversion]) rfl) ?_
      · unfold Store.documentOf at hnone ⊢
        rw [List.find?_append, hnone, hdocument]
        simp [newDocument]
      · intro other hother
        rw [hnone] at hother
        cases hother

end Finished

/-- **In every run, an acquisition is tracked exactly when its content is no revert.** -/
theorem tracked_iff {world₀ world world' : World} {actions : List Action}
    (hstart : world₀.acquisitions = []) (hrun : Run (WorldStep d) world₀ actions world) {index : Nat}
    {now : Instant} {content : Content} {call : AcquisitionCall} {work : AcquisitionWork}
    (hcall : world.acquisitions[index]? = some call) (hphase : call.phase = .working work)
    (hstep : WorldStep d world (.acquisition index (.complete now content)) world') :
    Tracked work content world.store world'.store ↔ NoRevert work content world.store := by
  have hremembers : world.Remembers := by
    refine hrun.invariant (I := World.Remembers) ?_ fun _ _ _ h hs => h.step hs
    simp [World.Remembers, hstart]
  have hholds : ∀ p, work.previousSha256 = some p →
      world.store.Holds work.source.sourceId work.manifest.manifestKey p :=
    hremembers call (List.mem_of_getElem? hcall) work (by rw [hphase]; rfl)
  generalize haction : Action.acquisition index (.complete now content) = action at hstep
  cases hstep.stepped with
  | command hcommand => subst haction; cases hcommand
  | claimAcquisition | leaveAcquisition | claimProcessing | processing | leaveProcessing =>
      cases haction
  | @acquisition index event call' phase store' acquired hcall' hevent =>
      obtain ⟨rfl, rfl⟩ := Action.acquisition.inj haction
      obtain rfl := Option.some.inj (hcall.symm.trans hcall')
      cases hevent with
      | @complete _ work' _ _ documentId versionId hphase' hreasons hcomplete =>
          obtain rfl := AcquisitionPhase.working.inj (hphase.symm.trans hphase')
          exact Completed.stored_iff hholds hcomplete

/-! ## 4. A page that goes back -/

theorem completing_call {world world' : World} {index : Nat} {now : Instant} {content : Content}
    (hstep : WorldStep d world (.acquisition index (.complete now content)) world') :
    ∃ call work, world.acquisitions[index]? = some call ∧ call.phase = .working work := by
  generalize haction : Action.acquisition index (.complete now content) = action at hstep
  cases hstep.stepped with
  | command hcommand => subst haction; cases hcommand
  | claimAcquisition | leaveAcquisition | claimProcessing | processing | leaveProcessing =>
      cases haction
  | acquisition hcall hevent =>
      obtain ⟨rfl, rfl⟩ := Action.acquisition.inj haction
      cases hevent with
      | complete hphase => exact ⟨_, _, hcall, hphase⟩

/-- A source with one page that may be downloaded. -/
def pageWorld : World where
  store := { emptyStore with
    sources := [{ boilerplateSource with
      acquisitionMethod := .approvedDirectDownload
      automatedAccessAllowed := true }]
    authorizations := [⟨7, some 3, 2, 1, true, .approvedDirectDownload, 0, none, 0⟩]
    manifests := [{ boilerplateManifest with
      acquisitionMethod := .approvedDirectDownload
      acquisitionPermission := .approved
      permissionReference := some "LEGAL-1"
      htmlUrl := some "https://example.invalid/manual" }] }
  acquisitions := []
  processings := []
  acquired := []

/-- A refresh run of the page up to the download. -/
def refreshPage : List Action :=
  [.createRefreshRun 0 3 2 1, .claimAcquisition sampleWorker ⟨0, []⟩, .acquisition 0 (.load 0)]

/-- The page is found with the content of an edition. -/
def foundPage (edition : ManualUploadCommand) : Action :=
  .acquisition 0 (.complete 0 ⟨edition.sha256Checksum, "text/markdown"⟩)

theorem tracked_iff_sample :
    ∃ (world world' : World) (work : AcquisitionWork),
      WorldStep editionDeployment world (foundPage firstEdition) world' ∧
      work.runType = .refresh ∧
      Tracked work ⟨firstEdition.sha256Checksum, "text/markdown"⟩ world.store world'.store := by
  have hrun : ∃ world, refreshPage.foldlM (fun world action =>
      world.next editionDeployment action) pageWorld = some world ∧
        ((world.next editionDeployment (foundPage firstEdition)).isSome, world.store.documents,
          world.acquisitions.map fun call => call.phase.work.map (·.runType)) =
            (true, [], [some .refresh]) := by
    rw [← Option.map_eq_some_iff]
    decide +kernel
  obtain ⟨world, hrun, hrows⟩ := hrun
  obtain ⟨hsome, hrows⟩ := Prod.mk.inj hrows
  obtain ⟨hdocuments, hcalls⟩ := Prod.mk.inj hrows
  obtain ⟨world', hstep⟩ := Option.isSome_iff_exists.mp hsome
  obtain ⟨call, work, hcall, hphase⟩ := completing_call hstep
  have htype : some work.runType ∈ world.acquisitions.map fun call =>
      call.phase.work.map (·.runType) := by
    refine List.mem_map.mpr ⟨call, List.mem_of_getElem? hcall, ?_⟩
    rw [hphase]
    rfl
  rw [hcalls, List.mem_singleton] at htype
  refine ⟨world, world', work, hstep, Option.some.inj htype, ?_⟩
  refine (tracked_iff rfl (run_of_foldlM hrun) hcall hphase hstep).mpr ?_
  intro document hdocument
  rw [Store.documentOf, hdocuments] at hdocument
  cases hdocument

/-- **A page that goes back to an older version is CHANGED, but skipped**, and the newest
    version is the one before. -/
theorem reverted_page_lost :
    ¬ ∀ (d : Deployment) (world₀ world world' : World) (actions : List Action) (index : Nat)
      (now : Instant) (content : Content) (call : AcquisitionCall) (work : AcquisitionWork),
      world₀.acquisitions = [] → Run (WorldStep d) world₀ actions world →
      world.acquisitions[index]? = some call → call.phase = .working work →
      WorldStep d world (.acquisition index (.complete now content)) world' →
      Tracked work content world.store world'.store := by
  intro hclaim
  have hrun : ∃ world, (refreshPage ++ [foundPage firstEdition, .leaveAcquisition 0] ++ refreshPage ++
      [foundPage secondEdition, .leaveAcquisition 0] ++ refreshPage).foldlM (fun world action =>
      world.next editionDeployment action) pageWorld = some world ∧
        (world.next editionDeployment (foundPage firstEdition)).map (fun world' =>
          (world'.store.previousSha256 2 "manual", (world.store.items.zip world'.store.items).any
            fun pair => pair.2 ≠ pair.1 && pair.2.itemStatus = .skippedUnchanged &&
              pair.2.changeClassification = some .changed,
            world.acquisitions.map fun call => call.phase.work.map (·.runType))) =
          some (some secondEdition.sha256Checksum, true, [some .refresh]) := by
    rw [← Option.map_eq_some_iff]
    decide +kernel
  obtain ⟨world, hrun, hnext⟩ := hrun
  obtain ⟨world', hstep, hrows⟩ := Option.map_eq_some_iff.mp hnext
  obtain ⟨call, work, hcall, hphase⟩ := completing_call hstep
  obtain ⟨_, hrows⟩ := Prod.mk.inj hrows
  obtain ⟨hlost, hcalls⟩ := Prod.mk.inj hrows
  have htype : some work.runType ∈ world.acquisitions.map fun call =>
      call.phase.work.map (·.runType) := by
    refine List.mem_map.mpr ⟨call, List.mem_of_getElem? hcall, ?_⟩
    rw [hphase]
    rfl
  rw [hcalls, List.mem_singleton] at htype
  have htracked := hclaim editionDeployment pageWorld world world' _ 0 0 _ call work rfl
    (run_of_foldlM hrun) hcall hphase hstep
  obtain ⟨pair, hpair, hvalues⟩ := List.any_eq_true.mp hlost
  simp only [ne_eq, Bool.and_eq_true, decide_eq_true_eq, decide_not, Bool.not_eq_true',
    decide_eq_false_iff_not] at hvalues
  obtain ⟨⟨hwritten, hskipped⟩, hchanged⟩ := hvalues
  have hrow := (List.forall₂_iff_zip.mp (htracked.classified (Option.some.inj htype))).2 hpair
  have hunchanged := (hrow.resolve_left hwritten).mp hskipped
  rw [hchanged] at hunchanged
  cases hunchanged

end Helpdesk.Knowledge
