/-
  File:      Helpdesk/Knowledge/Access.lean
  Subject:   For whom acquired content is served.

  The audience and the classification of a manifest entry reach the chunks by way of
  the document: `_complete` copies them into a document it inserts, and leaves a
  document that is there as it is; `_load` and `_persist` copy them from the document
  into the chunks. New content of an entry whose access was changed is therefore
  stored, and later retrieved, under the access its document was inserted with.

  * `Store.Keeps`: what every transaction but those two leaves alone;
  * `World.Labelled`: the foreign keys and the copies of the access, on the way from
    the entry to the chunks;
  * `acquired_content_keeps_access`: with `_complete` storing into documents of the
    entry's access only, all acquired content is served under the access it was
    acquired for;
  * `reimported_content_served`: without, it is not.
-/
import Helpdesk.Knowledge.Stranding

namespace Helpdesk.Knowledge

open Helpdesk.Python

/-! ## 1. The access of a row -/

/-- `audience_code` and `security_classification`. -/
abbrev Access := Audience × Classification

def ManifestEntry.access (entry : ManifestEntry) : Access :=
  (entry.audienceCode, entry.securityClassification)

def Document.access (document : Document) : Access :=
  (document.audienceCode, document.securityClassification)

def ProcessingWork.access (work : ProcessingWork) : Access :=
  (work.audienceCode, work.securityClassification)

def ChunkRow.access (chunk : ChunkRow) : Access := (chunk.audienceCode, chunk.securityClassification)

/-- The access of a content that was acquired and of everything it is served from:
    its document, and the chunks of its version. -/
def World.Serves (world : World) : Prop :=
  ∀ a ∈ world.acquired, ∀ versionId ∈ a.versionId,
    (∀ document ∈ world.store.documents, document.documentId = a.documentId →
      document.access = a.manifest.access) ∧
    (∀ chunk ∈ world.store.chunks, chunk.documentVersionId = versionId →
      chunk.access = a.manifest.access)

/-! ## 2. What is left alone -/

/-- The documents keep their access, the versions are the same and so are the chunks. -/
structure Store.Keeps (store store' : Store) : Prop where
  documents : store'.documents.map (fun d => (d.documentId, d.access)) =
    store.documents.map (fun d => (d.documentId, d.access))
  versions : store'.versions.map (·.documentVersionId) = store.versions.map (·.documentVersionId)
  chunks : store'.chunks = store.chunks

variable {d : Deployment} {store store' : Store}

theorem Store.Keeps.trans {store'' : Store} (h : store.Keeps store') (h' : store'.Keeps store'') :
    store.Keeps store'' :=
  ⟨h'.documents.trans h.documents, h'.versions.trans h.versions, h'.chunks.trans h.chunks⟩

/-- A table update that leaves a column alone. -/
theorem map_update_column {α β : Type} {column : α → β} {change : α → α}
    (hchange : ∀ a, column (change a) = column a) (rows : List α) :
    (rows.map change).map column = rows.map column := by
  rw [List.map_map]
  exact List.map_congr_left fun a _ => hchange a

theorem updateDocument_keeps (documentId : Uuid) (change : Document → Document)
    (hchange : ∀ d, (change d).documentId = d.documentId ∧ (change d).access = d.access) :
    store.Keeps (store.updateDocument documentId change) where
  documents := by
    refine map_update_column (fun d => ?_) store.documents
    split
    · rw [(hchange d).1, (hchange d).2]
    · rfl
  versions := rfl
  chunks := rfl

theorem mapVersions_keeps {change : DocumentVersion → DocumentVersion}
    (hchange : ∀ v, (change v).documentVersionId = v.documentVersionId) :
    store.Keeps { store with versions := store.versions.map change } where
  documents := rfl
  versions := map_update_column hchange store.versions
  chunks := rfl

theorem updateVersion_keeps {versionId : Uuid} {change : DocumentVersion → DocumentVersion}
    (hchange : ∀ v, (change v).documentVersionId = v.documentVersionId) :
    store.Keeps (store.updateVersion versionId change) := by
  refine mapVersions_keeps fun v => ?_
  split
  · exact hchange v
  · rfl

theorem supersededVersion_id {documentId versionId : Uuid} (v : DocumentVersion) :
    (supersededVersion documentId versionId v).documentVersionId = v.documentVersionId := by
  unfold supersededVersion
  split <;> rfl

theorem publishedVersion_id {documentId versionId processingId : Uuid} (v : DocumentVersion) :
    (publishedVersion documentId versionId processingId v).documentVersionId =
      v.documentVersionId := by
  unfold publishedVersion
  split
  · rfl
  · exact supersededVersion_id v

theorem upsertManifest_keeps {tenantId : Option Uuid} {sourceId : Uuid} {manifestKey : String}
    {write : ManifestEntry → ManifestEntry} :
    store.Keeps (upsertManifest store tenantId sourceId manifestKey write) := by
  unfold upsertManifest
  dsimp only
  split <;> exact ⟨rfl, rfl, rfl⟩

/-- **What no command changes.** -/
theorem command_keeps {action : Action} (h : command d action store = some store') :
    store.Keeps store' := by
  cases command_commanded h with
  | governed | decided | created | uploaded => exact ⟨rfl, rfl, rfl⟩
  | imported => exact upsertManifest_keeps
  | authorized => exact upsertManifest_keeps.trans ⟨rfl, rfl, rfl⟩
  | approved => exact updateDocument_keeps _ _ fun _ => ⟨rfl, rfl⟩
  | @published tenantId versionId processingId document =>
      have hdocument : store.Keeps (store.updateDocument document.documentId fun d =>
          { d with rowVersion := d.rowVersion + 1 }) := updateDocument_keeps _ _ fun _ => ⟨rfl, rfl⟩
      exact hdocument.trans ⟨rfl, map_update_column publishedVersion_id _, rfl⟩
  | superseded => exact mapVersions_keeps supersededVersion_id
  | @retired documentId versionId =>
      have hdocument : store.Keeps (store.updateDocument documentId fun d =>
          { d with approvalStatus := .retired, activeFlag := false, rowVersion := d.rowVersion + 1 }) :=
        updateDocument_keeps _ _ fun _ => ⟨rfl, rfl⟩
      exact hdocument.trans (updateVersion_keeps fun _ => rfl)

theorem finalizeRun_keeps {now : Instant} {work : AcquisitionWork} :
    store.Keeps (finalizeRun now work store) := by
  unfold finalizeRun
  dsimp only
  split <;> exact ⟨rfl, rfl, rfl⟩

theorem finalizeRun_documents {now : Instant} {work : AcquisitionWork} :
    (finalizeRun now work store).documents = store.documents := by
  unfold finalizeRun
  dsimp only
  split <;> rfl

theorem startProcessing_keeps {now : Instant} {model : EmbeddingModel} {key : ProcessingKey}
    {work : ProcessingWork} {result : Uuid × Bool}
    (h : (startProcessing now model key work).run store = .ok (result, store')) :
    store.Keeps store' := by
  cases startProcessing_started h <;> exact ⟨rfl, rfl, rfl⟩

theorem persist_rows {py : Runtime} {now : Instant} {modelCode : String} {work : ProcessingWork}
    {processingId : Uuid} {chunks : List Chunk} {status : ValidationStatus} {u : Unit}
    (h : (persist py now modelCode work processingId chunks status).run store = .ok (u, store')) :
    store'.documents = store.documents ∧
      store'.versions.map (·.documentVersionId) = store.versions.map (·.documentVersionId) ∧
      store'.chunks = store.chunks ++ chunks.map (chunkRow py work processingId) := by
  obtain ⟨embeddings, rfl⟩ := persist_eq_ok h
  refine ⟨rfl, map_update_column (fun v => ?_) store.versions, rfl⟩
  split <;> rfl

theorem processingFailed_keeps {settings : WorkerSettings} {now : Instant} {work : ProcessingWork}
    {processingId : Option Uuid} {code : String} {final : Bool} :
    store.Keeps (processingFailed settings now work processingId code final store) := by
  unfold processingFailed
  dsimp only
  have hversion : ∀ v : DocumentVersion, ({ v with
      extractionStatus := .failed, validationStatus := .failed } : DocumentVersion).documentVersionId
        = v.documentVersionId := fun _ => rfl
  cases processingId <;> split
  · exact ⟨rfl, (updateVersion_keeps hversion).versions, rfl⟩
  · exact ⟨rfl, rfl, rfl⟩
  · exact ⟨rfl, (updateVersion_keeps hversion).versions, rfl⟩
  · exact ⟨rfl, rfl, rfl⟩

/-! ## 3. The way of the access to the chunks -/

/-- The document version is there. -/
def Store.HasVersion (store : Store) (versionId : Uuid) : Prop :=
  versionId ∈ store.versions.map (·.documentVersionId)

/-- **The foreign keys and the copies of the access**, on the way from the entry to the
    chunks. -/
structure World.Labelled (world : World) : Prop where
  documents : ∀ a ∈ world.store.documents, ∀ b ∈ world.store.documents,
    a.documentId = b.documentId → a.access = b.access
  itemVersion : ∀ item ∈ world.store.items, ∀ v ∈ item.documentVersionId, world.store.HasVersion v
  chunkVersion : ∀ chunk ∈ world.store.chunks, world.store.HasVersion chunk.documentVersionId
  workVersion : ∀ call ∈ world.processings, ∀ work ∈ call.phase.work,
    world.store.HasVersion work.documentVersionId
  acquiredVersion : ∀ a ∈ world.acquired, ∀ v ∈ a.versionId, world.store.HasVersion v
  acquiredDocument : ∀ a ∈ world.acquired, ∀ v ∈ a.versionId,
    ∃ document ∈ world.store.documents, document.documentId = a.documentId
  serves : world.Serves
  itemDocument : ∀ a ∈ world.acquired, ∀ v ∈ a.versionId, ∀ item ∈ world.store.items,
    item.documentVersionId = some v → item.documentId = some a.documentId
  workAccess : ∀ a ∈ world.acquired, ∀ v ∈ a.versionId, ∀ call ∈ world.processings,
    ∀ work ∈ call.phase.work, work.documentVersionId = v → work.access = a.manifest.access

/-- A work that a call had before, or that was loaded from an item and its document. -/
def World.Knows (world : World) (work : ProcessingWork) : Prop :=
  (∃ call ∈ world.processings, work ∈ call.phase.work) ∨
    ∃ item ∈ world.store.items, item.documentVersionId = some work.documentVersionId ∧
      ∃ document ∈ world.store.documents, item.documentId = some document.documentId ∧
        work.access = document.access

theorem Store.Keeps.hasVersion (h : store.Keeps store') {v : Uuid} :
    store'.HasVersion v ↔ store.HasVersion v := by
  unfold Store.HasVersion
  rw [h.versions]

theorem mem_of_map_eq {α β : Type} {f : α → β} {xs ys : List α} (h : xs.map f = ys.map f) {x : α}
    (hx : x ∈ xs) : ∃ y ∈ ys, f y = f x := by
  have hmem : f x ∈ ys.map f := h ▸ List.mem_map_of_mem hx
  exact List.mem_map.mp hmem

/-- A work that is known reads its version's access. -/
theorem World.Labelled.known {world : World} (h : world.Labelled) {work : ProcessingWork}
    (hwork : world.Knows work) :
    world.store.HasVersion work.documentVersionId ∧ ∀ a ∈ world.acquired,
      a.versionId = some work.documentVersionId → work.access = a.manifest.access := by
  rcases hwork with ⟨call, hcall, hwork⟩ | ⟨item, hitem, hversion, document, hdocument, hid, haccess⟩
  · exact ⟨h.workVersion call hcall work hwork,
      fun a ha hv => h.workAccess a ha _ hv call hcall work hwork rfl⟩
  · refine ⟨h.itemVersion item hitem _ hversion, fun a ha hv => ?_⟩
    have hsame : a.documentId = document.documentId := by
      have hitemDocument := h.itemDocument a ha _ hv item hitem hversion
      exact Option.some.inj (hitemDocument.symm.trans hid)
    rw [haccess]
    exact (h.serves a ha _ hv).1 document hdocument hsame.symm

/-- An item comes from one with the same version and document, or has no version. -/
def ItemsCarried (items items' : List RunItem) : Prop :=
  ∀ item ∈ items', item.documentVersionId = none ∨ ∃ old ∈ items,
    old.documentVersionId = item.documentVersionId ∧ old.documentId = item.documentId

theorem ItemsCarried.refl (items : List RunItem) : ItemsCarried items items :=
  fun item hitem => Or.inr ⟨item, hitem, rfl, rfl⟩

theorem ItemsCarried.finalized {items : List RunItem} {now : Instant} {work : AcquisitionWork}
    (h : ItemsCarried items store.items) : ItemsCarried items (finalizeRun now work store).items := by
  rw [finalizeRun_items]
  exact h

/-- **A step that stores no content keeps the labels**: it may move items on, load work
    and write chunks of work that was loaded. -/
theorem World.Labelled.carried {world world' : World} (h : world.Labelled)
    (hdocuments : world'.store.documents.map (fun d => (d.documentId, d.access)) =
      world.store.documents.map (fun d => (d.documentId, d.access)))
    (hversions : world'.store.versions.map (·.documentVersionId) =
      world.store.versions.map (·.documentVersionId))
    (hitems : ItemsCarried world.store.items world'.store.items)
    (hchunks : ∀ chunk ∈ world'.store.chunks, chunk ∈ world.store.chunks ∨
      ∃ work, world.Knows work ∧ chunk.documentVersionId = work.documentVersionId ∧
        chunk.access = work.access)
    (hcalls : ∀ call ∈ world'.processings, ∀ work ∈ call.phase.work, world.Knows work)
    (hacquired : ∀ a ∈ world'.acquired, ∀ v ∈ a.versionId, a ∈ world.acquired) :
    world'.Labelled := by
  have hversion : ∀ v, world.store.HasVersion v → world'.store.HasVersion v := by
    intro v hv
    unfold Store.HasVersion
    rw [hversions]
    exact hv
  have hdocument : ∀ a ∈ world'.store.documents, ∃ old ∈ world.store.documents,
      old.documentId = a.documentId ∧ old.access = a.access := by
    intro a ha
    obtain ⟨old, hold, heq⟩ := mem_of_map_eq hdocuments ha
    exact ⟨old, hold, congrArg Prod.fst heq, congrArg Prod.snd heq⟩
  constructor
  · intro a ha b hb hab
    obtain ⟨olda, holda, haid, haaccess⟩ := hdocument a ha
    obtain ⟨oldb, holdb, hbid, hbaccess⟩ := hdocument b hb
    rw [← haaccess, ← hbaccess]
    exact h.documents olda holda oldb holdb (by rw [haid, hbid, hab])
  · intro item hitem v hv
    rcases hitems item hitem with hnone | ⟨old, hold, hold_version, _⟩
    · rw [hnone] at hv
      cases hv
    · exact hversion v (h.itemVersion old hold v (hold_version ▸ hv))
  · intro chunk hchunk
    rcases hchunks chunk hchunk with hold | ⟨work, hwork, hv, _⟩
    · exact hversion _ (h.chunkVersion chunk hold)
    · exact hv ▸ hversion _ (h.known hwork).1
  · exact fun call hcall work hwork => hversion _ (h.known (hcalls call hcall work hwork)).1
  · exact fun a ha v hv => hversion v (h.acquiredVersion a (hacquired a ha v hv) v hv)
  · intro a ha v hv
    obtain ⟨document, hmem, hid⟩ := h.acquiredDocument a (hacquired a ha v hv) v hv
    obtain ⟨new, hnew, heq⟩ := mem_of_map_eq hdocuments.symm hmem
    exact ⟨new, hnew, (congrArg Prod.fst heq).trans hid⟩
  · intro a ha v hv
    have hold := hacquired a ha v hv
    constructor
    · intro document hmem hid
      obtain ⟨old, hold_mem, hold_id, haccess⟩ := hdocument document hmem
      rw [← haccess]
      exact (h.serves a hold v hv).1 old hold_mem (hold_id.trans hid)
    · intro chunk hchunk hchunk_version
      rcases hchunks chunk hchunk with hold_mem | ⟨work, hwork, hwork_version, haccess⟩
      · exact (h.serves a hold v hv).2 chunk hold_mem hchunk_version
      · rw [haccess]
        refine (h.known hwork).2 a hold ?_
        rw [← hwork_version, hchunk_version]
        exact hv
  · intro a ha v hv item hitem hitem_version
    rcases hitems item hitem with hnone | ⟨old, hold, hold_version, hold_document⟩
    · rw [hnone] at hitem_version
      cases hitem_version
    · rw [← hold_document]
      exact h.itemDocument a (hacquired a ha v hv) v hv old hold (hold_version.trans hitem_version)
  · intro a ha v hv call hcall work hwork hwork_version
    refine (h.known (hcalls call hcall work hwork)).2 a (hacquired a ha v hv) ?_
    rw [hwork_version]
    exact hv

/-! ## 4. Storing content -/

/-- What is stored: a fresh version of a document with the access of the entry, and the
    item of the call with both. -/
structure Stored (entry : ManifestEntry) (document : Document) (versionId : Uuid)
    (store store' : Store) : Prop where
  fresh : ¬ store.HasVersion versionId
  documents : ∀ a ∈ store'.documents, a ∈ store.documents ∨ a = document
  kept : ∀ a ∈ store.documents, a ∈ store'.documents
  stored : document ∈ store'.documents
  access : ∀ a ∈ store'.documents, a.documentId = document.documentId → a.access = entry.access
  versions : ∀ v, store'.HasVersion v ↔ store.HasVersion v ∨ v = versionId
  items : ∀ item ∈ store'.items, item ∈ store.items ∨
    item.documentVersionId = some versionId ∧ item.documentId = some document.documentId
  chunks : store'.chunks = store.chunks

/-- **Storing content of the document's access keeps the labels.** -/
theorem World.Labelled.stored {world : World} {entry : ManifestEntry} {document : Document}
    {versionId : Uuid} {store' : Store} {acquisitions : List AcquisitionCall}
    (h : world.Labelled) (hstored : Stored entry document versionId world.store store') :
    World.Labelled
      { world with
        store := store'
        acquisitions
        acquired := world.acquired ++ [⟨entry, document.documentId, some versionId⟩] } := by
  have hversion : ∀ v, world.store.HasVersion v → store'.HasVersion v ∧ v ≠ versionId := by
    intro v hv
    refine ⟨(hstored.versions v).mpr (Or.inl hv), ?_⟩
    rintro rfl
    exact hstored.fresh hv
  -- a document that was acquired before keeps its access: it is one of the old ones
  have hold_access : ∀ a ∈ world.acquired, ∀ v ∈ a.versionId, ∀ b ∈ store'.documents,
      b.documentId = a.documentId → b.access = a.manifest.access := by
    intro a ha v hv b hb hid
    rcases hstored.documents b hb with hold | rfl
    · exact (h.serves a ha v hv).1 b hold hid
    · obtain ⟨old, hold, hold_id⟩ := h.acquiredDocument a ha v hv
      have hnew := hstored.access old (hstored.kept old hold) (hold_id.trans hid.symm)
      rw [hstored.access b hb rfl, ← hnew]
      exact (h.serves a ha v hv).1 old hold hold_id
  have hcases : ∀ {P : Acquired → Uuid → Prop},
      (∀ a ∈ world.acquired, ∀ v ∈ a.versionId, P a v) →
      P ⟨entry, document.documentId, some versionId⟩ versionId →
      ∀ a ∈ world.acquired ++ [⟨entry, document.documentId, some versionId⟩],
        ∀ v ∈ a.versionId, P a v := by
    intro P hold hnew a ha v hv
    rcases List.mem_append.mp ha with hmem | hmem
    · exact hold a hmem v hv
    · obtain rfl := List.mem_singleton.mp hmem
      obtain rfl : versionId = v := Option.some.inj hv
      exact hnew
  constructor
  · intro a ha b hb hab
    rcases hstored.documents a ha with holda | rfl
    · rcases hstored.documents b hb with holdb | rfl
      · exact h.documents a holda b holdb hab
      · rw [hstored.access a ha hab, hstored.access b hb rfl]
    · rw [hstored.access a ha rfl, hstored.access b hb hab.symm]
  · intro item hitem v hv
    rcases hstored.items item hitem with hold | ⟨hnew, _⟩
    · exact (hversion v (h.itemVersion item hold v hv)).1
    · rw [hnew] at hv
      exact (hstored.versions v).mpr (Or.inr (Option.some.inj hv).symm)
  · intro chunk hchunk
    rw [hstored.chunks] at hchunk
    exact (hversion _ (h.chunkVersion chunk hchunk)).1
  · exact fun call hcall work hwork => (hversion _ (h.workVersion call hcall work hwork)).1
  · refine hcases (fun a ha v hv => (hversion v (h.acquiredVersion a ha v hv)).1) ?_
    exact (hstored.versions _).mpr (Or.inr rfl)
  · refine hcases (fun a ha v hv => ?_) ⟨document, hstored.stored, rfl⟩
    obtain ⟨old, hold, hid⟩ := h.acquiredDocument a ha v hv
    exact ⟨old, hstored.kept old hold, hid⟩
  · refine hcases (fun a ha v hv => ⟨hold_access a ha v hv, fun chunk hchunk hchunk_version => ?_⟩)
      ⟨hstored.access, fun chunk hchunk hchunk_version => ?_⟩
    · rw [hstored.chunks] at hchunk
      exact (h.serves a ha v hv).2 chunk hchunk hchunk_version
    · rw [hstored.chunks] at hchunk
      exact absurd hchunk_version (hversion _ (h.chunkVersion chunk hchunk)).2
  · refine hcases (fun a ha v hv item hitem hitem_version => ?_) (fun item hitem hitem_version => ?_)
    · rcases hstored.items item hitem with hold | ⟨hnew, _⟩
      · exact h.itemDocument a ha v hv item hold hitem_version
      · obtain rfl : versionId = v := Option.some.inj (hnew.symm.trans hitem_version)
        exact absurd rfl (hversion _ (h.acquiredVersion a ha _ hv)).2
    · rcases hstored.items item hitem with hold | ⟨_, hnew⟩
      · exact absurd rfl (hversion _ (h.itemVersion item hold _ hitem_version)).2
      · exact hnew
  · refine hcases h.workAccess (fun call hcall work hwork hwork_version => ?_)
    exact absurd hwork_version (hversion _ (h.workVersion call hcall work hwork)).2

/-! ## 5. Every step -/

theorem itemsCarried_updateItem {itemId tenantId : Uuid} {selected : RunItem → Bool}
    {change : RunItem → RunItem} (hchange : ∀ item, (change item).documentVersionId = none ∨
      (change item).documentVersionId = item.documentVersionId ∧
        (change item).documentId = item.documentId) :
    ItemsCarried store.items (store.updateItem itemId tenantId selected change).items := by
  intro item hitem
  rcases mem_updateItem hitem with ⟨hold, _⟩ | ⟨old, hold, _, _, _, rfl⟩
  · exact Or.inr ⟨item, hold, rfl, rfl⟩
  · rcases hchange old with hnone | ⟨hversion, hdocument⟩
    · exact Or.inl hnone
    · exact Or.inr ⟨old, hold, hversion.symm, hdocument.symm⟩

theorem itemsCarried_command {action : Action} (h : command d action store = some store') :
    ItemsCarried store.items store'.items := by
  intro item hitem
  cases command_items h hitem with
  | kept hold => exact Or.inr ⟨item, hold, rfl, rfl⟩
  | created hnew => exact Or.inl hnew.noVersion
  | queued hold _ heq => exact Or.inr ⟨_, hold, by rw [heq], by rw [heq]⟩
  | published hold _ heq _ =>
      refine Or.inr ⟨_, hold, ?_, ?_⟩ <;>
      · rw [heq, publishedItem]
        split <;> rfl

/-- The work a processing call loads has the access of the document of its item. -/
theorem loadProcessing_known {settings : WorkerSettings} {now : Instant} {claim : Claim}
    {work : ProcessingWork} (h : loadProcessing settings now claim store = .ok work) :
    ∃ item ∈ store.items, item.documentVersionId = some work.documentVersionId ∧
      ∃ document ∈ store.documents, item.documentId = some document.documentId ∧
        work.access = document.access := by
  unfold loadProcessing at h
  dsimp only at h
  split at h
  · next item hitem =>
      split at h
      · next document hdocument =>
          split at h
          · next version hversion =>
              split at h
              · split at h
                · cases h
                  refine ⟨item, List.mem_of_find?_eq_some hitem, ?_, document,
                    List.mem_of_find?_eq_some hdocument, ?_, rfl⟩
                  · have hfound := List.find?_some hversion
                    exact (of_decide_eq_true hfound).symm
                  · have hfound := List.find?_some hdocument
                    exact (of_decide_eq_true hfound).symm
                · cases h
              · cases h
          · cases h
      · cases h
  · cases h

/-- **New content is stored into documents of its entry's access**: the document that is
    there when a call completes has it, or the content is known. -/
def SameAccess (world : World) : Action → Prop
  | .acquisition index (.complete _ content) => ∀ call ∈ world.acquisitions[index]?,
      ∀ work ∈ call.phase.work,
        ∀ document ∈ world.store.documentOf work.source.sourceId work.manifest.manifestKey,
          document.access = work.manifest.access ∨
            (world.store.versionsOf document.documentId).any
              (·.sha256Checksum = content.checksum) = true
  | _ => True

instance (world : World) : (action : Action) → Decidable (SameAccess world action)
  | .acquisition index (.complete _ content) => inferInstanceAs (Decidable (∀ call ∈
      world.acquisitions[index]?, ∀ work ∈ call.phase.work, ∀ document ∈
        world.store.documentOf work.source.sourceId work.manifest.manifestKey,
          document.access = work.manifest.access ∨
            (world.store.versionsOf document.documentId).any
              (·.sha256Checksum = content.checksum) = true))
  | .acquisition _ (.load _) | .acquisition _ (.block _) | .acquisition _ (.skip _ _)
  | .acquisition _ (.fail _ _ _) | .processing _ _ | .govern _ _ | .importEntry _ _
  | .decideManifest _ _ _ | .createRun _ _ _ | .createRefreshRun _ _ _ _ | .authorizeUpload _ _ _
  | .completeUpload _ _ _ | .approveDocument _ _ _ _ | .publishDocument _ _ _ _ _
  | .retireDocument _ _ _ | .claimAcquisition _ _ | .claimProcessing _ _ | .leaveAcquisition _
  | .leaveProcessing _ => isTrue trivial

/-- What `_complete` leaves when it stores content. -/
theorem stored_of_finished {now : Instant} {work : AcquisitionWork} {checksum : String}
    {classified : Option ChangeClassification} {document : Document} {version : DocumentVersion}
    {documents : List Document}
    (hfresh : ∀ v ∈ store.versions, v.documentVersionId ≠ version.documentVersionId)
    (hdocuments : ∀ a ∈ documents, a ∈ store.documents ∨ a = document)
    (hkept : ∀ a ∈ store.documents, a ∈ documents) (hstored : document ∈ documents)
    (haccess : ∀ a ∈ documents, a.documentId = document.documentId →
      a.access = work.manifest.access) :
    Stored work.manifest document version.documentVersionId store
      (finalizeRun now work (finishItem now work true checksum document.documentId
        (some version.documentVersionId) classified
        { store with documents := documents, versions := store.versions ++ [version] })) where
  fresh := by
    intro hversion
    obtain ⟨v, hv, heq⟩ := List.mem_map.mp hversion
    exact hfresh v hv heq
  documents := by
    rw [finalizeRun_documents]
    exact hdocuments
  kept := by
    rw [finalizeRun_documents]
    exact hkept
  stored := by
    rw [finalizeRun_documents]
    exact hstored
  access := by
    rw [finalizeRun_documents]
    exact haccess
  versions := by
    intro v
    rw [finalizeRun_keeps.hasVersion]
    change v ∈ (store.versions ++ [version]).map (·.documentVersionId) ↔ _
    rw [List.map_append, List.mem_append]
    exact or_congr Iff.rfl List.mem_singleton
  items := by
    intro item hitem
    rw [finalizeRun_items] at hitem
    rcases mem_updateItem hitem with ⟨hold, _⟩ | ⟨old, _, _, _, _, rfl⟩
    · exact Or.inl hold
    · exact Or.inr ⟨rfl, rfl⟩
  chunks := finalizeRun_keeps.chunks

/-- **Every step that stores under the same access keeps the labels.** -/
theorem World.Labelled.step {world world' : World} {action : Action} (h : world.Labelled)
    (hsame : SameAccess world action) (hstep : WorldStep d world action world') :
    world'.Labelled := by
  have hknown : ∀ call ∈ world.processings, ∀ work ∈ call.phase.work, world.Knows work :=
    fun call hcall work hwork => Or.inl ⟨call, hcall, hwork⟩
  cases hstep.stepped with
  | command hcommand =>
      have hkeeps := command_keeps hcommand
      exact h.carried hkeeps.documents hkeeps.versions (itemsCarried_command hcommand)
        (fun chunk hchunk => Or.inl (hkeeps.chunks ▸ hchunk)) hknown (fun a ha _ _ => ha)
  | claimAcquisition hcandidate =>
      exact h.carried rfl rfl (itemsCarried_updateItem fun _ => Or.inr ⟨rfl, rfl⟩)
        (fun chunk hchunk => Or.inl hchunk) hknown (fun a ha _ _ => ha)
  | @acquisition index event call phase store' acquired hcall hevent =>
      have hcarried : store'.documents.map (fun d => (d.documentId, d.access)) =
            world.store.documents.map (fun d => (d.documentId, d.access)) →
          store'.versions.map (·.documentVersionId) =
            world.store.versions.map (·.documentVersionId) →
          store'.chunks = world.store.chunks → ItemsCarried world.store.items store'.items →
          (∀ a ∈ acquired, a.versionId = none) → World.Labelled
            { world with
              store := store'
              acquisitions := world.acquisitions.set index { call with phase }
              acquired := world.acquired ++ acquired } := by
        intro hdocuments hversions hchunks hitems hnone
        refine h.carried hdocuments hversions hitems
          (fun chunk hchunk => Or.inl (hchunks ▸ hchunk)) hknown (fun a ha v hv => ?_)
        rcases List.mem_append.mp ha with hold | hnew
        · exact hold
        · rw [hnone a hnew] at hv
          cases hv
      cases hevent with
      | load => exact hcarried rfl rfl rfl (.refl _) (by simp)
      | block | skip | fail =>
          refine hcarried finalizeRun_keeps.documents finalizeRun_keeps.versions
            finalizeRun_keeps.chunks (ItemsCarried.finalized ?_) (by simp)
          exact itemsCarried_updateItem fun _ => Or.inr ⟨rfl, rfl⟩
      | @complete now work content store' documentId versionId hphase hreasons hcomplete =>
          have hwork : work ∈ call.phase.work := by simp [hphase, AcquisitionPhase.work]
          cases completeAcquisition_completed hcomplete with
          | known hdocument =>
              refine hcarried finalizeRun_keeps.documents finalizeRun_keeps.versions
                finalizeRun_keeps.chunks (ItemsCarried.finalized ?_) (by simp)
              exact itemsCarried_updateItem fun _ => Or.inl rfl
          | @stored document version hdocument hnew hversion hfresh =>
              have hmem := List.mem_of_find?_eq_some hdocument
              have haccess : document.access = work.manifest.access := by
                rcases hsame call hcall work hwork document hdocument with haccess | hknown
                · exact haccess
                · rw [hnew] at hknown
                  cases hknown
              refine h.stored (stored_of_finished hfresh (fun a ha => Or.inl ha) (fun a ha => ha)
                hmem (fun a ha hid => ?_))
              rw [h.documents a ha document hmem hid, haccess]
          | @created document version hdocument hnone hunused hversion hfresh =>
              refine h.stored (stored_of_finished hfresh (fun a ha => ?_)
                (fun a ha => List.mem_append_left _ ha)
                (List.mem_append_right _ (List.mem_singleton_self _)) (fun a ha hid => ?_))
              · rw [List.mem_append, List.mem_singleton] at ha
                exact ha
              · rcases List.mem_append.mp ha with hold | hself
                · exact absurd hid (hunused a hold)
                · rw [List.mem_singleton.mp hself, hdocument]
                  rfl
  | leaveAcquisition =>
      exact h.carried rfl rfl (.refl _) (fun chunk hchunk => Or.inl hchunk) hknown
        (fun a ha _ _ => ha)
  | claimProcessing hcandidate =>
      refine h.carried rfl rfl (itemsCarried_updateItem fun _ => Or.inr ⟨rfl, rfl⟩)
        (fun chunk hchunk => Or.inl hchunk) (fun call hcall work hwork => ?_) (fun a ha _ _ => ha)
      rcases List.mem_append.mp hcall with hold | hnew
      · exact hknown call hold work hwork
      · rw [List.mem_singleton.mp hnew] at hwork
        cases hwork
  | @processing index event call phase store' hcall hevent =>
      have hmem := List.mem_of_getElem? hcall
      have hcalls : (∀ work ∈ phase.work, world.Knows work) →
          ∀ other ∈ world.processings.set index { call with phase }, ∀ work ∈ other.phase.work,
            world.Knows work := by
        intro hphase other hother work hwork
        rcases List.mem_or_eq_of_mem_set hother with hold | rfl
        · exact hknown other hold work hwork
        · exact hphase work hwork
      cases hevent with
      | load hphase hload =>
          refine h.carried rfl rfl (.refl _) (fun chunk hchunk => Or.inl hchunk)
            (hcalls fun work hwork => ?_) (fun a ha _ _ => ha)
          cases hwork
          exact Or.inr (loadProcessing_known hload)
      | @start now work parser model processing store' hphase hstart =>
          have hkeeps := startProcessing_keeps hstart
          refine h.carried hkeeps.documents hkeeps.versions ?_
            (fun chunk hchunk => Or.inl (hkeeps.chunks ▸ hchunk)) (hcalls fun work' hwork => ?_)
            (fun a ha _ _ => ha)
          · rw [startProcessing_items hstart]
            exact .refl _
          · cases hwork
            exact hknown call hmem work (by simp [hphase, ProcessingPhase.work])
      | replay hphase =>
          exact h.carried rfl rfl (itemsCarried_updateItem fun _ => Or.inr ⟨rfl, rfl⟩)
            (fun chunk hchunk => Or.inl hchunk) (hcalls (by simp [ProcessingPhase.work]))
            (fun a ha _ _ => ha)
      | @persist now work processingId parsed context status u store' hphase hpersist =>
          obtain ⟨hdocuments, hversions, hchunks⟩ := persist_rows hpersist
          refine h.carried (congrArg _ hdocuments) hversions ?_ (fun chunk hchunk => ?_)
            (hcalls (by simp [ProcessingPhase.work])) (fun a ha _ _ => ha)
          · rw [persist_items hpersist]
            exact itemsCarried_updateItem fun _ => Or.inr ⟨rfl, rfl⟩
          · rw [hchunks] at hchunk
            rcases List.mem_append.mp hchunk with hold | hnew
            · exact Or.inl hold
            · obtain ⟨c, _, rfl⟩ := List.mem_map.mp hnew
              exact Or.inr ⟨work, hknown call hmem work (by simp [hphase, ProcessingPhase.work]),
                rfl, rfl⟩
      | fail hphase =>
          refine h.carried processingFailed_keeps.documents processingFailed_keeps.versions ?_
            (fun chunk hchunk => ?_) (hcalls (by simp [ProcessingPhase.work])) (fun a ha _ _ => ha)
          · rw [processingFailed_items]
            exact itemsCarried_updateItem fun _ => Or.inr ⟨rfl, rfl⟩
          · rw [processingFailed_keeps.chunks] at hchunk
            exact Or.inl hchunk
  | leaveProcessing =>
      exact h.carried rfl rfl (.refl _) (fun chunk hchunk => Or.inl hchunk)
        (fun call hcall => hknown call (List.mem_of_mem_eraseIdx hcall)) (fun a ha _ _ => ha)

/-- Nothing is acquired or being processed, and keys are keys. -/
structure World.Fresh (world : World) : Prop where
  noProcessing : world.processings = []
  nothingAcquired : world.acquired = []
  documentKey : (world.store.documents.map (·.documentId)).Nodup
  itemVersion : ∀ item ∈ world.store.items, ∀ v ∈ item.documentVersionId, world.store.HasVersion v
  chunkVersion : ∀ chunk ∈ world.store.chunks, world.store.HasVersion chunk.documentVersionId

theorem World.Fresh.labelled {world : World} (h : world.Fresh) : world.Labelled where
  documents := by
    intro a ha b hb hid
    rw [List.inj_on_of_nodup_map h.documentKey ha hb hid]
  itemVersion := h.itemVersion
  chunkVersion := h.chunkVersion
  workVersion := by simp [h.noProcessing]
  acquiredVersion := by simp [h.nothingAcquired]
  acquiredDocument := by simp [h.nothingAcquired]
  serves := by simp [World.Serves, h.nothingAcquired]
  itemDocument := by simp [h.nothingAcquired]
  workAccess := by simp [h.nothingAcquired]

/-- **Acquired content is served for whom it was acquired**, in every run that stores
    content under the same access only. -/
theorem acquired_content_keeps_access {world₀ world : World} {actions : List Action}
    (hfresh : world₀.Fresh)
    (hrun : Run (Guarded SameAccess (WorldStep d)) world₀ actions world) : world.Serves := by
  have hlabelled : world.Labelled :=
    hrun.invariant hfresh.labelled fun _ _ _ h hs => h.step hs.1 hs.2
  exact hlabelled.serves

/-! ## 6. An entry that is uploaded again -/

/-- The digests and identifiers of two editions of a manual. -/
def editionRuntime : Runtime where
  isWord := asciiWord
  sha256 := fun _ => "e3b0c44298fc1c149afbf4c8996fb92427ae41e4649b934ca495991b7852b855"
  uuid5 := fun name =>
    if name = "helpdesk:00000000-0000-0000-0000-000000000002:manual" then
      249308141270859534702756631672018513803
    else if name = "helpdesk:bb8f0060-07c6-5970-a3cc-be17c5712f8b:" ++
        "38ce8ce76f0ae6f2c9d8eceee86fc33df8e7cb237dc4fb43249f36e8f92eef62" then
      42065569962623701545548777262629609206
    else 313005048924767222336142296984665993386

def editionDeployment : Deployment where
  py := editionRuntime
  chunking := defaultChunking
  modelCode := "DEFAULT_1536"
  oracleEnabled := false

/-- The first edition, for every employee. -/
def firstEdition : ManualUploadCommand where
  sourceId := 2
  manifestKey := "manual"
  documentTitle := "Manual"
  documentType := "USER_GUIDE"
  audienceCode := .employee
  securityClassification := .internalUse
  sha256Checksum := "38ce8ce76f0ae6f2c9d8eceee86fc33df8e7cb237dc4fb43249f36e8f92eef62"
  filename := "manual.md"
  contentType := "text/markdown"
  fileSizeBytes := 26
  copyrightNotice := some "Example"

/-- The second edition, for administrators only. -/
def secondEdition : ManualUploadCommand :=
  { firstEdition with
    audienceCode := .admin
    securityClassification := .restricted
    sha256Checksum := "e7314bd320ffd070315b8017cccc76f17f5089835c0576857a1a9fa906977742"
    fileSizeBytes := 27 }

def manualsWorld : World where
  store := { emptyStore with sources := [boilerplateSource] }
  acquisitions := []
  processings := []
  acquired := []

theorem manualsWorld_fresh : manualsWorld.Fresh where
  noProcessing := rfl
  nothingAcquired := rfl
  documentKey := by decide
  itemVersion := by simp [manualsWorld, emptyStore]
  chunkVersion := by simp [manualsWorld, emptyStore]

/-- An edition is uploaded and acquired. -/
def acquireEdition (edition : ManualUploadCommand) (itemId : Uuid) : List Action :=
  [.authorizeUpload 0 3 edition, .completeUpload 0 3 itemId,
   .claimAcquisition sampleWorker ⟨0, []⟩, .acquisition 0 (.load 0),
   .acquisition 0 (.complete 0 ⟨edition.sha256Checksum, "text/markdown"⟩), .leaveAcquisition 0]

theorem acquired_content_keeps_access_sample :
    ∃ world : World, world.acquired.map (·.manifest.access) = [(.employee, .internalUse)] ∧
      world.Serves := by
  have hrun : ∃ world, (acquireEdition firstEdition 102).foldlM (fun world action =>
      if SameAccess world action then world.next editionDeployment action else none) manualsWorld =
        some world ∧ world.acquired.map (·.manifest.access) = [(.employee, .internalUse)] := by
    rw [← Option.map_eq_some_iff]
    decide +kernel
  obtain ⟨world, hrun, hacquired⟩ := hrun
  exact ⟨world, hacquired,
    acquired_content_keeps_access manualsWorld_fresh (guarded_run_of_foldlM hrun)⟩

/-- **New content for administrators that employees are served**: the document of the
    first edition keeps its access. -/
theorem reimported_content_served :
    ¬ ∀ (d : Deployment) (world₀ world : World) (actions : List Action), world₀.Fresh →
      Run (WorldStep d) world₀ actions world → world.Serves := by
  intro hclaim
  have hrun : ∃ world, (acquireEdition firstEdition 102 ++ acquireEdition secondEdition 104).foldlM
      (fun world action => world.next editionDeployment action) manualsWorld = some world ∧
        (world.acquired.map (fun a => (a.manifest.access, a.documentId, a.versionId.isSome)),
          world.store.documents.map (fun a => (a.access, a.documentId))) =
        ([((.employee, .internalUse), 249308141270859534702756631672018513803, true),
          ((.admin, .restricted), 249308141270859534702756631672018513803, true)],
          [((.employee, .internalUse), 249308141270859534702756631672018513803)]) := by
    rw [← Option.map_eq_some_iff]
    decide +kernel
  obtain ⟨world, hrun, hrows⟩ := hrun
  have hserves : world.Serves :=
    hclaim editionDeployment manualsWorld world _ manualsWorld_fresh (run_of_foldlM hrun)
  obtain ⟨hacquired, hdocuments⟩ := Prod.mk.inj hrows
  have ha : ((Audience.admin, Classification.restricted), 249308141270859534702756631672018513803,
      true) ∈ world.acquired.map fun a => (a.manifest.access, a.documentId, a.versionId.isSome) := by
    simp [hacquired]
  have hb : ((Audience.employee, Classification.internalUse),
      249308141270859534702756631672018513803) ∈ world.store.documents.map fun a =>
        (a.access, a.documentId) := by
    simp [hdocuments]
  obtain ⟨a, ha, haeq⟩ := List.mem_map.mp ha
  obtain ⟨b, hb, hbeq⟩ := List.mem_map.mp hb
  obtain ⟨haccess, hid, hsome⟩ : a.manifest.access = (.admin, .restricted) ∧
      a.documentId = 249308141270859534702756631672018513803 ∧ a.versionId.isSome = true := by
    simpa using haeq
  obtain ⟨hbaccess, hbid⟩ := Prod.mk.inj hbeq
  obtain ⟨v, hv⟩ := Option.isSome_iff_exists.mp hsome
  have hsame := (hserves a ha v hv).1 b hb (hbid.trans hid.symm)
  rw [hbaccess, haccess] at hsame
  cases hsame

end Helpdesk.Knowledge
