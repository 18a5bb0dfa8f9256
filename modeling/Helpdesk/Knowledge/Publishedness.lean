/-
  File:      Helpdesk/Knowledge/Publishedness.lean
  Subject:   What counts as published: the view `kb.v_active_document_chunk` (alembic
             0030), the error-code listing that reads it
             (apps/api/app/knowledge/error_code_index_repository.py), the documents of
             the reader (reader_repository.py) and those of retrieval.

  * `retrievable_iff`: what retrieval asks of a chunk, apart from who asks, is
    `servedToTenant`;
  * `servedToTenant_active`: such a chunk is in the view;
  * `mem_readerDocuments`: the reader's documents are retrieval's;
  * `published_alike`: the two meanings agree on a chunk exactly when a chunk in the
    view has an approved source, a review that is not overdue and the tenant of its
    document.
-/
import Helpdesk.Knowledge.Retrieval
import Helpdesk.Knowledge.Suppression

namespace Helpdesk.Knowledge

open Helpdesk.Python

variable {store : Store} {directory : Directory} {today : Day} {tenantId : Uuid}
  {principal : RetrievalPrincipal} {document : Document} {version : DocumentVersion}
  {chunk : ChunkRow}

/-! ## 1. The view -/

/-- `kb_source_status_active_ck`: active_flag=(source_status='ACTIVE'). -/
def Source.activeFlag (source : Source) : Bool := source.sourceStatus = .active

structure ActiveRow where
  chunk : ChunkRow
  version : DocumentVersion
  document : Document
  source : Source

/-- `kb.v_active_document_chunk` -/
def Store.activeDocumentChunks (store : Store) (today : Day) : List ActiveRow :=
  store.chunks.flatMap fun c =>
    let versions := store.versions.filter fun dv =>
      dv.documentVersionId = c.documentVersionId && dv.currentVersionFlag &&
        (dv.validationStatus = .passed || dv.validationStatus = .warning) &&
        dv.publishedProcessingVersionId = some c.processingVersionId
    versions.flatMap fun dv =>
      let documents := store.documents.filter fun d =>
        d.documentId = dv.documentId && d.activeFlag && d.approvalStatus = .approved &&
          !d.effectiveFrom.any (today < ·) && !d.effectiveTo.any (· < today)
      documents.flatMap fun d =>
        let sources := store.sources.filter fun s => s.sourceId = d.sourceId && s.activeFlag
        (sources.map fun s => ⟨c, dv, d, s⟩).filter fun row =>
          !store.excluded row.chunk.tenantId row.chunk.chunkId

/-- The chunk is in the view, as one of the document. -/
def Store.InView (store : Store) (today : Day) (chunk : ChunkRow) (document : Document) : Prop :=
  ∃ row ∈ store.activeDocumentChunks today, row.chunk = chunk ∧ row.document = document

/-- The conditions of the view on the rows it joins. -/
structure Store.Active (store : Store) (today : Day) (chunk : ChunkRow) (document : Document)
    (version : DocumentVersion) (source : Source) : Prop where
  chunkMem : chunk ∈ store.chunks
  versionMem : version ∈ store.versions
  versionId : version.documentVersionId = chunk.documentVersionId
  current : version.currentVersionFlag = true
  valid : version.validationStatus = .passed ∨ version.validationStatus = .warning
  processing : version.publishedProcessingVersionId = some chunk.processingVersionId
  documentMem : document ∈ store.documents
  documentId : document.documentId = version.documentId
  active : document.activeFlag = true
  approved : document.approvalStatus = .approved
  effectiveFrom : document.effectiveFrom.any (today < ·) = false
  effectiveTo : document.effectiveTo.any (· < today) = false
  sourceMem : source ∈ store.sources
  sourceId : source.sourceId = document.sourceId
  sourceActive : source.activeFlag = true
  kept : store.excluded chunk.tenantId chunk.chunkId = false

theorem inView_iff : store.InView today chunk document ↔
    ∃ version source, store.Active today chunk document version source := by
  unfold Store.InView Store.activeDocumentChunks
  simp only [List.mem_flatMap, List.mem_filter, List.mem_map, Bool.and_eq_true, Bool.or_eq_true,
    Bool.not_eq_true', decide_eq_true_eq]
  constructor
  · rintro ⟨_, ⟨c, hc, dv, ⟨hdv, ⟨⟨hid, hcurrent⟩, hvalid⟩, hprocessing⟩, d,
      ⟨hd, ⟨⟨⟨hdocument, hactive⟩, happroved⟩, hfrom⟩, hto⟩,
      ⟨s, ⟨hs, hsource, hsourceActive⟩, rfl⟩, hkept⟩, rfl, rfl⟩
    exact ⟨dv, s, hc, hdv, hid, hcurrent, hvalid, hprocessing, hd, hdocument, hactive, happroved,
      hfrom, hto, hs, hsource, hsourceActive, hkept⟩
  · rintro ⟨dv, s, h⟩
    exact ⟨⟨chunk, dv, document, s⟩, ⟨chunk, h.chunkMem, dv,
      ⟨h.versionMem, ⟨⟨h.versionId, h.current⟩, h.valid⟩, h.processing⟩, document,
      ⟨h.documentMem, ⟨⟨⟨h.documentId, h.active⟩, h.approved⟩, h.effectiveFrom⟩, h.effectiveTo⟩,
      ⟨s, ⟨h.sourceMem, h.sourceId, h.sourceActive⟩, rfl⟩, h.kept⟩, rfl, rfl⟩

/-! ## 2. The error-code listing -/

/-- A row of `kb.chunk_error_code`. -/
structure ChunkErrorCode where
  chunkId : Uuid
  tenantId : Uuid
  errorCode : String
  deriving DecidableEq, Repr

/-- The rows of the view an entry is joined with. -/
def Store.joinedRows (store : Store) (today : Day) (entry : ChunkErrorCode) : List ActiveRow :=
  (store.activeDocumentChunks today).filter fun row =>
    row.chunk.chunkId = entry.chunkId && row.document.tenantId = some entry.tenantId

/-- `count(active.chunk_id)` of one error code. -/
def Store.publishedChunkCount (store : Store) (today : Day) (entries : List ChunkErrorCode)
    (tenantId : Uuid) (errorCode : String) : Nat :=
  ((entries.filter fun e => e.tenantId = tenantId && e.errorCode = errorCode).map fun e =>
    (store.joinedRows today e).length).sum

/-- An entry is counted as published when the view has its chunk, under a document of
    the tenant. -/
theorem counted_iff (hkey : (store.chunks.map (·.chunkId)).Nodup) (hchunk : chunk ∈ store.chunks)
    {entry : ChunkErrorCode} (hentry : entry.chunkId = chunk.chunkId) :
    0 < (store.joinedRows today entry).length ↔
      ∃ document, document.tenantId = some entry.tenantId ∧ store.InView today chunk document := by
  rw [List.length_pos_iff_exists_mem]
  simp only [Store.joinedRows, List.mem_filter, Bool.and_eq_true, decide_eq_true_eq]
  constructor
  · rintro ⟨row, hrow, hid, htenant⟩
    obtain ⟨_, _, h⟩ := inView_iff.mp ⟨row, hrow, rfl, rfl⟩
    have hsame : row.chunk = chunk :=
      List.inj_on_of_nodup_map hkey h.chunkMem hchunk (hid.trans hentry)
    exact ⟨row.document, htenant, row, hrow, hsame, rfl⟩
  · rintro ⟨document, htenant, row, hrow, rfl, rfl⟩
    exact ⟨row, hrow, hentry.symm, htenant⟩

/-! ## 3. What retrieval asks of a chunk -/

/-- The conditions of `eligible_documents` and `eligible_chunks` that do not depend on
    who of the tenant asks. -/
def Store.servedToTenant (store : Store) (today : Day) (tenantId : Uuid) (chunk : ChunkRow)
    (document : Document) : Prop :=
  ∃ version ∈ store.versions, version.documentId = document.documentId ∧
    version.servable = true ∧ document.servable today = true ∧
    (store.sources.any fun s => s.sourceId = document.sourceId && s.servable) = true ∧
    visibleTo tenantId document.tenantId = true ∧ chunk.tenantId = tenantId ∧
    chunk.documentVersionId = version.documentVersionId ∧
    version.publishedProcessingVersionId = some chunk.processingVersionId ∧
    store.excluded tenantId chunk.chunkId = false

/-- The conditions on who asks. -/
def Store.opensTo (store : Store) (directory : Directory) (principal : RetrievalPrincipal)
    (document : Document) : Bool :=
  principal.audienceCodes.contains document.audienceCode &&
    principal.securityLevels.contains document.securityClassification &&
    store.permits directory principal document.documentId

/-- **What retrieval asks of a chunk, apart from who asks.** -/
theorem retrievable_iff : store.retrievable directory today principal chunk = true ↔
    ∃ document ∈ store.documents, store.servedToTenant today principal.tenantId chunk document ∧
      store.opensTo directory principal document = true := by
  simp only [Store.retrievable, Store.serves, Store.eligible, Store.servedToTenant, Store.opensTo,
    Bool.and_eq_true, List.any_eq_true, decide_eq_true_eq, Bool.not_eq_true']
  constructor
  · rintro ⟨⟨htenant, d, hd, v, hv, ⟨⟨⟨⟨⟨⟨⟨⟨hdocument, hversion⟩, hservable⟩, hsource⟩, hvisible⟩,
      haudience⟩, hlevel⟩, hpermits⟩, hid⟩, hprocessing⟩, hkept⟩
    exact ⟨d, hd, ⟨v, hv, hdocument, hversion, hservable, hsource, hvisible, htenant, hid,
      hprocessing, hkept⟩, ⟨haudience, hlevel⟩, hpermits⟩
  · rintro ⟨d, hd, ⟨v, hv, hdocument, hversion, hservable, hsource, hvisible, htenant, hid,
      hprocessing, hkept⟩, ⟨haudience, hlevel⟩, hpermits⟩
    exact ⟨⟨htenant, d, hd, v, hv, ⟨⟨⟨⟨⟨⟨⟨⟨hdocument, hversion⟩, hservable⟩, hsource⟩, hvisible⟩,
      haudience⟩, hlevel⟩, hpermits⟩, hid⟩, hprocessing⟩, hkept⟩

/-- What the view does not ask for: an approved source, a review that is not overdue,
    and the tenant of the chunk. -/
structure Store.Governed (store : Store) (today : Day) (tenantId : Uuid) (chunk : ChunkRow)
    (document : Document) : Prop where
  source : ∃ s ∈ store.sources, s.sourceId = document.sourceId ∧ s.servable = true
  review : document.nextReviewDate.any (· < today) = false
  tenant : chunk.tenantId = tenantId

theorem servable_version : version.servable = true ↔ version.currentVersionFlag = true ∧
    (version.validationStatus = .passed ∨ version.validationStatus = .warning) ∧
      version.publishedProcessingVersionId.isSome = true := by
  simp [DocumentVersion.servable, and_assoc]

theorem servable_document : document.servable today = true ↔ document.activeFlag = true ∧
    document.approvalStatus = .approved ∧ document.effectiveFrom.any (today < ·) = false ∧
      document.effectiveTo.any (· < today) = false ∧
        document.nextReviewDate.any (· < today) = false := by
  simp only [Document.servable, Bool.and_eq_true, decide_eq_true_eq, Bool.not_eq_true', and_assoc]

/-- A chunk that is served is governed, and is in the view. -/
theorem servedToTenant_active (hchunk : chunk ∈ store.chunks) (hdocument : document ∈ store.documents)
    (h : store.servedToTenant today tenantId chunk document) :
    store.Governed today tenantId chunk document ∧ store.InView today chunk document := by
  obtain ⟨v, hv, hvdocument, hversion, hservable, hsource, -, htenant, hid, hprocessing, hkept⟩ := h
  obtain ⟨hcurrent, hvalid, -⟩ := servable_version.mp hversion
  obtain ⟨hactive, happroved, hfrom, hto, hreview⟩ := servable_document.mp hservable
  simp only [List.any_eq_true, Bool.and_eq_true, decide_eq_true_eq] at hsource
  obtain ⟨s, hs, hsid, hsservable⟩ := hsource
  have hsactive : s.activeFlag = true := by
    rw [Source.servable, Bool.and_eq_true] at hsservable
    exact hsservable.1
  refine ⟨⟨⟨s, hs, hsid, hsservable⟩, hreview, htenant⟩, inView_iff.mpr ⟨v, s, ?_⟩⟩
  exact ⟨hchunk, hv, hid.symm, hcurrent, hvalid, hprocessing, hdocument, hvdocument.symm, hactive,
    happroved, hfrom, hto, hs, hsid, hsactive, htenant ▸ hkept⟩

/-- A chunk in the view that is governed is served to the tenant of its document. -/
theorem inView_servedToTenant (howner : document.tenantId = some tenantId)
    (hview : store.InView today chunk document)
    (hgoverned : store.Governed today tenantId chunk document) :
    store.servedToTenant today tenantId chunk document := by
  obtain ⟨v, s, h⟩ := inView_iff.mp hview
  obtain ⟨s', hs', hsid, hsservable⟩ := hgoverned.source
  refine ⟨v, h.versionMem, h.documentId.symm, servable_version.mpr ⟨h.current, h.valid, ?_⟩,
    servable_document.mpr ⟨h.active, h.approved, h.effectiveFrom, h.effectiveTo, hgoverned.review⟩,
    ?_, ?_, hgoverned.tenant, h.versionId.symm, h.processing, hgoverned.tenant ▸ h.kept⟩
  · rw [h.processing]
    rfl
  · simp only [List.any_eq_true, Bool.and_eq_true, decide_eq_true_eq]
    exact ⟨s', hs', hsid, hsservable⟩
  · simp [visibleTo, howner]

/-! ## 4. The documents of the reader -/

/-- A permission of the document, as the reader's query matches it with the principal. -/
def DocumentPermission.opensReader (directory : Directory) (principal : RetrievalPrincipal)
    (permission : DocumentPermission) : Bool :=
  (permission.principalType = .user && permission.principalCode = uuidText principal.userId) ||
  (permission.principalType = .role && principal.roleCodes.contains permission.principalCode) ||
  (permission.principalType = .supportGroup &&
    ((principal.supportGroupIds.map uuidText).contains permission.principalCode ||
      directory.supportGroups.any fun g => g.tenantId = principal.tenantId &&
        principal.supportGroupIds.contains g.entryId && g.code = permission.principalCode)) ||
  (permission.principalType = .businessUnit && principal.businessUnitId.isSome &&
    (principal.businessUnitId.any (permission.principalCode = uuidText ·) ||
      directory.businessUnits.any fun u => u.tenantId = principal.tenantId &&
        principal.businessUnitId = some u.entryId && u.code = permission.principalCode)) ||
  permission.principalType = .allEmployees ||
  (permission.principalType = .allAnalysts && principal.persona = .analyst)

structure EligibleDocument where
  documentId : Uuid
  documentVersionId : Uuid
  publishedProcessingVersionId : Uuid
  deriving DecidableEq, Repr

/-- `eligible_documents` of the reader. -/
def Store.readerDocuments (store : Store) (directory : Directory) (today : Day)
    (principal : RetrievalPrincipal) : List EligibleDocument :=
  store.documents.flatMap fun d =>
    let versions := store.versions.filter fun dv => dv.documentId = d.documentId &&
      dv.currentVersionFlag && (dv.validationStatus = .passed || dv.validationStatus = .warning)
    versions.flatMap fun dv =>
      let sources := store.sources.filter fun s => s.sourceId = d.sourceId && s.activeFlag &&
        s.sourceStatus = .active && s.approvalStatus = .approved
      sources.flatMap fun _ =>
        let open_ := !(store.permissions.any fun p => p.documentId = d.documentId) ||
          store.permissions.any fun p =>
            p.documentId = d.documentId && p.opensReader directory principal
        if (d.tenantId = none || d.tenantId = some principal.tenantId) && d.activeFlag &&
            d.approvalStatus = .approved && !d.effectiveFrom.any (today < ·) &&
            !d.effectiveTo.any (· < today) && !d.nextReviewDate.any (· < today) &&
            principal.audienceCodes.contains d.audienceCode &&
            principal.securityLevels.contains d.securityClassification && open_ then
          (dv.publishedProcessingVersionId.map fun processingId =>
            ⟨d.documentId, dv.documentVersionId, processingId⟩).toList
        else []

/-- `eligible_documents` of retrieval, without filters. -/
def Store.retrievalDocuments (store : Store) (directory : Directory) (today : Day)
    (principal : RetrievalPrincipal) : List EligibleDocument :=
  store.documents.flatMap fun d =>
    (store.versions.filter (store.eligible directory today principal d)).flatMap fun dv =>
      (dv.publishedProcessingVersionId.map fun processingId =>
        ⟨d.documentId, dv.documentVersionId, processingId⟩).toList

/-- Both queries match a permission with the principal alike. -/
theorem opensReader_eq_grants (permission : DocumentPermission) :
    permission.opensReader directory principal = permission.grants directory principal := by
  rw [Bool.eq_iff_iff]
  unfold DocumentPermission.opensReader DocumentPermission.grants
  cases permission.principalType with
  | user => simp
  | role => simp
  | supportGroup =>
      simp only [named, List.contains_iff_mem, List.mem_map, Bool.or_eq_true, Bool.and_eq_true,
        List.any_eq_true, decide_eq_true_eq, reduceCtorEq, false_and, true_and, or_false, false_or]
      constructor
      · rintro (⟨id, hid, htext⟩ | ⟨g, hg, ⟨htenant, hmember⟩, hcode⟩)
        · exact ⟨id, hid, .inl htext.symm⟩
        · exact ⟨g.entryId, hmember, .inr ⟨g, hg, ⟨htenant, rfl⟩, hcode⟩⟩
      · rintro ⟨id, hid, htext | ⟨g, hg, ⟨htenant, rfl⟩, hcode⟩⟩
        · exact .inl ⟨id, hid, htext.symm⟩
        · exact .inr ⟨g, hg, ⟨htenant, hid⟩, hcode⟩
  | businessUnit =>
      cases principal.businessUnitId with
      | none => simp
      | some id =>
          simp only [named, Option.isSome_some, Option.any_some, Bool.or_eq_true, Bool.and_eq_true,
            List.any_eq_true, decide_eq_true_eq, reduceCtorEq, false_and, true_and, or_false,
            false_or, Option.some.injEq]
          refine or_congr_right (exists_congr fun u => and_congr_right fun _ => ?_)
          rw [eq_comm (a := id)]
  | department => simp
  | allEmployees => simp
  | allAnalysts => simp

/-- Both queries open a document alike. -/
theorem opens_eq_permits {documentId : Uuid} :
    (!(store.permissions.any fun p => p.documentId = documentId) ||
      store.permissions.any fun p => p.documentId = documentId && p.opensReader directory principal) =
        store.permits directory principal documentId := by
  have hnone : (!(store.permissions.any fun p => p.documentId = documentId)) =
      decide ((store.permissions.filter fun p => p.documentId = documentId) = []) := by
    rw [Bool.eq_iff_iff, Bool.not_eq_true', List.any_eq_false, decide_eq_true_eq,
      List.filter_eq_nil_iff]
  have hsome : (store.permissions.any fun p =>
      p.documentId = documentId && p.opensReader directory principal) =
        (store.permissions.filter fun p => p.documentId = documentId).any
          (·.grants directory principal) := by
    simp only [List.any_filter, opensReader_eq_grants]
  rw [hnone, hsome]
  rfl

/-- **The reader's documents are retrieval's.** -/
theorem mem_readerDocuments {e : EligibleDocument} :
    e ∈ store.readerDocuments directory today principal ↔
      e ∈ store.retrievalDocuments directory today principal := by
  unfold Store.readerDocuments Store.retrievalDocuments
  simp only [List.mem_flatMap, List.mem_filter, opens_eq_permits, Store.eligible, visibleTo,
    Bool.and_eq_true, Bool.or_eq_true, decide_eq_true_eq, Bool.not_eq_true', List.any_eq_true,
    servable_version, servable_document, Source.servable, Source.activeFlag]
  refine exists_congr fun d => and_congr_right fun _ => exists_congr fun dv => ?_
  constructor
  · rintro ⟨⟨hv, ⟨hdocument, hcurrent⟩, hvalid⟩, s, ⟨hs, ⟨⟨hsid, -⟩, hstatus⟩, happroval⟩, he⟩
    split at he
    · rename_i hcond
      obtain ⟨⟨⟨⟨⟨⟨⟨⟨hvisible, hactive⟩, happroved⟩, hfrom⟩, hto⟩, hreview⟩, haudience⟩, hlevel⟩,
        hpermits⟩ := hcond
      have hpublished : dv.publishedProcessingVersionId.isSome = true := by
        obtain ⟨q, hq, -⟩ := Option.map_eq_some_iff.mp (Option.mem_toList.mp he)
        exact Option.isSome_iff_exists.mpr ⟨q, hq⟩
      exact ⟨⟨hv, ⟨⟨⟨⟨⟨⟨hdocument, hcurrent, hvalid, hpublished⟩, hactive, happroved, hfrom, hto,
        hreview⟩, s, hs, hsid, hstatus, happroval⟩, hvisible.symm⟩, haudience⟩, hlevel⟩, hpermits⟩,
        he⟩
    · cases he
  · rintro ⟨⟨hv, ⟨⟨⟨⟨⟨⟨hdocument, hcurrent, hvalid, -⟩, hactive, happroved, hfrom, hto, hreview⟩,
      s, hs, hsid, hstatus, happroval⟩, hvisible⟩, haudience⟩, hlevel⟩, hpermits⟩, he⟩
    refine ⟨⟨hv, ⟨hdocument, hcurrent⟩, hvalid⟩, s, ⟨hs, ⟨⟨hsid, hstatus⟩, hstatus⟩, happroval⟩, ?_⟩
    rw [if_pos ⟨⟨⟨⟨⟨⟨⟨⟨hvisible.symm, hactive⟩, happroved⟩, hfrom⟩, hto⟩, hreview⟩, haudience⟩,
      hlevel⟩, hpermits⟩]
    exact he

/-! ## 5. Published, in every reader -/

/-- **'Published' means the same**: of a chunk in the view and to retrieval, and of a
    document to the reader and to retrieval. -/
structure PublishedAlike (store : Store) (directory : Directory) (today : Day) (tenantId : Uuid)
    (chunk : ChunkRow) (document : Document) : Prop where
  chunks : store.InView today chunk document ↔
    store.servedToTenant today tenantId chunk document
  documents : ∀ principal e, e ∈ store.readerDocuments directory today principal ↔
    e ∈ store.retrievalDocuments directory today principal

/-- **The meanings agree exactly on a chunk that is governed if it is in the view.** -/
theorem published_alike (store : Store) (directory : Directory) (today : Day) {tenantId : Uuid}
    {chunk : ChunkRow} {document : Document} (hchunk : chunk ∈ store.chunks)
    (hdocument : document ∈ store.documents) (howner : document.tenantId = some tenantId) :
    PublishedAlike store directory today tenantId chunk document ↔
      (store.InView today chunk document → store.Governed today tenantId chunk document) := by
  constructor
  · intro halike hview
    exact (servedToTenant_active hchunk hdocument (halike.chunks.mp hview)).1
  · intro hgoverned
    refine ⟨⟨fun hview => inView_servedToTenant howner hview (hgoverned hview),
      fun hserved => (servedToTenant_active hchunk hdocument hserved).2⟩, ?_⟩
    exact fun principal e => mem_readerDocuments

/-- The published guide, whose source is approved. -/
theorem published_alike_guide :
    PublishedAlike guidesStore ⟨[], []⟩ 0 3 (guideChunk 20 21 22 23) (guideDocument 20 .approved 1) ↔
      (guidesStore.InView 0 (guideChunk 20 21 22 23) (guideDocument 20 .approved 1) →
        guidesStore.Governed 0 3 (guideChunk 20 21 22 23) (guideDocument 20 .approved 1)) :=
  published_alike guidesStore ⟨[], []⟩ 0 (by simp [guidesStore]) (by simp [guidesStore]) rfl

/-- A guide whose review was due yesterday. -/
def overdueGuide : Document := { guideDocument 20 .approved 1 with nextReviewDate := some (-1) }

def overdueStore : Store :=
  { guidesStore with documents := [overdueGuide] }

/-- **A chunk that counts as published and is not served**: its document's review is
    overdue. -/
theorem overdue_counts_as_published :
    ¬ ∀ (store : Store) (directory : Directory) (today : Day) (tenantId : Uuid) (chunk : ChunkRow)
      (document : Document), chunk ∈ store.chunks → document ∈ store.documents →
      document.tenantId = some tenantId →
        PublishedAlike store directory today tenantId chunk document := by
  intro hclaim
  have halike := hclaim overdueStore ⟨[], []⟩ 0 3 (guideChunk 20 21 22 23) overdueGuide
    (by simp [overdueStore, guidesStore]) (by simp [overdueStore]) rfl
  have hview : overdueStore.InView 0 (guideChunk 20 21 22 23) overdueGuide := by
    refine inView_iff.mpr ⟨guideVersion 20 21 (some 22), boilerplateSource, ?_⟩
    constructor <;> decide +kernel
  obtain ⟨_, -, -, -, hservable, -⟩ := halike.chunks.mp hview
  exact absurd hservable (by decide)

end Helpdesk.Knowledge
