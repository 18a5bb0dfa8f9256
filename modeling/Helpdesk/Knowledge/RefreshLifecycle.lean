/-
  File:      Helpdesk/Knowledge/RefreshLifecycle.lean
  Subject:   The permission of a source along its refresh lifecycle.

  An authorization is for one version of its source, and so is the permission that a
  queued item was created with. Starting and completing a refresh keep the version; a
  lifecycle mark takes the next one, which no authorization is for.

  * `Store.Pinned`: the invariant, no authorization is for a version still to come;
  * `Unaltered`: the permission of every source and of every queued item is as before;
  * `unaltered_iff`: a lifecycle step alters nothing unless it is a mark of a source that
    has an allowlist entry in effect or an item that may be acquired;
  * `mark_revokes`: the mark of a source with both.
-/
import Helpdesk.Knowledge.Administration
import Helpdesk.Knowledge.Reverts

namespace Helpdesk.Knowledge

open Helpdesk.Python

variable {d : Deployment} {store store' : Store}

/-! ## 1. What permission depends on -/

/-- `KnowledgeSourceService.permission`. -/
def Store.permission (store : Store) (oracleEnabled : Bool) (now : Instant) (tenantId sourceId : Uuid)
    (external : Bool) : Option (List PermissionReason) :=
  (store.source tenantId sourceId).map fun source =>
    acquisitionPermissionReasons oracleEnabled source
      (store.effectiveAuthorization now tenantId source) external

/-- The work of an item that is claimed. -/
def claimedWork (item : RunItem) (manifest : ManifestEntry) (source : Source)
    (authorization : Option SourceAuthorization) (runType : RunType)
    (previousSha256 : Option String) : AcquisitionWork where
  itemId := item.itemId
  runId := item.runId
  tenantId := item.tenantId
  attemptCount := item.attemptCount
  sourceRowVersion := item.sourceRowVersion
  manifestRowVersion := item.manifestEntryRowVersion
  quarantineKey := item.quarantineObjectKey
  manifest
  source
  authorization
  runType
  previousSha256

/-- The reasons against an item, were it claimed and loaded now: `none` is an item without
    manifest entry or source. -/
def Store.itemReasons (store : Store) (settings : WorkerSettings) (now : Instant) (item : RunItem) :
    Option (List PermissionReason) := do
  let manifest ← store.manifest item.tenantId item.manifestEntryId
  let source ← store.source item.tenantId manifest.sourceId
  let authorization := store.effectiveAuthorization now item.tenantId source
  return (claimedWork item manifest source authorization .acquisition none).permissionReasons settings

/-- An item that `kb.claim_acquisition_item` takes when its time comes. -/
def RunItem.waiting (item : RunItem) : Bool :=
  item.pipelineStage = .acquisition && !item.finalFailure &&
    (item.itemStatus = .queued || item.itemStatus = .failed)

/-- **Neither permission nor queue is touched**, as seen at an instant. -/
structure Unaltered (now : Instant) (store store' : Store) : Prop where
  permission : ∀ oracleEnabled tenantId sourceId external,
    store'.permission oracleEnabled now tenantId sourceId external =
      store.permission oracleEnabled now tenantId sourceId external
  items : ∀ settings, ∀ item ∈ store.items, item.waiting →
    store.itemReasons settings now item = some [] → store'.itemReasons settings now item = some []

/-- The work that `_load` gives has the reasons of its item. -/
theorem loadAcquisition_reasons {settings : WorkerSettings} {now : Instant} {claim : Claim}
    {work : AcquisitionWork} (h : loadAcquisition settings now claim store = .ok work) :
    ∃ item ∈ store.items, item.itemId = claim.itemId ∧ item.tenantId = claim.tenantId ∧
      store.itemReasons settings now item = some (work.permissionReasons settings) := by
  unfold loadAcquisition at h
  dsimp only at h
  split at h
  · next item hitem =>
      have hheld := List.find?_some hitem
      simp only [Bool.and_eq_true, decide_eq_true_eq] at hheld
      obtain ⟨⟨⟨hid, htenant⟩, _⟩, _⟩ := hheld
      refine ⟨item, List.mem_of_find?_eq_some hitem, hid, htenant, ?_⟩
      split at h
      · split at h
        · next manifest hmanifest =>
            split at h
            · next source hsource =>
                cases h
                rw [Store.itemReasons, htenant, hmanifest, Option.bind_eq_bind, Option.bind_some,
                  hsource]
                rfl
            · cases h
        · cases h
      · cases h
  · cases h

/-- A source without the columns of its refresh lifecycle. -/
def Source.settled (source : Source) : Source :=
  { source with refreshState := .current, refreshDueAt := none }

/-- The tables that permission is read from, but for the refresh lifecycle. -/
structure Store.SameGovernance (store store' : Store) : Prop where
  authorizations : store'.authorizations = store.authorizations
  sources : store'.sources.map (·.settled) = store.sources.map (·.settled)

theorem Store.SameGovernance.refl (store : Store) : store.SameGovernance store := ⟨rfl, rfl⟩

theorem Store.SameGovernance.trans {store'' : Store} (h : store.SameGovernance store')
    (h' : store'.SameGovernance store'') : store.SameGovernance store'' where
  authorizations := h'.authorizations.trans h.authorizations
  sources := h'.sources.trans h.sources

theorem source_settled (store : Store) (tenantId sourceId : Uuid) :
    (store.source tenantId sourceId).map (·.settled) =
      (store.sources.map (·.settled)).find? fun s =>
        s.sourceId = sourceId && visibleTo tenantId s.tenantId := by
  rw [List.find?_map]
  rfl

/-- The source is the same one. -/
theorem Store.SameGovernance.source (h : store.SameGovernance store') (tenantId sourceId : Uuid) :
    (store'.source tenantId sourceId).map (·.settled) =
      (store.source tenantId sourceId).map (·.settled) := by
  rw [source_settled, source_settled, h.sources]

theorem effectiveAuthorization_congr (h : store'.authorizations = store.authorizations)
    {source source' : Source} (hsource : source'.settled = source.settled) (now : Instant)
    (tenantId : Uuid) :
    store'.effectiveAuthorization now tenantId source' =
      store.effectiveAuthorization now tenantId source := by
  have hsettled : ∀ s : Source, store'.effectiveAuthorization now tenantId s =
      store'.effectiveAuthorization now tenantId s.settled := fun _ => rfl
  rw [hsettled source', hsource, ← hsettled]
  unfold Store.effectiveAuthorization
  rw [h]

theorem permissionReasons_congr {source source' : Source} (hsource : source'.settled = source.settled)
    (oracleEnabled : Bool) (authorization : Option SourceAuthorization) (external : Bool) :
    acquisitionPermissionReasons oracleEnabled source' authorization external =
      acquisitionPermissionReasons oracleEnabled source authorization external := by
  have hsettled : ∀ s : Source, acquisitionPermissionReasons oracleEnabled s authorization external =
      acquisitionPermissionReasons oracleEnabled s.settled authorization external := fun _ => rfl
  rw [hsettled source', hsource, ← hsettled]

/-- **What permission is read from decides it.** -/
theorem Store.SameGovernance.permission (h : store.SameGovernance store') (oracleEnabled : Bool)
    (now : Instant) (tenantId sourceId : Uuid) (external : Bool) :
    store'.permission oracleEnabled now tenantId sourceId external =
      store.permission oracleEnabled now tenantId sourceId external := by
  have hsource := h.source tenantId sourceId
  unfold Store.permission
  cases hold : store.source tenantId sourceId with
  | none =>
      rw [hold, Option.map_none, Option.map_eq_none_iff] at hsource
      rw [hsource]
      rfl
  | some source =>
      rw [hold, Option.map_some, Option.map_eq_some_iff] at hsource
      obtain ⟨source', hnew, hsettled⟩ := hsource
      rw [hnew, Option.map_some, Option.map_some,
        effectiveAuthorization_congr h.authorizations hsettled, permissionReasons_congr hsettled]

theorem claimedReasons_congr {source source' : Source} (hsource : source'.settled = source.settled)
    (settings : WorkerSettings) (item : RunItem) (manifest : ManifestEntry)
    (authorization : Option SourceAuthorization) :
    (claimedWork item manifest source' authorization .acquisition none).permissionReasons settings =
      (claimedWork item manifest source authorization .acquisition none).permissionReasons
        settings := by
  have hsettled : ∀ s : Source,
      (claimedWork item manifest s authorization .acquisition none).permissionReasons settings =
        (claimedWork item manifest s.settled authorization .acquisition none).permissionReasons
          settings := fun _ => rfl
  rw [hsettled source', hsource, ← hsettled]

theorem Store.SameGovernance.itemReasons (h : store.SameGovernance store')
    (hmanifests : store'.manifests = store.manifests) (settings : WorkerSettings) (now : Instant)
    (item : RunItem) :
    store'.itemReasons settings now item = store.itemReasons settings now item := by
  have hmanifest : ∀ tenantId entryId, store'.manifest tenantId entryId =
      store.manifest tenantId entryId := fun _ _ => by
    unfold Store.manifest
    rw [hmanifests]
  unfold Store.itemReasons
  rw [hmanifest]
  cases hentry : store.manifest item.tenantId item.manifestEntryId with
  | none => rfl
  | some manifest =>
      have hsource := h.source item.tenantId manifest.sourceId
      simp only [Option.bind_eq_bind, Option.bind_some]
      cases hold : store.source item.tenantId manifest.sourceId with
      | none =>
          rw [hold, Option.map_none, Option.map_eq_none_iff] at hsource
          rw [hsource]
          rfl
      | some source =>
          rw [hold, Option.map_some, Option.map_eq_some_iff] at hsource
          obtain ⟨source', hnew, hsettled⟩ := hsource
          rw [hnew, Option.bind_some, Option.bind_some,
            effectiveAuthorization_congr h.authorizations hsettled, claimedReasons_congr hsettled]

theorem Store.SameGovernance.unaltered (h : store.SameGovernance store')
    (hmanifests : store'.manifests = store.manifests) (now : Instant) :
    Unaltered now store store' where
  permission := fun oracleEnabled => h.permission oracleEnabled now
  items := by
    intro settings item _ _ hfree
    rw [h.itemReasons hmanifests, hfree]

/-! ## 2. What ingestion keeps -/

theorem settled_map {change : Source → Source} (hchange : ∀ s, (change s).settled = s.settled)
    (rows : List Source) : (rows.map change).map (·.settled) = rows.map (·.settled) := by
  rw [List.map_map]
  exact List.map_congr_left fun s _ => hchange s

theorem upsertManifest_sameGovernance {owner : Option Uuid} {sourceId : Uuid} {manifestKey : String}
    {write : ManifestEntry → ManifestEntry} :
    store.SameGovernance (upsertManifest store owner sourceId manifestKey write) := by
  unfold upsertManifest
  dsimp only
  split <;> exact ⟨rfl, rfl⟩

/-- `start_refresh` keeps the version. -/
theorem createRefreshRun_kept {oracleEnabled : Bool} {now : Instant} {tenantId sourceId : Uuid}
    {expectedVersion : Nat}
    (h : createRefreshRun oracleEnabled now tenantId sourceId expectedVersion store = some store') :
    store.SameGovernance store' ∧ store'.manifests = store.manifests := by
  simp only [createRefreshRun, Option.bind_eq_bind, Option.bind_eq_some_iff] at h
  obtain ⟨source, _, h⟩ := h
  split at h
  · cases h
  · split at h
    · cases h
    · simp only [Option.bind_eq_some_iff, Option.pure_def, Option.some.injEq] at h
      obtain ⟨items, _, rfl⟩ := h
      refine ⟨⟨rfl, settled_map (fun s => ?_) store.sources⟩, rfl⟩
      split <;> rfl

theorem publishDocument_sameGovernance {oracleEnabled : Bool} {now : Instant} {actor : Actor}
    {documentId processingId : Uuid} {expectedVersion : Nat}
    (h : publishDocument oracleEnabled now actor documentId processingId expectedVersion store =
      some store') : store.SameGovernance store' := by
  simp only [publishDocument, Option.bind_eq_bind, Option.bind_eq_some_iff] at h
  obtain ⟨document, _, h⟩ := h
  split at h
  · cases h
  · simp only [Option.bind_eq_some_iff] at h
    obtain ⟨candidate, _, source, _, h⟩ := h
    split at h
    · cases h
    · simp only [Option.bind_eq_some_iff] at h
      obtain ⟨version, _, h⟩ := h
      split at h
      · cases h
        exact ⟨rfl, rfl⟩
      · split at h
        · cases h
          exact ⟨rfl, rfl⟩
        · cases h

/-- **No command but those on sources touches what permission is read from.** -/
theorem command_sameGovernance {action : Action} (h : command d action store = some store')
    (hgovern : ∀ sources authorizations, action ≠ .govern sources authorizations) :
    store.SameGovernance store' := by
  cases action with
  | govern sources authorizations => exact absurd rfl (hgovern sources authorizations)
  | importEntry tenantId entry =>
      simp only [command, importEntry, Option.bind_eq_bind, Option.bind_eq_some_iff] at h
      obtain ⟨source, _, h⟩ := h
      split at h
      · cases h
      · cases h
        exact upsertManifest_sameGovernance
  | decideManifest actor entryId command =>
      simp only [Knowledge.command, decideManifest, Option.bind_eq_bind,
        Option.bind_eq_some_iff] at h
      obtain ⟨entry, _, source, _, h⟩ := h
      split at h
      · cases h
      · split at h
        · cases h
        · split at h
          · cases h
          · cases h
            exact ⟨rfl, rfl⟩
  | createRun now tenantId entryIds =>
      simp only [command, createAcquisitionRun, Option.bind_eq_bind, Option.bind_eq_some_iff,
        Option.pure_def, Option.some.injEq] at h
      obtain ⟨entries, _, items, _, rfl⟩ := h
      exact ⟨rfl, rfl⟩
  | createRefreshRun => exact (createRefreshRun_kept h).1
  | authorizeUpload now tenantId upload =>
      simp only [command, authorizeManualUpload, Option.bind_eq_bind, Option.bind_eq_some_iff] at h
      obtain ⟨source, _, h⟩ := h
      split at h
      · cases h
      · split at h
        · cases h
        · simp only [Option.bind_eq_some_iff, Option.pure_def, Option.some.injEq] at h
          obtain ⟨entry, _, rfl⟩ := h
          exact upsertManifest_sameGovernance.trans ⟨rfl, rfl⟩
  | completeUpload =>
      cases h
      exact ⟨rfl, rfl⟩
  | approveDocument actor documentId approved expectedVersion =>
      simp only [command, approveDocument, Option.bind_eq_bind, Option.bind_eq_some_iff] at h
      obtain ⟨document, _, source, _, h⟩ := h
      split at h
      · cases h
      · split at h
        · cases h
        · cases h
          exact ⟨rfl, rfl⟩
  | publishDocument => exact publishDocument_sameGovernance h
  | retireDocument actor documentId expectedVersion =>
      simp only [command, retireDocument, Option.bind_eq_bind, Option.bind_eq_some_iff] at h
      obtain ⟨document, _, current, _, h⟩ := h
      split at h
      · cases h
      · cases h
        exact ⟨rfl, rfl⟩
  | claimAcquisition | acquisition | leaveAcquisition | claimProcessing | processing
  | leaveProcessing => cases h

/-- Completing a refresh keeps the version too. -/
theorem finalizeRun_kept {now : Instant} {work : AcquisitionWork} :
    store.SameGovernance (finalizeRun now work store) ∧
      (finalizeRun now work store).manifests = store.manifests := by
  unfold finalizeRun
  dsimp only
  split
  · refine ⟨⟨rfl, settled_map (fun s => ?_) store.sources⟩, rfl⟩
    split <;> rfl
  · exact ⟨⟨rfl, rfl⟩, rfl⟩

/-- A step of an acquisition call, which may complete a refresh. -/
theorem acquisition_kept {call : AcquisitionCall} {event : AcquisitionEvent}
    {phase : AcquisitionPhase} {acquired : List Acquired}
    (h : AcquisitionStep d call store event phase store' acquired) :
    store.SameGovernance store' ∧ store'.manifests = store.manifests := by
  have hfinal : ∀ {now : Instant} {work : AcquisitionWork} {mid : Store},
      store.SameGovernance mid → mid.manifests = store.manifests →
        store.SameGovernance (finalizeRun now work mid) ∧
          (finalizeRun now work mid).manifests = store.manifests :=
    fun hmid hrows => ⟨hmid.trans finalizeRun_kept.1, finalizeRun_kept.2.trans hrows⟩
  cases h with
  | load => exact ⟨⟨rfl, rfl⟩, rfl⟩
  | block | skip | fail => exact hfinal ⟨rfl, rfl⟩ rfl
  | complete hphase hreasons hcomplete =>
      cases completeAcquisition_completed hcomplete with
      | known | stored | created => exact hfinal ⟨rfl, rfl⟩ rfl

theorem processing_sameGovernance {call : ProcessingCall} {event : ProcessingEvent}
    {phase : ProcessingPhase} (h : ProcessingStep d call store event phase store') :
    store.SameGovernance store' := by
  cases h with
  | load | replay => exact ⟨rfl, rfl⟩
  | start hphase hstart => cases startProcessing_started hstart <;> exact ⟨rfl, rfl⟩
  | persist hphase hpersist =>
      obtain ⟨_, rfl⟩ := persist_eq_ok hpersist
      exact ⟨rfl, rfl⟩
  | @fail now work processing code final hphase =>
      unfold processingFailed
      dsimp only
      cases processing.map (·.1) <;> split <;> exact ⟨rfl, rfl⟩

/-- **Ingestion, processing and publication leave the governance of sources as it is.** -/
theorem step_sameGovernance {world world' : World} {action : Action} (h : WorldStep d world action world')
    (hgovern : ∀ sources authorizations, action ≠ .govern sources authorizations) :
    world.store.SameGovernance world'.store := by
  cases h.stepped with
  | command hcommand => exact command_sameGovernance hcommand hgovern
  | claimAcquisition | leaveAcquisition | claimProcessing | leaveProcessing => exact ⟨rfl, rfl⟩
  | acquisition hcall hevent => exact (acquisition_kept hevent).1
  | processing hcall hevent => exact processing_sameGovernance hevent

/-! ## 3. Authorizations are for versions there have been -/

/-- A source and its version. -/
def Source.version (source : Source) : Uuid × Nat := (source.sourceId, source.rowVersion)

/-- **The primary key of the sources, and no authorization for a later version.** -/
structure Store.Pinned (store : Store) : Prop where
  distinct : (store.sources.map (·.sourceId)).Nodup
  authorized : ∀ a ∈ store.authorizations, ∃ source ∈ store.sources,
    source.sourceId = a.sourceId ∧ a.sourceRowVersion ≤ source.rowVersion

theorem Store.Pinned.inj (h : store.Pinned) {s t : Source} (hs : s ∈ store.sources)
    (ht : t ∈ store.sources) (hid : s.sourceId = t.sourceId) : s = t :=
  List.inj_on_of_nodup_map h.distinct hs ht hid

theorem Store.Pinned.version_le (h : store.Pinned) {a : SourceAuthorization} {source : Source}
    (ha : a ∈ store.authorizations) (hsource : source ∈ store.sources)
    (hid : a.sourceId = source.sourceId) : a.sourceRowVersion ≤ source.rowVersion := by
  obtain ⟨s, hs, hsid, hversion⟩ := h.authorized a ha
  rwa [h.inj hs hsource (hsid.trans hid)] at hversion

theorem mem_settled {rows rows' : List Source} (h : rows'.map (·.settled) = rows.map (·.settled))
    {s : Source} (hs : s ∈ rows) : ∃ s' ∈ rows', s'.settled = s.settled := by
  have hmem : s.settled ∈ rows'.map (·.settled) := h ▸ List.mem_map_of_mem hs
  obtain ⟨s', hs', heq⟩ := List.mem_map.mp hmem
  exact ⟨s', hs', heq⟩

theorem Store.SameGovernance.pinned (h : store.SameGovernance store') (hp : store.Pinned) :
    store'.Pinned where
  distinct := by
    have hids : ∀ rows : List Source,
        rows.map (·.sourceId) = (rows.map (·.settled)).map (·.sourceId) := fun rows => by
      rw [List.map_map]
      rfl
    rw [hids, h.sources, ← hids]
    exact hp.distinct
  authorized := by
    intro a ha
    rw [h.authorizations] at ha
    obtain ⟨s, hs, hid, hversion⟩ := hp.authorized a ha
    obtain ⟨s', hs', heq⟩ := mem_settled h.sources hs
    have hid' : s'.sourceId = s.sourceId := by simpa [Source.settled] using congrArg (·.sourceId) heq
    have hversion' : s'.rowVersion = s.rowVersion := by
      simpa [Source.settled] using congrArg (·.rowVersion) heq
    exact ⟨s', hs', hid'.trans hid, hversion'.symm ▸ hversion⟩

/-- A store after the row of one source was written. -/
def Store.withSource (store : Store) (sourceId : Uuid) (change : Source → Source) : Store :=
  { store with
    sources := store.sources.map fun s => if s.sourceId = sourceId then change s else s }

/-- `UPDATE kb.source` writes the one row of its source. -/
theorem Store.Pinned.updateSource (h : store.Pinned) {tenantId sourceId : Uuid} {expectedVersion : Nat}
    {selected : Source → Bool} {change : Source → Source}
    (hupdate : store.updateSource tenantId sourceId expectedVersion selected change = some store') :
    ∃ source ∈ store.sources, source.sourceId = sourceId ∧ source.rowVersion = expectedVersion ∧
      store' = store.withSource sourceId change := by
  unfold Store.updateSource at hupdate
  dsimp only at hupdate
  split at hupdate
  · next hany =>
      obtain ⟨source, hsource, hmatch⟩ := List.any_eq_true.mp hany
      cases hupdate
      have hparts := hmatch
      simp only [Bool.and_eq_true, decide_eq_true_eq] at hparts
      obtain ⟨⟨⟨hid, _⟩, hversion⟩, _⟩ := hparts
      refine ⟨source, hsource, hid, hversion, ?_⟩
      unfold Store.withSource
      congr 1
      refine List.map_congr_left fun s hs => ?_
      by_cases hs' : s.sourceId = sourceId
      · obtain rfl := h.inj hs hsource (hs'.trans hid.symm)
        rw [if_pos hmatch, if_pos hs']
      · rw [if_neg (by simp [hs']), if_neg hs']
  · cases hupdate

theorem Store.Pinned.withSource (h : store.Pinned) {sourceId : Uuid} {change : Source → Source}
    (hchange : ∀ s, (change s).version = (s.sourceId, s.rowVersion + 1)) :
    (store.withSource sourceId change).Pinned where
  distinct := by
    have hids : (store.withSource sourceId change).sources.map (·.sourceId) =
        store.sources.map (·.sourceId) := by
      refine map_update_column (fun s => ?_) store.sources
      split
      · exact congrArg Prod.fst (hchange s)
      · rfl
    rw [hids]
    exact h.distinct
  authorized := by
    intro a ha
    obtain ⟨s, hs, hid, hversion⟩ := h.authorized a ha
    refine ⟨_, List.mem_map_of_mem hs, ?_⟩
    by_cases hs' : s.sourceId = sourceId
    · rw [if_pos hs']
      obtain ⟨hid', hversion'⟩ := Prod.mk.inj (hchange s)
      exact ⟨hid'.trans hid, hversion'.symm ▸ Nat.le_succ_of_le hversion⟩
    · rw [if_neg hs']
      exact ⟨hid, hversion⟩

theorem administered_eq_some {actor : Administrator} {permission : SourcePermission} {sourceId : Uuid}
    {source : Source} (h : store.administered actor permission sourceId = some source) :
    store.source actor.tenantId sourceId = some source := by
  simp only [Store.administered, Option.bind_eq_bind, Option.bind_eq_some_iff] at h
  obtain ⟨s, hs, h⟩ := h
  split at h
  · cases h
    exact hs
  · cases h

theorem mem_source {tenantId sourceId : Uuid} {source : Source}
    (h : store.source tenantId sourceId = some source) :
    source ∈ store.sources ∧ source.sourceId = sourceId := by
  have hfound := List.find?_some h
  simp only [Bool.and_eq_true, decide_eq_true_eq] at hfound
  exact ⟨List.mem_of_find?_eq_some h, hfound.1⟩

theorem createSource_pinned {actor : Administrator} {sourceId : Uuid} {scope : Option Uuid}
    {definition : SourceDefinition} (h : createSource actor sourceId scope definition store =
      some store') (hp : store.Pinned) : store'.Pinned := by
  unfold createSource at h
  split at h
  · cases h
  · next hguard =>
      cases h
      have hunused : ∀ s ∈ store.sources, s.sourceId ≠ sourceId := by
        intro s hs heq
        refine hguard ?_
        rw [Bool.or_eq_true, List.any_eq_true]
        exact Or.inr ⟨s, hs, by simp [heq]⟩
      constructor
      · rw [List.map_append, List.nodup_append]
        refine ⟨hp.distinct, List.nodup_singleton _, ?_⟩
        intro id hid id' hid' heq
        obtain ⟨s, hs, rfl⟩ := List.mem_map.mp hid
        obtain rfl := List.mem_singleton.mp hid'
        exact hunused s hs heq
      · intro a ha
        obtain ⟨s, hs, hid, hversion⟩ := hp.authorized a ha
        exact ⟨s, List.mem_append_left _ hs, hid, hversion⟩

/-- **Every command on sources keeps the invariant.** -/
theorem administer_pinned {action : SourceAction} (h : administer action store = some store')
    (hp : store.Pinned) : store'.Pinned := by
  cases action with
  | create => exact createSource_pinned h hp
  | update actor sourceId definition expectedVersion =>
      simp only [administer, updateDefinition, Option.bind_eq_bind, Option.bind_eq_some_iff] at h
      obtain ⟨source, _, h⟩ := h
      split at h
      · cases h
      · obtain ⟨_, _, _, _, rfl⟩ := hp.updateSource h
        exact hp.withSource fun _ => rfl
  | approve actor sourceId approved expectedVersion =>
      simp only [administer, decideApproval, Option.bind_eq_bind, Option.bind_eq_some_iff] at h
      obtain ⟨source, _, h⟩ := h
      split at h
      · cases h
      · obtain ⟨_, _, _, _, rfl⟩ := hp.updateSource h
        exact hp.withSource fun _ => rfl
  | authorize now actor sourceId authorizationId command =>
      simp only [administer, authorizeAcquisition, Option.bind_eq_bind, Option.bind_eq_some_iff] at h
      obtain ⟨source, hadministered, h⟩ := h
      obtain ⟨hsource, hid⟩ := mem_source (administered_eq_some hadministered)
      split at h
      · cases h
      · split at h
        · cases h
        · split at h
          · cases h
          · simp only [Option.bind_eq_some_iff, Option.pure_def, Option.some.injEq] at h
            obtain ⟨mid, hupdate, rfl⟩ := h
            obtain ⟨_, _, _, _, rfl⟩ := hp.updateSource hupdate
            have hmid : (store.withSource sourceId (authorizedSource command.approved)).Pinned :=
              hp.withSource fun _ => rfl
            refine ⟨hmid.distinct, fun a ha => ?_⟩
            rcases List.mem_append.mp ha with hold | hnew
            · exact hmid.authorized a hold
            · obtain rfl := List.mem_singleton.mp hnew
              refine ⟨_, List.mem_map_of_mem hsource, ?_⟩
              rw [if_pos hid]
              exact ⟨hid, le_rfl⟩
  | refreshLifecycle now actor sourceId command =>
      simp only [administer, refreshLifecycle, Option.bind_eq_bind, Option.bind_eq_some_iff] at h
      obtain ⟨source, _, h⟩ := h
      split at h
      · cases h
      · split at h
        · cases h
        · obtain ⟨_, _, _, _, rfl⟩ := hp.updateSource h
          exact hp.withSource fun _ => rfl
  | world => cases h

/-- What a step is: a command on sources, or one of ingestion. -/
theorem governedStep_cases {world world' : World} {action : SourceAction}
    (h : GovernedStep d world action world') :
    (∃ store', administer action world.store = some store' ∧ world' = { world with store := store' }) ∨
      ∃ act, action = .world act ∧ (∀ sources authorizations, act ≠ .govern sources authorizations) ∧
        WorldStep d world act world' := by
  unfold GovernedStep World.govern at h
  split at h
  · cases h
  · next act hgovern =>
      exact Or.inr ⟨act, rfl, fun sources authorizations heq => hgovern sources authorizations heq, h⟩
  · obtain ⟨store', hadminister, rfl⟩ := Option.map_eq_some_iff.mp h
    exact Or.inl ⟨store', hadminister, rfl⟩

theorem pinned_of_run {world₀ world : World} {actions : List SourceAction}
    (h0 : world₀.store.Pinned) (hrun : Run (GovernedStep d) world₀ actions world) :
    world.store.Pinned := by
  refine hrun.invariant (I := fun world => world.store.Pinned) h0 fun world action world' hp hstep => ?_
  rcases governedStep_cases hstep with ⟨store', hadminister, rfl⟩ | ⟨act, rfl, hgovern, hworld⟩
  · exact administer_pinned hadminister hp
  · exact (step_sameGovernance hworld hgovern).pinned hp

/-! ## 4. Lifecycle steps -/

/-- The marks, and the steps that start or may complete a refresh. -/
def SourceAction.lifecycle : SourceAction → Bool
  | .refreshLifecycle _ _ _ _ | .world (.createRefreshRun _ _ _ _) | .world (.acquisition _ _) => true
  | _ => false

/-- An approved authorization of the source is in effect. -/
def Store.allowlisted (store : Store) (now : Instant) (tenantId sourceId : Uuid) : Bool :=
  (store.source tenantId sourceId).any fun source =>
    (store.effectiveAuthorization now tenantId source).any (·.approved)

/-- There is a permission of the source, or an item that may be acquired from it. -/
def Store.atStake (store : Store) (now : Instant) (sourceId : Uuid) : Prop :=
  (∃ tenantId, store.allowlisted now tenantId sourceId) ∨
    ∃ settings, ∃ item ∈ store.items, item.waiting ∧
      (store.manifest item.tenantId item.manifestEntryId).any (·.sourceId = sourceId) ∧
      store.itemReasons settings now item = some []

/-- A mark that is accepted with something at stake. -/
def SourceAction.Costs (store : Store) (now : Instant) : SourceAction → Prop
  | .refreshLifecycle _ _ sourceId _ => store.atStake now sourceId
  | _ => False

theorem mem_raised {α : Type} {checks : List (Bool × α)} {x : α} :
    x ∈ raised checks ↔ (true, x) ∈ checks := by
  simp [raised]

/-- Only an approved authorization makes a difference. -/
theorem permissionReasons_unapproved {source : Source} {authorization : Option SourceAuthorization}
    (h : authorization.any (·.approved) = false) (oracleEnabled external : Bool) :
    acquisitionPermissionReasons oracleEnabled source authorization external =
      acquisitionPermissionReasons oracleEnabled source none external := by
  simp [acquisitionPermissionReasons, h]

theorem permissionReasons_approved {source : Source} {authorization : Option SourceAuthorization}
    (h : authorization.any (·.approved) = true) (oracleEnabled : Bool) :
    acquisitionPermissionReasons oracleEnabled source authorization true ≠
      acquisitionPermissionReasons oracleEnabled source none true := by
  intro heq
  have hmissing : PermissionReason.approvedAllowlistEntryMissing ∈
      acquisitionPermissionReasons oracleEnabled source none true := by
    simp [acquisitionPermissionReasons, mem_raised]
  rw [← heq] at hmissing
  simp [acquisitionPermissionReasons, mem_raised, h] at hmissing

section Marks

variable {now instant : Instant} {command : RefreshLifecycleCommand} {sourceId : Uuid}

/-- The store after a mark. -/
def Store.marked (store : Store) (now : Instant) (command : RefreshLifecycleCommand)
    (sourceId : Uuid) : Store :=
  store.withSource sourceId (markedSource now command)

theorem marked_source {tenantId id : Uuid} {source : Source}
    (h : store.source tenantId id = some source) :
    (store.marked now command sourceId).source tenantId id =
      some (if id = sourceId then markedSource now command source else source) := by
  have hid := (mem_source h).2
  have hmap : (store.marked now command sourceId).source tenantId id =
      (store.source tenantId id).map fun s =>
        if s.sourceId = sourceId then markedSource now command s else s := by
    unfold Store.source Store.marked Store.withSource
    rw [List.find?_map]
    congr 2
    funext s
    by_cases hs : s.sourceId = sourceId <;> simp [hs, markedSource]
  rw [hmap, h, Option.map_some, hid]

theorem marked_source_none {tenantId id : Uuid} (h : store.source tenantId id = none) :
    (store.marked now command sourceId).source tenantId id = none := by
  unfold Store.source at h ⊢
  rw [List.find?_eq_none] at h ⊢
  intro s hs
  obtain ⟨t, ht, rfl⟩ := List.mem_map.mp hs
  have hnot := h t ht
  by_cases hid : t.sourceId = sourceId <;> simpa [hid, markedSource] using hnot

/-- **No authorization is in effect for the version that a mark makes.** -/
theorem Store.Pinned.marked_effective (hp : store.Pinned) {tenantId : Uuid} {source : Source}
    (hsource : source ∈ store.sources) :
    (store.marked now command sourceId).effectiveAuthorization instant tenantId
      (markedSource now command source) = none := by
  unfold Store.effectiveAuthorization
  rw [List.head?_eq_none_iff, ← List.length_eq_zero_iff, List.length_insertionSort,
    List.length_eq_zero_iff, List.filter_eq_nil_iff]
  intro a ha hmatch
  simp only [Bool.and_eq_true, decide_eq_true_eq] at hmatch
  obtain ⟨⟨⟨⟨hid, hversion⟩, _⟩, _⟩, _⟩ := hmatch
  have hle := hp.version_le ha hsource hid
  rw [hversion] at hle
  exact absurd hle (Nat.not_succ_le_self source.rowVersion)

theorem marked_permissionReasons (oracleEnabled : Bool) (source : Source) (external : Bool) :
    acquisitionPermissionReasons oracleEnabled (markedSource now command source) none external =
      acquisitionPermissionReasons oracleEnabled source none external := rfl

/-- The permission of the marked source. -/
theorem Store.Pinned.marked_permission (hp : store.Pinned) (oracleEnabled : Bool) {tenantId : Uuid}
    {source : Source} (h : store.source tenantId sourceId = some source) (external : Bool) :
    (store.marked now command sourceId).permission oracleEnabled instant tenantId sourceId external =
      some (acquisitionPermissionReasons oracleEnabled source none external) := by
  unfold Store.permission
  rw [marked_source h, if_pos rfl, Option.map_some, hp.marked_effective (mem_source h).1,
    marked_permissionReasons]

/-- The permission of any other source. -/
theorem marked_permission_other (oracleEnabled : Bool) {tenantId id : Uuid} (hid : id ≠ sourceId)
    (external : Bool) :
    (store.marked now command sourceId).permission oracleEnabled instant tenantId id external =
      store.permission oracleEnabled instant tenantId id external := by
  unfold Store.permission
  cases h : store.source tenantId id with
  | none =>
      rw [marked_source_none h]
      rfl
  | some source =>
      rw [marked_source h, if_neg hid]
      rfl

theorem marked_itemReasons_other {settings : WorkerSettings} {item : RunItem}
    (h : (store.manifest item.tenantId item.manifestEntryId).any (·.sourceId = sourceId) = false) :
    (store.marked now command sourceId).itemReasons settings instant item =
      store.itemReasons settings instant item := by
  have hmanifest : (store.marked now command sourceId).manifest item.tenantId item.manifestEntryId =
      store.manifest item.tenantId item.manifestEntryId := rfl
  unfold Store.itemReasons
  rw [hmanifest]
  cases hentry : store.manifest item.tenantId item.manifestEntryId with
  | none => rfl
  | some manifest =>
      have hid : manifest.sourceId ≠ sourceId := by simpa [hentry] using h
      simp only [Option.bind_eq_bind, Option.bind_some]
      cases hsource : store.source item.tenantId manifest.sourceId with
      | none =>
          rw [marked_source_none hsource]
          rfl
      | some source =>
          rw [marked_source hsource, if_neg hid]
          rfl

/-- **An item of the marked source that could be acquired is blocked.** -/
theorem marked_itemReasons {settings : WorkerSettings} {item : RunItem}
    (hentry : (store.manifest item.tenantId item.manifestEntryId).any (·.sourceId = sourceId) = true)
    (hfree : store.itemReasons settings instant item = some []) :
    (store.marked now command sourceId).itemReasons settings instant item =
      some [.sourceVersionChanged] := by
  have hmanifest : (store.marked now command sourceId).manifest item.tenantId item.manifestEntryId =
      store.manifest item.tenantId item.manifestEntryId := rfl
  unfold Store.itemReasons at hfree ⊢
  rw [hmanifest]
  obtain ⟨manifest, hsome, hid⟩ := (Option.any_eq_true _ _).mp hentry
  obtain rfl : manifest.sourceId = sourceId := by simpa using hid
  simp only [hsome, Option.bind_eq_bind, Option.bind_some, Option.bind_eq_some_iff] at hfree ⊢
  obtain ⟨source, hsource, hreasons⟩ := hfree
  have hversion : source.rowVersion = item.sourceRowVersion := by
    by_contra hne
    simp [AcquisitionWork.permissionReasons, claimedWork, hne] at hreasons
  refine ⟨_, marked_source hsource, ?_⟩
  have hchanged : source.rowVersion + 1 ≠ item.sourceRowVersion := by
    rw [hversion]
    exact Nat.succ_ne_self _
  simp [AcquisitionWork.permissionReasons, claimedWork, markedSource, hchanged]

/-- **A mark alters nothing exactly when nothing is at stake.** -/
theorem Store.Pinned.marked_unaltered_iff (hp : store.Pinned) :
    Unaltered instant store (store.marked now command sourceId) ↔ ¬ store.atStake instant sourceId := by
  constructor
  · rintro hunaltered (⟨tenantId, hlisted⟩ | ⟨settings, item, hitem, hwaiting, hentry, hfree⟩)
    · obtain ⟨source, hsource, happroved⟩ := (Option.any_eq_true _ _).mp hlisted
      have hsame := hunaltered.permission true tenantId sourceId true
      rw [hp.marked_permission true hsource, Store.permission, hsource, Option.map_some,
        Option.some.injEq] at hsame
      exact permissionReasons_approved happroved true hsame.symm
    · have hafter := hunaltered.items settings item hitem hwaiting hfree
      rw [marked_itemReasons hentry hfree] at hafter
      cases hafter
  · intro hstake
    constructor
    · intro oracleEnabled tenantId id external
      by_cases hid : id = sourceId
      · subst hid
        cases hsource : store.source tenantId id with
        | none =>
            unfold Store.permission
            rw [marked_source_none hsource, hsource]
            rfl
        | some source =>
            have hlisted : store.allowlisted instant tenantId id = false := by
              by_contra hne
              exact hstake (Or.inl ⟨tenantId, by simpa using hne⟩)
            rw [Store.allowlisted, hsource, Option.any_some] at hlisted
            rw [hp.marked_permission oracleEnabled hsource, Store.permission, hsource,
              Option.map_some, permissionReasons_unapproved hlisted]
      · exact marked_permission_other oracleEnabled hid external
    · intro settings item hitem hwaiting hfree
      by_cases hentry : (store.manifest item.tenantId item.manifestEntryId).any
          (·.sourceId = sourceId) = true
      · exact absurd (Or.inr ⟨settings, item, hitem, hwaiting, hentry, hfree⟩) hstake
      · rw [marked_itemReasons_other (by simpa using hentry), hfree]

end Marks

/-- The store of an accepted mark. -/
theorem Store.Pinned.refreshLifecycle (hp : store.Pinned) {now : Instant} {actor : Administrator}
    {sourceId : Uuid} {command : RefreshLifecycleCommand}
    (h : Knowledge.refreshLifecycle now actor sourceId command store = some store') :
    store' = store.marked now command sourceId := by
  simp only [Knowledge.refreshLifecycle, Option.bind_eq_bind, Option.bind_eq_some_iff] at h
  obtain ⟨source, _, h⟩ := h
  split at h
  · cases h
  · split at h
    · cases h
    · obtain ⟨_, _, _, _, rfl⟩ := hp.updateSource h
      rfl

/-- **A lifecycle step alters neither permission nor queue, unless it is a mark with
    something at stake.** -/
theorem unaltered_iff {world₀ world world' : World} {actions : List SourceAction}
    {action : SourceAction} (hpinned : world₀.store.Pinned)
    (hrun : Run (GovernedStep d) world₀ actions world) (hlifecycle : action.lifecycle = true)
    (hstep : GovernedStep d world action world') (now : Instant) :
    Unaltered now world.store world'.store ↔ ¬ action.Costs world.store now := by
  have hp : world.store.Pinned := pinned_of_run hpinned hrun
  rcases governedStep_cases hstep with ⟨store', hadminister, rfl⟩ | ⟨act, rfl, hgovern, hworld⟩
  · cases action with
    | refreshLifecycle time actor sourceId command =>
        obtain rfl := hp.refreshLifecycle hadminister
        exact hp.marked_unaltered_iff
    | world => cases hadminister
    | create | update | approve | authorize => cases hlifecycle
  · have hkept : world.store.SameGovernance world'.store ∧
        world'.store.manifests = world.store.manifests := by
      cases act with
      | createRefreshRun =>
          cases hworld.stepped with
          | command hcommand => exact createRefreshRun_kept hcommand
      | acquisition =>
          cases hworld.stepped with
          | command hcommand => cases hcommand
          | acquisition hcall hevent => exact acquisition_kept hevent
      | _ => cases hlifecycle
    exact iff_of_true (hkept.1.unaltered hkept.2 now) id

/-! ## 5. A feed that is marked -/

def feedDefinition : SourceDefinition where
  code := "FEED"
  sourceType := .companyPolicy
  acquisitionMethod := .apiFeed
  status := .active
  ownerUserId := some 8
  ownerGroupId := none
  require_owner := Or.inl rfl

def governor : Administrator where
  tenantId := 3
  userId := 9
  supportGroupIds := []
  permissions := [.create, .update, .approve, .acquisitionPermissionManage]

def feedPage : ManifestEntryInput where
  sourceId := 2
  manifestKey := "policy"
  documentTitle := "Policy"
  documentType := "POLICY"
  audienceCode := .all
  canonicalUrl := none
  acquisitionUrl := "https://example.invalid/policy"
  securityClassification := .internalUse
  acquisitionMethod := .apiFeed
  expectedSha256 := none
  originalFilename := "policy.html"
  declaredContentType := "text/html"
  declaredSizeBytes := none
  copyrightNotice := none

def markDue (expectedVersion : Nat) : RefreshLifecycleCommand where
  action := .markRefreshDue
  expectedVersion
  refreshDueAt := none
  validate_due_date := by simp

def emptyWorld : World where
  store := emptyStore
  acquisitions := []
  processings := []
  acquired := []

/-- A feed that may be acquired from, with a page that is queued. -/
def queuedFeed : List SourceAction :=
  [.create governor 2 (some 3) feedDefinition,
   .approve governor 2 true 1,
   .authorize 0 governor 2 7 ⟨true, .apiFeed, 2, none, none, by decide⟩,
   .world (.importEntry 3 feedPage),
   .world (.decideManifest governor.toActor 100 ⟨true, "LEGAL-1", 1⟩),
   .world (.createRun 0 3 [100])]

theorem emptyWorld_pinned : emptyWorld.store.Pinned where
  distinct := List.nodup_nil
  authorized := by simp [emptyWorld, emptyStore]

/-- A source that nothing was acquired from yet. -/
theorem unaltered_iff_sample :
    ∃ world world', GovernedStep editionDeployment world
      (.refreshLifecycle 0 governor 2 (markDue 1)) world' ∧ Unaltered 0 world.store world'.store := by
  have hrun : ∃ world, [SourceAction.create governor 2 (some 3) feedDefinition].foldlM
      (World.govern editionDeployment) emptyWorld = some world ∧
        (world.store.authorizations, world.store.items,
          (world.govern editionDeployment (.refreshLifecycle 0 governor 2 (markDue 1))).isSome) =
            ([], [], true) := by
    rw [← Option.map_eq_some_iff]
    decide +kernel
  obtain ⟨world, hrun, hrows⟩ := hrun
  obtain ⟨hauthorizations, hrows⟩ := Prod.mk.inj hrows
  obtain ⟨hitems, hsome⟩ := Prod.mk.inj hrows
  obtain ⟨world', hstep⟩ := Option.isSome_iff_exists.mp hsome
  refine ⟨world, world', hstep, ?_⟩
  refine (unaltered_iff emptyWorld_pinned (run_of_foldlM hrun) rfl hstep 0).mpr ?_
  rintro (⟨tenantId, hlisted⟩ | ⟨settings, item, hitem, _⟩)
  · obtain ⟨source, _, happroved⟩ := (Option.any_eq_true _ _).mp hlisted
    simp [Store.effectiveAuthorization, hauthorizations] at happroved
  · simp [hitems] at hitem

/-- **Marking a feed as due takes its permission away.** -/
theorem mark_revokes :
    ¬ ∀ (d : Deployment) (world₀ world world' : World) (actions : List SourceAction)
      (action : SourceAction) (now : Instant), world₀.store.Pinned →
      Run (GovernedStep d) world₀ actions world → action.lifecycle = true →
      GovernedStep d world action world' → Unaltered now world.store world'.store := by
  intro hclaim
  have hrun : ∃ world, queuedFeed.foldlM (World.govern editionDeployment) emptyWorld = some world ∧
      (world.store.permission true 0 3 2 true,
        (world.govern editionDeployment (.refreshLifecycle 0 governor 2 (markDue 3))).map fun world' =>
          world'.store.permission true 0 3 2 true) =
        (some [], some (some [.approvedAllowlistEntryMissing])) := by
    rw [← Option.map_eq_some_iff]
    decide +kernel
  obtain ⟨world, hrun, hrows⟩ := hrun
  obtain ⟨hbefore, hnext⟩ := Prod.mk.inj hrows
  obtain ⟨world', hstep, hafter⟩ := Option.map_eq_some_iff.mp hnext
  have hsame := (hclaim editionDeployment emptyWorld world world' _ _ 0 emptyWorld_pinned
    (run_of_foldlM hrun) rfl hstep).permission true 3 2 true
  rw [hbefore, hafter] at hsame
  cases hsame

end Helpdesk.Knowledge
