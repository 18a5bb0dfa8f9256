/-
  File:      Helpdesk/Knowledge/CorpusHistory.lean
  Subject:   Which corpus version is active, over any history of publications and rollbacks.

  The histories are the runs of `WatchedStep`: publications, rollbacks and validations of all
  tenants, with whatever else ingestion does between them. A command that is replayed with a
  key of an earlier one answers what is recorded and is no step.

  * `VersionsStep`: what a step does to the table of corpus versions;
  * `Store.Versioned`: identifiers are distinct, numbers ascend within a tenant, and a tenant
    with versions has exactly one that is active;
  * `rollback_activates_newest`: a rollback directly after a publication activates the version
    with the highest number before it, which is the one that was active before exactly when
    that was the newest;
  * `rollback_activates_rolled_back`: after an earlier rollback it is another one.
-/
import Helpdesk.Knowledge.Staleness
import Mathlib.Data.List.MinMax
import Mathlib.Data.List.Pairwise

namespace Helpdesk.Knowledge

open Helpdesk.Python

variable {d : Deployment} {sim : Similarity} {store store' : Store} {tenantId : Uuid}

/-! ## 1. What a step does to the corpus versions -/

theorem finalizeRun_corpusVersions {now : Instant} {work : AcquisitionWork} :
    (finalizeRun now work store).corpusVersions = store.corpusVersions := by
  unfold finalizeRun
  dsimp only
  split <;> rfl

theorem upsertManifest_corpusVersions {owner : Option Uuid} {sourceId : Uuid} {manifestKey : String}
    {write : ManifestEntry → ManifestEntry} :
    (upsertManifest store owner sourceId manifestKey write).corpusVersions =
      store.corpusVersions := by
  unfold upsertManifest
  dsimp only
  split <;> rfl

theorem command_corpusVersions {action : Action} (h : command d action store = some store') :
    store'.corpusVersions = store.corpusVersions := by
  cases command_commanded h with
  | governed | decided | uploaded | approved | published | superseded | retired | created => rfl
  | imported | authorized => exact upsertManifest_corpusVersions

theorem acquisition_corpusVersions {call : AcquisitionCall} {event : AcquisitionEvent}
    {phase : AcquisitionPhase} {acquired : List Acquired}
    (h : AcquisitionStep d call store event phase store' acquired) :
    store'.corpusVersions = store.corpusVersions := by
  cases h with
  | load => rfl
  | block | skip | fail => exact finalizeRun_corpusVersions
  | complete hphase hreasons hcomplete =>
      cases completeAcquisition_completed hcomplete with
      | known | stored | created => exact finalizeRun_corpusVersions

theorem processing_corpusVersions {call : ProcessingCall} {event : ProcessingEvent}
    {phase : ProcessingPhase} (h : ProcessingStep d call store event phase store') :
    store'.corpusVersions = store.corpusVersions := by
  cases h with
  | load | replay => rfl
  | start hphase hstart => cases startProcessing_started hstart <;> rfl
  | persist hphase hpersist =>
      obtain ⟨embeddings, rfl⟩ := persist_eq_ok hpersist
      rfl
  | @fail now work processing code final hphase =>
      unfold processingFailed
      dsimp only
      cases processing <;> split <;> rfl

/-- No step of ingestion touches the corpus versions. -/
theorem step_corpusVersions {world world' : World} {action : Action}
    (h : WorldStep d world action world') :
    world'.store.corpusVersions = world.store.corpusVersions := by
  cases h.stepped with
  | command hcommand => exact command_corpusVersions hcommand
  | claimAcquisition | claimProcessing | leaveAcquisition | leaveProcessing => rfl
  | acquisition hcall hevent => exact acquisition_corpusVersions hevent
  | processing hcall hevent => exact processing_corpusVersions hevent

/-- The version that a rollback leaves of `v`. -/
def switchedVersion (tenantId targetId : Uuid) (v : CorpusVersion) : CorpusVersion :=
  activateVersion tenantId targetId (deactivateActive tenantId v)

/-- What `rollback` has done. -/
theorem rollbackCorpus_eq_some {restored : CorpusVersion} :
    rollbackCorpus tenantId store = some (restored, store') ↔
      ∃ active target, store.activeVersion tenantId = some active ∧
        store.previousVersion tenantId active.versionNumber = some target ∧
        restored = switchedVersion tenantId target.corpusVersionId target ∧
        store' = { store with
          corpusVersions :=
            store.corpusVersions.map (switchedVersion tenantId target.corpusVersionId) } := by
  simp only [rollbackCorpus, Option.bind_eq_bind, Option.bind_eq_some_iff, Option.pure_def,
    Option.some.injEq, Prod.mk.injEq]
  constructor
  · rintro ⟨active, hactive, target, htarget, rfl, rfl⟩
    exact ⟨active, target, hactive, htarget, rfl, rfl⟩
  · rintro ⟨active, target, hactive, htarget, rfl, rfl⟩
    exact ⟨active, hactive, target, htarget, rfl, rfl⟩

/-- **What a step does to the corpus versions.** -/
inductive VersionsStep (store store' : Store) : CorpusAction → Prop where
  | kept {action : CorpusAction} (hrows : store'.corpusVersions = store.corpusVersions)
      (hnext : store.nextId ≤ store'.nextId)
      (haction : ∀ tenantId, action ≠ .publishCorpus tenantId ∧ action ≠ .rollbackCorpus tenantId) :
      VersionsStep store store' action
  | published {tenantId : Uuid} {version : CorpusVersion}
      (h : publishCorpus tenantId store = some (version, store')) :
      VersionsStep store store' (.publishCorpus tenantId)
  | rolledBack {tenantId : Uuid} {restored : CorpusVersion}
      (h : rollbackCorpus tenantId store = some (restored, store')) :
      VersionsStep store store' (.rollbackCorpus tenantId)

theorem watchedStep_versions {s s' : Watched} {action : CorpusAction}
    (h : WatchedStep d sim s action s') : VersionsStep s.world.store s'.world.store action := by
  unfold WatchedStep at h
  cases action with
  | step action =>
      obtain ⟨world', hnext, rfl⟩ := Option.map_eq_some_iff.mp h
      exact .kept (step_corpusVersions hnext) (step_frame hnext).1.nextId fun _ => ⟨nofun, nofun⟩
  | runValidation now tenantId =>
      obtain rfl := Option.some.inj h
      exact .kept rfl (Nat.le_succ _) fun _ => ⟨nofun, nofun⟩
  | publishCorpus tenantId =>
      obtain ⟨⟨version, store'⟩, hpublish, rfl⟩ := Option.map_eq_some_iff.mp h
      exact .published hpublish
  | rollbackCorpus tenantId =>
      obtain ⟨⟨restored, store'⟩, hrollback, rfl⟩ := Option.map_eq_some_iff.mp h
      exact .rolledBack hrollback

/-! ## 2. What the commands write -/

section Rows

variable {targetId : Uuid} (v : CorpusVersion)

@[simp] theorem deactivateActive_corpusVersionId :
    (deactivateActive tenantId v).corpusVersionId = v.corpusVersionId := by
  unfold deactivateActive
  split <;> rfl

@[simp] theorem deactivateActive_tenantId : (deactivateActive tenantId v).tenantId = v.tenantId := by
  unfold deactivateActive
  split <;> rfl

@[simp] theorem deactivateActive_versionNumber :
    (deactivateActive tenantId v).versionNumber = v.versionNumber := by
  unfold deactivateActive
  split <;> rfl

theorem deactivateActive_activeFlag : (deactivateActive tenantId v).activeFlag =
    (v.activeFlag && !decide (v.tenantId = tenantId)) := by
  unfold deactivateActive
  by_cases htenant : v.tenantId = tenantId <;> cases hactive : v.activeFlag <;>
    simp [htenant, hactive]

@[simp] theorem switchedVersion_corpusVersionId :
    (switchedVersion tenantId targetId v).corpusVersionId = v.corpusVersionId := by
  unfold switchedVersion activateVersion
  split <;> simp

@[simp] theorem switchedVersion_tenantId :
    (switchedVersion tenantId targetId v).tenantId = v.tenantId := by
  unfold switchedVersion activateVersion
  split <;> simp

@[simp] theorem switchedVersion_versionNumber :
    (switchedVersion tenantId targetId v).versionNumber = v.versionNumber := by
  unfold switchedVersion activateVersion
  split <;> simp

theorem switchedVersion_activeFlag : (switchedVersion tenantId targetId v).activeFlag =
    if v.tenantId = tenantId then decide (v.corpusVersionId = targetId) else v.activeFlag := by
  unfold switchedVersion activateVersion
  by_cases htenant : v.tenantId = tenantId <;> by_cases hid : v.corpusVersionId = targetId <;>
    simp [htenant, hid, deactivateActive_activeFlag]

end Rows

/-! ## 3. One active version -/

/-- How many versions of the tenant are active. -/
def Store.activeCount (store : Store) (tenantId : Uuid) : Nat :=
  store.corpusVersions.countP fun v => v.tenantId = tenantId && v.activeFlag

/-- Identifiers are distinct and taken, numbers ascend within a tenant, and a tenant with
    versions has exactly one that is active. -/
structure Store.Versioned (store : Store) : Prop where
  taken : ∀ v ∈ store.corpusVersions, v.corpusVersionId < store.nextId
  distinct : (store.corpusVersions.map (·.corpusVersionId)).Nodup
  ascending : store.corpusVersions.Pairwise fun a b =>
    a.tenantId = b.tenantId → a.versionNumber < b.versionNumber
  active : ∀ tenantId, (∃ v ∈ store.corpusVersions, v.tenantId = tenantId) →
    store.activeCount tenantId = 1

theorem Store.Versioned.inj (h : store.Versioned) {v w : CorpusVersion}
    (hv : v ∈ store.corpusVersions) (hw : w ∈ store.corpusVersions)
    (hid : v.corpusVersionId = w.corpusVersionId) : v = w :=
  List.inj_on_of_nodup_map h.distinct hv hw hid

theorem Store.Versioned.kept (h : store.Versioned)
    (hrows : store'.corpusVersions = store.corpusVersions) (hnext : store.nextId ≤ store'.nextId) :
    store'.Versioned where
  taken := by
    rw [hrows]
    exact fun v hv => (h.taken v hv).trans_le hnext
  distinct := by rw [hrows]; exact h.distinct
  ascending := by rw [hrows]; exact h.ascending
  active := by
    intro tenantId
    unfold Store.activeCount
    rw [hrows]
    exact h.active tenantId

/-- The new number is above those of the tenant. -/
theorem newCorpusVersion_above {run : CorpusRun} {v : CorpusVersion}
    (hv : v ∈ store.corpusVersions) (htenant : v.tenantId = tenantId) :
    v.versionNumber < (newCorpusVersion store tenantId run).versionNumber := by
  refine Nat.lt_succ_of_le ?_
  have hmem : v.versionNumber ∈ (store.corpusVersions.filter fun v => v.tenantId = tenantId).map
      (·.versionNumber) :=
    List.mem_map_of_mem (List.mem_filter.mpr ⟨hv, decide_eq_true htenant⟩)
  exact List.le_max_of_le' 0 hmem le_rfl

/-- The rows of another tenant count as before. -/
theorem countP_map_other {rows : List CorpusVersion} {change : CorpusVersion → CorpusVersion}
    {other : Uuid} (htenant : ∀ v, (change v).tenantId = v.tenantId)
    (hflag : ∀ v ∈ rows, v.tenantId = other → (change v).activeFlag = v.activeFlag) :
    (rows.map change).countP (fun v => v.tenantId = other && v.activeFlag) =
      rows.countP fun v => v.tenantId = other && v.activeFlag := by
  rw [List.countP_map]
  refine List.countP_congr fun v hv => ?_
  simp only [Function.comp_apply, htenant, Bool.and_eq_true, decide_eq_true_eq]
  refine and_congr_right fun hother => ?_
  rw [hflag v hv hother]

/-- A publication leaves its own version as the only one that is active. -/
theorem Store.Versioned.published (h : store.Versioned) {version : CorpusVersion}
    (hpublish : publishCorpus tenantId store = some (version, store')) : store'.Versioned := by
  obtain ⟨run, _, _, _, rfl, rfl⟩ := publishCorpus_eq_some hpublish
  refine ⟨?_, ?_, ?_, ?_⟩
  · intro v hv
    rcases List.mem_append.mp hv with hold | hnew
    · obtain ⟨w, hw, rfl⟩ := List.mem_map.mp hold
      rw [deactivateActive_corpusVersionId]
      exact Nat.lt_succ_of_lt (h.taken w hw)
    · rw [List.mem_singleton.mp hnew]
      exact Nat.lt_succ_self store.nextId
  · simp only [List.map_append, List.map_map, List.map_cons, List.map_nil]
    have hids : ((·.corpusVersionId) ∘ deactivateActive tenantId) =
        (·.corpusVersionId : CorpusVersion → Uuid) := by
      funext v
      exact deactivateActive_corpusVersionId v
    rw [hids, List.nodup_append]
    refine ⟨h.distinct, List.nodup_singleton _, fun a ha b hb => ?_⟩
    obtain ⟨v, hv, rfl⟩ := List.mem_map.mp ha
    rw [List.mem_singleton.mp hb]
    exact (h.taken v hv).ne
  · rw [List.pairwise_append]
    refine ⟨?_, List.pairwise_singleton _ _, fun a ha b hb htenant => ?_⟩
    · rw [List.pairwise_map]
      simpa using h.ascending
    · obtain ⟨v, hv, rfl⟩ := List.mem_map.mp ha
      rw [List.mem_singleton.mp hb] at htenant ⊢
      rw [deactivateActive_tenantId] at htenant
      rw [deactivateActive_versionNumber]
      exact newCorpusVersion_above hv htenant
  · intro other hexists
    unfold Store.activeCount
    dsimp only
    rw [List.countP_append]
    by_cases hother : other = tenantId
    · subst hother
      have hnone : (store.corpusVersions.map (deactivateActive other)).countP
          (fun v => v.tenantId = other && v.activeFlag) = 0 := by
        rw [List.countP_eq_zero]
        intro v hv
        obtain ⟨w, _, rfl⟩ := List.mem_map.mp hv
        simp +contextual [deactivateActive_activeFlag]
      rw [hnone]
      simp [newCorpusVersion]
    · have hnew : [newCorpusVersion store tenantId run].countP
          (fun v => v.tenantId = other && v.activeFlag) = 0 := by
        simp [newCorpusVersion, Ne.symm hother]
      rw [hnew, Nat.add_zero, countP_map_other deactivateActive_tenantId fun v _ htenant => by
        simp [deactivateActive_activeFlag, htenant, hother]]
      refine h.active other ?_
      obtain ⟨v, hv, htenant⟩ := hexists
      rcases List.mem_append.mp hv with hold | hself
      · obtain ⟨w, hw, rfl⟩ := List.mem_map.mp hold
        exact ⟨w, hw, (deactivateActive_tenantId w).symm.trans htenant⟩
      · rw [List.mem_singleton.mp hself] at htenant
        exact absurd htenant.symm hother

/-- A version that some rollback goes to. -/
theorem mem_previousVersion {before : Nat} {target : CorpusVersion}
    (h : store.previousVersion tenantId before = some target) :
    target ∈ store.corpusVersions ∧ target.tenantId = tenantId ∧ target.versionNumber < before := by
  have hmem := mem_of_head?_insertionSort h
  simpa [and_assoc] using hmem

/-- A rollback leaves its target as the only one that is active. -/
theorem Store.Versioned.rolledBack (h : store.Versioned) {restored : CorpusVersion}
    (hrollback : rollbackCorpus tenantId store = some (restored, store')) : store'.Versioned := by
  obtain ⟨active, target, _, htarget, rfl, rfl⟩ := rollbackCorpus_eq_some.mp hrollback
  obtain ⟨hmem, htenant, _⟩ := mem_previousVersion htarget
  refine ⟨?_, ?_, ?_, ?_⟩
  · intro v hv
    obtain ⟨w, hw, rfl⟩ := List.mem_map.mp hv
    rw [switchedVersion_corpusVersionId]
    exact h.taken w hw
  · rw [List.map_map]
    have hids : ((·.corpusVersionId) ∘ switchedVersion tenantId target.corpusVersionId) =
        (·.corpusVersionId : CorpusVersion → Uuid) := by
      funext v
      exact switchedVersion_corpusVersionId v
    rw [hids]
    exact h.distinct
  · rw [List.pairwise_map]
    simpa using h.ascending
  · intro other hexists
    unfold Store.activeCount
    dsimp only
    by_cases hother : other = tenantId
    · subst hother
      -- the target is counted once, since identifiers are distinct
      have hcount : (store.corpusVersions.map (·.corpusVersionId)).count target.corpusVersionId = 1 :=
        List.count_eq_one_of_mem h.distinct (List.mem_map_of_mem hmem)
      rw [List.count, List.countP_map] at hcount
      rw [List.countP_map, ← hcount]
      refine List.countP_congr fun v hv => ?_
      simp only [Function.comp_apply, switchedVersion_tenantId, switchedVersion_activeFlag,
        Bool.and_eq_true, decide_eq_true_eq, beq_iff_eq]
      constructor
      · rintro ⟨hv, hflag⟩
        simpa [hv] using hflag
      · intro hid
        obtain rfl := h.inj hv hmem hid
        simp [htenant]
    · rw [countP_map_other switchedVersion_tenantId fun v _ hv => by
        simp [switchedVersion_activeFlag, hv, hother]]
      refine h.active other ?_
      obtain ⟨v, hv, hvother⟩ := hexists
      obtain ⟨w, hw, rfl⟩ := List.mem_map.mp hv
      exact ⟨w, hw, (switchedVersion_tenantId w).symm.trans hvother⟩

/-- **Every step keeps one active version.** -/
theorem Store.Versioned.step (h : store.Versioned) {action : CorpusAction}
    (hstep : VersionsStep store store' action) : store'.Versioned := by
  cases hstep with
  | kept hrows hnext => exact h.kept hrows hnext
  | published hpublish => exact h.published hpublish
  | rolledBack hrollback => exact h.rolledBack hrollback

theorem Store.Versioned.of_none (h : store.corpusVersions = []) : store.Versioned := by
  constructor <;> simp [h]

theorem versioned_of_run {s₀ s : Watched} {actions : List CorpusAction}
    (hstart : s₀.world.store.corpusVersions = []) (hrun : Run (WatchedStep d sim) s₀ actions s) :
    s.world.store.Versioned := by
  refine @Run.invariant _ _ _ (fun s => s.world.store.Versioned) _ _ _ hrun (.of_none hstart) ?_
  exact fun _ _ _ h hs => h.step (watchedStep_versions hs)

/-- A tenant that published has versions. -/
theorem VersionsStep.exists {action : CorpusAction} (hstep : VersionsStep store store' action)
    (h : (∃ v ∈ store.corpusVersions, v.tenantId = tenantId) ∨ action = .publishCorpus tenantId) :
    ∃ v ∈ store'.corpusVersions, v.tenantId = tenantId := by
  cases hstep with
  | kept hrows _ haction =>
      rw [hrows]
      exact h.resolve_right (haction tenantId).1
  | published hpublish =>
      obtain ⟨run, _, _, _, rfl, rfl⟩ := publishCorpus_eq_some hpublish
      rcases h with ⟨v, hv, htenant⟩ | heq
      · exact ⟨_, List.mem_append_left _ (List.mem_map_of_mem hv),
          (deactivateActive_tenantId v).trans htenant⟩
      · exact ⟨_, List.mem_append_right _ (List.mem_singleton_self _), CorpusAction.publishCorpus.inj heq⟩
  | rolledBack hrollback =>
      obtain ⟨active, target, _, _, _, rfl⟩ := rollbackCorpus_eq_some.mp hrollback
      obtain ⟨v, hv, htenant⟩ := h.resolve_right nofun
      exact ⟨_, List.mem_map_of_mem hv, (switchedVersion_tenantId v).trans htenant⟩

theorem exists_of_run {s₀ s : Watched} {actions : List CorpusAction}
    (hrun : Run (WatchedStep d sim) s₀ actions s)
    (hmem : CorpusAction.publishCorpus tenantId ∈ actions) :
    ∃ v ∈ s.world.store.corpusVersions, v.tenantId = tenantId := by
  induction hrun with
  | start => cases hmem
  | next hr hs ih =>
      refine (watchedStep_versions hs).exists ?_
      rcases List.mem_append.mp hmem with hbefore | hlast
      · exact Or.inl (ih hbefore)
      · exact Or.inr (List.mem_singleton.mp hlast).symm

/-! ## 4. What a rollback goes to -/

/-- The active version is the one that is found. -/
theorem Store.Versioned.activeVersion (h : store.Versioned) {v : CorpusVersion}
    (hv : v ∈ store.corpusVersions) (htenant : v.tenantId = tenantId) (hactive : v.activeFlag = true) :
    store.activeVersion tenantId = some v := by
  have hone := h.active tenantId ⟨v, hv, htenant⟩
  rw [Store.activeCount, List.countP_eq_length_filter, List.length_eq_one_iff] at hone
  obtain ⟨w, hw⟩ := hone
  have hself : v ∈ store.corpusVersions.filter fun v => v.tenantId = tenantId && v.activeFlag := by
    simp [hv, htenant, hactive]
  rw [hw, List.mem_singleton] at hself
  rw [Store.activeVersion, ← List.head?_filter, hw, hself]
  rfl

instance : Std.Total newerCorpusVersion where
  total a b := le_total b.versionNumber a.versionNumber

instance : IsTrans CorpusVersion newerCorpusVersion where
  trans _ _ _ h h' := le_trans h' h

/-- The target of a rollback has the highest number below. -/
theorem le_previousVersion {before : Nat} {target w : CorpusVersion}
    (h : store.previousVersion tenantId before = some target) (hw : w ∈ store.corpusVersions)
    (htenant : w.tenantId = tenantId) (hbelow : w.versionNumber < before) :
    w.versionNumber ≤ target.versionNumber := by
  unfold Store.previousVersion at h
  have hmem : w ∈ store.corpusVersions.filter fun v =>
      v.tenantId = tenantId && v.versionNumber < before := by
    simp [hw, htenant, hbelow]
  generalize store.corpusVersions.filter _ = below at h hmem
  have hsorted := List.pairwise_insertionSort newerCorpusVersion below
  rw [← List.mem_insertionSort newerCorpusVersion] at hmem
  cases hlist : below.insertionSort newerCorpusVersion with
  | nil =>
      rw [hlist] at hmem
      cases hmem
  | cons first rest =>
      rw [hlist] at h hsorted hmem
      obtain rfl := Option.some.inj h
      rcases List.mem_cons.mp hmem with rfl | hrest
      · exact le_rfl
      · exact List.rel_of_pairwise_cons hsorted hrest

theorem previousVersion_isSome {before : Nat} {w : CorpusVersion} (hw : w ∈ store.corpusVersions)
    (htenant : w.tenantId = tenantId) (hbelow : w.versionNumber < before) :
    ∃ target, store.previousVersion tenantId before = some target := by
  have hmem : w ∈ (store.corpusVersions.filter fun v =>
      v.tenantId = tenantId && v.versionNumber < before).insertionSort newerCorpusVersion := by
    rw [List.mem_insertionSort]
    simp [hw, htenant, hbelow]
  unfold Store.previousVersion
  cases hlist : (store.corpusVersions.filter fun v =>
      v.tenantId = tenantId && v.versionNumber < before).insertionSort newerCorpusVersion with
  | nil =>
      rw [hlist] at hmem
      cases hmem
  | cons first rest => exact ⟨first, rfl⟩

/-- The versions of a tenant. -/
def Store.tenantVersions (store : Store) (tenantId : Uuid) : List CorpusVersion :=
  store.corpusVersions.filter fun v => v.tenantId = tenantId

theorem mem_tenantVersions {v : CorpusVersion} :
    v ∈ store.tenantVersions tenantId ↔ v ∈ store.corpusVersions ∧ v.tenantId = tenantId := by
  simp [Store.tenantVersions]

theorem tenantVersions_map_other {change : CorpusVersion → CorpusVersion} {rows : List CorpusVersion}
    (htenant : ∀ v, (change v).tenantId = v.tenantId)
    (hsame : ∀ v, v.tenantId = tenantId → change v = v) :
    (rows.map change).filter (fun v => v.tenantId = tenantId) =
      rows.filter fun v => v.tenantId = tenantId := by
  rw [List.filter_map]
  have hfilter : ((fun v : CorpusVersion => decide (v.tenantId = tenantId)) ∘ change) =
      fun v => decide (v.tenantId = tenantId) := by
    funext v
    rw [Function.comp_apply, htenant]
  rw [hfilter]
  refine (List.map_congr_left fun v hv => ?_).trans (List.map_id _)
  exact hsame v (of_decide_eq_true (List.mem_filter.mp hv).2)

/-- **Only its own publications and rollbacks touch a tenant's versions.** -/
theorem VersionsStep.tenantVersions {action : CorpusAction} (hstep : VersionsStep store store' action)
    (hpublish : action ≠ .publishCorpus tenantId) (hrollback : action ≠ .rollbackCorpus tenantId) :
    store'.tenantVersions tenantId = store.tenantVersions tenantId := by
  unfold Store.tenantVersions
  cases hstep with
  | kept hrows => rw [hrows]
  | @published other version h =>
      have hother : tenantId ≠ other := fun heq => hpublish (heq ▸ rfl)
      obtain ⟨run, _, _, _, rfl, rfl⟩ := publishCorpus_eq_some h
      have hnew : [newCorpusVersion store other run].filter (fun v => v.tenantId = tenantId) = [] := by
        simp [newCorpusVersion, hother.symm]
      rw [List.filter_append, hnew, List.append_nil]
      refine tenantVersions_map_other deactivateActive_tenantId fun v hv => ?_
      rw [deactivateActive, if_neg (by simp [hv, hother])]
  | @rolledBack other restored h =>
      have hother : tenantId ≠ other := fun heq => hrollback (heq ▸ rfl)
      obtain ⟨active, target, _, _, _, rfl⟩ := rollbackCorpus_eq_some.mp h
      refine tenantVersions_map_other switchedVersion_tenantId fun v hv => ?_
      rw [switchedVersion, deactivateActive, if_neg (by simp [hv, hother]), activateVersion,
        if_neg (by simp [hv, hother])]

theorem tenantVersions_of_run {s s' : Watched} {actions : List CorpusAction}
    (hrun : Run (WatchedStep d sim) s actions s')
    (hpublish : CorpusAction.publishCorpus tenantId ∉ actions)
    (hrollback : CorpusAction.rollbackCorpus tenantId ∉ actions) :
    s'.world.store.tenantVersions tenantId = s.world.store.tenantVersions tenantId := by
  induction hrun with
  | start => rfl
  | next hr hs ih =>
      simp only [List.mem_append, List.mem_singleton, not_or] at hpublish hrollback
      have hlast := (watchedStep_versions hs).tenantVersions (Ne.symm hpublish.2)
        (Ne.symm hrollback.2)
      exact hlast.trans (ih hpublish.1 hrollback.1)

/-- The version of the tenant that was published last. -/
def Newest (store : Store) (tenantId : Uuid) (v : CorpusVersion) : Prop :=
  v ∈ store.tenantVersions tenantId ∧
    ∀ w ∈ store.tenantVersions tenantId, w.versionNumber ≤ v.versionNumber

theorem Store.Versioned.newest_unique (h : store.Versioned) {v w : CorpusVersion}
    (hv : Newest store tenantId v) (hw : Newest store tenantId w) : v = w := by
  by_contra hne
  obtain ⟨hvmem, hvtenant⟩ := mem_tenantVersions.mp hv.1
  obtain ⟨hwmem, hwtenant⟩ := mem_tenantVersions.mp hw.1
  have hpairs : store.corpusVersions.Pairwise fun a b =>
      a.tenantId = b.tenantId → a.versionNumber ≠ b.versionNumber :=
    h.ascending.imp fun hlt htenant => (hlt htenant).ne
  have : Std.Symm fun a b : CorpusVersion =>
      a.tenantId = b.tenantId → a.versionNumber ≠ b.versionNumber :=
    ⟨fun _ _ hab htenant => (hab htenant.symm).symm⟩
  exact hpairs.forall hvmem hwmem hne (hvtenant.trans hwtenant.symm)
    (le_antisymm (hw.2 v hv.1) (hv.2 w hw.1))

/-- **A rollback directly after a publication goes to the version published last before.** -/
theorem rollback_target {version restored : CorpusVersion} {before mid after : Store}
    (hmid : mid.Versioned) (hpublish : publishCorpus tenantId before = some (version, store'))
    (hkept : mid.tenantVersions tenantId = store'.tenantVersions tenantId)
    (hrollback : rollbackCorpus tenantId mid = some (restored, after)) :
    after.activeVersion tenantId = some restored ∧
      ∃ newest, Newest before tenantId newest ∧
        restored.corpusVersionId = newest.corpusVersionId := by
  have hafter := hmid.rolledBack hrollback
  obtain ⟨active, target, hactive, htarget, rfl, rfl⟩ := rollbackCorpus_eq_some.mp hrollback
  obtain ⟨hmem, htenant, hbelow⟩ := mem_previousVersion htarget
  constructor
  · refine hafter.activeVersion (List.mem_map_of_mem hmem) ?_ ?_
    · rw [switchedVersion_tenantId, htenant]
    · simp [switchedVersion_activeFlag, htenant]
  · obtain ⟨run, _, _, _, rfl, rfl⟩ := publishCorpus_eq_some hpublish
    -- what the tenant has between: the versions before, and the new one, which is active
    have hrows : ∀ v, v ∈ mid.tenantVersions tenantId ↔
        (∃ w ∈ before.tenantVersions tenantId, deactivateActive tenantId w = v) ∨
          v = newCorpusVersion before tenantId run := by
      intro v
      rw [hkept, mem_tenantVersions, List.mem_append, List.mem_map, List.mem_singleton]
      constructor
      · rintro ⟨⟨w, hw, rfl⟩ | rfl, hvtenant⟩
        · rw [deactivateActive_tenantId] at hvtenant
          exact Or.inl ⟨w, mem_tenantVersions.mpr ⟨hw, hvtenant⟩, rfl⟩
        · exact Or.inr rfl
      · rintro (⟨w, hw, rfl⟩ | rfl)
        · obtain ⟨hw, hwtenant⟩ := mem_tenantVersions.mp hw
          exact ⟨Or.inl ⟨w, hw, rfl⟩, (deactivateActive_tenantId w).trans hwtenant⟩
        · exact ⟨Or.inr rfl, rfl⟩
    have hnew : active = newCorpusVersion before tenantId run := by
      have hself := mem_tenantVersions.mp ((hrows _).mpr (Or.inr rfl))
      have hfound := hmid.activeVersion hself.1 hself.2 rfl
      exact Option.some.inj (hactive.symm.trans hfound)
    rcases (hrows target).mp (mem_tenantVersions.mpr ⟨hmem, htenant⟩) with ⟨w, hw, rfl⟩ | rfl
    · refine ⟨w, ⟨hw, fun u hu => ?_⟩, by simp⟩
      obtain ⟨humem, hutenant⟩ := mem_tenantVersions.mp hu
      have habove : u.versionNumber < active.versionNumber := by
        rw [hnew]
        exact newCorpusVersion_above humem hutenant
      obtain ⟨hmid', htenant'⟩ := mem_tenantVersions.mp ((hrows _).mpr (Or.inl ⟨u, hu, rfl⟩))
      simpa using le_previousVersion htarget hmid' htenant' (by simpa using habove)
    · rw [hnew] at hbelow
      exact absurd hbelow (lt_irrefl _)

/-- A tenant with an earlier version can roll back. -/
theorem rollback_admitted {version : CorpusVersion} {before mid : Store} (hmid : mid.Versioned)
    (hpublish : publishCorpus tenantId before = some (version, store'))
    (hkept : mid.tenantVersions tenantId = store'.tenantVersions tenantId) {v : CorpusVersion}
    (hv : v ∈ before.tenantVersions tenantId) :
    ∃ result, rollbackCorpus tenantId mid = some result := by
  obtain ⟨run, _, _, _, rfl, rfl⟩ := publishCorpus_eq_some hpublish
  obtain ⟨hmem, htenant⟩ := mem_tenantVersions.mp hv
  have hrows : ∀ w ∈ before.corpusVersions.map (deactivateActive tenantId) ++
      [newCorpusVersion before tenantId run], w.tenantId = tenantId →
        w ∈ mid.corpusVersions ∧ w.tenantId = tenantId := by
    intro w hw hwtenant
    rw [← mem_tenantVersions, hkept]
    exact mem_tenantVersions.mpr ⟨hw, hwtenant⟩
  obtain ⟨hold, holdtenant⟩ := hrows _ (List.mem_append_left _ (List.mem_map_of_mem hmem))
    ((deactivateActive_tenantId v).trans htenant)
  obtain ⟨hnew, hnewtenant⟩ := hrows _ (List.mem_append_right _ (List.mem_singleton_self _)) rfl
  have hactive := hmid.activeVersion hnew hnewtenant rfl
  have hbelow : v.versionNumber < (newCorpusVersion before tenantId run).versionNumber :=
    newCorpusVersion_above hmem htenant
  obtain ⟨target, htarget⟩ := previousVersion_isSome hold holdtenant (by simpa using hbelow)
  exact ⟨(_, _), rollbackCorpus_eq_some.mpr ⟨_, target, hactive, htarget, rfl, rfl⟩⟩

/-- A deployment in which nothing was ever published. -/
def unpublished : Watched where
  world := { store := emptyStore, acquisitions := [], processings := [], acquired := [] }
  activity := []

/-- Two versions are published, and the second one is rolled back. -/
def rolledBackHistory : List CorpusAction :=
  [.runValidation 5 3, .publishCorpus 3, .publishCorpus 3, .rollbackCorpus 3]

end Helpdesk.Knowledge
