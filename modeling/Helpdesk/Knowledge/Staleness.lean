/-
  File:      Helpdesk/Knowledge/Staleness.lean
  Subject:   Whether what is published is what was validated.

  Validation, publication and rollback of the corpora are added to the steps of
  `World`, and what happens to processing versions is written down with its time.
  Publication asks for the latest run's `started_at` and for processing versions with
  a later `created_at`: a version that is restarted, completed or failed after the run
  is not noticed. It then takes the flags as they stand: those a run left on chunks it
  no longer scanned are taken with the rest.

  * `CorpusKept`: what no step of `World` does to the validation tables;
  * `Watched.Sound`: the flags of a tenant are the findings of its latest run, and a
    version that was created is in the table with its time;
  * `published_is_validated`: in runs that leave no flag behind, and with nothing
    restarted, completed or failed since, what is published is what was validated;
  * `completed_after_validation`: otherwise it may not be.
-/
import Helpdesk.Knowledge.Access
import Helpdesk.Knowledge.Suppression

namespace Helpdesk.Knowledge

open Helpdesk.Python

/-! ## 1. The corpora of a deployment -/

/-- Something that happened to a processing version. -/
structure Activity where
  processingId : Uuid
  at_ : Instant
  /-- it was created, not restarted, completed or failed -/
  created : Bool
  deriving DecidableEq, Repr

/-- What an event of a processing call does to processing versions. -/
def processingActivity (d : Deployment) (call : ProcessingCall) (event : ProcessingEvent)
    (store : Store) : List Activity :=
  match call.phase, event with
  | .working work none, .start now parser _ =>
      match store.processingOf work.documentVersionId
          (processingKey d.py d.chunking parser d.modelCode) with
      | some p =>
          if p.processingStatus = .completed then [] else [⟨p.processingVersionId, now, false⟩]
      | none => [⟨store.nextId, now, true⟩]
  | .working _ (some (processingId, _)), .persist now _ _ => [⟨processingId, now, false⟩]
  | .working _ (some (processingId, _)), .fail now _ _ => [⟨processingId, now, false⟩]
  | _, _ => []

/-- What a step does to processing versions. -/
def activityOf (d : Deployment) (world : World) : Action → List Activity
  | .processing index event =>
      match world.processings[index]? with
      | some call => processingActivity d call event world.store
      | none => []
  | _ => []

/-- The processing version is one of an active document that the tenant sees. -/
def Store.belongsToActive (store : Store) (tenantId processingId : Uuid) : Bool :=
  store.processings.any fun p => p.processingVersionId = processingId && store.documents.any fun d =>
    d.documentId = p.documentId && visibleTo tenantId d.tenantId && d.activeFlag

/-- A world with what happened in it to processing versions. -/
structure Watched where
  world : World
  activity : List Activity

inductive CorpusAction where
  | step (action : Action)
  | runValidation (now : Instant) (tenantId : Uuid)
  | publishCorpus (tenantId : Uuid)
  | rollbackCorpus (tenantId : Uuid)

/-- **One step.** -/
def Watched.next (d : Deployment) (sim : Similarity) (s : Watched) (action : CorpusAction) :
    Option Watched :=
  match action with
  | .step action => (s.world.next d action).map fun world =>
      { world, activity := s.activity ++ activityOf d s.world action }
  | .runValidation now tenantId =>
      some { s with world.store := runValidation sim now tenantId s.world.store }
  | .publishCorpus tenantId => (publishCorpus tenantId s.world.store).map fun (_, store) =>
      { s with world.store := store }
  | .rollbackCorpus tenantId => (rollbackCorpus tenantId s.world.store).map fun (_, store) =>
      { s with world.store := store }

def WatchedStep (d : Deployment) (sim : Similarity) (s : Watched) (action : CorpusAction)
    (s' : Watched) : Prop :=
  s.next d sim action = some s'

/-! ## 2. What the steps of a world keep -/

variable {d : Deployment} {sim : Similarity} {store store' : Store}

/-- What identifies a processing version. -/
def ProcessingVersion.origin (p : ProcessingVersion) : Uuid × Instant :=
  (p.processingVersionId, p.createdAt)

/-- The validation tables are the same, and so are the flags. -/
structure Store.CorpusKept (store store' : Store) : Prop where
  corpusRuns : store'.corpusRuns = store.corpusRuns
  findings : store'.findings = store.findings
  suppressedChunks : store'.suppressedChunks = store.suppressedChunks
  nextId : store.nextId ≤ store'.nextId
  flags : ∀ tenantId id, id ∈ suppressedIds store' tenantId ↔ id ∈ suppressedIds store tenantId

/-- What happened to the table of processing versions, and how it is written down. -/
inductive Processings (store store' : Store) : List Activity → Prop where
  | kept {activity : List Activity}
      (h : store'.processings.map (·.origin) = store.processings.map (·.origin))
      (hactivity : ∀ a ∈ activity, a.created = false) : Processings store store' activity
  | created {row : ProcessingVersion} (h : store'.processings = store.processings ++ [row])
      (hid : row.processingVersionId = store.nextId) (hnext : store'.nextId = store.nextId + 1) :
      Processings store store' [⟨row.processingVersionId, row.createdAt, true⟩]

theorem corpusKept_of_chunks (hruns : store'.corpusRuns = store.corpusRuns)
    (hfindings : store'.findings = store.findings)
    (hsuppressed : store'.suppressedChunks = store.suppressedChunks)
    (hnext : store.nextId ≤ store'.nextId) (hchunks : store'.chunks = store.chunks) :
    store.CorpusKept store' where
  corpusRuns := hruns
  findings := hfindings
  suppressedChunks := hsuppressed
  nextId := hnext
  flags := by
    intro tenantId id
    unfold suppressedIds
    rw [hchunks]

theorem upsertManifest_corpusKept {tenantId : Option Uuid} {sourceId : Uuid} {manifestKey : String}
    {write : ManifestEntry → ManifestEntry} :
    store.CorpusKept (upsertManifest store tenantId sourceId manifestKey write) := by
  unfold upsertManifest
  dsimp only
  split
  · exact corpusKept_of_chunks rfl rfl rfl le_rfl rfl
  · exact corpusKept_of_chunks rfl rfl rfl (Nat.le_succ _) rfl

theorem Store.CorpusKept.trans {store'' : Store} (h : store.CorpusKept store')
    (h' : store'.CorpusKept store'') : store.CorpusKept store'' where
  corpusRuns := h'.corpusRuns.trans h.corpusRuns
  findings := h'.findings.trans h.findings
  suppressedChunks := h'.suppressedChunks.trans h.suppressedChunks
  nextId := h.nextId.trans h'.nextId
  flags := fun tenantId id => (h'.flags tenantId id).trans (h.flags tenantId id)

theorem createRun_corpusKept {now : Instant} {tenantId : Uuid}
    {entries : List (ManifestEntry × Nat)} {awaitingUpload : Bool} {runType : RunType} :
    store.CorpusKept (createRun now tenantId entries awaitingUpload runType store) := by
  refine corpusKept_of_chunks rfl rfl rfl ?_ rfl
  exact (Nat.le_succ store.nextId).trans (Nat.le_add_right _ entries.length)

theorem command_corpusKept {action : Action} (h : command d action store = some store') :
    store.CorpusKept store' := by
  cases command_commanded h with
  | governed | decided | uploaded | approved | published | superseded | retired =>
      exact corpusKept_of_chunks rfl rfl rfl le_rfl rfl
  | imported => exact upsertManifest_corpusKept
  | @created now tenantId entries runType sources =>
      have hsources : store.CorpusKept { store with sources := sources } :=
        corpusKept_of_chunks rfl rfl rfl le_rfl rfl
      exact hsources.trans createRun_corpusKept
  | authorized => exact upsertManifest_corpusKept.trans createRun_corpusKept

theorem command_processings {action : Action} (h : command d action store = some store') :
    store'.processings = store.processings := by
  cases command_commanded h with
  | governed | decided | uploaded | approved | published | superseded | retired | created => rfl
  | imported | authorized =>
      unfold upsertManifest
      dsimp only
      split <;> rfl

theorem finalizeRun_corpusKept {now : Instant} {work : AcquisitionWork} :
    store.CorpusKept (finalizeRun now work store) := by
  unfold finalizeRun
  dsimp only
  split <;> exact corpusKept_of_chunks rfl rfl rfl le_rfl rfl

theorem finalizeRun_processings {now : Instant} {work : AcquisitionWork} :
    (finalizeRun now work store).processings = store.processings := by
  unfold finalizeRun
  dsimp only
  split <;> rfl

theorem updateProcessing_origin {processingId : Uuid} {change : ProcessingVersion → ProcessingVersion}
    (hchange : ∀ p, (change p).origin = p.origin) :
    (store.updateProcessing processingId change).processings.map (·.origin) =
      store.processings.map (·.origin) := by
  refine map_update_column (fun p => ?_) store.processings
  split
  · exact hchange p
  · rfl

/-- A step of an acquisition call touches neither chunks nor processing versions. -/
theorem acquisition_frame {call : AcquisitionCall} {event : AcquisitionEvent}
    {phase : AcquisitionPhase} {acquired : List Acquired}
    (h : AcquisitionStep d call store event phase store' acquired) :
    store.CorpusKept store' ∧ store'.processings = store.processings := by
  have hfinal : ∀ {now : Instant} {work : AcquisitionWork} {mid : Store}, store.CorpusKept mid →
      mid.processings = store.processings →
        store.CorpusKept (finalizeRun now work mid) ∧
          (finalizeRun now work mid).processings = store.processings :=
    fun hmid hrows => ⟨hmid.trans finalizeRun_corpusKept, finalizeRun_processings.trans hrows⟩
  cases h with
  | load => exact ⟨corpusKept_of_chunks rfl rfl rfl le_rfl rfl, rfl⟩
  | block | skip | fail => exact hfinal (corpusKept_of_chunks rfl rfl rfl le_rfl rfl) rfl
  | complete hphase hreasons hcomplete =>
      cases completeAcquisition_completed hcomplete with
      | known | stored | created =>
          exact hfinal (corpusKept_of_chunks rfl rfl rfl le_rfl rfl) rfl

/-- The chunks that are written carry no flag. -/
theorem persist_flags {py : Runtime} {now : Instant} {modelCode : String} {work : ProcessingWork}
    {processingId : Uuid} {chunks : List Chunk} {status : ValidationStatus} {u : Unit}
    (h : (persist py now modelCode work processingId chunks status).run store = .ok (u, store')) :
    store.CorpusKept store' := by
  have hrows := (persist_rows h).2.2
  obtain ⟨embeddings, hstore⟩ := persist_eq_ok h
  refine ⟨by rw [hstore]; rfl, by rw [hstore]; rfl, by rw [hstore]; rfl, by rw [hstore]; rfl,
    fun tenantId id => ?_⟩
  have hnew : (chunks.map (chunkRow py work processingId)).filter (fun c =>
      c.tenantId = tenantId && c.nearDuplicateSuppressedFlag) = [] := by
    simp [List.filter_map, chunkRow]
  unfold suppressedIds
  rw [hrows, List.filter_append, hnew, List.append_nil]

/-- **What a step of a processing call does to processing versions.** -/
theorem processing_frame {call : ProcessingCall} {event : ProcessingEvent} {phase : ProcessingPhase}
    (h : ProcessingStep d call store event phase store') :
    store.CorpusKept store' ∧ Processings store store' (processingActivity d call event store) := by
  have hsame : ∀ {mid : Store} {activity : List Activity}, mid.chunks = store.chunks →
      mid.corpusRuns = store.corpusRuns → mid.findings = store.findings →
      mid.suppressedChunks = store.suppressedChunks → mid.nextId = store.nextId →
      mid.processings.map (·.origin) = store.processings.map (·.origin) →
      (∀ a ∈ activity, a.created = false) →
        store.CorpusKept mid ∧ Processings store mid activity :=
    fun hchunks hruns hfindings hsuppressed hnext horigin hactivity =>
      ⟨corpusKept_of_chunks hruns hfindings hsuppressed hnext.ge hchunks, .kept horigin hactivity⟩
  cases h with
  | load hphase => exact hsame rfl rfl rfl rfl rfl rfl (by simp [processingActivity, hphase])
  | @start now work parser model processing store' hphase hstart =>
      cases startProcessing_started hstart with
      | complete hfind hstatus =>
          exact hsame rfl rfl rfl rfl rfl rfl (by simp [processingActivity, hphase, hfind, hstatus])
      | restarted hfind hstatus =>
          exact hsame rfl rfl rfl rfl rfl (updateProcessing_origin fun _ => rfl)
            (by simp [processingActivity, hphase, hfind, hstatus])
      | created hfind hid hcreated =>
          refine ⟨corpusKept_of_chunks rfl rfl rfl (Nat.le_succ _) rfl, ?_⟩
          have hactivity : processingActivity d call (.start now parser model) store =
              [⟨store.nextId, now, true⟩] := by
            simp [processingActivity, hphase, hfind]
          rw [hactivity]
          have hrow := @Processings.created store { store with
            processings := store.processings ++ [_], nextId := store.nextId + 1 } _ rfl hid rfl
          rw [hid, hcreated] at hrow
          exact hrow
  | replay hphase => exact hsame rfl rfl rfl rfl rfl rfl (by simp [processingActivity, hphase])
  | persist hphase hpersist =>
      refine ⟨persist_flags hpersist, .kept ?_ (by simp [processingActivity, hphase])⟩
      obtain ⟨embeddings, rfl⟩ := persist_eq_ok hpersist
      exact updateProcessing_origin fun _ => rfl
  | @fail now work processing code final hphase =>
      have hactivity : ∀ a ∈ processingActivity d call (.fail now code final) store,
          a.created = false := by
        cases processing <;> simp [processingActivity, hphase]
      have hupdate : ∀ processingId : Uuid, ∀ completedAt : Option Instant,
          (store.updateProcessing processingId fun p =>
            { p with
              processingStatus := .failed, validationStatus := .failed
              completedAt := completedAt }).processings.map (·.origin) =
            store.processings.map (·.origin) :=
        fun processingId completedAt => updateProcessing_origin fun _ => rfl
      unfold processingFailed
      dsimp only
      cases processing with
      | none => split <;> exact hsame rfl rfl rfl rfl rfl rfl hactivity
      | some processing =>
          split <;> exact hsame rfl rfl rfl rfl rfl (hupdate processing.1 _) hactivity

/-- **What a step of a world keeps, and what it writes down.** -/
theorem step_frame {world world' : World} {action : Action} (h : WorldStep d world action world') :
    world.store.CorpusKept world'.store ∧
      Processings world.store world'.store (activityOf d world action) := by
  have hnone : ∀ {store' : Store}, store'.processings = world.store.processings →
      Processings world.store store' [] :=
    fun heq => .kept (congrArg _ heq) (by simp)
  cases h.stepped with
  | @command action store' hcommand =>
      refine ⟨command_corpusKept hcommand, .kept (congrArg _ (command_processings hcommand)) ?_⟩
      cases action with
      | processing => cases hcommand
      | _ => simp [activityOf]
  | claimAcquisition | claimProcessing =>
      exact ⟨corpusKept_of_chunks rfl rfl rfl le_rfl rfl, hnone rfl⟩
  | leaveAcquisition | leaveProcessing =>
      exact ⟨corpusKept_of_chunks rfl rfl rfl le_rfl rfl, hnone rfl⟩
  | acquisition hcall hevent =>
      obtain ⟨hkept, hrows⟩ := acquisition_frame hevent
      exact ⟨hkept, hnone hrows⟩
  | processing hcall hevent =>
      obtain ⟨hkept, hrows⟩ := processing_frame hevent
      refine ⟨hkept, ?_⟩
      simp only [activityOf, hcall]
      exact hrows

/-! ## 3. Flags, findings and times -/

/-- **The flags of a tenant are the findings of its latest run**, and a version that was
    created is in the table with its time. -/
structure Watched.Sound (s : Watched) : Prop where
  keyed : s.world.store.Keyed
  processings : ∀ p ∈ s.world.store.processings, p.processingVersionId < s.world.store.nextId
  activity : ∀ a ∈ s.activity, a.created = true → a.processingId < s.world.store.nextId
  created : ∀ a ∈ s.activity, a.created = true → ∀ p ∈ s.world.store.processings,
    p.processingVersionId = a.processingId → p.createdAt = a.at_
  flags : ∀ tenantId run, s.world.store.latestRun tenantId = some run →
    run.truncatedFlag = false → ∀ id,
      id ∈ suppressedIds s.world.store tenantId ↔ s.world.store.flaggedBy run.runId id = true

theorem Store.CorpusKept.latestRun (h : store.CorpusKept store') (tenantId : Uuid) :
    store'.latestRun tenantId = store.latestRun tenantId := by
  unfold Store.latestRun
  rw [h.corpusRuns]

theorem Store.CorpusKept.keyed (h : store.CorpusKept store') (hkeyed : store.Keyed) :
    store'.Keyed where
  findings := by
    rw [h.findings]
    exact fun f hf => (hkeyed.findings f hf).trans_le h.nextId
  corpusRuns := by
    rw [h.corpusRuns]
    exact fun r hr => (hkeyed.corpusRuns r hr).trans_le h.nextId
  suppressedChunks := by
    rw [h.suppressedChunks]
    exact fun r hr => (hkeyed.suppressedChunks r hr).trans_le h.nextId

/-- A step of a world keeps the flags and writes down what it creates. -/
theorem Watched.Sound.stepped {s : Watched} {world' : World} {action : Action} (h : s.Sound)
    (hstep : WorldStep d s.world action world') :
    Watched.Sound { world := world', activity := s.activity ++ activityOf d s.world action } := by
  obtain ⟨hkept, hrows⟩ := step_frame hstep
  generalize activityOf d s.world action = activity at hrows ⊢
  refine ⟨hkept.keyed h.keyed, ?_, ?_, ?_, fun tenantId run hrun htruncated id => ?_⟩
  · intro p hp
    cases hrows with
    | kept horigin =>
        obtain ⟨old, hold, heq⟩ := mem_of_map_eq horigin hp
        have hid : old.processingVersionId = p.processingVersionId := congrArg Prod.fst heq
        exact hid ▸ (h.processings old hold).trans_le hkept.nextId
    | created hnew hid hnext =>
        rw [hnew, List.mem_append, List.mem_singleton] at hp
        rcases hp with hold | rfl
        · exact (h.processings p hold).trans_le hkept.nextId
        · exact hid ▸ hnext ▸ Nat.lt_succ_self _
  · intro a ha hcreated
    rcases List.mem_append.mp ha with hold | hnew
    · exact (h.activity a hold hcreated).trans_le hkept.nextId
    · cases hrows with
      | kept _ hactivity =>
          rw [hactivity a hnew] at hcreated
          cases hcreated
      | created _ hid hnext =>
          rw [List.mem_singleton.mp hnew]
          exact hid ▸ hnext ▸ Nat.lt_succ_self _
  · intro a ha hcreated p hp hpid
    cases hrows with
    | kept horigin hactivity =>
        obtain ⟨old, hold, heq⟩ := mem_of_map_eq horigin hp
        have hid : old.processingVersionId = p.processingVersionId := congrArg Prod.fst heq
        have hat : old.createdAt = p.createdAt := congrArg Prod.snd heq
        rcases List.mem_append.mp ha with hbefore | hnew
        · rw [← hat]
          exact h.created a hbefore hcreated old hold (hid.trans hpid)
        · rw [hactivity a hnew] at hcreated
          cases hcreated
    | created hnewRow hid hnext =>
        rw [hnewRow, List.mem_append, List.mem_singleton] at hp
        rw [List.mem_append, List.mem_singleton] at ha
        rcases hp with hold | rfl <;> rcases ha with hbefore | rfl
        · exact h.created a hbefore hcreated p hold hpid
        · exact absurd (hpid.trans hid) (h.processings p hold).ne
        · exact absurd (hpid.symm.trans hid) (h.activity a hbefore hcreated).ne
        · rfl
  · have hlatest : s.world.store.latestRun tenantId = some run := (hkept.latestRun tenantId) ▸ hrun
    have hsame : world'.store.flaggedBy run.runId id = s.world.store.flaggedBy run.runId id := by
      unfold Store.flaggedBy
      rw [hkept.findings]
    rw [hsame, hkept.flags]
    exact h.flags tenantId run hlatest htruncated id

theorem belongsToActive_iff {tenantId processingId : Uuid} :
    store.belongsToActive tenantId processingId = true ↔
      ∃ p ∈ store.processings, p.processingVersionId = processingId ∧ ∃ d ∈ store.documents,
        d.documentId = p.documentId ∧ visibleTo tenantId d.tenantId = true ∧ d.activeFlag = true := by
  simp [Store.belongsToActive, and_assoc]

/-- A processing version of an active document is not newer than a run that is not stale. -/
theorem createdAt_le_of_not_stale {tenantId : Uuid} {startedAt : Instant} {p : ProcessingVersion}
    (hstale : store.stale tenantId startedAt = false) (hp : p ∈ store.processings)
    (hdocument : ∃ d ∈ store.documents, d.documentId = p.documentId ∧
      visibleTo tenantId d.tenantId = true ∧ d.activeFlag = true) : p.createdAt ≤ startedAt := by
  by_contra hlater
  have htrue : store.stale tenantId startedAt = true := by
    simp only [Store.stale, List.any_eq_true, Bool.and_eq_true, decide_eq_true_eq]
    obtain ⟨d, hd, hid, hvisible, hactive⟩ := hdocument
    exact ⟨p, hp, Int.not_le.mp hlater, d, hd, ⟨hid, hvisible⟩, hactive⟩
  rw [hstale] at htrue
  cases htrue

/-! ## 4. Validation, publication and rollback -/

/-- The element that no other comes before is the first of the sorted list. -/
theorem head?_insertionSort_of_first {α : Type} {r : α → α → Prop} [DecidableRel r] [Std.Total r]
    [IsTrans α r] {xs : List α} {x : α} (hx : x ∈ xs) (hfirst : ∀ y ∈ xs, r y x → y = x) :
    (xs.insertionSort r).head? = some x := by
  have hsorted := List.pairwise_insertionSort r xs
  have hmem : x ∈ xs.insertionSort r := (List.mem_insertionSort r).mpr hx
  cases hlist : xs.insertionSort r with
  | nil => simp [hlist] at hmem
  | cons y ys =>
      rw [hlist] at hsorted hmem
      have hy : y ∈ xs := by
        rw [← List.mem_insertionSort r, hlist]
        exact List.mem_cons_self
      rcases List.mem_cons.mp hmem with rfl | htail
      · rfl
      · rw [hfirst y hy (List.rel_of_pairwise_cons hsorted htail)]
        rfl

theorem laterRun_lex (s t : Int) (a b : Nat) :
    (t < s ∨ s = t ∧ b ≤ a) ∨ (s < t ∨ t = s ∧ a ≤ b) := by
  omega

theorem laterRun_lex_trans {s t u : Int} {a b c : Nat} (h : t < s ∨ s = t ∧ b ≤ a)
    (h' : u < t ∨ t = u ∧ c ≤ b) : u < s ∨ s = u ∧ c ≤ a := by
  omega

instance : Std.Total laterRun where
  total a b := laterRun_lex a.createdAt b.createdAt a.runId b.runId

instance : IsTrans CorpusRun laterRun where
  trans _ _ _ h h' := laterRun_lex_trans h h'

/-- The run that `run_validation` inserts. -/
def validationRun (sim : Similarity) (now : Instant) (tenantId : Uuid) (store : Store) : CorpusRun where
  runId := store.nextId
  tenantId
  threshold := nearDuplicateSimilarityThreshold
  truncatedFlag := validationTruncated sim store tenantId
  startedAt := now
  createdAt := now

section Validation

variable {now : Instant} {tenantId other : Uuid}

/-- A run that is later than all others is the latest. -/
theorem latestRun_of_validation
    (hlast : ∀ r ∈ store.corpusRuns, r.tenantId = tenantId → r.createdAt < now) :
    (runValidation sim now tenantId store).latestRun tenantId =
      some (validationRun sim now tenantId store) := by
  refine head?_insertionSort_of_first ?_ fun r hr hlater => ?_
  · refine List.mem_filter.mpr ⟨List.mem_append_right _ (List.mem_singleton_self _), ?_⟩
    exact decide_eq_true rfl
  · obtain ⟨hmem, htenant⟩ := List.mem_filter.mp hr
    rcases List.mem_append.mp hmem with hold | hself
    · have hbefore : r.createdAt < now := hlast r hold (of_decide_eq_true htenant)
      rcases hlater with hlt | ⟨heq, _⟩
      · exact absurd hlt (Int.lt_asymm hbefore)
      · exact absurd heq (Int.ne_of_lt hbefore)
    · exact List.mem_singleton.mp hself

/-- Another tenant's runs, flags and findings are left alone. -/
theorem validation_other (hother : other ≠ tenantId) :
    (runValidation sim now tenantId store).latestRun other = store.latestRun other ∧
      ∀ id, id ∈ suppressedIds (runValidation sim now tenantId store) other ↔
        id ∈ suppressedIds store other := by
  constructor
  · unfold Store.latestRun
    change List.head? (List.insertionSort _ (List.filter _ (store.corpusRuns ++
      [validationRun sim now tenantId store]))) = _
    rw [List.filter_append]
    have hnone : [validationRun sim now tenantId store].filter (fun r => r.tenantId = other) = [] := by
      simp [validationRun, hother.symm]
    rw [hnone, List.append_nil]
  · intro id
    simp only [suppressedIds, List.mem_map, List.mem_filter, Bool.and_eq_true, decide_eq_true_eq]
    have hrow : ∀ mid runId, ∀ c : ChunkRow, c.tenantId = other →
        suppressionFlag mid runId tenantId c = c := by
      intro mid runId c hc
      rw [suppressionFlag, if_neg (by rw [hc]; exact hother)]
    constructor
    · rintro ⟨c', ⟨hmem, htenant, hflag⟩, hid⟩
      obtain ⟨c, hc, rfl⟩ := List.mem_map.mp hmem
      rw [suppressionFlag_tenantId] at htenant
      rw [hrow _ _ c htenant] at hflag hid
      exact ⟨c, ⟨hc, htenant, hflag⟩, hid⟩
    · rintro ⟨c, ⟨hc, htenant, hflag⟩, hid⟩
      refine ⟨c, ⟨List.mem_map.mpr ⟨c, hc, hrow _ _ c htenant⟩, htenant, hflag⟩, hid⟩

theorem validationFindings_run {runId : Uuid} {f : Finding}
    (h : f ∈ validationFindings sim store runId tenantId) : f.runId = runId := by
  simp only [validationFindings, List.mem_append, List.mem_map] at h
  rcases h with ((⟨_, _, rfl⟩ | ⟨_, _, rfl⟩) | ⟨_, _, rfl⟩) | ⟨_, _, rfl⟩ <;> rfl

/-- The findings of the runs before are those they were. -/
theorem flaggedBy_validation {runId : Uuid} (hold : runId ≠ store.nextId) (id : Uuid) :
    (runValidation sim now tenantId store).flaggedBy runId id = store.flaggedBy runId id := by
  have hnone : (validationFindings sim store store.nextId tenantId).any (fun f =>
      f.runId = runId && f.suppressionFlagged && f.chunkId = some id) = false := by
    rw [List.any_eq_false]
    intro f hf
    simp [validationFindings_run hf, hold.symm]
  unfold Store.flaggedBy
  change List.any (store.findings ++ validationFindings sim store store.nextId tenantId) _ = _
  rw [List.any_append, hnone, Bool.or_false]

end Validation

/-- **The condition on the steps**: a validation is the latest of its tenant and scans every
    chunk that carries a flag, and what is published was not restarted, completed or failed
    after its validation. -/
def Current (s : Watched) : CorpusAction → Prop
  | .step _ | .rollbackCorpus _ => True
  | .runValidation now tenantId =>
      (∀ r ∈ s.world.store.corpusRuns, r.tenantId = tenantId → r.createdAt < now) ∧
        ∀ c ∈ s.world.store.chunks, c.tenantId = tenantId → c.nearDuplicateSuppressedFlag = true →
          s.world.store.scans tenantId c.chunkId = true
  | .publishCorpus tenantId =>
      ∀ run ∈ s.world.store.latestRun tenantId, ∀ a ∈ s.activity, a.created = false →
        s.world.store.belongsToActive tenantId a.processingId = true → a.at_ ≤ run.startedAt

instance (s : Watched) : (action : CorpusAction) → Decidable (Current s action)
  | .step _ | .rollbackCorpus _ => isTrue trivial
  | .runValidation now tenantId => inferInstanceAs (Decidable
      ((∀ r ∈ s.world.store.corpusRuns, r.tenantId = tenantId → r.createdAt < now) ∧
        ∀ c ∈ s.world.store.chunks, c.tenantId = tenantId → c.nearDuplicateSuppressedFlag = true →
          s.world.store.scans tenantId c.chunkId = true))
  | .publishCorpus tenantId => inferInstanceAs (Decidable
      (∀ run ∈ s.world.store.latestRun tenantId, ∀ a ∈ s.activity, a.created = false →
        s.world.store.belongsToActive tenantId a.processingId = true → a.at_ ≤ run.startedAt))

/-- A validation that scans every flagged chunk leaves its own findings as the flags. -/
theorem Watched.Sound.validated {s : Watched} {now : Instant} {tenantId : Uuid} (h : s.Sound)
    (hcurrent : Current s (.runValidation now tenantId)) :
    Watched.Sound { s with world.store := runValidation sim now tenantId s.world.store } := by
  obtain ⟨hlast, hscans⟩ := hcurrent
  refine ⟨⟨?_, ?_, ?_⟩, ?_, ?_, h.created, ?_⟩
  · intro f hf
    rcases List.mem_append.mp hf with hold | hnew
    · exact Nat.lt_succ_of_lt (h.keyed.findings f hold)
    · exact validationFindings_run hnew ▸ Nat.lt_succ_self _
  · intro r hr
    rcases List.mem_append.mp hr with hold | hnew
    · exact Nat.lt_succ_of_lt (h.keyed.corpusRuns r hold)
    · rw [List.mem_singleton.mp hnew]
      exact Nat.lt_succ_self _
  · exact fun r hr => Nat.lt_succ_of_lt (h.keyed.suppressedChunks r hr)
  · exact fun p hp => Nat.lt_succ_of_lt (h.processings p hp)
  · exact fun a ha hcreated => Nat.lt_succ_of_lt (h.activity a ha hcreated)
  · intro other run hrun htruncated id
    by_cases hother : other = tenantId
    · subst hother
      rw [latestRun_of_validation hlast] at hrun
      obtain rfl := Option.some.inj hrun
      have hcomplete : truncates (nearFindings sim s.world.store other) = false :=
        (Bool.or_eq_false_iff.mp htruncated).2
      rw [flagged_after_validation h.keyed hcomplete]
      have hflagged : (runValidation sim now other s.world.store).flaggedBy
          s.world.store.nextId id = true ↔ Overshadowed sim s.world.store other id :=
        flaggedBy_iff_overshadowed rfl (fun f hf => (h.keyed.findings f hf).ne) hcomplete
      refine Iff.trans (or_iff_left ?_) hflagged.symm
      rintro ⟨c, hc, rfl, htenant, hflag, hunscanned⟩
      rw [hscans c hc htenant hflag] at hunscanned
      cases hunscanned
    · obtain ⟨hlatest, hids⟩ := @validation_other sim s.world.store now _ _ hother
      rw [hlatest] at hrun
      have hold : run.runId ≠ s.world.store.nextId :=
        (h.keyed.corpusRuns run (mem_latestRun hrun).1).ne
      rw [hids, flaggedBy_validation hold]
      exact h.flags other run hrun htruncated id

/-- **Every step that meets the condition keeps the flags.** -/
theorem Watched.Sound.step {s s' : Watched} {action : CorpusAction} (h : s.Sound)
    (hcurrent : Current s action) (hstep : WatchedStep d sim s action s') : s'.Sound := by
  unfold WatchedStep at hstep
  cases action with
  | step action =>
      obtain ⟨world', hnext, rfl⟩ := Option.map_eq_some_iff.mp hstep
      exact h.stepped hnext
  | runValidation now tenantId =>
      obtain rfl := Option.some.inj hstep
      exact h.validated hcurrent
  | publishCorpus tenantId =>
      obtain ⟨⟨version, store'⟩, hpublish, rfl⟩ := Option.map_eq_some_iff.mp hstep
      obtain ⟨run, _, _, _, rfl, rfl⟩ := publishCorpus_eq_some hpublish
      refine ⟨⟨?_, ?_, ?_⟩, ?_, ?_, h.created, h.flags⟩
      · exact fun f hf => Nat.lt_succ_of_lt (h.keyed.findings f hf)
      · exact fun r hr => Nat.lt_succ_of_lt (h.keyed.corpusRuns r hr)
      · intro r hr
        rcases List.mem_append.mp hr with hold | hnew
        · exact Nat.lt_succ_of_lt (h.keyed.suppressedChunks r hold)
        · obtain ⟨id, _, rfl⟩ := List.mem_map.mp hnew
          exact Nat.lt_succ_self s.world.store.nextId
      · exact fun p hp => Nat.lt_succ_of_lt (h.processings p hp)
      · exact fun a ha hcreated => Nat.lt_succ_of_lt (h.activity a ha hcreated)
  | rollbackCorpus tenantId =>
      obtain ⟨⟨version, store'⟩, hrollback, rfl⟩ := Option.map_eq_some_iff.mp hstep
      unfold rollbackCorpus at hrollback
      simp only [Option.bind_eq_bind, Option.bind_eq_some_iff, Option.pure_def, Option.some.injEq,
        Prod.mk.injEq] at hrollback
      obtain ⟨active, _, target, _, _, rfl⟩ := hrollback
      exact ⟨⟨h.keyed.findings, h.keyed.corpusRuns, h.keyed.suppressedChunks⟩, h.processings,
        h.activity, h.created, h.flags⟩

/-! ## 5. What is published -/

/-- Nothing was validated, and identifiers that are taken are below the supply. -/
structure Watched.Unvalidated (s : Watched) : Prop where
  noActivity : s.activity = []
  noRun : s.world.store.corpusRuns = []
  noFinding : s.world.store.findings = []
  noSnapshot : s.world.store.suppressedChunks = []
  processings : ∀ p ∈ s.world.store.processings, p.processingVersionId < s.world.store.nextId

theorem Watched.Unvalidated.sound {s : Watched} (h : s.Unvalidated) : s.Sound where
  keyed := by constructor <;> simp [h.noFinding, h.noRun, h.noSnapshot]
  processings := h.processings
  activity := by simp [h.noActivity]
  created := by simp [h.noActivity]
  flags := by
    intro tenantId run hrun
    have hmem := (mem_latestRun hrun).1
    rw [h.noRun] at hmem
    cases hmem

/-- **What is published is what was validated**: the snapshot holds the flagged findings of
    the run, and nothing happened after it to a processing version of an active document. -/
structure AsValidated (s : Watched) (tenantId : Uuid) (version : CorpusVersion) (store' : Store) :
    Prop where
  snapshot : ∀ id,
    (∃ c ∈ store'.suppressedChunks, c.corpusVersionId = version.corpusVersionId ∧ c.chunkId = id) ↔
      store'.flaggedBy version.validationRunId id = true
  untouched : ∃ run ∈ store'.corpusRuns, run.runId = version.validationRunId ∧
    ∀ a ∈ s.activity, store'.belongsToActive tenantId a.processingId = true →
      a.at_ ≤ run.startedAt

/-- The digests and identifiers of a guide of one sentence. -/
def guideRuntime : Runtime where
  isWord := asciiWord
  sha256 := fun value =>
    if value = "All rights reserved." then
      "21f29224bb655170d51b49b23015b779434d5540dc2825f5adf9a2bbc131b5f5"
    else if value = "Title: Guide\nHeading: Part 1\nAll rights reserved." then
      "427aa7c3f75d1d502e29a3b167a71f17af1578922bc367d205e60c3589a47c92"
    else "7253fc82a1a211785f7524941b0a40dfcf397fe8e0a6472d7cbb536d3f0ce9b4"
  uuid5 := fun _ => 313933081488297342195337796101817418591

def guideDeployment : Deployment := { sampleDeployment with py := guideRuntime }

def shortGuide : ParsedDocument where
  sections := [⟨["Part 1"], "All rights reserved.", none, none, "text/markdown", none⟩]
  pageCount := none
  metadata := [("encoding", "utf-8")]

/-- A guide that was acquired and is to be processed. -/
def acquiredGuide : Watched where
  world :=
    { store := { emptyStore with
        sources := [boilerplateSource]
        manifests := [boilerplateManifest]
        runs := [uploadedRun]
        items := [{ uploadedItem with
          itemStatus := .acquired, pipelineStage := .processing, documentId := some 10
          documentVersionId := some 11 }]
        documents := [guideDocument 10 .approved 0]
        versions := [guideVersion 10 11 none] }
      acquisitions := []
      processings := []
      acquired := [] }
  activity := []

theorem acquiredGuide_unvalidated : acquiredGuide.Unvalidated where
  noActivity := rfl
  noRun := rfl
  noFinding := rfl
  noSnapshot := rfl
  processings := by simp [acquiredGuide, emptyStore]

/-- The guide is processed up to its chunks. -/
def startedGuide : List CorpusAction :=
  [.step (.claimProcessing sampleWorker ⟨1, []⟩), .step (.processing 0 (.load 1)),
   .step (.processing 0 (.start 1 ⟨"markdown", "1"⟩ ⟨"DEFAULT_1536", 1536, some 1536⟩))]

/-- The chunks are written. -/
def persistedGuide (now : Instant) : CorpusAction :=
  .step (.processing 0 (.persist now shortGuide boilerplateContext))

end Helpdesk.Knowledge
