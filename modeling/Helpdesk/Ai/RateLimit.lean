/-
  File:      Helpdesk/Ai/RateLimit.lean
  Subject:   The number of runs a user starts within a minute.

  The limit is checked against the usage ledger, which a run enters when it completes.
  A run that is under way, that failed or that was cancelled is not counted, and neither
  is one that another call records between the check and the start.

  * `WithinLimit`: no run is started beyond the limit of its policy;
  * `Accounted`: the checks that see every run that counts;
  * `Limited`: the invariant, what an admitted call has counted still holds when its run
    is recorded;
  * `within_limit`: runs all of whose checks are `Accounted` stay within the limit;
  * `failed_runs_uncounted`: a provider that fails does not.
-/
import Helpdesk.Ai.Gateway

namespace Helpdesk.Ai

open Helpdesk.Python

variable {settings : Settings}

/-! ## 1. The limit -/

/-- The runs of a user that started in the minute from `start` on. -/
def startedIn (started : List Started) (tenantId userId : Uuid) (start : Instant) : Nat :=
  started.countP fun s =>
    s.tenantId = tenantId && s.userId = userId && start ≤ s.startedAt && s.startedAt ≤ start + minute

/-- **Every run is within its limit**: with those of its user recorded before it, in every
    minute it is started in. -/
def WithinLimit (started : List Started) : Prop :=
  ∀ (earlier later : List Started) (run : Started), started = earlier ++ run :: later →
    ∀ limit, run.limit = some limit → ∀ start, start ≤ run.startedAt → run.startedAt ≤ start + minute →
      startedIn (earlier ++ [run]) run.tenantId run.userId start ≤ limit

theorem WithinLimit.append {started : List Started} (h : WithinLimit started) {run : Started}
    (hrun : ∀ limit, run.limit = some limit → ∀ start, start ≤ run.startedAt →
      run.startedAt ≤ start + minute →
        startedIn (started ++ [run]) run.tenantId run.userId start ≤ limit) :
    WithinLimit (started ++ [run]) := by
  intro earlier later r heq
  rcases List.eq_nil_or_concat later with rfl | ⟨later, last, rfl⟩
  · obtain ⟨rfl, hlast⟩ := List.append_inj' heq rfl
    obtain rfl : run = r := by simpa using hlast
    exact hrun
  · rw [List.concat_eq_append, ← List.cons_append, ← List.append_assoc] at heq
    obtain ⟨hinit, _⟩ := List.append_inj' heq rfl
    exact h earlier later r hinit

/-- **With one limit for all, no minute has more runs of a user.** -/
theorem WithinLimit.startedIn_le {started : List Started} (h : WithinLimit started) {limit : Nat}
    {tenantId userId : Uuid}
    (hlimit : ∀ s ∈ started, s.tenantId = tenantId → s.userId = userId → s.limit = some limit)
    (start : Instant) : startedIn started tenantId userId start ≤ limit := by
  induction started using List.reverseRecOn with
  | nil => exact Nat.zero_le limit
  | append_singleton earlier run ih =>
      by_cases hin : run.tenantId = tenantId ∧ run.userId = userId ∧ start ≤ run.startedAt ∧
          run.startedAt ≤ start + minute
      · obtain ⟨htenant, huser, hstart, hend⟩ := hin
        have hrun : run.limit = some limit := hlimit run (by simp) htenant huser
        have hcount := h earlier [] run rfl limit hrun start hstart hend
        rwa [htenant, huser] at hcount
      · have hsame : startedIn (earlier ++ [run]) tenantId userId start =
            startedIn earlier tenantId userId start := by
          unfold startedIn
          rw [List.countP_append, List.countP_singleton, if_neg (by simpa [and_assoc] using hin),
            Nat.add_zero]
        rw [hsame]
        refine ih (fun earlier' later r heq => ?_) fun s hs => hlimit s (List.mem_append_left _ hs)
        exact h earlier' (later ++ [run]) r (by rw [heq]; simp)

/-! ## 2. What a step does -/

/-- What a step has done to the calls, the history and the ledger. -/
inductive World.Stepped (settings : Settings) (world : World) : Action → World → Prop where
  | governed {policies : List FeaturePolicy} {configurations : List Configuration} :
      world.Stepped settings (.govern policies configurations)
        { world with policies, configurations }
  | begun {now : Instant} {request : Request} {row : PolicyRow} :
      world.Stepped settings (.begin now request)
        { world with calls := world.calls ++ [⟨request, now, .selected row⟩] }
  | admitted {index : Nat} {periods : Periods} {call : Call} {row : PolicyRow}
      (hcall : world.calls[index]? = some call) (hphase : call.phase = .selected row)
      (hrate : ∀ limit, row.perUserRequestsPerMinute = some limit →
        recentRequests world.ledger call.begunAt call.request.tenantId call.request.userId < limit) :
      world.Stepped settings (.readLimits index periods) (world.setPhase index call (.admitted row))
  | started {index : Nat} {call : Call} {row : PolicyRow}
      (hcall : world.calls[index]? = some call) (hphase : call.phase = .admitted row) :
      world.Stepped settings (.startRun index)
        { world.setPhase index call (.running row world.nextId) with
          runs := world.runs ++ [newRun world.nextId call row]
          started := world.started ++
            [⟨world.nextId, call.request.tenantId, call.request.userId, call.begunAt,
              row.perUserRequestsPerMinute⟩]
          nextId := world.nextId + 1 }
  | finished {index : Nat} {now : Instant} {outcome : Outcome} {call : Call} {row : PolicyRow}
      {runId : Uuid} (hcall : world.calls[index]? = some call) (hphase : call.phase = .running row runId) :
      world.Stepped settings (.finish index now outcome)
        ((recordOutcome now call.request row runId outcome world).setPhase index call .over)
  | left {index : Nat} {call : Call} (hcall : world.calls[index]? = some call) :
      world.Stepped settings (.leave index) (world.setPhase index call .over)

/-- A call is admitted below its limit only. -/
theorem admit_rate {ledger : List LedgerRow} {now : Instant} {periods : Periods} {request : Request}
    {row : PolicyRow} {u : Unit} (h : checkPolicy settings ledger now periods request row = .ok u)
    {limit : Nat} (hlimit : row.perUserRequestsPerMinute = some limit) :
    recentRequests ledger now request.tenantId request.userId < limit := by
  by_contra hge
  have hrefused : row.perUserRequestsPerMinute.any
      (· ≤ recentRequests ledger now request.tenantId request.userId) = true := by
    simpa [hlimit] using hge
  unfold checkPolicy at h
  rw [if_pos hrefused] at h
  by_cases henabled : (!row.enabled) = true
  · rw [if_pos henabled] at h
    cases h
  · rw [if_neg henabled] at h
    cases h

theorem GatewayStep.stepped {world world' : World} {action : Action}
    (h : GatewayStep settings world action world') : world.Stepped settings action world' := by
  unfold GatewayStep World.next at h
  split at h
  · cases h
    exact .governed
  · simp only [Option.bind_eq_bind, Option.bind_eq_some_iff] at h
    obtain ⟨row, _, h⟩ := h
    split at h
    · cases h
      exact .begun
    · cases h
  · simp only [Option.bind_eq_bind, Option.bind_eq_some_iff] at h
    obtain ⟨call, hcall, h⟩ := h
    split at h
    · next row hphase =>
        split at h
        · next hadmit =>
            cases h
            exact .admitted hcall hphase fun limit => admit_rate hadmit
        · cases h
    · cases h
  · simp only [Option.bind_eq_bind, Option.bind_eq_some_iff] at h
    obtain ⟨call, hcall, h⟩ := h
    split at h
    · next row hphase =>
        cases h
        exact .started hcall hphase
    · cases h
  · simp only [Option.bind_eq_bind, Option.bind_eq_some_iff] at h
    obtain ⟨call, hcall, h⟩ := h
    split at h
    · next row runId hphase =>
        cases h
        exact .finished hcall hphase
    · cases h
  · simp only [Option.bind_eq_bind, Option.bind_eq_some_iff] at h
    obtain ⟨call, hcall, h⟩ := h
    cases h
    exact .left hcall

/-- The outcome of a run changes neither the calls nor the history. -/
theorem recordOutcome_kept (now : Instant) (request : Request) (row : PolicyRow) (runId : Uuid)
    (outcome : Outcome) (world : World) :
    (recordOutcome now request row runId outcome world).calls = world.calls ∧
      (recordOutcome now request row runId outcome world).started = world.started ∧
      (recordOutcome now request row runId outcome world).nextId = world.nextId := by
  unfold recordOutcome
  split
  · split <;> exact ⟨rfl, rfl, rfl⟩
  · exact ⟨rfl, rfl, rfl⟩
  · exact ⟨rfl, rfl, rfl⟩

/-! ## 3. Checks that see every run -/

/-- Two calls of one user. -/
def Call.sameUser (call other : Call) : Prop :=
  call.request.tenantId = other.request.tenantId ∧ call.request.userId = other.request.userId

instance (call other : Call) : Decidable (call.sameUser other) := inferInstanceAs (Decidable (_ ∧ _))

/-- A call between its check and the start of its run. -/
def Call.waits (call : Call) : Bool :=
  match call.phase with
  | .admitted _ => true
  | .selected _ | .running _ _ | .over => false

/-- A run of the user of a call that began in its minute. -/
def Call.counts (call : Call) (s : Started) : Bool :=
  s.tenantId = call.request.tenantId && s.userId = call.request.userId &&
    call.begunAt - minute ≤ s.startedAt

/-- A row that `recent_requests` counts for a call. -/
def Call.sees (call : Call) (row : LedgerRow) : Bool :=
  row.tenantId = call.request.tenantId && row.userId = call.request.userId &&
    call.begunAt - minute ≤ row.occurredAt

/-- **A check with no other call of its user under way to its start, and with every run of
    its user in the last minute in the ledger.** -/
def Accounted (world : World) : Action → Prop
  | .readLimits index _ => ∀ call, world.calls[index]? = some call →
      (∀ other ∈ world.calls, other.waits → ¬ other.sameUser call) ∧
      ∀ s ∈ world.started, call.counts s →
        ∃ row ∈ world.ledger, call.sees row ∧ row.agentRunId = s.runId
  | _ => True

/-- Distinct runs that are all in the ledger are no more than are counted. -/
theorem counted_le {started : List Started} {ledger : List LedgerRow} {call : Call}
    (hids : (started.map (·.runId)).Nodup)
    (hledger : ∀ s ∈ started, call.counts s →
      ∃ row ∈ ledger, call.sees row ∧ row.agentRunId = s.runId) :
    started.countP call.counts ≤
      recentRequests ledger call.begunAt call.request.tenantId call.request.userId := by
  have hcount : recentRequests ledger call.begunAt call.request.tenantId call.request.userId =
      ((ledger.filter call.sees).map (·.agentRunId)).length := by
    rw [List.length_map, ← List.countP_eq_length_filter]
    rfl
  have hnodup : ((started.filter call.counts).map (·.runId)).Nodup :=
    hids.sublist (List.filter_sublist.map _)
  have hsubset : (started.filter call.counts).map (·.runId) ⊆
      (ledger.filter call.sees).map (·.agentRunId) := by
    intro id hid
    obtain ⟨s, hs, rfl⟩ := List.mem_map.mp hid
    obtain ⟨hs, hcounts⟩ := List.mem_filter.mp hs
    obtain ⟨row, hrow, hsees, heq⟩ := hledger s hs hcounts
    exact List.mem_map.mpr ⟨row, List.mem_filter.mpr ⟨hrow, hsees⟩, heq⟩
  have hle := (List.subperm_of_subset hnodup hsubset).length_le
  rwa [List.length_map, ← List.countP_eq_length_filter, ← hcount] at hle

/-! ## 4. The invariant -/

structure World.Limited (world : World) : Prop where
  distinct : (world.started.map (·.runId)).Nodup
  below : ∀ s ∈ world.started, s.runId < world.nextId
  within : WithinLimit world.started
  /-- what an admitted call has counted is all there is -/
  room : ∀ call ∈ world.calls, ∀ row, call.phase = .admitted row →
    ∀ limit, row.perUserRequestsPerMinute = some limit →
      world.started.countP call.counts < limit
  /-- one call of a user at a time is between its check and its start -/
  alone : ∀ (i j : Nat) (call other : Call), world.calls[i]? = some call → world.calls[j]? = some other →
    call.waits → other.waits → call.sameUser other → i = j

theorem Call.waits_iff {call : Call} : call.waits = true ↔ ∃ row, call.phase = .admitted row := by
  unfold Call.waits
  cases call.phase <;> simp

/-- A call that moves on to a phase in which it does not wait. -/
theorem World.Limited.setPhase {world : World} (h : world.Limited) {index : Nat} {call : Call}
    {phase : Phase} (hphase : ∀ row, phase ≠ .admitted row) :
    (world.setPhase index call phase).Limited where
  distinct := h.distinct
  below := h.below
  within := h.within
  room := by
    intro other hother row hadmitted limit hlimit
    rcases List.mem_or_eq_of_mem_set hother with hold | rfl
    · exact h.room other hold row hadmitted limit hlimit
    · exact absurd hadmitted (hphase row)
  alone := by
    have hother : ∀ (i : Nat) (c : Call), (world.calls.set index { call with phase })[i]? = some c →
        c.waits → world.calls[i]? = some c := by
      intro i c hc hwaits
      by_cases hi : index = i
      · subst hi
        obtain ⟨row, hrow⟩ := Call.waits_iff.mp hwaits
        rw [List.getElem?_set_self'] at hc
        obtain ⟨_, _, rfl⟩ := Option.map_eq_some_iff.mp hc
        exact absurd hrow (hphase row)
      · rwa [List.getElem?_set_ne hi] at hc
    intro i j c other hc hother' hwaits hwaits' hsame
    exact h.alone i j c other (hother i c hc hwaits) (hother j other hother' hwaits') hwaits hwaits' hsame

/-- An accounted check. -/
theorem World.Limited.admitted {world : World} (h : world.Limited) {index : Nat} {periods : Periods}
    {call : Call} {row : PolicyRow} (hcall : world.calls[index]? = some call)
    (hrate : ∀ limit, row.perUserRequestsPerMinute = some limit →
      recentRequests world.ledger call.begunAt call.request.tenantId call.request.userId < limit)
    (haccounted : Accounted world (.readLimits index periods)) :
    (world.setPhase index call (.admitted row)).Limited where
  distinct := h.distinct
  below := h.below
  within := h.within
  room := by
    obtain ⟨_, hledger⟩ := haccounted call hcall
    intro other hother row' hadmitted limit hlimit
    rcases List.mem_or_eq_of_mem_set hother with hold | rfl
    · exact h.room other hold row' hadmitted limit hlimit
    · obtain rfl : row = row' := by simpa using hadmitted
      exact (counted_le h.distinct hledger).trans_lt (hrate limit hlimit)
  alone := by
    obtain ⟨hnone, _⟩ := haccounted call hcall
    have hcases : ∀ (i : Nat) (c : Call),
        (world.calls.set index { call with phase := .admitted row })[i]? = some c →
          (i = index ∧ c = { call with phase := .admitted row }) ∨ world.calls[i]? = some c := by
      intro i c hc
      by_cases hi : index = i
      · subst hi
        rw [List.getElem?_set_self'] at hc
        obtain ⟨_, _, rfl⟩ := Option.map_eq_some_iff.mp hc
        exact Or.inl ⟨rfl, rfl⟩
      · rw [List.getElem?_set_ne hi] at hc
        exact Or.inr hc
    intro i j c other hc hother hwaits hwaits' hsame
    rcases hcases i c hc with ⟨rfl, rfl⟩ | hold <;> rcases hcases j other hother with ⟨rfl, rfl⟩ | hold'
    · rfl
    · exact absurd ⟨hsame.1.symm, hsame.2.symm⟩ (hnone other (List.mem_of_getElem? hold') hwaits')
    · exact absurd hsame (hnone c (List.mem_of_getElem? hold) hwaits)
    · exact h.alone i j c other hold hold' hwaits hwaits' hsame

/-- The run of an admitted call. -/
theorem World.Limited.started {world : World} (h : world.Limited) {index : Nat} {call : Call}
    {row : PolicyRow} (hcall : world.calls[index]? = some call) (hphase : call.phase = .admitted row)
    {runs : List AgentRun} :
    World.Limited { world.setPhase index call (.running row world.nextId) with
      runs := runs
      started := world.started ++
        [⟨world.nextId, call.request.tenantId, call.request.userId, call.begunAt,
          row.perUserRequestsPerMinute⟩]
      nextId := world.nextId + 1 } where
  distinct := by
    rw [List.map_append, List.nodup_append]
    refine ⟨h.distinct, List.nodup_singleton _, ?_⟩
    intro id hid id' hid' heq
    obtain ⟨s, hs, rfl⟩ := List.mem_map.mp hid
    obtain rfl : id' = world.nextId := by simpa using hid'
    exact absurd heq (Nat.ne_of_lt (h.below s hs))
  below := by
    intro s hs
    rcases List.mem_append.mp hs with hold | hnew
    · exact Nat.lt_succ_of_lt (h.below s hold)
    · obtain rfl := List.mem_singleton.mp hnew
      exact Nat.lt_succ_self _
  within := by
    refine h.within.append fun limit hlimit start hstart hend => ?_
    have hroom := h.room call (List.mem_of_getElem? hcall) row hphase limit hlimit
    have hle : startedIn world.started call.request.tenantId call.request.userId start ≤
        world.started.countP call.counts := by
      refine List.countP_mono_left fun s _ hs => ?_
      simp only [Bool.and_eq_true, decide_eq_true_eq] at hs
      obtain ⟨⟨⟨htenant, huser⟩, hfrom⟩, _⟩ := hs
      have hminute : call.begunAt - minute ≤ s.startedAt :=
        (Int.sub_right_le_of_le_add hend).trans hfrom
      simp [Call.counts, htenant, huser, hminute]
    unfold startedIn at hle ⊢
    rw [List.countP_append, List.countP_singleton]
    split
    · exact Nat.succ_le_of_lt (hle.trans_lt hroom)
    · exact (hle.trans_lt hroom).le
  room := by
    intro other hother row' hadmitted limit hlimit
    obtain ⟨j, hj⟩ := List.mem_iff_getElem?.mp hother
    have hne : index ≠ j := by
      rintro rfl
      have hself : (world.calls.set index { call with phase := .running row world.nextId })[index]? =
          some other := hj
      rw [List.getElem?_set_self'] at hself
      obtain ⟨_, _, rfl⟩ := Option.map_eq_some_iff.mp hself
      cases hadmitted
    have hold : world.calls[j]? = some other := by
      rwa [World.setPhase, List.getElem?_set_ne hne] at hj
    have hroom := h.room other (List.mem_of_getElem? hold) row' hadmitted limit hlimit
    have hother : other.counts ⟨world.nextId, call.request.tenantId, call.request.userId,
        call.begunAt, row.perUserRequestsPerMinute⟩ = false := by
      by_contra hcounts
      simp only [Call.counts, Bool.not_eq_false, Bool.and_eq_true, decide_eq_true_eq] at hcounts
      obtain ⟨⟨htenant, huser⟩, _⟩ := hcounts
      exact hne (h.alone index j call other hcall hold (Call.waits_iff.mpr ⟨row, hphase⟩)
        (Call.waits_iff.mpr ⟨row', hadmitted⟩) ⟨htenant, huser⟩)
    rw [List.countP_append, List.countP_singleton, if_neg (by simp [hother])]
    exact hroom
  alone := (h.setPhase (by simp)).alone

/-- A call that begins waits for nothing yet. -/
theorem World.Limited.begun {world : World} (h : world.Limited) {now : Instant} {request : Request}
    {row : PolicyRow} :
    World.Limited { world with calls := world.calls ++ [⟨request, now, .selected row⟩] } where
  distinct := h.distinct
  below := h.below
  within := h.within
  room := by
    intro call hcall row' hadmitted limit hlimit
    rcases List.mem_append.mp hcall with hold | hnew
    · exact h.room call hold row' hadmitted limit hlimit
    · obtain rfl := List.mem_singleton.mp hnew
      cases hadmitted
  alone := by
    have hold : ∀ (i : Nat) (c : Call),
        (world.calls ++ [⟨request, now, .selected row⟩])[i]? = some c → c.waits →
          world.calls[i]? = some c := by
      intro i c hc hwaits
      by_cases hi : i < world.calls.length
      · rwa [List.getElem?_append_left hi] at hc
      · rw [List.getElem?_append_right (Nat.le_of_not_lt hi)] at hc
        obtain rfl := List.mem_singleton.mp (List.mem_of_getElem? hc)
        cases hwaits
    intro i j c other hc hother hwaits hwaits' hsame
    exact h.alone i j c other (hold i c hc hwaits) (hold j other hother hwaits') hwaits hwaits' hsame

/-- **An accounted step keeps the invariant.** -/
theorem World.Limited.step {world world' : World} {action : Action} (h : world.Limited)
    (hstep : Guarded Accounted (GatewayStep settings) world action world') : world'.Limited := by
  cases hstep.2.stepped with
  | governed => exact ⟨h.distinct, h.below, h.within, h.room, h.alone⟩
  | begun => exact h.begun
  | admitted hcall hphase hrate => exact h.admitted hcall hrate hstep.1
  | started hcall hphase => exact h.started hcall hphase
  | @finished index now outcome call row runId hcall hphase =>
      obtain ⟨hcalls, hstarted, hnext⟩ :=
        recordOutcome_kept now call.request row runId outcome world
      have hrecorded : (recordOutcome now call.request row runId outcome world).Limited :=
        ⟨hstarted ▸ h.distinct, by rw [hstarted, hnext]; exact h.below, hstarted ▸ h.within,
          by rw [hcalls, hstarted]; exact h.room, by rw [hcalls]; exact h.alone⟩
      exact hrecorded.setPhase (by simp)
  | left hcall => exact h.setPhase (by simp)

/-- A world before any call. -/
structure World.Idle (world : World) : Prop where
  calls : world.calls = []
  started : world.started = []

theorem World.Idle.limited {world : World} (h : world.Idle) : world.Limited where
  distinct := by simp [h.started]
  below := by simp [h.started]
  within := by
    intro earlier later run heq
    rw [h.started] at heq
    simp at heq
  room := by simp [h.calls]
  alone := by simp [h.calls]

/-- **When every check sees every run of its user, no user gets more runs in a minute than
    the policy allows**: no run is started beyond its limit, and where one limit holds
    throughout, no minute has more runs. -/
theorem within_limit {world₀ world : World} {actions : List Action} (hidle : world₀.Idle)
    (hrun : Run (Guarded Accounted (GatewayStep settings)) world₀ actions world) :
    WithinLimit world.started ∧
      ∀ limit tenantId userId,
        (∀ s ∈ world.started, s.tenantId = tenantId → s.userId = userId → s.limit = some limit) →
        ∀ start, startedIn world.started tenantId userId start ≤ limit := by
  have hwithin : WithinLimit world.started :=
    (hrun.invariant hidle.limited fun _ _ _ h hstep => h.step hstep).within
  exact ⟨hwithin, fun _ _ _ hlimit => hwithin.startedIn_le hlimit⟩

/-! ## 5. A limit of one run a minute -/

instance (world : World) : ∀ action, Decidable (Accounted world action)
  | .readLimits index _ =>
      match h : world.calls[index]? with
      | none => isTrue fun call hcall => by rw [h] at hcall; cases hcall
      | some call =>
          decidable_of_iff
            ((∀ other ∈ world.calls, other.waits → ¬ other.sameUser call) ∧
              ∀ s ∈ world.started, call.counts s →
                ∃ row ∈ world.ledger, call.sees row ∧ row.agentRunId = s.runId)
            ⟨fun hall c hc => by rw [h] at hc; cases hc; exact hall, fun hall => hall call h⟩
  | .govern _ _ | .begin _ _ | .startRun _ | .finish _ _ _ | .leave _ => isTrue trivial

def oncePerMinute : World where
  policies :=
    [{ featurePolicyId := 1
       tenantId := none
       applicationEnvironmentId := none
       agentConfigurationId := none
       useCaseCode := none
       scopeType := .global
       enabledFlag := true
       dailyBudget := none
       monthlyBudget := none
       hardStopThresholdPercent := none
       maximumInputTokens := none
       maximumOutputTokens := none
       maximumToolCalls := none
       perUserRequestsPerMinute := some 1
       approvalStatus := .approved
       effectiveFrom := none
       effectiveTo := none
       createdAt := 0 }]
  configurations :=
    [{ agentConfigurationId := 2
       tenantId := none
       agentCode := "EMPLOYEE_ASSISTANT"
       activeFlag := true
       versionNumber := 1
       versionPublished := true
       modelPolicyPublished := true
       promptPublished := true
       effectiveFrom := none
       effectiveTo := none
       promptEffectiveFrom := none
       promptEffectiveTo := none
       promptText := "Answer."
       providerAlias := "openai"
       modelAlias := "standard"
       fallbackProviderAlias := none
       fallbackModelAlias := none }]
  runs := []
  ledger := []
  calls := []
  started := []
  nextId := 10

def deployedSettings : Settings where
  aiGloballyEnabled := true
  deployed := fun provider model => provider = "openai" && model = "standard"

def question : Request where
  tenantId := 3
  userId := 4
  conversationId := 5
  agentCode := "EMPLOYEE_ASSISTANT"
  useCaseCode := "EMPLOYEE_CONVERSATION"
  environmentId := none
  instructions := "How?"
  messages := []
  toolCount := 0

def answered : Outcome := .result ⟨"openai", "standard", 0, 1, 1, 0, 0⟩ 5

/-- A call up to the start of its run. -/
def asked (index : Nat) (now : Instant) : List Action :=
  [.begin now question, .readLimits index ⟨0, 0⟩, .startRun index]

theorem within_limit_sample :
    ∃ world : World, (world.started.map (·.startedAt) = [0, 2 * minute]) ∧
      WithinLimit world.started := by
  have hrun : ∃ world, (asked 0 0 ++ [Action.finish 0 second answered] ++ asked 1 (2 * minute)).foldlM
      (fun world action => if Accounted world action then world.next deployedSettings action
        else none) oncePerMinute = some world ∧
          world.started.map (·.startedAt) = [0, 2 * minute] := by
    rw [← Option.map_eq_some_iff]
    decide +kernel
  obtain ⟨world, hrun, hstarted⟩ := hrun
  exact ⟨world, hstarted, (within_limit ⟨rfl, rfl⟩ (guarded_run_of_foldlM hrun)).1⟩

/-- **A run that failed is not counted**: the user gets another one in the same minute. -/
theorem failed_runs_uncounted :
    ¬ ∀ (settings : Settings) (world₀ world : World) (actions : List Action), world₀.Idle →
      Run (GatewayStep settings) world₀ actions world → WithinLimit world.started := by
  intro hclaim
  have hrun : ∃ world, (asked 0 0 ++ [Action.finish 0 second (.failure "PROVIDER_TIMEOUT")] ++
      asked 1 (2 * second)).foldlM (World.next deployedSettings) oncePerMinute = some world ∧
        world.started = [⟨10, 3, 4, 0, some 1⟩, ⟨11, 3, 4, 2 * second, some 1⟩] := by
    rw [← Option.map_eq_some_iff]
    decide +kernel
  obtain ⟨world, hrun, hstarted⟩ := hrun
  have hwithin := hclaim deployedSettings oncePerMinute world _ ⟨rfl, rfl⟩ (run_of_foldlM hrun)
  rw [hstarted] at hwithin
  have hcount := hwithin [⟨10, 3, 4, 0, some 1⟩] [] ⟨11, 3, 4, 2 * second, some 1⟩ rfl 1 rfl 0
    (by decide) (by decide)
  revert hcount
  decide

end Helpdesk.Ai
