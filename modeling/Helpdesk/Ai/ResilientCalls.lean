/-
  File:      Helpdesk/Ai/ResilientCalls.lean
  Subject:   Any number of `generate` and `snapshot` calls beside each other: which calls
             of a provider they make, and when.

  * `CallsBounded`: the calls and answers of one `generate`; `Between` is what holds of
    them between two attempts, and the induction over the attempts carries it
    (`meets_attempts`);
  * `snapshot_alone`, `permit_alone`: what the two methods do at one instant;
  * **`circuit_shields_providers`**: over every run.
-/
import Helpdesk.Ai.Circuit
import Mathlib.Data.List.Dedup

namespace Helpdesk.Ai

open Helpdesk.Python Helpdesk.Coroutines

variable {π Q R ι : Type}

/-! ## 1. The calls of one `generate` -/

/-- How often a provider was called as the primary one, or as the fallback. -/
def calls (leg : Leg) (log : List (ProviderCall π Q × Option (Except Failure R))) : Nat :=
  log.countP fun e => e.1.leg = leg && e.2.isNone

/-- How often it answered. -/
def answers (leg : Leg) (log : List (ProviderCall π Q × Option (Except Failure R))) : Nat :=
  log.countP fun e => e.1.leg = leg && e.2.isSome

/-- Every attempt at the primary provider has failed. -/
def PrimaryFailed (log : List (ProviderCall π Q × Option (Except Failure R))) : Prop :=
  calls .primary log = answers .primary log ∧ ∀ r a, (r, some a) ∈ log → r.leg = .primary →
    ∃ error : Failure, a = .error error ∧ error.isProviderFailure = true

/-- Whom `generate` may call, and with what. -/
def Targets (primary : π) (request : Q) (fallback : Option π) (r : ProviderCall π Q) : Prop :=
  r.request = request ∧ match r.leg with
    | .primary => r.provider = primary
    | .fallback => fallback = some r.provider

/-- **The calls of one `generate`**: so many to each provider, the fallback only after every
    attempt at the primary one has failed. -/
structure CallsBounded (executor : ResilientProviderExecutor) (primary : π) (request : Q)
    (fallback : Option π) (log : List (ProviderCall π Q × Option (Except Failure R))) : Prop where
  targets : ∀ e ∈ log, Targets primary request fallback e.1
  bounded : ∀ leg, calls leg log ≤ executor.maximumAttempts
  failedBefore : ∀ A B r, log = A ++ (r, none) :: B → r.leg = .fallback →
    PrimaryFailed A ∧ calls .primary B = 0

/-- **Between two attempts**: every attempt has failed that was made. -/
structure Between (executor : ResilientProviderExecutor) (primary : π) (request : Q)
    (fallback : Option π) (leg : Leg) (made : Nat)
    (log : List (ProviderCall π Q × Option (Except Failure R))) : Prop where
  bounded : CallsBounded executor primary request fallback log
  made : calls leg log = made
  failed : PrimaryFailed log
  fallbackLast : leg = .primary → calls .fallback log = 0

section Logs

variable {executor : ResilientProviderExecutor} {primary provider : π} {request : Q}
  {fallback : Option π} {leg : Leg} {made : Nat} {r : ProviderCall π Q} {a : Except Failure R}
  {log : List (ProviderCall π Q × Option (Except Failure R))}

@[simp] theorem calls_called {leg' : Leg} :
    calls leg' (log ++ [(r, none)]) = calls leg' log + if r.leg = leg' then 1 else 0 := by
  simp [calls, List.countP_append, List.countP_cons]

@[simp] theorem calls_answered {leg' : Leg} : calls leg' (log ++ [(r, some a)]) = calls leg' log := by
  simp [calls, List.countP_append]

@[simp] theorem answers_called {leg' : Leg} :
    answers leg' (log ++ [(r, none)]) = answers leg' log := by
  simp [answers, List.countP_append]

@[simp] theorem answers_answered {leg' : Leg} :
    answers leg' (log ++ [(r, some a)]) = answers leg' log + if r.leg = leg' then 1 else 0 := by
  simp [answers, List.countP_append, List.countP_cons]

theorem callsBounded_nil : CallsBounded executor primary request fallback
    ([] : List (ProviderCall π Q × Option (Except Failure R))) where
  targets e he := absurd he List.not_mem_nil
  bounded leg := Nat.zero_le _
  failedBefore A B r hlog := by simp at hlog

/-- An answer is no call. -/
theorem CallsBounded.answered (h : CallsBounded executor primary request fallback log)
    (hr : Targets primary request fallback r) :
    CallsBounded executor primary request fallback (log ++ [(r, some a)]) where
  targets e he := by
    rcases List.mem_append.mp he with hmem | hmem
    · exact h.targets e hmem
    · obtain rfl := List.mem_singleton.mp hmem
      exact hr
  bounded leg := by simpa using h.bounded leg
  failedBefore A B r' hlog hleg := by
    rcases concat_eq_append_cons hlog with ⟨-, -, heq⟩ | ⟨B', rfl, hlog'⟩
    · cases heq
    · obtain ⟨hfailed, hcalls⟩ := h.failedBefore A B' r' hlog' hleg
      exact ⟨hfailed, by simpa using hcalls⟩

/-- The next attempt is made. -/
theorem Between.called (h : Between executor primary request fallback leg made log)
    (hmade : made < executor.maximumAttempts) (hr : Targets primary request fallback r)
    (hleg : r.leg = leg) :
    CallsBounded executor primary request fallback (log ++ [(r, none)]) where
  targets e he := by
    rcases List.mem_append.mp he with hmem | hmem
    · exact h.bounded.targets e hmem
    · obtain rfl := List.mem_singleton.mp hmem
      exact hr
  bounded leg' := by
    rw [calls_called]
    split
    · next heq =>
        have hcalls : calls leg' log = made := by rw [← heq, hleg]; exact h.made
        omega
    · exact h.bounded.bounded leg'
  failedBefore A B r' hlog hleg' := by
    rcases concat_eq_append_cons hlog with ⟨rfl, rfl, -⟩ | ⟨B', rfl, hlog'⟩
    · exact ⟨h.failed, rfl⟩
    · obtain ⟨hfailed, hcalls⟩ := h.bounded.failedBefore A B' r' hlog' hleg'
      refine ⟨hfailed, ?_⟩
      -- a fallback was called already, so this attempt is one at the fallback
      have hprimary : r.leg ≠ .primary := by
        intro heq
        have hnone := h.fallbackLast (hleg.symm.trans heq)
        rw [hlog', calls, List.countP_append, List.countP_cons] at hnone
        simp [hleg'] at hnone
      simpa [hprimary] using hcalls

/-- It fails. -/
theorem Between.failed_attempt {error : Failure}
    (h : Between executor primary request fallback leg made log)
    (hcalled : CallsBounded executor primary request fallback (log ++ [(r, none)]))
    (hr : Targets primary request fallback r) (hleg : r.leg = leg)
    (herror : error.isProviderFailure = true) :
    Between executor primary request fallback leg (made + 1)
      (log ++ [(r, none)] ++ [(r, some (.error error))]) where
  bounded := hcalled.answered hr
  made := by rw [calls_answered, calls_called, if_pos hleg, h.made]
  failed := by
    refine ⟨?_, fun r' a hmem hprimary => ?_⟩
    · rw [calls_answered, calls_called, answers_answered, answers_called, h.failed.1]
    · simp only [List.append_assoc, List.mem_append, List.mem_cons, Prod.mk.injEq,
        List.not_mem_nil, or_false, reduceCtorEq, and_false, Option.some.injEq] at hmem
      rcases hmem with hmem | hfalse | ⟨-, rfl⟩
      · exact h.failed.2 r' a hmem hprimary
      · exact hfalse.elim
      · exact ⟨error, rfl, herror⟩
  fallbackLast hprimary := by
    have hne : r.leg ≠ .fallback := by rw [hleg, hprimary]; decide
    rw [calls_answered, calls_called, if_neg hne, h.fallbackLast hprimary]

end Logs

/-! ## 2. The executor does its part -/

variable [LLMProvider π] [DecidableEq ι] {executor : ResilientProviderExecutor}
  {primary provider : π} {request : Q} {fallback : Option π} {leg : Leg}
  {v : CircuitMoment π Q R ι} {i : ι}

/-- What a call owes for itself. -/
def OwnBounds (executor : ResilientProviderExecutor) (i : ι) (call : ResilienceCall π Q)
    (v : CircuitMoment π Q R ι) : Prop :=
  match call with
  | .generate primary request fallback =>
      CallsBounded executor primary request fallback (traffic i v)
  | .snapshot _ => True

/-- **The discipline of the process**: the breaker shields, every `generate` stays within
    its bounds. -/
def circuitDiscipline (executor : ResilientProviderExecutor) :
    Discipline CircuitStates (ProviderCall π Q) (Except Failure R) CircuitNote Failure
      (ResilienceOutcome R) (ResilienceCall π Q) ι where
  always := Shielding executor.circuit
  own := OwnBounds executor
  admits _ _ := True
  always_pass ht h := h.pass ht
  own_follows {i call v v'} hfollows h := by
    cases call with
    | generate primary request fallback =>
        rw [OwnBounds, traffic_follows hfollows]
        exact h
    | snapshot known => trivial
  always_cancelled h := h.add (by simp) (by simp)
  own_cancelled {i call v} h := by
    cases call with
    | generate primary request fallback =>
        rw [OwnBounds, traffic_silent rfl]
        exact h
    | snapshot known => trivial

/-- What a `generate` keeps at its waits. -/
def Bounded (executor : ResilientProviderExecutor) (primary : π) (request : Q)
    (fallback : Option π) (i : ι) (v : CircuitMoment π Q R ι) : Prop :=
  Shielding executor.circuit v ∧ CallsBounded executor primary request fallback (traffic i v)

/-- A pause between two attempts. -/
theorem meets_backOff {attempt : Nat} {keeps : CircuitMoment π Q R ι → Prop}
    {admits : ProviderCall π Q → Except Failure R → Prop}
    {post : CircuitMoment π Q R ι → Unit → Prop} {raises : CircuitMoment π Q R ι → Failure → Prop}
    (hshielding : Shielding executor.circuit v) (hkeeps : keeps v)
    (hpost : ∀ v', traffic i v' = traffic i v → Shielding executor.circuit v' → post v' ()) :
    (executor.backOff attempt : CircuitTask π Q R Unit).Meets (Shielding executor.circuit) keeps
      admits i post raises v := by
  unfold ResilientProviderExecutor.backOff
  split
  · rw [Coroutine.meets_pause]
    exact ⟨hkeeps, fun v' hfollows hshielding' => hpost v' (traffic_follows hfollows) hshielding'⟩
  · exact hpost v rfl hshielding

/-- **The attempts at one provider**: within their bounds, and where an exception of the
    provider leaves them every one has failed. -/
theorem meets_attempts {admits : ProviderCall π Q → Except Failure R → Prop}
    (htargets : Targets primary request fallback ⟨leg, provider, request⟩) :
    ∀ (left made : Nat) (lastError : Option Failure) (v : CircuitMoment π Q R ι),
      left + made = executor.maximumAttempts → Shielding executor.circuit v →
      Between executor primary request fallback leg made (traffic i v) →
      (executor.attempts leg provider request left made lastError : CircuitTask π Q R R).Meets
        (Shielding executor.circuit) (Bounded executor primary request fallback i) admits i
        (fun v _ => Bounded executor primary request fallback i v)
        (fun v error => Bounded executor primary request fallback i v ∧
          (error.isProviderFailure = true → ∃ made,
            Between executor primary request fallback leg made (traffic i v))) v
  | 0, made, none, v, _, hshielding, hbetween => ⟨⟨hshielding, hbetween.bounded⟩, by simp [Failure.isProviderFailure]⟩
  | 0, made, some lastError, v, _, hshielding, hbetween =>
      ⟨⟨hshielding, hbetween.bounded⟩, fun _ => ⟨made, hbetween⟩⟩
  | left + 1, made, lastError, v, hleft, hshielding, hbetween => by
      rw [ResilientProviderExecutor.attempts, Coroutine.meets_bind]
      refine meets_permit ⟨hshielding, hbetween.bounded⟩
        (fun v₁ htraffic hshielding₁ hrecovered => ?_) fun v₁ htraffic hshielding₁ => ?_
      swap
      · -- the circuit is open
        rw [← htraffic] at hbetween
        exact ⟨⟨hshielding₁, hbetween.bounded⟩, fun _ => ⟨made, hbetween⟩⟩
      rw [← htraffic] at hbetween
      rw [Coroutine.meets_bind, Coroutine.meets_ask]
      intro t ht
      have hcalled := hbetween.called (by omega) htargets rfl
      have hrecovered' : Recovered executor.circuit (key provider) v₁.log t := hrecovered.mono ht
      refine ⟨⟨(hshielding₁.pass ht).add_called hrecovered', by simpa using hcalled⟩, ?_⟩
      intro v₂ a hfollows hshielding₂ _
      have hasked : Asked executor.circuit i ⟨leg, provider, request⟩
          (v₂.add i (.answered ⟨leg, provider, request⟩ a t)) :=
        ((asked_of_called hrecovered').follows hfollows).add (by simp)
      have hshielding₃ : Shielding executor.circuit
          (v₂.add i (.answered ⟨leg, provider, request⟩ a t)) :=
        hshielding₂.add (by simp) (by simp)
      have htraffic₂ : traffic i v₂ = traffic i v₁ ++ [(⟨leg, provider, request⟩, none)] := by
        rw [traffic_follows hfollows]
        simp
      have hbounded : CallsBounded executor primary request fallback
          (traffic i (v₂.add i (.answered ⟨leg, provider, request⟩ a t))) := by
        rw [traffic_answered, htraffic₂]
        exact hcalled.answered htargets
      -- what is left after a failed attempt is the attempts that are left
      have hfailed : ∀ error : Failure, error.isProviderFailure = true → a = .error error →
          ∀ v', traffic i v' =
              traffic i (v₂.add i (.answered ⟨leg, provider, request⟩ a t)) →
            Between executor primary request fallback leg (made + 1) (traffic i v') := by
        rintro error herror rfl v' htraffic'
        rw [htraffic', traffic_answered, htraffic₂]
        exact hbetween.failed_attempt hcalled htargets rfl herror
      have hretry : ∀ error : Failure, error.isProviderFailure = true → a = .error error →
          ∀ v', traffic i v' =
              traffic i (v₂.add i (.answered ⟨leg, provider, request⟩ a t)) →
            Shielding executor.circuit v' →
            (do executor.backOff made
                executor.attempts leg provider request left (made + 1) (some error) :
              CircuitTask π Q R R).Meets (Shielding executor.circuit)
                (Bounded executor primary request fallback i) admits i
                (fun v _ => Bounded executor primary request fallback i v)
                (fun v error => Bounded executor primary request fallback i v ∧
                  (error.isProviderFailure = true → ∃ made,
                    Between executor primary request fallback leg made (traffic i v))) v' := by
        intro error herror ha v' htraffic' hshielding'
        have hbetween' := hfailed error herror ha v' htraffic'
        rw [Coroutine.meets_bind]
        refine meets_backOff hshielding' ⟨hshielding', hbetween'.bounded⟩ fun v'' hsame hshielding'' => ?_
        exact meets_attempts htargets left (made + 1) _ v'' (by omega) hshielding''
          (by rw [hsame]; exact hbetween')
      cases a with
      | ok result =>
          rw [Coroutine.meets_bind]
          refine meets_success ⟨hshielding₃, hbounded⟩ hasked fun v₃ hsame hshut => ?_
          exact ⟨hshut, by rw [hsame]; exact hbounded⟩
      | error error =>
          cases error with
          | timeout =>
              rw [Coroutine.meets_bind]
              refine meets_failure ⟨hshielding₃, hbounded⟩ fun v₃ hsame hshut => ?_
              exact hretry .timeout rfl rfl v₃ hsame hshut
          | provider code retryable =>
              rw [Coroutine.meets_bind]
              refine meets_failure ⟨hshielding₃, hbounded⟩ fun v₃ hsame hshut => ?_
              cases retryable with
              | true => exact hretry _ rfl rfl v₃ hsame hshut
              | false =>
                  have hbetween₃ := hfailed _ rfl rfl v₃ hsame
                  exact ⟨⟨hshut, hbetween₃.bounded⟩, fun _ => ⟨_, hbetween₃⟩⟩
          | assertion => exact ⟨⟨hshielding₃, hbounded⟩, by simp [Failure.isProviderFailure]⟩
          | other => exact ⟨⟨hshielding₃, hbounded⟩, by simp [Failure.isProviderFailure]⟩

/-- **`generate`** stays within its bounds. -/
theorem meets_generate {admits : ProviderCall π Q → Except Failure R → Prop}
    (hshielding : Shielding executor.circuit v) (hnew : traffic i v = []) :
    (executor.generate primary request fallback : CircuitTask π Q R R).Meets
      (Shielding executor.circuit) (Bounded executor primary request fallback i) admits i
      (fun v _ => Bounded executor primary request fallback i v)
      (fun v _ => Bounded executor primary request fallback i v) v := by
  have hstart : Between executor primary request fallback .primary 0 (traffic i v) := by
    rw [hnew]
    exact ⟨callsBounded_nil, rfl, ⟨rfl, by simp⟩, fun _ => rfl⟩
  rw [ResilientProviderExecutor.generate, Coroutine.meets_catchError]
  refine (meets_attempts ⟨rfl, rfl⟩ _ 0 none v (by simp) hshielding hstart).imp
    (fun _ _ h => h) fun v₁ error hraised => ?_
  obtain ⟨hbounded, hbetween⟩ := hraised
  split
  · next hfailure =>
      obtain ⟨made, hbetween⟩ := hbetween hfailure
      cases fallback with
      | none => exact hbounded
      | some second =>
          -- every attempt at the primary provider has failed
          have hfallback : Between executor primary request (some second) .fallback 0
              (traffic i v₁) :=
            ⟨hbetween.bounded, hbetween.fallbackLast rfl, hbetween.failed, by simp⟩
          exact (meets_attempts ⟨rfl, rfl⟩ _ 0 none v₁ (by simp) hbounded.1 hfallback).imp
            (fun _ _ h => h) fun _ _ h => h.1
  · exact hbounded

theorem obeys_coroutine (call : ResilienceCall π Q) (hshielding : Shielding executor.circuit v)
    (hnew : ∀ e ∈ v.log, e.author ≠ i) :
    (circuitDiscipline executor).Obeys i call
      (call.coroutine executor : CircuitTask π Q R (ResilienceOutcome R))
      (v.add i (.began call)) := by
  have hbegan : Shielding executor.circuit (v.add i (.began call)) :=
    hshielding.add (by simp) (by simp)
  cases call with
  | generate primary request fallback =>
      have htraffic : traffic i (v.add i (.began (.generate primary request fallback))) = [] := by
        have hown : v.own i = [] :=
          List.filter_eq_nil_iff.mpr fun e he => by simpa using hnew e he
        simp [traffic, trafficOf, hown]
      rw [Discipline.Obeys, ResilienceCall.coroutine, Coroutine.meets_bind]
      refine (meets_generate hbegan htraffic).imp (fun v' result h => ?_) fun v' error h => ?_
      · refine ⟨h.1.add (by simp) (by simp), ?_⟩
        show CallsBounded executor primary request fallback _
        rw [traffic_silent rfl]
        exact h.2
      · refine ⟨h.1.add (by simp) (by simp), ?_⟩
        show CallsBounded executor primary request fallback _
        rw [traffic_silent rfl]
        exact h.2
  | snapshot known =>
      rw [Discipline.Obeys, ResilienceCall.coroutine, Coroutine.meets_bind]
      refine meets_snapshot ⟨hbegan, trivial⟩ fun v' observations h => ?_
      exact ⟨h.add (by simp) (by simp), trivial⟩

/-! ## 3. What the methods do at one instant -/

/-- **What `permit` does at one instant.** -/
theorem permit_alone {breaker : CircuitBreaker} {states : CircuitStates} {now : Time} :
    (∃ states', (breaker.permit provider : CircuitTask π Q R Unit).alone states now =
      some (.error circuitOpenError, states')) ↔
      ∃ opened, openedAt states (key provider) = some opened ∧
        now - opened < breaker.recoverySeconds := by
  have hstate : (stateOf (setDefault states (key provider)) (key provider)).openedAt =
      openedAt states (key provider) := by
    rw [stateOf_setDefault, openedAt]
  simp only [CircuitBreaker.permit, Coroutine.alone_withLock, Coroutine.alone_bind,
    Coroutine.modify, Coroutine.get, Coroutine.alone, Option.bind_some, hstate]
  cases hopen : openedAt states (key provider) with
  | none => simp [pure, Coroutine.alone]
  | some opened =>
      simp only [Coroutine.alone_bind, Coroutine.readClock, Coroutine.alone, Option.bind_some]
      by_cases hwindow : now - opened < breaker.recoverySeconds
      · simp [hwindow, Coroutine.alone]
      · simp [hwindow, Coroutine.alone]

/-- A circuit is reported open within its window. -/
theorem observe_state {breaker : CircuitBreaker} {states : CircuitStates} {now : Time}
    {k : ProviderKey} :
    (breaker.observe states now k).state = .opened ↔
      ∃ opened, openedAt states k = some opened ∧ now - opened < breaker.recoverySeconds := by
  unfold CircuitBreaker.observe CircuitBreaker.remaining
  cases hitem : item? states k with
  | none => simp [openedAt, stateOf, hitem, CircuitState.fresh]
  | some state =>
      cases hopen : state.openedAt with
      | none => simp [openedAt, stateOf, hitem, hopen]
      | some opened =>
          have hremaining : 0 < max 0 (breaker.recoverySeconds - (now - opened)) ↔
              now - opened < breaker.recoverySeconds := by
            rw [lt_max_iff, sub_pos]
            exact or_iff_right (lt_irrefl 0)
          simp only [Option.map_some, openedAt, stateOf, hitem, Option.getD_some, hopen,
            Option.some.injEq, exists_eq_left']
          split
          · next hpositive => exact iff_of_true rfl (hremaining.mp hpositive)
          · next hzero => exact iff_of_false (by simp) (mt hremaining.mpr hzero)

theorem observe_key {breaker : CircuitBreaker} {states : CircuitStates} {now : Time}
    {k : ProviderKey} :
    ((breaker.observe states now k).providerAlias, (breaker.observe states now k).modelAlias) =
      k := by
  unfold CircuitBreaker.observe
  split
  · rfl
  · split
    · rfl
    · split <;> rfl

omit [LLMProvider π] in
/-- **What `snapshot` does at one instant**: it reports a circuit open exactly where
    `permit` would refuse, and changes nothing. -/
theorem snapshot_alone {breaker : CircuitBreaker} {states : CircuitStates} {now : Time}
    {known : List ProviderKey} :
    ∃ observations, (breaker.snapshot known : CircuitTask π Q R _).alone states now =
        some (.ok observations, states) ∧
      ∀ k, (∃ o ∈ observations, (o.providerAlias, o.modelAlias) = k ∧ o.state = .opened) ↔
        ∃ opened, openedAt states k = some opened ∧ now - opened < breaker.recoverySeconds := by
  let keys := (known ++ states.map Prod.fst).dedup.mergeSort CircuitBreaker.keyLe
  have hkeys : ∀ k, openedAt states k ≠ none → k ∈ keys := by
    intro k hopen
    rw [List.mem_mergeSort, List.mem_dedup, List.mem_append]
    right
    by_contra hnot
    have hnone := item?_eq_none.mpr hnot
    simp [openedAt, stateOf, hnone, CircuitState.fresh] at hopen
  refine ⟨keys.map (breaker.observe states now), rfl, fun k => ⟨?_, ?_⟩⟩
  · rintro ⟨o, ho, hkey, hstate⟩
    obtain ⟨k', -, rfl⟩ := List.mem_map.mp ho
    rw [observe_key] at hkey
    subst hkey
    exact observe_state.mp hstate
  · rintro ⟨opened, hopen, hwindow⟩
    refine ⟨_, List.mem_map_of_mem (hkeys k (by simp [hopen])), observe_key, ?_⟩
    exact observe_state.mpr ⟨opened, hopen, hwindow⟩

theorem snapshot_quiet {known : List ProviderKey} :
    ((ResilienceCall.snapshot known : ResilienceCall π Q).coroutine executor :
      CircuitTask π Q R (ResilienceOutcome R)).Quiet := by
  intro now states
  trivial

/-! ## 4. Every run -/

variable {clock : Time} {turns : List (Turn (Except Failure R) (ResilienceCall π Q) ι)}
  {w : EventLoop CircuitStates Unit (ProviderCall π Q) (Except Failure R) CircuitNote Failure
    (ResilienceOutcome R) (ResilienceCall π Q) ι}

omit [DecidableEq ι] in
theorem shielding_start {breaker : CircuitBreaker} :
    Shielding breaker (⟨[], clock, []⟩ : CircuitMoment π Q R ι) where
  past e he := absurd he List.not_mem_nil
  shut A B opening k t hlog := by simp at hlog
  shielded A B C opening call k t r hlog := by simp at hlog

/-- **A provider is shielded while its circuit recovers.** In every run of any number of
    `generate` and `snapshot` calls: no call of a provider starts between an opening of its
    circuit and the end of its window unless a call that had been made before the opening
    reports success in between; every `generate` makes its calls within its bounds, those
    of the fallback after every attempt at the primary provider has failed; at every
    instant `snapshot` reports a circuit open exactly where `permit` would refuse; and no
    turn of a `snapshot` changes what a later `permit` sees. -/
theorem circuit_shields_providers
    (hrun : EventLoop.Interleaving (ResilienceCall.coroutine executor) [] clock turns w) :
    Shielded executor.circuit w.log ∧
    (∀ i primary request fallback,
      (w.tasks i).call? = some (.generate primary request fallback) →
        CallsBounded executor primary request fallback (traffic i w.toMoment)) ∧
    (∀ known now, ∃ observations,
      (executor.circuit.snapshot known : CircuitTask π Q R _).alone w.store now =
        some (.ok observations, w.store) ∧
      ∀ provider : π,
        (∃ o ∈ observations, (o.providerAlias, o.modelAlias) = key provider ∧
          o.state = .opened) ↔
        ∃ states, (executor.circuit.permit provider : CircuitTask π Q R Unit).alone w.store now =
          some (.error circuitOpenError, states)) ∧
    ∀ l w' known, EventLoop.turn (ResilienceCall.coroutine executor) w l = some w' →
      (w'.tasks l.author).call? = some (.snapshot known) → w'.store = w.store := by
  have hsound := Discipline.sound_of_run (D := circuitDiscipline executor) shielding_start
    (fun i call v => obeys_coroutine call)
    (Discipline.admitted_of_run (fun _ _ => trivial) hrun)
  refine ⟨hsound.always.shielded, fun i primary request fallback hcall => hsound.own hcall, ?_, ?_⟩
  · intro known now
    obtain ⟨observations, halone, hiff⟩ :
        ∃ observations, (executor.circuit.snapshot known : CircuitTask π Q R _).alone w.store now =
          some (.ok observations, w.store) ∧ ∀ k, _ ↔ _ := snapshot_alone
    refine ⟨observations, halone, fun provider => ?_⟩
    rw [hiff, permit_alone]
  · exact fun l w' known hturn hcall => Coroutine.store_of_quiet hrun hturn hcall snapshot_quiet

/-- One attempt, and a circuit that opens at the first failure. -/
def onceOpen : ResilientProviderExecutor := ⟨1, ⟨1, 60⟩⟩

/-- A provider fails, its circuit opens, the fallback answers; the next call goes to the
    fallback at once. -/
def twoCalls : List (Turn (Except Failure Nat) (ResilienceCall ProviderKey Unit) Nat) :=
  [.begin 0 (.generate ("openai", "large") () (some ("anthropic", "large"))) [0], .resume 0 [],
    .answer 0 (.error .timeout) [30], .resume 0 [31], .resume 0 [],
    .begin 1 (.generate ("openai", "large") () (some ("anthropic", "large"))) [40], .resume 1 [],
    .resume 1 []]

theorem circuit_shields_providers_sample :
    ∃ w : EventLoop CircuitStates Unit (ProviderCall ProviderKey Unit) (Except Failure Nat)
        CircuitNote Failure (ResilienceOutcome Nat) (ResilienceCall ProviderKey Unit) Nat,
      (w.log.filterMap callOf).map (fun r => (r.leg, r.provider)) =
        [(.primary, ("openai", "large")), (.fallback, ("anthropic", "large")),
          (.fallback, ("anthropic", "large"))] ∧ Shielded onceOpen.circuit w.log := by
  have hrun : ∃ w : EventLoop CircuitStates Unit (ProviderCall ProviderKey Unit)
        (Except Failure Nat) CircuitNote Failure (ResilienceOutcome Nat)
        (ResilienceCall ProviderKey Unit) Nat,
      twoCalls.foldlM (EventLoop.turn (ResilienceCall.coroutine onceOpen)) (.start [] 0) = some w ∧
        (w.log.filterMap callOf).map (fun r => (r.leg, r.provider)) =
          [(.primary, ("openai", "large")), (.fallback, ("anthropic", "large")),
            (.fallback, ("anthropic", "large"))] := by
    rw [← Option.map_eq_some_iff]
    decide +kernel
  obtain ⟨w, hrun, hcalls⟩ := hrun
  exact ⟨w, hcalls, (circuit_shields_providers (run_of_foldlM hrun)).1⟩

end Helpdesk.Ai
