/-
  File:      Helpdesk/Ai/Circuit.lean
  Subject:   What the circuit breaker keeps away from a provider, and how often a provider
             is called.

  A log is split where a circuit opens: `A`, the opening, what follows. A provider that
  reports success after it was called in `A` closes the circuit; nothing else does before
  the recovery window ends.

  * `Shielding`: of every opening of the log, either such a success followed, or the
    circuit is open since then or later, or the window is over. It is the invariant, and
    every method of the breaker is a lemma about it (`meets_permit`, `meets_failure`,
    `meets_success`);
  * `Asked`: a call that waits for its provider had been permitted: of every opening
    before it such a success had followed, or the window was over.
-/
import Helpdesk.Ai.Resilience
import Mathlib.Tactic.Linarith

namespace Helpdesk.Ai

open Helpdesk.Python Helpdesk.Coroutines

variable {π Q R ι : Type}

/-! ## 1. Calls and answers in the log -/

abbrev CircuitMark (π Q R : Type) :=
  Mark (ResilienceCall π Q) (ProviderCall π Q) (Except Failure R) CircuitNote Failure
    (ResilienceOutcome R)

abbrev CircuitEntry (π Q R ι : Type) := Entry ι (CircuitMark π Q R)

abbrev CircuitMoment (π Q R ι : Type) := Moment CircuitStates ι (CircuitMark π Q R)

/-- The call of a provider that an entry is the start of. -/
def callOf (e : CircuitEntry π Q R ι) : Option (ProviderCall π Q) :=
  match e.mark with
  | .called r => some r
  | _ => none

/-- A call, or what a provider answered to it. -/
def trafficOf (e : CircuitEntry π Q R ι) : Option (ProviderCall π Q × Option (Except Failure R)) :=
  match e.mark with
  | .called r => some (r, none)
  | .answered r a _ => some (r, some a)
  | _ => none

section Traffic

variable [DecidableEq ι] {i : ι} {v v' : CircuitMoment π Q R ι} {r : ProviderCall π Q}

/-- What one call and its providers said to each other. -/
def traffic (i : ι) (v : CircuitMoment π Q R ι) :
    List (ProviderCall π Q × Option (Except Failure R)) :=
  (v.own i).filterMap trafficOf

@[simp] theorem traffic_pass {t : Time} : traffic i (v.pass t) = traffic i v := rfl

@[simp] theorem traffic_put {f : CircuitStates → CircuitStates} :
    traffic i (v.put f) = traffic i v := rfl

/-- An entry that is no call and no answer. -/
theorem traffic_silent {mark : CircuitMark π Q R} (h : trafficOf ⟨i, v.clock, mark⟩ = none) :
    traffic i (v.add i mark) = traffic i v := by
  simp [traffic, h]

@[simp] theorem traffic_noted {m : CircuitNote} :
    traffic i (v.add i (.noted m)) = traffic i v :=
  traffic_silent rfl

@[simp] theorem traffic_called :
    traffic i (v.add i (.called r)) = traffic i v ++ [(r, none)] := by
  simp [traffic, trafficOf]

@[simp] theorem traffic_answered {a : Except Failure R} {since : Time} :
    traffic i (v.add i (.answered r a since)) = traffic i v ++ [(r, some a)] := by
  simp [traffic, trafficOf]

theorem traffic_follows (h : Moment.Follows i v v') : traffic i v' = traffic i v := by
  rw [traffic, h.own, traffic]

end Traffic

/-! ## 2. Openings in the log -/

variable [LLMProvider π]

/-- The last provider that `i` called in this part of the log. -/
def LastCall (i : ι) (r : ProviderCall π Q) (log : List (CircuitEntry π Q R ι)) : Prop :=
  ∃ front t back, log = front ++ ⟨i, t, .called r⟩ :: back ∧
    ∀ e ∈ back, e.author = i → callOf e = none

/-- **In `B` a provider reports success that had been called in `A`.** -/
def SucceededFrom (k : ProviderKey) (A B : List (CircuitEntry π Q R ι)) : Prop :=
  ∃ front i t back r, B = front ++ ⟨i, t, .noted (.succeeded k)⟩ :: back ∧
    LastCall i r A ∧ key r.provider = k ∧ ∀ e ∈ front, e.author = i → callOf e = none

/-- **No provider is called between an opening and the end of its window**, unless one
    that had been called before the opening reports success in between. -/
def Shielded (breaker : CircuitBreaker) (log : List (CircuitEntry π Q R ι)) : Prop :=
  ∀ A B C opening call k openedAt r, log = A ++ opening :: (B ++ call :: C) →
    opening.mark = .noted (.opened k openedAt) → call.mark = .called r → key r.provider = k →
    call.time < openedAt + breaker.recoverySeconds → SucceededFrom k A B

theorem SucceededFrom.append {k : ProviderKey} {A B : List (CircuitEntry π Q R ι)}
    (h : SucceededFrom k A B) (C : List (CircuitEntry π Q R ι)) : SucceededFrom k A (B ++ C) := by
  obtain ⟨front, i, t, back, r, rfl, hlast, hkey, hfront⟩ := h
  exact ⟨front, i, t, back ++ C, r, by simp, hlast, hkey, hfront⟩

/-- Where a log with one more entry is split. -/
theorem concat_eq_append_cons {α : Type} {log A B : List α} {x e : α}
    (h : log ++ [x] = A ++ e :: B) :
    (B = [] ∧ A = log ∧ e = x) ∨ ∃ B', B = B' ++ [x] ∧ log = A ++ e :: B' := by
  rcases List.eq_nil_or_concat B with rfl | ⟨B', y, rfl⟩
  · obtain ⟨rfl, heq⟩ := List.append_inj' h rfl
    exact .inl ⟨rfl, rfl, (List.singleton_inj.mp heq).symm⟩
  · rw [List.concat_eq_append, ← List.cons_append, ← List.append_assoc] at h
    obtain ⟨hlog, heq⟩ := List.append_inj' h rfl
    obtain rfl := List.singleton_inj.mp heq
    exact .inr ⟨B', List.concat_eq_append, hlog⟩

/-! ## 3. The invariant of the breaker -/

/-- When the circuit of a provider was opened. -/
def openedAt (states : CircuitStates) (k : ProviderKey) : Option Time := (stateOf states k).openedAt

@[simp] theorem stateOf_assign {states : CircuitStates} {k k' : ProviderKey} {state : CircuitState} :
    stateOf (assign states k' state) k = if k' = k then state else stateOf states k := by
  unfold stateOf
  rw [item?_assign]
  split <;> rfl

@[simp] theorem stateOf_setDefault {states : CircuitStates} {k k' : ProviderKey} :
    stateOf (setDefault states k') k = stateOf states k := by
  unfold setDefault
  split
  · rfl
  · next hnone =>
      rw [stateOf_assign]
      split
      · next heq =>
          subst heq
          simp [stateOf, hnone]
      · rfl

/-- Of every opening in this part of the log a success followed, or its window is over. -/
def Recovered (breaker : CircuitBreaker) (k : ProviderKey) (log : List (CircuitEntry π Q R ι))
    (clock : Time) : Prop :=
  ∀ A B opening openedAt, log = A ++ opening :: B → opening.mark = .noted (.opened k openedAt) →
    SucceededFrom k A B ∨ openedAt + breaker.recoverySeconds ≤ clock

/-- **The invariant of the breaker.** -/
structure Shielding (breaker : CircuitBreaker) (v : CircuitMoment π Q R ι) : Prop where
  past : ∀ e ∈ v.log, ∀ k t, e.mark = .noted (.opened k t) → t ≤ v.clock
  shut : ∀ A B opening k t, v.log = A ++ opening :: B → opening.mark = .noted (.opened k t) →
    SucceededFrom k A B ∨ (∃ t', t ≤ t' ∧ openedAt v.store k = some t') ∨
      t + breaker.recoverySeconds ≤ v.clock
  shielded : Shielded breaker v.log

variable {breaker : CircuitBreaker} {v v' : CircuitMoment π Q R ι} {i : ι} {k : ProviderKey}
  {r : ProviderCall π Q}

theorem Shielding.pass (h : Shielding breaker v) {t : Time} (ht : v.clock ≤ t) :
    Shielding breaker (v.pass t) where
  past e he k t' hmark := (h.past e he k t' hmark).trans ht
  shut A B opening k t' hlog hmark := by
    rcases h.shut A B opening k t' hlog hmark with hsucceeded | hopen | hover
    · exact .inl hsucceeded
    · exact .inr (.inl hopen)
    · exact .inr (.inr (hover.trans ht))
  shielded := h.shielded

/-- What the state of a circuit may become. -/
theorem Shielding.put (h : Shielding breaker v) {f : CircuitStates → CircuitStates}
    (hput : ∀ k, openedAt (f v.store) k = openedAt v.store k ∨
      openedAt (f v.store) k = some v.clock ∨ Recovered breaker k v.log v.clock) :
    Shielding breaker (v.put f) where
  past := h.past
  shut A B opening k t hlog hmark := by
    have hmem : opening ∈ v.log := by
      rw [show v.log = A ++ opening :: B from hlog]
      simp
    rcases hput k with hsame | hnow | hrecovered
    · rw [Moment.put_store, hsame]
      exact h.shut A B opening k t hlog hmark
    · exact .inr (.inl ⟨v.clock, h.past opening hmem k t hmark, hnow⟩)
    · rcases hrecovered A B opening t hlog hmark with hsucceeded | hover
      · exact .inl hsucceeded
      · exact .inr (.inr hover)
  shielded := h.shielded

/-- An entry that opens no circuit and is no call. -/
theorem Shielding.add (h : Shielding breaker v) {mark : CircuitMark π Q R}
    (hopened : ∀ k t, mark ≠ .noted (.opened k t)) (hcalled : ∀ r, mark ≠ .called r) :
    Shielding breaker (v.add i mark) where
  past e he k t hmark := by
    rcases List.mem_append.mp he with hmem | hmem
    · exact h.past e hmem k t hmark
    · obtain rfl := List.mem_singleton.mp hmem
      exact (hopened k t hmark).elim
  shut A B opening k t hlog hmark := by
    rcases concat_eq_append_cons hlog with ⟨-, -, rfl⟩ | ⟨B', rfl, hlog'⟩
    · exact (hopened k t hmark).elim
    · rcases h.shut A B' opening k t hlog' hmark with hsucceeded | hrest
      · exact .inl (hsucceeded.append _)
      · exact .inr hrest
  shielded A B C opening call k t r hlog hopening hcall hkey htime := by
    rw [← List.cons_append, ← List.append_assoc] at hlog
    rcases concat_eq_append_cons hlog with ⟨-, -, rfl⟩ | ⟨C', rfl, hlog'⟩
    · exact (hcalled r hcall).elim
    · rw [List.append_assoc] at hlog'
      exact h.shielded A B C' opening call k t r hlog' hopening hcall hkey htime

/-- A circuit opens now. -/
theorem Shielding.add_opened (h : Shielding breaker v)
    (hopen : openedAt v.store k = some v.clock) :
    Shielding breaker (v.add i (.noted (.opened k v.clock))) where
  past e he k t hmark := by
    rcases List.mem_append.mp he with hmem | hmem
    · exact h.past e hmem k t hmark
    · obtain rfl := List.mem_singleton.mp hmem
      cases hmark
      exact le_refl _
  shut A B opening k t hlog hmark := by
    rcases concat_eq_append_cons hlog with ⟨-, -, rfl⟩ | ⟨B', rfl, hlog'⟩
    · cases hmark
      exact .inr (.inl ⟨v.clock, le_refl _, hopen⟩)
    · rcases h.shut A B' opening k t hlog' hmark with hsucceeded | hrest
      · exact .inl (hsucceeded.append _)
      · exact .inr hrest
  shielded A B C opening call k t r hlog hopening hcall hkey htime := by
    rw [← List.cons_append, ← List.append_assoc] at hlog
    rcases concat_eq_append_cons hlog with ⟨-, -, rfl⟩ | ⟨C', rfl, hlog'⟩
    · cases hcall
    · rw [List.append_assoc] at hlog'
      exact h.shielded A B C' opening call k t r hlog' hopening hcall hkey htime

/-- A provider is called that is permitted. -/
theorem Shielding.add_called (h : Shielding breaker v)
    (hrecovered : Recovered breaker (key r.provider) v.log v.clock) :
    Shielding breaker (v.add i (.called r)) where
  past e he k t hmark := by
    rcases List.mem_append.mp he with hmem | hmem
    · exact h.past e hmem k t hmark
    · obtain rfl := List.mem_singleton.mp hmem
      cases hmark
  shut A B opening k t hlog hmark := by
    rcases concat_eq_append_cons hlog with ⟨-, -, rfl⟩ | ⟨B', rfl, hlog'⟩
    · cases hmark
    · rcases h.shut A B' opening k t hlog' hmark with hsucceeded | hrest
      · exact .inl (hsucceeded.append _)
      · exact .inr hrest
  shielded A B C opening call k t r' hlog hopening hcall hkey htime := by
    rw [← List.cons_append, ← List.append_assoc] at hlog
    rcases concat_eq_append_cons hlog with ⟨-, hA, rfl⟩ | ⟨C', rfl, hlog'⟩
    · -- the new call: its opening is one of those the permission was about
      cases hcall
      subst hkey
      rcases hrecovered A B opening t hA.symm hopening with hsucceeded | hover
      · exact hsucceeded
      · exact absurd hover (not_le.mpr htime)
    · rw [List.append_assoc] at hlog'
      exact h.shielded A B C' opening call k t r' hlog' hopening hcall hkey htime

/-! ## 4. A call that waits for its provider -/

/-- **Call `i` waits for a provider that was permitted**, or has just been answered. -/
def Asked (breaker : CircuitBreaker) (i : ι) (r : ProviderCall π Q) (v : CircuitMoment π Q R ι) :
    Prop :=
  ∃ front t back, v.log = front ++ ⟨i, t, .called r⟩ :: back ∧
    (∀ e ∈ back, e.author = i → callOf e = none) ∧
    Recovered breaker (key r.provider) front v.clock

theorem Recovered.mono {log : List (CircuitEntry π Q R ι)} {clock clock' : Time}
    (h : Recovered breaker k log clock) (hclock : clock ≤ clock') :
    Recovered breaker k log clock' := by
  intro A B opening t hlog hmark
  exact (h A B opening t hlog hmark).imp_right fun hover => hover.trans hclock

theorem asked_of_called (h : Recovered breaker (key r.provider) v.log v.clock) :
    Asked breaker i r (v.add i (.called r)) :=
  ⟨v.log, v.clock, [], rfl, by simp, h⟩

theorem Asked.extends {P : ι → Prop} (h : Asked breaker i r v) (hv : Moment.Extends P v v')
    (hback : ∀ entries, v'.log = v.log ++ entries → ∀ e ∈ entries, e.author = i → callOf e = none) :
    Asked breaker i r v' := by
  obtain ⟨front, t, back, hlog, hsilent, hrecovered⟩ := h
  obtain ⟨hclock, entries, hlog', -⟩ := hv
  refine ⟨front, t, back ++ entries, by simp [hlog', hlog], fun e he => ?_, hrecovered.mono hclock⟩
  rcases List.mem_append.mp he with hmem | hmem
  · exact hsilent e hmem
  · exact hback entries hlog' e hmem

theorem Asked.follows (h : Asked breaker i r v) (hv : Moment.Follows i v v') :
    Asked breaker i r v' := by
  obtain ⟨hclock, entries, hlog, hentries⟩ := hv
  refine h.extends (P := (· ≠ i)) ⟨hclock, entries, hlog, hentries⟩ fun entries' hlog' e he hauthor => ?_
  obtain rfl : entries = entries' := List.append_cancel_left (hlog.symm.trans hlog')
  exact (hentries e he hauthor).elim

theorem Asked.add {mark : CircuitMark π Q R} (h : Asked breaker i r v)
    (hmark : ∀ r, mark ≠ .called r) : Asked breaker i r (v.add i mark) := by
  refine h.extends (Moment.extends_add (P := fun _ => True) trivial) fun entries hlog e he _ => ?_
  obtain rfl : [_] = entries := List.append_cancel_left hlog
  obtain rfl := List.mem_singleton.mp he
  cases mark with
  | called r' => exact (hmark r' rfl).elim
  | _ => rfl

/-- **A provider that was permitted reports success**: of every opening so far a success
    followed, or its window is over. -/
theorem Asked.recovered (h : Asked breaker i r v) :
    Recovered breaker (key r.provider)
      (v.add i (.noted (.succeeded (key r.provider)))).log v.clock := by
  obtain ⟨front, t, back, hlog, hsilent, hrecovered⟩ := h
  intro A B opening t' hsplit hmark
  rcases concat_eq_append_cons hsplit with ⟨-, -, rfl⟩ | ⟨B', rfl, hlog'⟩
  · cases hmark
  · -- the opening stands before the call or after it
    have hboth : front ++ ⟨i, t, .called r⟩ :: back = A ++ opening :: B' := hlog.symm.trans hlog'
    rcases List.append_eq_append_iff.mp hboth with ⟨mid, hA, hmid⟩ | ⟨mid, hfront, hmid⟩
    · cases mid with
      | nil =>
          simp only [List.nil_append, List.cons.injEq] at hmid
          obtain ⟨rfl, -⟩ := hmid
          cases hmark
      | cons e mid =>
          -- the call had been made when the circuit opened
          simp only [List.cons_append, List.cons.injEq] at hmid
          obtain ⟨rfl, hback⟩ := hmid
          left
          refine ⟨B', i, v.clock, [], r, rfl, ⟨front, t, mid, hA, fun e he => ?_⟩, rfl,
            fun e he => ?_⟩
          · exact hsilent e (by rw [hback]; exact List.mem_append_left _ he)
          · exact hsilent e (by rw [hback]; simp [he])
    · cases mid with
      | nil =>
          simp only [List.nil_append, List.cons.injEq] at hmid
          obtain ⟨rfl, -⟩ := hmid
          cases hmark
      | cons e mid =>
          -- the call was made after it, when the circuit had recovered
          simp only [List.cons_append, List.cons.injEq] at hmid
          obtain ⟨rfl, hB⟩ := hmid
          rcases hrecovered A mid opening t' hfront hmark with hsucceeded | hover
          · left
            rw [hB, List.append_assoc]
            exact hsucceeded.append _
          · exact .inr hover

/-! ## 5. The methods of the breaker -/

section Methods

variable [DecidableEq ι] {keeps : CircuitMoment π Q R ι → Prop} {admits : ProviderCall π Q → Except Failure R → Prop}
  {post : CircuitMoment π Q R ι → Unit → Prop} {raises : CircuitMoment π Q R ι → Failure → Prop}
  {provider : π}

/-- **`permit`** returns where every opening of the circuit is behind. -/
theorem meets_permit (hkeeps : keeps v)
    (hpost : ∀ v', traffic i v' = traffic i v → Shielding breaker v' →
      Recovered breaker (key provider) v'.log v'.clock → post v' ())
    (hraises : ∀ v', traffic i v' = traffic i v → Shielding breaker v' → raises v' circuitOpenError) :
    (breaker.permit provider : CircuitTask π Q R Unit).Meets (Shielding breaker) keeps admits i
      post raises v := by
  simp only [CircuitBreaker.permit, Coroutine.meets_withLock, Coroutine.meets_bind,
    Coroutine.meets_modify, Coroutine.meets_get]
  refine ⟨hkeeps, fun v₁ hfollows hshielding => ?_⟩
  have htraffic : traffic i v₁ = traffic i v := traffic_follows hfollows
  have hset : Shielding breaker (v₁.put fun states => setDefault states (key provider)) :=
    hshielding.put fun k => .inl (by simp [openedAt])
  split
  · next hclosed =>
      refine hpost _ htraffic hset fun A B opening t hlog hmark => ?_
      have hshut := hset.shut A B opening (key provider) t hlog hmark
      rw [openedAt, hclosed] at hshut
      simpa using hshut
  · next t₀ hopen =>
      rw [Coroutine.meets_bind, Coroutine.meets_readClock]
      intro now hnow
      have hpass := hset.pass hnow
      split
      · exact hraises _ htraffic hpass
      · next hwindow =>
          -- the circuit was open, and its window is over
          have hrecovered : Recovered breaker (key provider) v₁.log now := by
            intro A B opening t hlog hmark
            have hshut := hset.shut A B opening (key provider) t hlog hmark
            rw [openedAt, hopen] at hshut
            rcases hshut with hsucceeded | ⟨t', ht', heq⟩ | hover
            · exact .inl hsucceeded
            · obtain rfl := Option.some.inj heq
              refine .inr ?_
              linarith
            · exact .inr (hover.trans hnow)
          refine hpost _ htraffic (hpass.put fun k => ?_) hrecovered
          by_cases hk : key provider = k
          · subst hk
            exact .inr (.inr hrecovered)
          · exact .inl (by simp [openedAt, hk])

/-- **`failure`** opens the circuit now, or leaves it as it was. -/
theorem meets_failure (hkeeps : keeps v)
    (hpost : ∀ v', traffic i v' = traffic i v → Shielding breaker v' → post v' ()) :
    (breaker.failure provider : CircuitTask π Q R Unit).Meets (Shielding breaker) keeps admits i
      post raises v := by
  simp only [CircuitBreaker.failure, Coroutine.meets_withLock, Coroutine.meets_bind,
    Coroutine.meets_modify, Coroutine.meets_get]
  refine ⟨hkeeps, fun v₁ hfollows hshielding => ?_⟩
  have htraffic : traffic i v₁ = traffic i v := traffic_follows hfollows
  have hset : Shielding breaker (v₁.put fun states => setDefault states (key provider)) :=
    hshielding.put fun k => .inl (by simp [openedAt])
  have hcounted : Shielding breaker
      ((v₁.put fun states => setDefault states (key provider)).put fun states =>
        let state := stateOf states (key provider)
        assign states (key provider) { state with failures := state.failures + 1 }) := by
    refine hset.put fun k => .inl ?_
    by_cases hk : key provider = k <;> simp [openedAt, hk]
  split
  · rw [Coroutine.meets_bind, Coroutine.meets_readClock]
    intro now hnow
    rw [Coroutine.meets_bind, Coroutine.meets_modify, Coroutine.meets_record]
    refine hpost _ (by simpa using htraffic) ?_
    refine Shielding.add_opened (v := Moment.put _ _) ?_ (by simp [openedAt])
    refine (hcounted.pass hnow).put fun k => ?_
    by_cases hk : key provider = k
    · exact .inr (.inl (by simp [openedAt, hk]))
    · exact .inl (by simp [openedAt, hk])
  · exact hpost _ htraffic hcounted

/-- **`success`** of a provider that was permitted closes the circuit. -/
theorem meets_success (hkeeps : keeps v) (hasked : Asked breaker i r v)
    (hpost : ∀ v', traffic i v' = traffic i v → Shielding breaker v' → post v' ()) :
    (CircuitBreaker.success r.provider : CircuitTask π Q R Unit).Meets (Shielding breaker) keeps
      admits i post raises v := by
  simp only [CircuitBreaker.success, Coroutine.meets_withLock, Coroutine.meets_bind,
    Coroutine.meets_modify, Coroutine.meets_record]
  refine ⟨hkeeps, fun v₁ hfollows hshielding => ?_⟩
  refine hpost _ (by simpa using traffic_follows hfollows) ?_
  -- the note first: the circuit closes where every opening is behind
  have hadd : Shielding breaker (v₁.add i (.noted (.succeeded (key r.provider)))) :=
    hshielding.add (by simp) (by simp)
  refine hadd.put (f := fun states => assign states (key r.provider) .fresh) fun k => ?_
  by_cases hk : key r.provider = k
  · subst hk
    exact .inr (.inr (hasked.follows hfollows).recovered)
  · exact .inl (by simp [openedAt, hk])

omit [DecidableEq ι] in
/-- `snapshot` changes nothing. -/
theorem meets_snapshot {known : List ProviderKey} (hkeeps : keeps v)
    {post : CircuitMoment π Q R ι → List CircuitObservation → Prop}
    (hpost : ∀ v' observations, Shielding breaker v' → post v' observations) :
    (breaker.snapshot known : CircuitTask π Q R _).Meets (Shielding breaker) keeps admits i
      post raises v := by
  simp only [CircuitBreaker.snapshot, Coroutine.meets_withLock, Coroutine.meets_bind,
    Coroutine.meets_readClock, Coroutine.meets_get, Coroutine.meets_pure]
  exact ⟨hkeeps, fun v₁ _ hshielding now hnow => hpost _ _ (hshielding.pass hnow)⟩

end Methods

end Helpdesk.Ai
