/-
  File:      Helpdesk/Lib/Fallible.lean
  Subject:   Taking a fallible computation apart.

  A computation that raises is an `Except` that ends in `.error`. The lemmas
  here peel a computation that ended in `.ok` into the steps it is made of, so
  that no proof about a service unfolds `Except` itself:

  * `bind_eq_ok`: an `.ok` of `x >>= f` is an `.ok` of `x` and one of `f`;
  * `guard_eq_ok`: a check that raises under a condition passed;
  * `mapM_pointwise`: a loop over rows that ended in `.ok` handled every row
    with an `.ok` of its own, in the same order;
  * `Transaction`: a computation that also reads and writes a state, with the
    same lemmas about its `run`;
  * `Transaction.Respects`: every state a transaction can end in is related to the
    one it began in, proved step by step;
  * `Service`: transactions one after the other, of which a later failure undoes
    nothing.
-/
import Mathlib.Data.List.Forall2
import Mathlib.Tactic.Common

namespace Helpdesk

variable {ε α β γ : Type}

theorem bind_eq_ok {x : Except ε α} {f : α → Except ε β} {b : β} :
    (x >>= f) = .ok b ↔ ∃ a, x = .ok a ∧ f a = .ok b := by
  cases x <;> simp [Bind.bind, Except.bind]

theorem bind_eq_error {x : Except ε α} {f : α → Except ε β} {e : ε} :
    (x >>= f) = .error e ↔ x = .error e ∨ ∃ a, x = .ok a ∧ f a = .error e := by
  cases x <;> simp [Bind.bind, Except.bind]

/-- What fails before a difference, fails on both sides of it. -/
theorem bind_error_mono {x : Except ε α} {f : α → Except ε β} {g : α → Except ε γ} {e : ε}
    (h : (x >>= f) = .error e) (hfg : ∀ a, x = .ok a → f a = .error e → g a = .error e) :
    (x >>= g) = .error e := by
  rcases bind_eq_error.mp h with hx | ⟨a, hx, hf⟩
  · exact bind_eq_error.mpr (.inl hx)
  · exact bind_eq_error.mpr (.inr ⟨a, hx, hfg a hx hf⟩)

theorem pure_eq_ok {a b : α} : (pure a : Except ε α) = .ok b ↔ a = b := by
  simp [pure, Except.pure]

theorem map_eq_ok {x : Except ε α} {f : α → β} {b : β} :
    (f <$> x) = .ok b ↔ ∃ a, x = .ok a ∧ f a = b := by
  cases x <;> simp [Functor.map, Except.map]

theorem throw_ne_ok {e : ε} {a : α} : (throw e : Except ε α) = .ok a ↔ False := by
  simp [throw, throwThe, MonadExceptOf.throw]

/-- **A guard that raises under `c` passed**: the condition is false, and the
    rest of the computation ended in `.ok`. -/
theorem guard_eq_ok {c : Prop} [Decidable c] {e : ε} {x : Except ε α} {a : α} :
    (if c then throw e else x) = .ok a ↔ ¬ c ∧ x = .ok a := by
  by_cases h : c <;> simp [h, throw_ne_ok]

/-- A loop of checks that succeeds has passed them all. -/
theorem checked_of_forM {f : α → Except ε PUnit} {u : PUnit} :
    ∀ {xs : List α}, xs.forM f = .ok u → ∀ x ∈ xs, f x = .ok ()
  | [], _ => fun _ hx => absurd hx List.not_mem_nil
  | x :: xs, h => by
      rw [List.forM_eq_forM, List.forM_cons, bind_eq_ok] at h
      obtain ⟨_, hx, hxs⟩ := h
      exact List.forall_mem_cons.mpr ⟨hx, checked_of_forM hxs⟩

/-- **A loop over rows, row by row**: when the loop ends in `.ok`, the results
    stand in the order of the rows, each the `.ok` of its own row. -/
theorem mapM_pointwise {f : α → Except ε β} :
    ∀ {xs : List α} {ys : List β}, xs.mapM f = .ok ys → List.Forall₂ (fun x y => f x = .ok y) xs ys
  | [], ys, h => by
      rw [List.mapM_nil, pure_eq_ok] at h
      subst h
      exact .nil
  | x :: xs, ys, h => by
      rw [List.mapM_cons, bind_eq_ok] at h
      obtain ⟨y, hy, h⟩ := h
      rw [bind_eq_ok] at h
      obtain ⟨ys', hys, h⟩ := h
      rw [pure_eq_ok] at h
      subst h
      exact .cons hy (mapM_pointwise hys)

/-- The same for rows that may have no result. -/
theorem mapM_option {f : α → Option β} :
    ∀ {xs : List α} {ys : List β},
      xs.mapM f = some ys ↔ List.Forall₂ (fun x y => f x = some y) xs ys
  | [], ys => by
      rw [List.mapM_nil, List.forall₂_nil_left_iff]
      exact ⟨fun h => (Option.some.inj h).symm, fun h => by rw [h]; rfl⟩
  | x :: xs, ys => by
      rw [List.mapM_cons]
      constructor
      · intro h
        obtain ⟨y, hy, h⟩ := Option.bind_eq_some_iff.mp h
        obtain ⟨rest, hrest, h⟩ := Option.bind_eq_some_iff.mp h
        cases h
        exact .cons hy (mapM_option.mp hrest)
      · intro h
        cases h with
        | @cons _ y _ rest hy hrest =>
            rw [hy, mapM_option.mpr hrest]
            rfl

/-- A loop over rows each of which ends in `.ok` does. -/
theorem mapM_ok {f : α → Except ε β} {xs : List α} (h : ∀ x ∈ xs, ∃ y, f x = .ok y) :
    ∃ ys, xs.mapM f = .ok ys := by
  induction xs with
  | nil => exact ⟨[], rfl⟩
  | cons x xs ih =>
      obtain ⟨y, hy⟩ := h x List.mem_cons_self
      obtain ⟨ys, hys⟩ := ih fun x' hx' => h x' (List.mem_cons_of_mem x hx')
      exact ⟨y :: ys, by rw [List.mapM_cons, hy, hys]; rfl⟩

/-- A loop that fails, fails at one of its rows. -/
theorem mapM_error {f : α → Except ε β} {e : ε} :
    ∀ {xs : List α}, xs.mapM f = .error e → ∃ x ∈ xs, f x = .error e
  | [], h => by cases h
  | x :: xs, h => by
      rw [List.mapM_cons] at h
      rcases bind_eq_error.mp h with hx | ⟨y, -, h⟩
      · exact ⟨x, List.mem_cons_self, hx⟩
      · rcases bind_eq_error.mp h with hxs | ⟨ys, -, h⟩
        · obtain ⟨x', hx', hfx'⟩ := mapM_error hxs
          exact ⟨x', List.mem_cons_of_mem x hx', hfx'⟩
        · cases h

theorem mapM_option_ok {f : α → Option β} {xs : List α} (h : ∀ x ∈ xs, ∃ y, f x = some y) :
    ∃ ys, xs.mapM f = some ys := by
  induction xs with
  | nil => exact ⟨[], rfl⟩
  | cons x xs ih =>
      obtain ⟨y, hy⟩ := h x List.mem_cons_self
      obtain ⟨ys, hys⟩ := ih fun x' hx' => h x' (List.mem_cons_of_mem x hx')
      exact ⟨y :: ys, by rw [List.mapM_cons, hy, hys]; rfl⟩

/-- A loop whose every element succeeds, as a list of results. -/
theorem mapM_option_iff_filterMap {f : α → Option β} :
    ∀ {xs : List α} {ys : List β},
      xs.mapM f = some ys ↔ (∀ x ∈ xs, (f x).isSome = true) ∧ ys = xs.filterMap f
  | [], ys => by
      rw [List.mapM_nil]
      exact ⟨fun h => ⟨by simp, (Option.some.inj h).symm⟩, fun h => by rw [h.2]; rfl⟩
  | x :: xs, ys => by
      rw [List.mapM_cons]
      cases hx : f x with
      | none => simp [hx]
      | some y =>
          cases hxs : xs.mapM f with
          | none =>
              have hno : ¬ ∀ x ∈ xs, (f x).isSome = true := by
                intro hall
                have hsome := mapM_option_iff_filterMap.mpr ⟨hall, rfl⟩
                rw [hxs] at hsome
                cases hsome
              constructor
              · intro h
                cases h
              · rintro ⟨hall, -⟩
                exact absurd (fun x' hx' => hall x' (List.mem_cons_of_mem x hx')) hno
          | some zs =>
              obtain ⟨hall, hzs⟩ := mapM_option_iff_filterMap.mp hxs
              rw [List.filterMap_cons_some hx, ← hzs, List.forall_mem_cons, hx]
              exact ⟨fun h => ⟨⟨rfl, hall⟩, (Option.some.inj h).symm⟩, fun h => by rw [h.2]; rfl⟩

/-- What a row of the result was made from. -/
theorem mem_of_forall₂ {R : α → β → Prop} {xs : List α} {ys : List β} (h : List.Forall₂ R xs ys)
    {y : β} (hy : y ∈ ys) : ∃ x ∈ xs, R x y := by
  induction h with
  | nil => exact absurd hy List.not_mem_nil
  | @cons x _ _ _ hxy _ ih =>
      rcases List.mem_cons.mp hy with rfl | hy'
      · exact ⟨x, List.mem_cons_self, hxy⟩
      · obtain ⟨x', hx', hR⟩ := ih hy'
        exact ⟨x', List.mem_cons_of_mem _ hx', hR⟩

/-- Two relations in a row. -/
theorem forall₂_compose {γ : Type} {R : α → β → Prop} {S : β → γ → Prop} {T : α → γ → Prop}
    (hcompose : ∀ x y z, R x y → S y z → T x z) {xs : List α} {ys : List β} {zs : List γ}
    (h : List.Forall₂ R xs ys) (h' : List.Forall₂ S ys zs) : List.Forall₂ T xs zs := by
  induction h generalizing zs with
  | nil =>
      rw [List.forall₂_nil_left_iff.mp h']
      exact .nil
  | @cons x y xs ys hxy _ ih =>
      obtain ⟨z, zs', hyz, hrest, rfl⟩ := List.forall₂_cons_left_iff.mp h'
      exact .cons (hcompose x y z hxy hyz) (ih hrest)

/-! ## Transactions -/

/-- **A transaction**: it reads and writes a state `σ` and may raise an `ε`, and
    then none of its writes remain. -/
abbrev Transaction (σ ε : Type) := StateT σ (Except ε)

namespace Transaction

variable {σ : Type}

theorem bind_eq_ok {x : Transaction σ ε α} {f : α → Transaction σ ε β} {s s'' : σ} {b : β} :
    (x >>= f).run s = .ok (b, s'') ↔
      ∃ a s', x.run s = .ok (a, s') ∧ (f a).run s' = .ok (b, s'') := by
  rw [StateT.run_bind, Helpdesk.bind_eq_ok]
  constructor
  · rintro ⟨⟨a, s'⟩, hx, hf⟩
    exact ⟨a, s', hx, hf⟩
  · rintro ⟨a, s', hx, hf⟩
    exact ⟨(a, s'), hx, hf⟩

/-- What raises is the first part, or the second after the first has ended. -/
theorem bind_eq_error {x : Transaction σ ε α} {f : α → Transaction σ ε β} {s : σ} {e : ε} :
    (x >>= f).run s = .error e ↔
      x.run s = .error e ∨ ∃ a s', x.run s = .ok (a, s') ∧ (f a).run s' = .error e := by
  rw [StateT.run_bind, Helpdesk.bind_eq_error]
  constructor
  · rintro (hx | ⟨⟨a, s'⟩, hx, hf⟩)
    · exact Or.inl hx
    · exact Or.inr ⟨a, s', hx, hf⟩
  · rintro (hx | ⟨a, s', hx, hf⟩)
    · exact Or.inl hx
    · exact Or.inr ⟨(a, s'), hx, hf⟩

theorem pure_eq_ok {s s' : σ} {a b : α} :
    (pure a : Transaction σ ε α).run s = .ok (b, s') ↔ a = b ∧ s = s' := by
  rw [StateT.run_pure, Helpdesk.pure_eq_ok, Prod.mk.injEq]

/-- A computation that does not touch the state. -/
theorem lift_bind_eq_ok {x : Except ε α} {f : α → Transaction σ ε β} {s s' : σ} {b : β} :
    ((liftM x : Transaction σ ε α) >>= f).run s = .ok (b, s') ↔
      ∃ a, x = .ok a ∧ (f a).run s = .ok (b, s') := by
  cases x with
  | error e =>
      constructor
      · intro h
        cases h
      · rintro ⟨_, h, _⟩
        cases h
  | ok a =>
      constructor
      · intro h
        exact ⟨a, rfl, h⟩
      · rintro ⟨_, hx, h⟩
        cases hx
        exact h

theorem ok_bind {a : α} {f : α → Transaction σ ε β} :
    ((liftM (.ok a : Except ε α) : Transaction σ ε α) >>= f) = f a := rfl

theorem get_bind {f : σ → Transaction σ ε α} {s : σ} :
    ((get : Transaction σ ε σ) >>= f).run s = (f s).run s := rfl

theorem set_bind {f : PUnit → Transaction σ ε α} {s t : σ} :
    ((set t : Transaction σ ε PUnit) >>= f).run s = (f ⟨⟩).run t := rfl

theorem set_eq_ok {s s' t : σ} {u : PUnit} :
    (set t : Transaction σ ε PUnit).run s = .ok (u, s') ↔ t = s' := by
  rw [StateT.run_set, Helpdesk.pure_eq_ok, Prod.mk.injEq]
  exact ⟨fun h => h.2, fun h => ⟨rfl, h⟩⟩

theorem modify_eq_ok {f : σ → σ} {s s' : σ} {u : PUnit} :
    (modify f : Transaction σ ε PUnit).run s = .ok (u, s') ↔ f s = s' := by
  rw [StateT.run_modify, Helpdesk.pure_eq_ok, Prod.mk.injEq]
  exact ⟨fun h => h.2, fun h => ⟨rfl, h⟩⟩

theorem throw_ne_ok {e : ε} {s s' : σ} {a : α} :
    (throw e : Transaction σ ε α).run s = .ok (a, s') ↔ False := by
  simp [throw, throwThe, MonadExceptOf.throw, StateT.run, StateT.lift, Bind.bind, Except.bind]

/-- **A guard that raises under `c` passed**, and the transaction went on. -/
theorem guard_eq_ok {c : Prop} [Decidable c] {e : ε} {f : Unit → Transaction σ ε α} {s s' : σ}
    {a : α} : (if c then (throw e >>= f) else f ()).run s = .ok (a, s') ↔
      ¬ c ∧ (f ()).run s = .ok (a, s') := by
  by_cases h : c
  · simp only [h, if_true, not_true, false_and, iff_false]
    intro hok
    rw [bind_eq_ok] at hok
    obtain ⟨_, _, hthrow, _⟩ := hok
    exact throw_ne_ok.mp hthrow
  · simp only [h, if_false, not_false_eq_true, true_and]

/-- A guard that raises under `c` raised, or what follows it did. -/
theorem guard_eq_error {c : Prop} [Decidable c] {e e' : ε} {f : Unit → Transaction σ ε α} {s : σ} :
    (if c then (throw e >>= f) else f ()).run s = .error e' ↔
      (c ∧ e = e') ∨ (¬ c ∧ (f ()).run s = .error e') := by
  have hthrow : ((throw e : Transaction σ ε Unit) >>= f).run s = .error e := rfl
  by_cases h : c
  · simp only [h, if_true, true_and, not_true, false_and, or_false, hthrow, Except.error.injEq]
  · simp only [h, if_false, false_and, not_false_eq_true, true_and, false_or]

theorem set_ne_error {e : ε} {s t : σ} :
    (set t : Transaction σ ε PUnit).run s = .error e ↔ False := by
  simp [StateT.run_set, pure, Except.pure]

theorem modify_ne_error {f : σ → σ} {e : ε} {s : σ} :
    (modify f : Transaction σ ε PUnit).run s = .error e ↔ False := by
  simp [StateT.run_modify, pure, Except.pure]

theorem pure_ne_error {a : α} {e : ε} {s : σ} :
    (pure a : Transaction σ ε α).run s = .error e ↔ False := by
  rw [StateT.run_pure]
  simp [pure, Except.pure]

/-- The errors of a transaction under other names. -/
def mapError {ε' : Type} (f : ε → ε') (x : Transaction σ ε α) : Transaction σ ε' α :=
  fun s => (x.run s).mapError f

theorem mapError_eq_ok {ε' : Type} {f : ε → ε'} {x : Transaction σ ε α} {s s' : σ} {a : α} :
    (x.mapError f).run s = .ok (a, s') ↔ x.run s = .ok (a, s') := by
  change (x.run s).mapError f = .ok (a, s') ↔ _
  cases x.run s <;> simp [Except.mapError]

theorem mapError_eq_error {ε' : Type} {f : ε → ε'} {x : Transaction σ ε α} {s : σ} {e' : ε'} :
    (x.mapError f).run s = .error e' ↔ ∃ e, x.run s = .error e ∧ f e = e' := by
  change (x.run s).mapError f = .error e' ↔ _
  cases x.run s <;> simp [Except.mapError]

/-! ### What a whole transaction respects -/

/-- **The end of a transaction is related to its beginning**, for a relation every
    statement respects. -/
def Respects (R : σ → σ → Prop) (x : Transaction σ ε α) : Prop :=
  ∀ s a s', x.run s = .ok (a, s') → R s s'

namespace Respects

variable {R : σ → σ → Prop} {x : Transaction σ ε α} {f : α → Transaction σ ε β}

theorem bind (htrans : ∀ a b c, R a b → R b c → R a c) (hx : Respects R x)
    (hf : ∀ a, Respects R (f a)) : Respects R (x >>= f) := by
  intro s b s'' h
  obtain ⟨a, s', hxs, hfs⟩ := bind_eq_ok.mp h
  exact htrans _ _ _ (hx _ _ _ hxs) (hf a _ _ _ hfs)

theorem pure (hrefl : ∀ s, R s s) (a : α) : Respects R (Pure.pure a : Transaction σ ε α) := by
  intro s b s' h
  obtain ⟨_, rfl⟩ := pure_eq_ok.mp h
  exact hrefl s

theorem modify {g : σ → σ} (hg : ∀ s, R s (g s)) :
    Respects R (MonadState.modifyGet fun s => (PUnit.unit, g s) : Transaction σ ε PUnit) := by
  intro s u s' h
  obtain rfl := modify_eq_ok.mp h
  exact hg s

/-- A computation that does not touch the state comes first. -/
theorem lift_bind {y : Except ε α} (hf : ∀ a, y = .ok a → Respects R (f a)) :
    Respects R ((liftM y : Transaction σ ε α) >>= f) := by
  intro s b s' h
  obtain ⟨a, hy, hfs⟩ := lift_bind_eq_ok.mp h
  exact hf a hy _ _ _ hfs

/-- The state read first may be any. -/
theorem get_bind {g : σ → Transaction σ ε β} (hg : ∀ s, Respects R (g s)) :
    Respects R ((get : Transaction σ ε σ) >>= g) :=
  fun s b s' h => hg s s b s' h

theorem throw (e : ε) : Respects R (MonadExcept.throw e : Transaction σ ε α) :=
  fun _ _ _ h => (throw_ne_ok.mp h).elim

/-- A guard that raises under `c`, and what follows it. -/
theorem guard {c : Prop} [Decidable c] {e : ε} {g : Unit → Transaction σ ε β}
    (hg : Respects R (g ())) :
    Respects R (if c then ((MonadExcept.throw e : Transaction σ ε Unit) >>= g) else g ()) :=
  fun s b s' h => hg s b s' (guard_eq_ok.mp h).2

/-- A loop respects what its body does. -/
theorem forM (hrefl : ∀ s, R s s) (htrans : ∀ a b c, R a b → R b c → R a c)
    {g : α → Transaction σ ε PUnit} (hg : ∀ a, Respects R (g a)) :
    ∀ xs : List α, Respects R (xs.forM g)
  | [] => Respects.pure hrefl PUnit.unit
  | x :: xs => bind htrans (hg x) fun _ => forM hrefl htrans hg xs

end Respects

end Transaction

/-! ## Services -/

/-- **A service**: transactions one after the other; what was committed stays. -/
abbrev Service (σ ε : Type) := ExceptT ε (StateM σ)

/-- A transaction of its own: its writes are kept, or the state is as it was. -/
def Transaction.commit {σ : Type} (x : Transaction σ ε α) : Service σ ε α := fun s =>
  match x.run s with
  | .ok (a, s') => (.ok a, s')
  | .error e => (.error e, s)

end Helpdesk
