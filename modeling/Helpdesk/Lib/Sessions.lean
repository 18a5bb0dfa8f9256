/-
  File:      Helpdesk/Lib/Sessions.lean
  Subject:   Transactions of many sessions on one store of rows, statement by
             statement.

  A `Program` is a transaction as a sequence of statements; what a statement reads
  decides how it goes on. `next` runs any number of them side by side at READ
  COMMITTED: a lock is held until the transaction ends, a statement sees what is
  committed and its own changes, COMMIT makes the changes of a transaction the
  store's in one step, and a session may be interrupted anywhere. `Program.alone`
  is the meaning of a program nothing runs beside.

  * `Disciplined`: a program reads and changes a row only under the lock of its owner;
  * **`serial_of_run`**: when all programs are, every interleaving has the effect of
    the committed transactions run alone, one after the other, in the order of their
    commits;
  * `entries_of_run`: what a session has committed, read off its state: nothing
    when it failed before its COMMIT.
-/
import Helpdesk.Lib.Fallible
import Helpdesk.Lib.Runs
import Mathlib.Logic.Function.Basic

namespace Helpdesk

/-! ## 1. Stores and programs -/

/-- The committed rows by their keys, and the rows of tables that are only inserted
    into. -/
structure Store (κ : Type) (V : κ → Type) (ρ : Type) where
  row : (k : κ) → V k
  inserted : List ρ

inductive Change (κ : Type) (V : κ → Type) (ρ : Type) where
  | put (k : κ) (value : V k)
  | add (inserted : ρ)

/-- A transaction, statement by statement. -/
inductive Program (κ : Type) (V : κ → Type) (ρ ε α : Type) where
  /-- COMMIT -/
  | done (outcome : α)
  /-- an exception: ROLLBACK -/
  | fail (error : ε)
  /-- SELECT ... FOR UPDATE -/
  | lock (k : κ) (rest : V k → Program κ V ρ ε α)
  /-- SELECT of a row that belongs to a locked one -/
  | read (k : κ) (rest : V k → Program κ V ρ ε α)
  /-- SELECT of a row under no lock; all that comes of it is an exception -/
  | peek (k : κ) (check : V k → Except ε Unit) (rest : Program κ V ρ ε α)
  /-- UPDATE of a locked row, INSERT -/
  | change (c : Change κ V ρ) (rest : Program κ V ρ ε α)

variable {κ : Type} {V : κ → Type} {ρ ε α β γ ι : Type}

namespace Program

def bind (p : Program κ V ρ ε α) (f : α → Program κ V ρ ε β) : Program κ V ρ ε β :=
  match p with
  | done a => f a
  | fail e => .fail e
  | lock k rest => .lock k fun v => (rest v).bind f
  | read k rest => .read k fun v => (rest v).bind f
  | peek k check rest => .peek k check (rest.bind f)
  | change c rest => .change c (rest.bind f)

instance : Monad (Program κ V ρ ε) where
  pure := done
  bind := bind

/-- What raises or not without reading the store. -/
def ofExcept : Except ε α → Program κ V ρ ε α
  | .ok a => .done a
  | .error e => .fail e

instance : MonadLift (Except ε) (Program κ V ρ ε) where
  monadLift := ofExcept

def selectForUpdate (k : κ) : Program κ V ρ ε (V k) := .lock k .done

def select (k : κ) : Program κ V ρ ε (V k) := .read k .done

def expect (k : κ) (check : V k → Except ε Unit) : Program κ V ρ ε Unit :=
  .peek k check (.done ())

def put (k : κ) (value : V k) : Program κ V ρ ε Unit := .change (.put k value) (.done ())

def insert (inserted : ρ) : Program κ V ρ ε Unit := .change (.add inserted) (.done ())

end Program

section Changes

variable [DecidableEq κ]

def Store.change (s : Store κ V ρ) : Change κ V ρ → Store κ V ρ
  | .put k value => { s with row := Function.update s.row k value }
  | .add inserted => { s with inserted := s.inserted ++ [inserted] }

/-- The store with changes that are not committed yet. -/
def Store.apply (s : Store κ V ρ) (changes : List (Change κ V ρ)) : Store κ V ρ :=
  changes.foldl Store.change s

/-- **A program nothing runs beside**: what it returns and the store it leaves, or
    what it raises. A `peek` is passed over: what it saw may be gone by the COMMIT. -/
def Program.alone : Program κ V ρ ε α → Store κ V ρ → Except ε (α × Store κ V ρ)
  | .done a, s => .ok (a, s)
  | .fail e, _ => .error e
  | .lock k rest, s => (rest (s.row k)).alone s
  | .read k rest, s => (rest (s.row k)).alone s
  | .peek _ _ rest, s => rest.alone s
  | .change c rest, s => rest.alone (s.change c)

end Changes

/-! ## 2. Programs alone -/

namespace Program

variable [DecidableEq κ] {s s' s'' : Store κ V ρ}

theorem alone_bind {p : Program κ V ρ ε α} {f : α → Program κ V ρ ε β} :
    (p >>= f).alone s = p.alone s >>= fun r => (f r.1).alone r.2 := by
  show (p.bind f).alone s = _
  induction p generalizing s with
  | done a => rfl
  | fail e => rfl
  | lock k rest ih => exact ih (s.row k)
  | read k rest ih => exact ih (s.row k)
  | peek k check rest ih => exact ih
  | change c rest ih => exact ih

theorem bind_eq_ok {p : Program κ V ρ ε α} {f : α → Program κ V ρ ε β} {b : β} :
    (p >>= f).alone s = .ok (b, s'') ↔
      ∃ a s', p.alone s = .ok (a, s') ∧ (f a).alone s' = .ok (b, s'') := by
  rw [alone_bind, Helpdesk.bind_eq_ok]
  constructor
  · rintro ⟨⟨a, s'⟩, hp, hf⟩
    exact ⟨a, s', hp, hf⟩
  · rintro ⟨a, s', hp, hf⟩
    exact ⟨(a, s'), hp, hf⟩

@[simp] theorem pure_eq_ok {a b : α} :
    (pure a : Program κ V ρ ε α).alone s = .ok (b, s') ↔ a = b ∧ s = s' := by
  show Except.ok (a, s) = .ok (b, s') ↔ _
  simp

@[simp] theorem fail_eq_ok {e : ε} {a : α} :
    (fail e : Program κ V ρ ε α).alone s = .ok (a, s') ↔ False := by
  show Except.error e = .ok (a, s') ↔ _
  simp

@[simp] theorem ofExcept_eq_ok {x : Except ε α} {a : α} :
    (liftM x : Program κ V ρ ε α).alone s = .ok (a, s') ↔ x = .ok a ∧ s = s' := by
  show (ofExcept x : Program κ V ρ ε α).alone s = _ ↔ _
  cases x with
  | error e =>
    show Except.error e = .ok (a, s') ↔ _
    simp
  | ok b =>
    show Except.ok (b, s) = .ok (a, s') ↔ _
    simp

@[simp] theorem selectForUpdate_eq_ok {k : κ} {v : V k} :
    (selectForUpdate k : Program κ V ρ ε (V k)).alone s = .ok (v, s') ↔ s.row k = v ∧ s = s' := by
  show Except.ok (s.row k, s) = .ok (v, s') ↔ _
  simp

@[simp] theorem select_eq_ok {k : κ} {v : V k} :
    (select k : Program κ V ρ ε (V k)).alone s = .ok (v, s') ↔ s.row k = v ∧ s = s' := by
  show Except.ok (s.row k, s) = .ok (v, s') ↔ _
  simp

@[simp] theorem expect_eq_ok {k : κ} {check : V k → Except ε Unit} {u : Unit} :
    (expect k check : Program κ V ρ ε Unit).alone s = .ok (u, s') ↔ s = s' := by
  show Except.ok ((), s) = .ok (u, s') ↔ _
  simp

@[simp] theorem put_eq_ok {k : κ} {v : V k} {u : Unit} :
    (put k v : Program κ V ρ ε Unit).alone s = .ok (u, s') ↔ s.change (.put k v) = s' := by
  show Except.ok ((), s.change (.put k v)) = .ok (u, s') ↔ _
  simp

@[simp] theorem insert_eq_ok {r : ρ} {u : Unit} :
    (insert r : Program κ V ρ ε Unit).alone s = .ok (u, s') ↔ s.change (.add r) = s' := by
  show Except.ok ((), s.change (.add r)) = .ok (u, s') ↔ _
  simp

end Program

namespace Store

variable [DecidableEq κ]

@[simp] theorem row_put_self (s : Store κ V ρ) (k : κ) (v : V k) :
    (s.change (.put k v)).row k = v := by
  simp [change]

theorem row_put_of_ne (s : Store κ V ρ) {k k' : κ} (v : V k) (hne : k' ≠ k) :
    (s.change (.put k v)).row k' = s.row k' := by
  simp [change, hne]

@[simp] theorem inserted_put (s : Store κ V ρ) (k : κ) (v : V k) :
    (s.change (.put k v)).inserted = s.inserted := rfl

@[simp] theorem row_add (s : Store κ V ρ) (r : ρ) (k : κ) :
    (s.change (.add r)).row k = s.row k := rfl

@[simp] theorem inserted_add (s : Store κ V ρ) (r : ρ) :
    (s.change (.add r)).inserted = s.inserted ++ [r] := rfl

/-- Changes make the same of two stores that agree on a row. -/
theorem row_apply_congr {s s' : Store κ V ρ} {k : κ} (changes : List (Change κ V ρ))
    (h : s.row k = s'.row k) : (s.apply changes).row k = (s'.apply changes).row k := by
  induction changes generalizing s s' with
  | nil => exact h
  | cons c rest ih =>
      refine ih ?_
      cases c with
      | add r => exact h
      | put k' v =>
          by_cases hk : k = k'
          · subst hk
            rw [row_put_self, row_put_self]
          · rw [row_put_of_ne _ _ hk, row_put_of_ne _ _ hk, h]

/-- Changes keep a row that none of them is of. -/
theorem row_apply_of_untouched {s : Store κ V ρ} {k : κ} (changes : List (Change κ V ρ))
    (h : ∀ k' v, Change.put k' v ∈ changes → k ≠ k') : (s.apply changes).row k = s.row k := by
  induction changes generalizing s with
  | nil => rfl
  | cons c rest ih =>
      have hrest : ((s.change c).apply rest).row k = (s.change c).row k :=
        ih fun k' v hmem => h k' v (List.mem_cons_of_mem c hmem)
      refine hrest.trans ?_
      cases c with
      | add r => rfl
      | put k' v => exact row_put_of_ne s v (h k' v List.mem_cons_self)

theorem apply_append (s : Store κ V ρ) (changes : List (Change κ V ρ)) (c : Change κ V ρ) :
    s.apply (changes ++ [c]) = (s.apply changes).change c := by
  simp [apply]

end Store

/-! ## 3. Sessions -/

/-- A request: `call` runs as a transaction, and what it answers is read afterwards. -/
inductive Session (κ : Type) (V : κ → Type) (ρ ε α γ : Type) where
  | idle
  | running (call : γ) (rest : Program κ V ρ ε α) (changes : List (Change κ V ρ))
  | committed (call : γ) (outcome : α)
  | answered (call : γ) (outcome : α)
  /-- failed before its COMMIT, or after it; `none` when it was interrupted -/
  | failed (call : γ) (outcome : Option α) (error : Option ε)

/-- A COMMIT, with the store before and after it. -/
structure Commit (κ : Type) (V : κ → Type) (ρ α γ ι : Type) where
  session : ι
  call : γ
  outcome : α
  before : Store κ V ρ
  after : Store κ V ρ

structure World (κ : Type) (V : κ → Type) (ρ ε α γ ι : Type) where
  store : Store κ V ρ
  /-- who holds the lock of a row -/
  locks : κ → Option ι
  sessions : ι → Session κ V ρ ε α γ
  history : List (Commit κ V ρ α γ ι)

def World.start (store : Store κ V ρ) : World κ V ρ ε α γ ι :=
  ⟨store, fun _ => none, fun _ => .idle, []⟩

inductive Event (γ ι : Type) where
  | begin (i : ι) (call : γ)
  | statement (i : ι)
  /-- the answer is read and returned -/
  | answer (i : ι)
  /-- a lost connection, a deadlock, a row that no longer meets its condition -/
  | interrupt (i : ι)

section Steps

variable [DecidableEq κ] [DecidableEq ι]

def World.set (w : World κ V ρ ε α γ ι) (i : ι) (session : Session κ V ρ ε α γ) :
    World κ V ρ ε α γ ι :=
  { w with sessions := Function.update w.sessions i session }

/-- The end of a transaction. -/
def World.release (w : World κ V ρ ε α γ ι) (i : ι) : World κ V ρ ε α γ ι :=
  { w with locks := fun k => if w.locks k = some i then none else w.locks k }

/-- COMMIT. -/
def World.commit (w : World κ V ρ ε α γ ι) (i : ι) (call : γ) (outcome : α)
    (changes : List (Change κ V ρ)) : World κ V ρ ε α γ ι :=
  let after := w.store.apply changes
  { w with
    store := after
    history := w.history ++ [⟨i, call, outcome, w.store, after⟩] }

/-- One statement of session `i`; a lock another session holds makes it wait. -/
def statement (w : World κ V ρ ε α γ ι) (i : ι) (call : γ) (rest : Program κ V ρ ε α)
    (changes : List (Change κ V ρ)) : Option (World κ V ρ ε α γ ι) :=
  let seen := w.store.apply changes
  match rest with
  | .done a => some (((w.commit i call a changes).release i).set i (.committed call a))
  | .fail e => some ((w.release i).set i (.failed call none (some e)))
  | .lock k rest =>
      if w.locks k = none ∨ w.locks k = some i then
        some ({ w with locks := Function.update w.locks k (some i) }.set i
          (.running call (rest (seen.row k)) changes))
      else none
  | .read k rest => some (w.set i (.running call (rest (seen.row k)) changes))
  | .peek k check rest =>
      match check (seen.row k) with
      | .ok _ => some (w.set i (.running call rest changes))
      | .error e => some ((w.release i).set i (.failed call none (some e)))
  | .change c rest => some (w.set i (.running call rest (changes ++ [c])))

variable (program : γ → Program κ V ρ ε α) (reading : γ → α → Store κ V ρ → Except ε Unit)

/-- One step of the sessions; `reading` reads the answer of a committed call. -/
def next (w : World κ V ρ ε α γ ι) : Event γ ι → Option (World κ V ρ ε α γ ι)
  | .begin i call =>
      match w.sessions i with
      | .idle => some (w.set i (.running call (program call) []))
      | _ => none
  | .statement i =>
      match w.sessions i with
      | .running call rest changes => statement w i call rest changes
      | _ => none
  | .answer i =>
      match w.sessions i with
      | .committed call a =>
          match reading call a w.store with
          | .ok _ => some (w.set i (.answered call a))
          | .error e => some (w.set i (.failed call (some a) (some e)))
      | _ => none
  | .interrupt i =>
      match w.sessions i with
      | .running call _ _ => some ((w.release i).set i (.failed call none none))
      | .committed call a => some (w.set i (.failed call (some a) none))
      | _ => none

/-- The runs of the sessions. -/
abbrev Interleaving (store : Store κ V ρ) (events : List (Event γ ι))
    (w : World κ V ρ ε α γ ι) : Prop :=
  Run (fun w event w' => next program reading w event = some w') (.start store) events w

/-- A commit is its call alone on the store before it. -/
def Serial (s : Store κ V ρ) (c : Commit κ V ρ α γ ι) (s' : Store κ V ρ) : Prop :=
  c.before = s ∧ c.after = s' ∧ (program c.call).alone s = .ok (c.outcome, s')

end Steps

/-! ## 4. The discipline -/

/-- **The discipline**: with the locks in `held`, the program reads and changes a
    row only when the lock of its `owner` is held, and locks no row but an owner;
    `post` holds of the locks at its end and what it returns. -/
def Program.Disciplined (owner : κ → κ) :
    Program κ V ρ ε α → List κ → (List κ → α → Prop) → Prop
  | .done a, held, post => post held a
  | .fail _, _, _ => True
  | .lock k rest, held, post => owner k = k ∧ ∀ v, (rest v).Disciplined owner (k :: held) post
  | .read k rest, held, post => owner k ∈ held ∧ ∀ v, (rest v).Disciplined owner held post
  | .peek _ _ rest, held, post => rest.Disciplined owner held post
  | .change (.put k _) rest, held, post => owner k ∈ held ∧ rest.Disciplined owner held post
  | .change (.add _) rest, held, post => rest.Disciplined owner held post

namespace Program

variable {owner : κ → κ} {held : List κ}

@[simp] theorem disciplined_bind {p : Program κ V ρ ε α} {f : α → Program κ V ρ ε β}
    {post : List κ → β → Prop} :
    (p >>= f).Disciplined owner held post ↔
      p.Disciplined owner held fun held' a => (f a).Disciplined owner held' post := by
  show (p.bind f).Disciplined owner held post ↔ _
  induction p generalizing held with
  | done a => exact Iff.rfl
  | fail e => exact Iff.rfl
  | lock k rest ih => exact and_congr_right' (forall_congr' fun v => ih v)
  | read k rest ih => exact and_congr_right' (forall_congr' fun v => ih v)
  | peek k check rest ih => exact ih
  | change c rest ih =>
      cases c with
      | put k v => exact and_congr_right' ih
      | add r => exact ih

variable {post : List κ → α → Prop}

@[simp] theorem disciplined_pure {a : α} :
    (pure a : Program κ V ρ ε α).Disciplined owner held post ↔ post held a := Iff.rfl

@[simp] theorem disciplined_fail {e : ε} :
    (fail e : Program κ V ρ ε α).Disciplined owner held post ↔ True := Iff.rfl

@[simp] theorem disciplined_ofExcept {x : Except ε α} :
    (liftM x : Program κ V ρ ε α).Disciplined owner held post ↔ ∀ a, x = .ok a → post held a := by
  show (ofExcept x : Program κ V ρ ε α).Disciplined owner held post ↔ _
  cases x <;> simp [ofExcept, Disciplined]

@[simp] theorem disciplined_selectForUpdate {k : κ} {post : List κ → V k → Prop} :
    (selectForUpdate k : Program κ V ρ ε (V k)).Disciplined owner held post ↔
      owner k = k ∧ ∀ v, post (k :: held) v := Iff.rfl

@[simp] theorem disciplined_select {k : κ} {post : List κ → V k → Prop} :
    (select k : Program κ V ρ ε (V k)).Disciplined owner held post ↔
      owner k ∈ held ∧ ∀ v, post held v := Iff.rfl

@[simp] theorem disciplined_expect {k : κ} {check : V k → Except ε Unit}
    {post : List κ → Unit → Prop} :
    (expect k check : Program κ V ρ ε Unit).Disciplined owner held post ↔ post held () := Iff.rfl

@[simp] theorem disciplined_put {k : κ} {v : V k} {post : List κ → Unit → Prop} :
    (put k v : Program κ V ρ ε Unit).Disciplined owner held post ↔
      owner k ∈ held ∧ post held () := Iff.rfl

@[simp] theorem disciplined_insert {r : ρ} {post : List κ → Unit → Prop} :
    (insert r : Program κ V ρ ε Unit).Disciplined owner held post ↔ post held () := Iff.rfl

end Program

/-! ## 5. Every interleaving is serial -/

section Serial

variable [DecidableEq κ] [DecidableEq ι]

/-- **What holds of a session between two statements**: whatever the rows it does
    not protect will be, what is left of its program does, on top of its changes,
    what the whole program does alone. -/
structure Follows (owner : κ → κ) (program : Program κ V ρ ε α) (w : World κ V ρ ε α γ ι)
    (i : ι) (rest : Program κ V ρ ε α) (changes : List (Change κ V ρ)) (held : List κ) : Prop where
  locked : ∀ k ∈ held, w.locks k = some i
  disciplined : rest.Disciplined owner held fun _ _ => True
  owned : ∀ k v, Change.put k v ∈ changes → owner k ∈ held
  alone : ∀ s : Store κ V ρ, (∀ k, owner k ∈ held → s.row k = w.store.row k) →
    program.alone s = rest.alone (s.apply changes)

/-- What session `i` has committed, read off its state. -/
def Session.entries (i : ι) : Session κ V ρ ε α γ → List (ι × γ × α)
  | .idle => []
  | .running _ _ _ => []
  | .committed call a => [(i, call, a)]
  | .answered call a => [(i, call, a)]
  | .failed call a _ => (a.map fun a => (i, call, a)).toList

def Commit.entry (c : Commit κ V ρ α γ ι) : ι × γ × α := (c.session, c.call, c.outcome)

structure Consistent (owner : κ → κ) (program : γ → Program κ V ρ ε α) (store : Store κ V ρ)
    (w : World κ V ρ ε α γ ι) : Prop where
  follows : ∀ i call rest changes, w.sessions i = .running call rest changes →
    ∃ held, Follows owner (program call) w i rest changes held
  serial : Run (Serial program) store w.history w.store
  entries : ∀ i, (w.history.filter (·.session = i)).map Commit.entry = (w.sessions i).entries i

variable {owner : κ → κ} {program : γ → Program κ V ρ ε α}
  {reading : γ → α → Store κ V ρ → Except ε Unit} {store : Store κ V ρ}
  {w w' : World κ V ρ ε α γ ι} {i : ι} {call : γ} {changes : List (Change κ V ρ)} {held : List κ}

omit [DecidableEq ι] in
/-- A session keeps its place while its locks and the rows they protect stay. -/
theorem Follows.transfer {p rest : Program κ V ρ ε α} (h : Follows owner p w i rest changes held)
    (hlocks : ∀ k, w.locks k = some i → w'.locks k = some i)
    (hrows : ∀ k, w.locks (owner k) = some i → w'.store.row k = w.store.row k) :
    Follows owner p w' i rest changes held where
  locked k hk := hlocks k (h.locked k hk)
  disciplined := h.disciplined
  owned := h.owned
  alone s hs := by
    refine h.alone s fun k hk => ?_
    rw [hs k hk, hrows k (h.locked _ hk)]

/-- **A step that commits nothing**: what it has to show is the place of its own
    session. -/
theorem Consistent.quiet (h : Consistent owner program store w) (hstore : w'.store = w.store)
    (hhistory : w'.history = w.history) (hothers : ∀ j, j ≠ i → w'.sessions j = w.sessions j)
    (hlocks : ∀ j, j ≠ i → ∀ k, w.locks k = some j → w'.locks k = some j)
    (hentries : (w'.sessions i).entries i = (w.sessions i).entries i)
    (hself : ∀ call rest changes, w'.sessions i = .running call rest changes →
      ∃ held, Follows owner (program call) w' i rest changes held) :
    Consistent owner program store w' where
  follows j call rest changes hj := by
    by_cases hji : j = i
    · subst hji
      exact hself call rest changes hj
    · rw [hothers j hji] at hj
      obtain ⟨held, hfollows⟩ := h.follows j call rest changes hj
      exact ⟨held, hfollows.transfer (hlocks j hji) fun k _ => by rw [hstore]⟩
  serial := by
    rw [hhistory, hstore]
    exact h.serial
  entries j := by
    rw [hhistory, h.entries j]
    by_cases hji : j = i
    · subst hji
      exact hentries.symm
    · rw [hothers j hji]

/-- A session that is not running any more, and has committed what it had. -/
theorem Consistent.settled (h : Consistent owner program store w) {session : Session κ V ρ ε α γ}
    {locks : κ → Option ι} (hlocks : ∀ j, j ≠ i → ∀ k, w.locks k = some j → locks k = some j)
    (hentries : session.entries i = (w.sessions i).entries i)
    (hended : ∀ call rest changes, session ≠ .running call rest changes) :
    Consistent owner program store ({ w with locks := locks }.set i session) := by
  have hself : ({ w with locks := locks }.set i session).sessions i = session := by
    simp [World.set]
  refine h.quiet rfl rfl (i := i) (fun j hji => by simp [World.set, hji]) hlocks ?_ ?_
  · rw [hself, hentries]
  · intro call rest changes hrunning
    rw [hself] at hrunning
    exact absurd hrunning (hended call rest changes)

/-- A transaction ends without a commit. -/
theorem Consistent.ended (h : Consistent owner program store w) {session : Session κ V ρ ε α γ}
    (hentries : session.entries i = (w.sessions i).entries i)
    (hended : ∀ call rest changes, session ≠ .running call rest changes) :
    Consistent owner program store ((w.release i).set i session) := by
  refine h.settled (fun j hji k hk => ?_) hentries hended
  simp [hk, hji]

/-- **A commit**: the rows it changes are protected by its locks, which no other
    session holds. -/
theorem Consistent.commit (h : Consistent owner program store w) {a : α}
    (hi : w.sessions i = .running call (.done a) changes) :
    Consistent owner program store
      (((w.commit i call a changes).release i).set i (.committed call a)) := by
  obtain ⟨held, hfollows⟩ := h.follows i call _ changes hi
  have hkept : ∀ k, w.locks (owner k) ≠ some i →
      (w.store.apply changes).row k = w.store.row k := by
    intro k hk
    refine Store.row_apply_of_untouched changes fun k' v hmem hkk' => hk ?_
    subst hkk'
    exact hfollows.locked _ (hfollows.owned k v hmem)
  constructor
  · intro j call' rest changes' hj
    have hji : j ≠ i := by
      rintro rfl
      simp [World.set] at hj
    have hj' : w.sessions j = .running call' rest changes' := by
      simpa [World.set, World.release, World.commit, hji] using hj
    obtain ⟨held', hfollows'⟩ := h.follows j call' rest changes' hj'
    refine ⟨held', hfollows'.transfer (fun k hk => ?_) fun k hk => ?_⟩
    · simp [World.set, World.release, World.commit, hk, hji]
    · refine hkept k ?_
      rw [hk]
      exact fun heq => hji (Option.some.inj heq)
  · refine .next h.serial ⟨rfl, rfl, ?_⟩
    rw [hfollows.alone w.store fun _ _ => rfl]
    rfl
  · intro j
    show ((w.history ++ [_]).filter _).map _ = _
    rw [List.filter_append, List.map_append, h.entries j]
    by_cases hji : j = i
    · subst hji
      rw [hi]
      simp [World.set, Session.entries, Commit.entry]
    · have hij : ¬ i = j := fun heq => hji heq.symm
      simp [World.set, World.release, World.commit, hji, hij]

/-- One statement. -/
theorem Consistent.statement (h : Consistent owner program store w) {rest : Program κ V ρ ε α}
    (hi : w.sessions i = .running call rest changes)
    (hstep : statement w i call rest changes = some w') : Consistent owner program store w' := by
  obtain ⟨held, hfollows⟩ := h.follows i call rest changes hi
  -- a session that goes on: its place, and that the locks of the others stay
  have hgoes : ∀ (locks : κ → Option ι) (rest' : Program κ V ρ ε α) changes' held',
      (∀ j, j ≠ i → ∀ k, w.locks k = some j → locks k = some j) →
      Follows owner (program call) { w with locks := locks } i rest' changes' held' →
      Consistent owner program store
        ({ w with locks := locks }.set i (.running call rest' changes')) := by
    intro locks rest' changes' held' hlocks hnew
    refine h.quiet rfl rfl (i := i) (fun j hji => by simp [World.set, hji]) hlocks ?_ ?_
    · simp [World.set, hi, Session.entries]
    · intro call' rest'' changes'' hrunning
      simp only [World.set, Function.update_self, Session.running.injEq] at hrunning
      obtain ⟨rfl, rfl, rfl⟩ := hrunning
      exact ⟨held', hnew.transfer (fun _ hk => hk) fun _ _ => rfl⟩
  have hseen : ∀ (s : Store κ V ρ) k, s.row k = w.store.row k →
      (s.apply changes).row k = (w.store.apply changes).row k :=
    fun s k hk => Store.row_apply_congr changes hk
  cases rest with
  | done a =>
      obtain rfl := Option.some.inj hstep
      exact h.commit hi
  | fail e =>
      obtain rfl := Option.some.inj hstep
      exact h.ended (by simp [hi, Session.entries]) nofun
  | lock k rest =>
      simp only [Helpdesk.statement] at hstep
      split at hstep
      · next hfree =>
          obtain rfl := Option.some.inj hstep
          refine hgoes _ _ _ (k :: held) ?_ ⟨?_, hfollows.disciplined.2 _, ?_, ?_⟩
          · intro j hji k' hk'
            have hne : k' ≠ k := by
              rintro rfl
              rw [hk'] at hfree
              simp [hji] at hfree
            simp [hne, hk']
          · intro k' hk'
            by_cases hkk' : k' = k
            · simp [hkk']
            · simp only [Function.update_of_ne hkk']
              exact hfollows.locked k' ((List.mem_cons.mp hk').resolve_left hkk')
          · exact fun k' v hmem => List.mem_cons_of_mem k (hfollows.owned k' v hmem)
          · intro s hs
            rw [hfollows.alone s fun k' hk' => hs k' (List.mem_cons_of_mem k hk')]
            have hk : s.row k = w.store.row k := by
              refine hs k ?_
              rw [hfollows.disciplined.1]
              exact List.mem_cons_self
            simp only [Program.alone, hseen s k hk]
      · cases hstep
  | read k rest =>
      obtain rfl := Option.some.inj hstep
      refine hgoes w.locks _ _ held (fun _ _ _ hk => hk)
        ⟨hfollows.locked, hfollows.disciplined.2 _, hfollows.owned, fun s hs => ?_⟩
      rw [hfollows.alone s hs]
      simp only [Program.alone, hseen s k (hs k hfollows.disciplined.1)]
  | peek k check rest =>
      simp only [Helpdesk.statement] at hstep
      split at hstep
      · obtain rfl := Option.some.inj hstep
        exact hgoes w.locks _ _ held (fun _ _ _ hk => hk)
          ⟨hfollows.locked, hfollows.disciplined, hfollows.owned, hfollows.alone⟩
      · obtain rfl := Option.some.inj hstep
        exact h.ended (by simp [hi, Session.entries]) nofun
  | change c rest =>
      obtain rfl := Option.some.inj hstep
      have hrest : rest.Disciplined owner held (fun _ _ => True) := by
        cases c with
        | put k v => exact hfollows.disciplined.2
        | add r => exact hfollows.disciplined
      refine hgoes w.locks _ _ held (fun _ _ _ hk => hk)
        ⟨hfollows.locked, hrest, fun k v hmem => ?_, fun s hs => ?_⟩
      · rcases List.mem_append.mp hmem with hold | hnew
        · exact hfollows.owned k v hold
        · obtain rfl := List.mem_singleton.mp hnew
          exact hfollows.disciplined.1
      · rw [hfollows.alone s hs, Store.apply_append]
        rfl

/-- **One step keeps the consistency**, of whatever session. -/
theorem Consistent.next (hprogram : ∀ call, (program call).Disciplined owner [] fun _ _ => True)
    (h : Consistent owner program store w) {event : Event γ ι}
    (hstep : next program reading w event = some w') : Consistent owner program store w' := by
  cases event with
  | begin i call =>
      simp only [Helpdesk.next] at hstep
      split at hstep
      · next hi =>
          obtain rfl := Option.some.inj hstep
          refine h.quiet rfl rfl (i := i) (fun j hji => by simp [World.set, hji])
            (fun _ _ _ hk => hk) ?_ ?_
          · simp [World.set, hi, Session.entries]
          · intro call' rest changes hrunning
            simp only [World.set, Function.update_self, Session.running.injEq] at hrunning
            obtain ⟨rfl, rfl, rfl⟩ := hrunning
            exact ⟨[], nofun, hprogram call, nofun, fun s _ => rfl⟩
      · cases hstep
  | statement i =>
      simp only [Helpdesk.next] at hstep
      split at hstep
      · next hi => exact h.statement hi hstep
      · cases hstep
  | answer i =>
      simp only [Helpdesk.next] at hstep
      split at hstep
      · next hi =>
          split at hstep
          · obtain rfl := Option.some.inj hstep
            exact h.settled (fun _ _ _ hk => hk) (by simp [hi, Session.entries]) nofun
          · obtain rfl := Option.some.inj hstep
            exact h.settled (fun _ _ _ hk => hk) (by simp [hi, Session.entries]) nofun
      · cases hstep
  | interrupt i =>
      simp only [Helpdesk.next] at hstep
      split at hstep
      · next hi =>
          obtain rfl := Option.some.inj hstep
          exact h.ended (by simp [hi, Session.entries]) nofun
      · next hi =>
          obtain rfl := Option.some.inj hstep
          exact h.settled (fun _ _ _ hk => hk) (by simp [hi, Session.entries]) nofun
      · cases hstep

theorem Consistent.start : Consistent owner program store (.start store : World κ V ρ ε α γ ι) where
  follows _ _ _ _ hi := by cases hi
  serial := .start
  entries _ := rfl

theorem consistent_of_run {events : List (Event γ ι)}
    (hprogram : ∀ call, (program call).Disciplined owner [] fun _ _ => True)
    (hrun : Interleaving program reading store events w) : Consistent owner program store w :=
  hrun.invariant .start fun _ _ _ h hstep => h.next hprogram hstep

/-- **Every interleaving is serial**: the store is what the committed transactions
    leave of it, run alone in the order of their commits. -/
theorem serial_of_run {events : List (Event γ ι)}
    (hprogram : ∀ call, (program call).Disciplined owner [] fun _ _ => True)
    (hrun : Interleaving program reading store events w) :
    Run (Serial program) store w.history w.store :=
  (consistent_of_run hprogram hrun).serial

/-- **What a session has committed** is what its state says. -/
theorem entries_of_run {events : List (Event γ ι)}
    (hprogram : ∀ call, (program call).Disciplined owner [] fun _ _ => True)
    (hrun : Interleaving program reading store events w) (i : ι) :
    (w.history.filter (·.session = i)).map Commit.entry = (w.sessions i).entries i :=
  (consistent_of_run hprogram hrun).entries i

end Serial

end Helpdesk
