/-
  File:      Helpdesk/Lib/Transactions.lean
  Subject:   Calls of many sessions on one database, statement by statement, and what
             each may rely on of the others.

  A `Procedure` is a call as the sequence of its statements, its COMMITs among them;
  what a statement reads decides how it goes on. `perform` runs any number of them
  side by side at READ COMMITTED: a lock is held until the transaction ends, a
  statement sees what is committed and its own changes, COMMIT makes the changes of a
  transaction the database's in one step, and a session may be interrupted anywhere.
  Where `Lib/Sessions` asks for locks on everything that is read, here a call may read
  what it likes: what it knows is what the others leave true.

  * `Contract`: what a COMMIT of a call may do with the locks it holds, what holds
    always, which calls never run together, what other programs may commit;
  * `Contract.Stable`: what the commits of the others leave true while locks are held;
  * `Procedure.Meets`: the weakest precondition of a procedure under a contract, with
    what it knows of the committed database at each statement; `meets_bind`,
    `meets_catchError` for the ways they compose;
  * **`keeps_of_run`**: when every procedure meets the contract, then in every
    interleaving every COMMIT does what the contract allows, and every session that
    returned or raised has kept its word about its own COMMITs.
-/
import Helpdesk.Lib.Runs
import Mathlib.Logic.Function.Basic

namespace Helpdesk.Transactions

/-! ## 1. Procedures -/

/-- A database and what one statement changes of it. -/
class Database (δ : Type) (χ : outParam Type) where
  change : δ → χ → δ

/-- A call, statement by statement. -/
inductive Procedure (δ κ χ ε α : Type) where
  /-- the call returns -/
  | done (outcome : α)
  /-- an exception leaves the call -/
  | fail (error : ε)
  /-- a lock that is held until the transaction ends -/
  | lock (k : κ) (rest : Procedure δ κ χ ε α)
  /-- a SELECT: it sees what is committed when it starts, and its own changes -/
  | select (rest : δ → Procedure δ κ χ ε α)
  /-- INSERT, UPDATE, DELETE -/
  | change (c : χ) (rest : Procedure δ κ χ ε α)
  | commit (rest : Procedure δ κ χ ε α)
  | rollback (rest : Procedure δ κ χ ε α)

variable {δ κ χ ε α β γ ι : Type}

/-- The database with changes that are not committed yet. -/
def pending [Database δ χ] (d : δ) (changes : List χ) : δ := changes.foldl Database.change d

namespace Procedure

def bind (p : Procedure δ κ χ ε α) (f : α → Procedure δ κ χ ε β) : Procedure δ κ χ ε β :=
  match p with
  | done a => f a
  | fail e => .fail e
  | lock k rest => .lock k (rest.bind f)
  | select rest => .select fun d => (rest d).bind f
  | change c rest => .change c (rest.bind f)
  | commit rest => .commit (rest.bind f)
  | rollback rest => .rollback (rest.bind f)

instance : Monad (Procedure δ κ χ ε) where
  pure := done
  bind := bind

/-- What raises or not without a statement. -/
def ofExcept : Except ε α → Procedure δ κ χ ε α
  | .ok a => .done a
  | .error e => .fail e

instance : MonadLift (Except ε) (Procedure δ κ χ ε) where
  monadLift := ofExcept

/-- `except`, around the block that rolls back. -/
def catchError (p : Procedure δ κ χ ε α) (handler : ε → Procedure δ κ χ ε α) :
    Procedure δ κ χ ε α :=
  match p with
  | done a => .done a
  | fail e => .rollback (handler e)
  | lock k rest => .lock k (rest.catchError handler)
  | select rest => .select fun d => (rest d).catchError handler
  | change c rest => .change c (rest.catchError handler)
  | commit rest => .commit (rest.catchError handler)
  | rollback rest => .rollback (rest.catchError handler)

def acquire (k : κ) : Procedure δ κ χ ε Unit := .lock k (.done ())

def query (f : δ → β) : Procedure δ κ χ ε β := .select fun d => .done (f d)

def write (c : χ) : Procedure δ κ χ ε Unit := .change c (.done ())

/-- `if not ...: raise` -/
def check (P : Prop) [Decidable P] (e : ε) : Procedure δ κ χ ε Unit :=
  if P then .done () else .fail e

/-- `if ... is None: raise` -/
def demand (x : Option α) (e : ε) : Procedure δ κ χ ε α :=
  match x with
  | some a => .done a
  | none => .fail e

def save : Procedure δ κ χ ε Unit := .commit (.done ())

end Procedure

/-! ## 2. Sessions -/

inductive Session (δ κ χ ε α γ : Type) where
  | idle
  | running (call : γ) (rest : Procedure δ κ χ ε α) (changes : List χ)
  | returned (call : γ) (outcome : α)
  /-- `none` when it was interrupted -/
  | failed (call : γ) (error : Option ε)

/-- A COMMIT with the database before and after it; `none` when another program made it. -/
structure Commit (δ γ ι : Type) where
  author : Option (ι × γ)
  before : δ
  after : δ

structure World (δ κ χ ε α γ ι : Type) where
  store : δ
  /-- who holds a lock -/
  locks : κ → Option ι
  sessions : ι → Session δ κ χ ε α γ
  history : List (Commit δ γ ι)

def World.start (store : δ) : World δ κ χ ε α γ ι := ⟨store, fun _ => none, fun _ => .idle, []⟩

inductive Event (δ γ ι : Type) where
  | begin (i : ι) (call : γ)
  | statement (i : ι)
  /-- a lost connection, a deadlock, a failed constraint -/
  | interrupt (i : ι)
  /-- a COMMIT of another program -/
  | elsewhere (store : δ)

/-- An event of the sessions, not a COMMIT of another program. -/
def Event.isOwn : Event δ γ ι → Bool
  | .elsewhere _ => false
  | _ => true

section Steps

variable [Database δ χ] [DecidableEq κ] [DecidableEq ι]

def World.set (w : World δ κ χ ε α γ ι) (i : ι) (session : Session δ κ χ ε α γ) :
    World δ κ χ ε α γ ι :=
  { w with sessions := Function.update w.sessions i session }

/-- The end of a transaction. -/
def World.release (w : World δ κ χ ε α γ ι) (i : ι) : World δ κ χ ε α γ ι :=
  { w with locks := fun k => if w.locks k = some i then none else w.locks k }

/-- COMMIT. -/
def World.commit (w : World δ κ χ ε α γ ι) (author : Option (ι × γ)) (store : δ) :
    World δ κ χ ε α γ ι :=
  { w with store := store, history := w.history ++ [⟨author, w.store, store⟩] }

/-- One statement of session `i`; a lock another session holds makes it wait. -/
def statement (w : World δ κ χ ε α γ ι) (i : ι) (call : γ) (rest : Procedure δ κ χ ε α)
    (changes : List χ) : Option (World δ κ χ ε α γ ι) :=
  match rest with
  | .done a => some ((w.release i).set i (.returned call a))
  | .fail e => some ((w.release i).set i (.failed call (some e)))
  | .lock k rest =>
      if w.locks k = none ∨ w.locks k = some i then
        some ({ w with locks := Function.update w.locks k (some i) }.set i
          (.running call rest changes))
      else none
  | .select rest => some (w.set i (.running call (rest (pending w.store changes)) changes))
  | .change c rest => some (w.set i (.running call rest (changes ++ [c])))
  | .commit rest =>
      some (((w.commit (some (i, call)) (pending w.store changes)).release i).set i
        (.running call rest []))
  | .rollback rest => some ((w.release i).set i (.running call rest []))

variable (procedure : γ → Procedure δ κ χ ε α)

/-- One step of the sessions. -/
def perform (w : World δ κ χ ε α γ ι) : Event δ γ ι → Option (World δ κ χ ε α γ ι)
  | .begin i call =>
      match w.sessions i with
      | .idle => some (w.set i (.running call (procedure call) []))
      | _ => none
  | .statement i =>
      match w.sessions i with
      | .running call rest changes => statement w i call rest changes
      | _ => none
  | .interrupt i =>
      match w.sessions i with
      | .running call _ _ => some ((w.release i).set i (.failed call none))
      | _ => none
  | .elsewhere store => some (w.commit none store)

end Steps

/-! ## 3. Contracts -/

/-- **What the calls promise each other.** -/
structure Contract (δ κ γ : Type) where
  /-- what holds of the database at every moment -/
  always : δ → Prop
  /-- what a COMMIT of the call does that holds these locks -/
  guarantee : γ → List κ → δ → δ → Prop
  /-- the calls that never run at the same time -/
  apart : γ → γ → Prop
  /-- what other programs commit -/
  elsewhere : δ → δ → Prop
  /-- what holds of the database when the call begins -/
  starts : γ → δ → Prop
  kept : ∀ {call held d d'}, guarantee call held d d' → always d → always d'
  keptElsewhere : ∀ {d d'}, elsewhere d d' → always d → always d'
  startsKept : ∀ {call other held d d'}, guarantee other held d d' → starts call d → starts call d'
  startsElsewhere : ∀ {call d d'}, elsewhere d d' → starts call d → starts call d'

namespace Contract

variable (c : Contract δ κ γ) {call : γ} {held held' : List κ} {d d' : δ} {A B : δ → Prop}

/-- What the others may commit while the call holds these locks. -/
def Interferes (call : γ) (held : List κ) (d d' : δ) : Prop :=
  c.elsewhere d d' ∨ ∃ other held', ¬ c.apart call other ∧ (∀ k ∈ held', k ∉ held) ∧
    c.guarantee other held' d d'

/-- What the others leave true while the call holds these locks. -/
def Stable (call : γ) (held : List κ) (A : δ → Prop) : Prop :=
  ∀ d d', c.Interferes call held d d' → c.always d → A d → A d'

variable {c}

theorem Interferes.always (h : c.Interferes call held d d') (halways : c.always d) : c.always d' := by
  rcases h with helsewhere | ⟨other, held', -, -, hguarantee⟩
  · exact c.keptElsewhere helsewhere halways
  · exact c.kept hguarantee halways

theorem Interferes.mono (hsub : ∀ k ∈ held, k ∈ held') (h : c.Interferes call held' d d') :
    c.Interferes call held d d' := by
  rcases h with helsewhere | ⟨other, held'', hapart, hdisjoint, hguarantee⟩
  · exact .inl helsewhere
  · exact .inr ⟨other, held'', hapart, fun k hk hmem => hdisjoint k hk (hsub k hmem), hguarantee⟩

/-- More locks keep more of the others away. -/
theorem Stable.mono (h : c.Stable call held A) (hsub : ∀ k ∈ held, k ∈ held') :
    c.Stable call held' A :=
  fun d d' hinterferes => h d d' (hinterferes.mono hsub)

theorem Stable.and (hA : c.Stable call held A) (hB : c.Stable call held B) :
    c.Stable call held fun d => A d ∧ B d :=
  fun d d' h halways hd => ⟨hA d d' h halways hd.1, hB d d' h halways hd.2⟩

theorem stable_starts : c.Stable call held (c.starts call) := by
  rintro d d' (helsewhere | ⟨other, held', -, -, hguarantee⟩) - hd
  · exact c.startsElsewhere helsewhere hd
  · exact c.startsKept hguarantee hd

theorem stable_true : c.Stable call held fun _ => True := fun _ _ _ _ _ => trivial

end Contract

/-! ## 4. What a procedure meets -/

/-- Where a procedure stands: the locks it holds, its changes that are not committed,
    its COMMITs so far, and what it knows of the committed database. -/
structure Place (δ κ χ : Type) where
  held : List κ
  changes : List χ
  commits : List (δ × δ)
  known : δ → Prop

/-- The start of a call. -/
def Place.fresh (known : δ → Prop) : Place δ κ χ := ⟨[], [], [], known⟩

namespace Procedure

variable [Database δ χ] (c : Contract δ κ γ) (call : γ)

/-- **The weakest precondition**: every COMMIT does what the contract allows, the call
    returns with `post` and raises with `raises`. -/
def Meets : Procedure δ κ χ ε α → Place δ κ χ → (Place δ κ χ → α → Prop) →
    (Place δ κ χ → ε → Prop) → Prop
  | .done a, p, post, _ => post p a
  | .fail e, p, _, raises => raises p e
  | .lock k rest, p, post, raises => rest.Meets { p with held := k :: p.held } post raises
  | .select rest, p, post, raises => ∀ d, c.always d → p.known d →
      ∃ known : δ → Prop, c.Stable call p.held known ∧ known d ∧
        (rest (pending d p.changes)).Meets { p with known := known } post raises
  | .change x rest, p, post, raises =>
      rest.Meets { p with changes := p.changes ++ [x] } post raises
  | .commit rest, p, post, raises => ∀ d, c.always d → p.known d →
      c.guarantee call p.held d (pending d p.changes) ∧
      ∃ known : δ → Prop, c.Stable call [] known ∧ known (pending d p.changes) ∧
        rest.Meets ⟨[], [], p.commits ++ [(d, pending d p.changes)], known⟩ post raises
  | .rollback rest, p, post, raises => ∃ known : δ → Prop, c.Stable call [] known ∧
      (∀ d, p.known d → known d) ∧ rest.Meets ⟨[], [], p.commits, known⟩ post raises

variable {c call} {p : Place δ κ χ} {raises : Place δ κ χ → ε → Prop}

@[simp] theorem meets_bind {x : Procedure δ κ χ ε α} {f : α → Procedure δ κ χ ε β}
    {post : Place δ κ χ → β → Prop} :
    (x >>= f).Meets c call p post raises ↔
      x.Meets c call p (fun p a => (f a).Meets c call p post raises) raises := by
  show (x.bind f).Meets c call p post raises ↔ _
  induction x generalizing p with
  | done a => exact Iff.rfl
  | fail e => exact Iff.rfl
  | lock k rest ih => exact ih
  | select rest ih =>
      refine forall_congr' fun d => imp_congr_right fun _ => imp_congr_right fun _ => ?_
      exact exists_congr fun known => and_congr_right' (and_congr_right' (ih _))
  | change x rest ih => exact ih
  | commit rest ih =>
      refine forall_congr' fun d => imp_congr_right fun _ => imp_congr_right fun _ => ?_
      exact and_congr_right' (exists_congr fun known => and_congr_right' (and_congr_right' ih))
  | rollback rest ih =>
      exact exists_congr fun known => and_congr_right' (and_congr_right' ih)

/-- A handler runs after the ROLLBACK, from what was committed. -/
@[simp] theorem meets_catchError {x : Procedure δ κ χ ε α} {handler : ε → Procedure δ κ χ ε α}
    {post : Place δ κ χ → α → Prop} :
    (x.catchError handler).Meets c call p post raises ↔
      x.Meets c call p post fun p e => (Procedure.rollback (handler e)).Meets c call p post raises := by
  induction x generalizing p with
  | done a => exact Iff.rfl
  | fail e => exact Iff.rfl
  | lock k rest ih => exact ih
  | select rest ih =>
      refine forall_congr' fun d => imp_congr_right fun _ => imp_congr_right fun _ => ?_
      exact exists_congr fun known => and_congr_right' (and_congr_right' (ih _))
  | change x rest ih => exact ih
  | commit rest ih =>
      refine forall_congr' fun d => imp_congr_right fun _ => imp_congr_right fun _ => ?_
      exact and_congr_right' (exists_congr fun known => and_congr_right' (and_congr_right' ih))
  | rollback rest ih =>
      exact exists_congr fun known => and_congr_right' (and_congr_right' ih)

variable {post : Place δ κ χ → α → Prop}

@[simp] theorem meets_pure {a : α} :
    (pure a : Procedure δ κ χ ε α).Meets c call p post raises ↔ post p a := Iff.rfl

@[simp] theorem meets_fail {e : ε} :
    (fail e : Procedure δ κ χ ε α).Meets c call p post raises ↔ raises p e := Iff.rfl

@[simp] theorem meets_ofExcept {x : Except ε α} :
    (liftM x : Procedure δ κ χ ε α).Meets c call p post raises ↔
      (∀ a, x = .ok a → post p a) ∧ ∀ e, x = .error e → raises p e := by
  show (ofExcept x : Procedure δ κ χ ε α).Meets c call p post raises ↔ _
  cases x <;> simp [ofExcept, Meets]

@[simp] theorem meets_check {P : Prop} [Decidable P] {e : ε} {post : Place δ κ χ → Unit → Prop} :
    (check P e : Procedure δ κ χ ε Unit).Meets c call p post raises ↔
      (P → post p ()) ∧ (¬ P → raises p e) := by
  unfold check
  split
  · next hP => simp [Meets, hP]
  · next hP => simp [Meets, hP]

@[simp] theorem meets_demand {x : Option α} {e : ε} :
    (demand x e : Procedure δ κ χ ε α).Meets c call p post raises ↔
      (∀ a, x = some a → post p a) ∧ (x = none → raises p e) := by
  cases x <;> simp [demand, Meets]

@[simp] theorem meets_acquire {k : κ} {post : Place δ κ χ → Unit → Prop} :
    (acquire k : Procedure δ κ χ ε Unit).Meets c call p post raises ↔
      post { p with held := k :: p.held } () := Iff.rfl

@[simp] theorem meets_write {x : χ} {post : Place δ κ χ → Unit → Prop} :
    (write x : Procedure δ κ χ ε Unit).Meets c call p post raises ↔
      post { p with changes := p.changes ++ [x] } () := Iff.rfl

/-- A SELECT, and what is kept of what it saw. -/
theorem meets_query {f : δ → β} {post : Place δ κ χ → β → Prop} :
    (query f : Procedure δ κ χ ε β).Meets c call p post raises ↔
      ∀ d, c.always d → p.known d → ∃ known : δ → Prop, c.Stable call p.held known ∧ known d ∧
        post { p with known := known } (f (pending d p.changes)) := Iff.rfl

/-- A SELECT of which only the result matters. -/
theorem meets_query_result {f : δ → β} {post : Place δ κ χ → β → Prop}
    (hstable : c.Stable call p.held p.known)
    (h : ∀ d, c.always d → p.known d → post p (f (pending d p.changes))) :
    (query f : Procedure δ κ χ ε β).Meets c call p post raises :=
  fun d halways hd => ⟨p.known, hstable, hd, h d halways hd⟩

theorem meets_save {post : Place δ κ χ → Unit → Prop} :
    (save : Procedure δ κ χ ε Unit).Meets c call p post raises ↔
      ∀ d, c.always d → p.known d → c.guarantee call p.held d (pending d p.changes) ∧
        ∃ known : δ → Prop, c.Stable call [] known ∧ known (pending d p.changes) ∧
          post ⟨[], [], p.commits ++ [(d, pending d p.changes)], known⟩ () := Iff.rfl

theorem meets_rollback {x : Procedure δ κ χ ε α} :
    (rollback x).Meets c call p post raises ↔ ∃ known : δ → Prop, c.Stable call [] known ∧
      (∀ d, p.known d → known d) ∧ x.Meets c call ⟨[], [], p.commits, known⟩ post raises := Iff.rfl

/-- Weaker conditions are met too. -/
theorem Meets.imp {x : Procedure δ κ χ ε α} {post' : Place δ κ χ → α → Prop}
    {raises' : Place δ κ χ → ε → Prop} (h : x.Meets c call p post raises)
    (hpost : ∀ p a, post p a → post' p a) (hraises : ∀ p e, raises p e → raises' p e) :
    x.Meets c call p post' raises' := by
  induction x generalizing p with
  | done a => exact hpost p a h
  | fail e => exact hraises p e h
  | lock k rest ih => exact ih h
  | select rest ih =>
      intro d halways hknown
      obtain ⟨known, hstable, hd, hrest⟩ := h d halways hknown
      exact ⟨known, hstable, hd, ih _ hrest⟩
  | change x rest ih => exact ih h
  | commit rest ih =>
      intro d halways hknown
      obtain ⟨hguarantee, known, hstable, hd, hrest⟩ := h d halways hknown
      exact ⟨hguarantee, known, hstable, hd, ih hrest⟩
  | rollback rest ih =>
      obtain ⟨known, hstable, himp, hrest⟩ := h
      exact ⟨known, hstable, himp, ih hrest⟩

end Procedure

/-! ## 5. Every interleaving keeps the contract -/

section Runs

variable [Database δ χ] [DecidableEq κ] [DecidableEq ι]

/-- The COMMITs of one session. -/
def commitsOf (i : ι) (history : List (Commit δ γ ι)) : List (δ × δ) :=
  (history.filter fun e => e.author.any (·.1 = i)).map fun e => (e.before, e.after)

/-- What may happen in a world: a call begins as it should and beside no call that is
    apart from it, other programs commit what they may. -/
def Contract.Admits (c : Contract δ κ γ) (w : World δ κ χ ε α γ ι) : Event δ γ ι → Prop
  | .begin _ call => c.starts call w.store ∧
      ∀ j other rest changes, w.sessions j = .running other rest changes →
        ¬ c.apart call other ∧ ¬ c.apart other call
  | .statement _ => True
  | .interrupt _ => True
  | .elsewhere store => c.elsewhere w.store store

/-- The runs of the sessions. -/
abbrev Interleaving (c : Contract δ κ γ) (procedure : γ → Procedure δ κ χ ε α) (store : δ)
    (events : List (Event δ γ ι)) (w : World δ κ χ ε α γ ι) : Prop :=
  Run (Guarded c.Admits fun w event w' => perform procedure w event = some w') (.start store)
    events w

/-- A COMMIT that the contract allows. -/
def Contract.Allows (c : Contract δ κ γ) (d : δ) (e : Commit δ γ ι) (d' : δ) : Prop :=
  e.before = d ∧ e.after = d' ∧ c.always d ∧
    match e.author with
    | none => c.elsewhere d d'
    | some (_, call) => ∃ held, c.guarantee call held d d'

/-- **What holds of a session between two statements.** -/
structure Stands (c : Contract δ κ γ) (post : γ → List (δ × δ) → α → Prop)
    (raises : γ → List (δ × δ) → ε → Prop) (w : World δ κ χ ε α γ ι) (i : ι) (call : γ)
    (rest : Procedure δ κ χ ε α) (p : Place δ κ χ) : Prop where
  commits : p.commits = commitsOf i w.history
  locked : ∀ k ∈ p.held, w.locks k = some i
  stable : c.Stable call p.held p.known
  known : p.known w.store
  meets : rest.Meets c call p (fun p => post call p.commits) fun p => raises call p.commits

/-- What a session keeps of its word. -/
def Keeps (c : Contract δ κ γ) (post : γ → List (δ × δ) → α → Prop)
    (raises : γ → List (δ × δ) → ε → Prop) (w : World δ κ χ ε α γ ι) (i : ι) :
    Session δ κ χ ε α γ → Prop
  | .idle => commitsOf i w.history = []
  | .running call rest changes => ∃ p : Place δ κ χ, p.changes = changes ∧
      Stands c post raises w i call rest p
  | .returned call a => post call (commitsOf i w.history) a
  | .failed _ none => True
  | .failed call (some e) => raises call (commitsOf i w.history) e

structure Sound (c : Contract δ κ γ) (post : γ → List (δ × δ) → α → Prop)
    (raises : γ → List (δ × δ) → ε → Prop) (store : δ) (w : World δ κ χ ε α γ ι) : Prop where
  keeps : ∀ i, Keeps c post raises w i (w.sessions i)
  always : c.always w.store
  apart : ∀ i j call other rest rest' changes changes', i ≠ j →
    w.sessions i = .running call rest changes → w.sessions j = .running other rest' changes' →
      ¬ c.apart call other
  history : Run c.Allows store w.history w.store

variable {c : Contract δ κ γ} {procedure : γ → Procedure δ κ χ ε α}
  {post : γ → List (δ × δ) → α → Prop} {raises : γ → List (δ × δ) → ε → Prop} {store : δ}
  {w w' : World δ κ χ ε α γ ι} {i j : ι} {call : γ} {rest : Procedure δ κ χ ε α}
  {changes : List χ} {session : Session δ κ χ ε α γ}

omit [DecidableEq κ] in
/-- A session keeps its place while its locks and what it knows stay. -/
theorem Keeps.transfer (h : Keeps c post raises w i session)
    (hcommits : commitsOf i w'.history = commitsOf i w.history)
    (hlocks : ∀ k, w.locks k = some i → w'.locks k = some i)
    (hknown : ∀ call rest p, session = .running call rest p.changes →
      Stands c post raises w i call rest p → p.known w'.store) :
    Keeps c post raises w' i session := by
  cases session with
  | idle => exact hcommits.trans h
  | running call rest changes =>
      obtain ⟨p, rfl, hp⟩ := h
      refine ⟨p, rfl, ?_, fun k hk => hlocks k (hp.locked k hk), hp.stable,
        hknown call rest p rfl hp, hp.meets⟩
      rw [hp.commits, hcommits]
  | returned call a =>
      show post call (commitsOf i w'.history) a
      rw [hcommits]
      exact h
  | failed call error =>
      cases error with
      | none => trivial
      | some e =>
          show raises call (commitsOf i w'.history) e
          rw [hcommits]
          exact h

/-- A call that is still running, or was not. -/
def Session.call? : Session δ κ χ ε α γ → Option γ
  | .running call _ _ => some call
  | _ => none

omit [DecidableEq κ] in
/-- **A step that commits nothing**: what it has to show is the place of its own
    session. -/
theorem Sound.quiet (h : Sound c post raises store w) {locks : κ → Option ι}
    (hlocks : ∀ j, j ≠ i → ∀ k, w.locks k = some j → locks k = some j)
    (hcall : ∀ call, session.call? = some call → (w.sessions i).call? = some call ∨
      ∀ j other rest changes, w.sessions j = .running other rest changes →
        ¬ c.apart call other ∧ ¬ c.apart other call)
    (hself : Keeps c post raises { w with locks := locks } i session) :
    Sound c post raises store ({ w with locks := locks }.set i session) where
  keeps j := by
    by_cases hji : j = i
    · subst hji
      have hset : ({ w with locks := locks }.set j session).sessions j = session := by
        simp [World.set]
      rw [hset]
      exact hself.transfer rfl (fun _ hk => hk) fun _ _ _ _ hp => hp.known
    · have hset : ({ w with locks := locks }.set i session).sessions j = w.sessions j := by
        simp [World.set, hji]
      rw [hset]
      exact (h.keeps j).transfer rfl (hlocks j hji) fun _ _ _ _ hp => hp.known
  always := h.always
  apart j j' call other rest rest' changes changes' hne hj hj' := by
    simp only [World.set, Function.update_apply] at hj hj'
    by_cases hji : j = i
    · subst hji
      have hj'i : ¬ j' = j := fun heq => hne heq.symm
      rw [if_pos rfl] at hj
      rw [if_neg hj'i] at hj'
      rcases hcall call (by rw [hj]; rfl) with hsame | hnew
      · cases hw : w.sessions j with
        | running call' rest₀ changes₀ =>
            rw [hw] at hsame
            obtain rfl := Option.some.inj hsame
            exact h.apart j j' _ _ _ _ _ _ hne hw hj'
        | _ => simp [hw, Session.call?] at hsame
      · exact (hnew j' _ _ _ hj').1
    · rw [if_neg hji] at hj
      by_cases hj'i : j' = i
      · subst hj'i
        rw [if_pos rfl] at hj'
        rcases hcall other (by rw [hj']; rfl) with hsame | hnew
        · cases hw : w.sessions j' with
          | running call' rest₀ changes₀ =>
              rw [hw] at hsame
              obtain rfl := Option.some.inj hsame
              exact h.apart j j' _ _ _ _ _ _ hne hj hw
          | _ => simp [hw, Session.call?] at hsame
        · exact (hnew j _ _ _ hj).2
      · rw [if_neg hj'i] at hj'
        exact h.apart j j' _ _ _ _ _ _ hne hj hj'
  history := h.history

theorem commitsOf_append (i : ι) (history : List (Commit δ γ ι)) (e : Commit δ γ ι) :
    commitsOf i (history ++ [e]) =
      commitsOf i history ++ if e.author.any (·.1 = i) then [(e.before, e.after)] else [] := by
  unfold commitsOf
  rw [List.filter_append, List.map_append]
  congr 1
  split
  · next hi => simp [hi]
  · next hi => simp [hi]

omit [DecidableEq κ] in
/-- **What a COMMIT leaves of the others**: their locks, and what they know. -/
theorem Sound.others (h : Sound c post raises store w) {author : Option (ι × γ)} {after : δ}
    {locks : κ → Option ι} (hj : ¬ author.any (·.1 = j))
    (hlocks : ∀ k, w.locks k = some j → locks k = some j)
    (hinterferes : ∀ call rest p, w.sessions j = .running call rest p.changes →
      Stands c post raises w j call rest p → c.Interferes call p.held w.store after) :
    Keeps c post raises { w.commit author after with locks := locks } j (w.sessions j) := by
  refine (h.keeps j).transfer ?_ hlocks fun call rest p hsession hp => ?_
  · show commitsOf j (w.history ++ [_]) = _
    rw [commitsOf_append, if_neg hj, List.append_nil]
  · exact hp.stable _ _ (hinterferes call rest p hsession hp) h.always hp.known

omit [DecidableEq κ] in
theorem Sound.elsewhere (h : Sound c post raises store w) {after : δ}
    (helsewhere : c.elsewhere w.store after) : Sound c post raises store (w.commit none after) where
  keeps j := h.others (by simp) (fun _ hk => hk) fun _ _ _ _ _ => .inl helsewhere
  always := c.keptElsewhere helsewhere h.always
  apart := h.apart
  history := .next h.history ⟨rfl, rfl, h.always, helsewhere⟩

omit [DecidableEq κ] in
/-- **A COMMIT** of a session: the others hold other locks, and their calls may run
    beside this one. -/
theorem Sound.commit (h : Sound c post raises store w)
    (hi : w.sessions i = .running call (.commit rest) changes) :
    Sound c post raises store
      (((w.commit (some (i, call)) (pending w.store changes)).release i).set i
        (.running call rest [])) := by
  have hkeeps := h.keeps i
  rw [hi] at hkeeps
  obtain ⟨p, rfl, hp⟩ := hkeeps
  obtain ⟨hguarantee, known, hstable, hknown, hrest⟩ := hp.meets w.store h.always hp.known
  constructor
  · intro j
    by_cases hji : j = i
    · subst hji
      rw [show (World.set _ j _).sessions j = .running call rest [] by simp [World.set]]
      refine ⟨⟨[], [], p.commits ++ [(w.store, pending w.store p.changes)], known⟩, rfl, ?_,
        nofun, hstable, hknown, hrest⟩
      show _ = commitsOf j (w.history ++ [_])
      rw [commitsOf_append, hp.commits]
      simp
    · rw [show (World.set _ i _).sessions j = w.sessions j by
        simp [World.set, World.release, World.commit, hji]]
      have hij : ¬ i = j := fun heq => hji heq.symm
      have hauthor : ¬ (some (i, call)).any (·.1 = j) := by simp [hij]
      have hlocks : ∀ k, w.locks k = some j →
          (if w.locks k = some i then none else w.locks k) = some j := by
        intro k hk
        simp [hk, hji]
      refine (h.others hauthor hlocks ?_).transfer rfl (fun k hk => hk) fun _ _ _ _ hq => hq.known
      intro other rest' q hj hq
      refine .inr ⟨call, p.held, h.apart j i _ _ _ _ _ _ hji hj hi, fun k hk hmem => ?_, hguarantee⟩
      have hlock := hp.locked k hk
      rw [hq.locked k hmem] at hlock
      exact hji (Option.some.inj hlock)
  · exact c.kept hguarantee h.always
  · intro j j' call' other rest' rest'' changes' changes'' hne hj hj'
    -- the session stays with its call
    have hback : ∀ j call' rest' changes', ((((w.commit (some (i, call))
        (pending w.store p.changes)).release i).set i
          (.running call rest [])).sessions j = .running call' rest' changes') →
        ∃ rest₀ changes₀, w.sessions j = .running call' rest₀ changes₀ := by
      intro j call' rest' changes' hj
      by_cases hji : j = i
      · subst hji
        simp only [World.set, Function.update_self, Session.running.injEq] at hj
        exact ⟨_, _, hj.1 ▸ hi⟩
      · simp only [World.set, Function.update_of_ne hji] at hj
        exact ⟨_, _, hj⟩
    obtain ⟨rest₀, changes₀, hj₀⟩ := hback j call' rest' changes' hj
    obtain ⟨rest₁, changes₁, hj₁⟩ := hback j' other rest'' changes'' hj'
    exact h.apart j j' _ _ _ _ _ _ hne hj₀ hj₁
  · exact .next h.history ⟨rfl, rfl, h.always, p.held, hguarantee⟩

/-- **One statement.** -/
theorem Sound.statement (h : Sound c post raises store w)
    (hi : w.sessions i = .running call rest changes)
    (hstep : statement w i call rest changes = some w') : Sound c post raises store w' := by
  have hkeeps := h.keeps i
  rw [hi] at hkeeps
  obtain ⟨p, rfl, hp⟩ := hkeeps
  have hreleased : ∀ j, j ≠ i → ∀ k, w.locks k = some j →
      (if w.locks k = some i then none else w.locks k) = some j := by
    intro j hji k hk
    simp [hk, hji]
  have hsame : ∀ call', (Session.running call rest p.changes : Session δ κ χ ε α γ).call? =
      some call' → (w.sessions i).call? = some call' := by
    intro call' hcall
    rw [hi]
    exact hcall
  cases rest with
  | done a =>
      obtain rfl := Option.some.inj hstep
      refine h.quiet hreleased nofun ?_
      show post call (commitsOf i w.history) a
      rw [← hp.commits]
      exact hp.meets
  | fail e =>
      obtain rfl := Option.some.inj hstep
      refine h.quiet hreleased nofun ?_
      show raises call (commitsOf i w.history) e
      rw [← hp.commits]
      exact hp.meets
  | lock k rest =>
      simp only [Transactions.statement] at hstep
      split at hstep
      · next hfree =>
          obtain rfl := Option.some.inj hstep
          refine h.quiet ?_ (fun _ hcall => .inl (hsame _ hcall)) ?_
          · intro j hji k' hk'
            have hne : k' ≠ k := by
              rintro rfl
              rw [hk'] at hfree
              simp [hji] at hfree
            simp [hne, hk']
          · refine ⟨{ p with held := k :: p.held }, rfl, hp.commits, ?_,
              hp.stable.mono fun _ hk' => List.mem_cons_of_mem k hk', hp.known, hp.meets⟩
            intro k' hk'
            by_cases hkk' : k' = k
            · simp [hkk']
            · simp only [Function.update_of_ne hkk']
              exact hp.locked k' ((List.mem_cons.mp hk').resolve_left hkk')
      · cases hstep
  | select rest =>
      obtain rfl := Option.some.inj hstep
      obtain ⟨known, hstable, hknown, hrest⟩ := hp.meets w.store h.always hp.known
      exact h.quiet (fun _ _ _ hk => hk) (fun _ hcall => .inl (hsame _ hcall))
        ⟨{ p with known := known }, rfl, hp.commits, hp.locked, hstable, hknown, hrest⟩
  | change x rest =>
      obtain rfl := Option.some.inj hstep
      exact h.quiet (fun _ _ _ hk => hk) (fun _ hcall => .inl (hsame _ hcall))
        ⟨{ p with changes := p.changes ++ [x] }, rfl, hp.commits, hp.locked, hp.stable, hp.known,
          hp.meets⟩
  | commit rest =>
      obtain rfl := Option.some.inj hstep
      exact h.commit hi
  | rollback rest =>
      obtain rfl := Option.some.inj hstep
      obtain ⟨known, hstable, himp, hrest⟩ := hp.meets
      exact h.quiet hreleased (fun _ hcall => .inl (hsame _ hcall))
        ⟨⟨[], [], p.commits, known⟩, rfl, hp.commits, nofun, hstable, himp _ hp.known, hrest⟩

/-- Every call meets the contract, from a database of which it knows nothing but what
    holds always. -/
def Honours (c : Contract δ κ γ) (procedure : γ → Procedure δ κ χ ε α)
    (post : γ → List (δ × δ) → α → Prop) (raises : γ → List (δ × δ) → ε → Prop) : Prop :=
  ∀ call, (procedure call).Meets c call (.fresh (c.starts call)) (fun p => post call p.commits)
    fun p => raises call p.commits

/-- **One step keeps the contract**, of whatever session. -/
theorem Sound.perform (hprocedure : Honours c procedure post raises)
    (h : Sound c post raises store w) {event : Event δ γ ι} (hadmits : c.Admits w event)
    (hstep : perform procedure w event = some w') : Sound c post raises store w' := by
  cases event with
  | begin i call =>
      simp only [Transactions.perform] at hstep
      split at hstep
      · next hi =>
          obtain rfl := Option.some.inj hstep
          have hkeeps := h.keeps i
          rw [hi] at hkeeps
          refine h.quiet (fun _ _ _ hk => hk) (fun call' hcall => .inr ?_)
            ⟨.fresh (c.starts call), rfl, hkeeps.symm, nofun, Contract.stable_starts, hadmits.1,
              hprocedure call⟩
          obtain rfl := Option.some.inj hcall
          exact hadmits.2
      · cases hstep
  | statement i =>
      simp only [Transactions.perform] at hstep
      split at hstep
      · next hi => exact h.statement hi hstep
      · cases hstep
  | interrupt i =>
      simp only [Transactions.perform] at hstep
      split at hstep
      · next hi =>
          obtain rfl := Option.some.inj hstep
          exact h.quiet (fun j hji k hk => by simp [hk, hji]) nofun trivial
      · cases hstep
  | elsewhere after =>
      obtain rfl := Option.some.inj hstep
      exact h.elsewhere hadmits

omit [DecidableEq κ] in
theorem Sound.start (halways : c.always store) :
    Sound c post raises store (.start store : World δ κ χ ε α γ ι) where
  keeps _ := rfl
  always := halways
  apart _ _ _ _ _ _ _ _ _ hi := by cases hi
  history := .start

/-- **Every interleaving keeps the contract.** -/
theorem sound_of_run {events : List (Event δ γ ι)} (hprocedure : Honours c procedure post raises)
    (halways : c.always store) (hrun : Interleaving c procedure store events w) :
    Sound c post raises store w :=
  hrun.invariant (.start halways) fun _ _ _ h hstep => h.perform hprocedure hstep.1 hstep.2

omit [Database δ χ] [DecidableEq κ] [DecidableEq ι] in
/-- Where calls may begin at any time and none are apart, the sessions may do what they
    like. -/
theorem Contract.admits_own (hapart : ∀ call other, ¬ c.apart call other)
    (hstarts : ∀ call d, c.starts call d) {event : Event δ γ ι} (hown : event.isOwn = true)
    (w : World δ κ χ ε α γ ι) : c.Admits w event := by
  cases event with
  | begin i call => exact ⟨hstarts call w.store, fun _ _ _ _ _ => ⟨hapart _ _, hapart _ _⟩⟩
  | statement i => trivial
  | interrupt i => trivial
  | elsewhere after => cases hown

/-- **A list of events that the sessions accept is a run**, when each passes a check that
    only admits what the contract admits. -/
theorem interleaving_of_foldlM {events : List (Event δ γ ι)}
    {admitted : World δ κ χ ε α γ ι → Event δ γ ι → Bool}
    (hadmitted : ∀ w event, admitted w event = true → c.Admits w event)
    (h : events.foldlM (fun w event =>
      if admitted w event = true then perform procedure w event else none) (.start store) = some w) :
    Interleaving c procedure store events w :=
  (guarded_run_of_foldlM h).mono fun w event _ hstep => ⟨hadmitted w event hstep.1, hstep.2⟩

omit [DecidableEq κ] [Database δ χ] [DecidableEq ι] in
/-- A COMMIT of a call does what the contract allows. -/
theorem guarantee_of_mem {d : δ} {commits : List (Commit δ γ ι)} (hrun : Run c.Allows store commits d)
    {e : Commit δ γ ι} (he : e ∈ commits) (hauthor : e.author = some (i, call)) :
    ∃ held, c.guarantee call held e.before e.after := by
  induction hrun with
  | start => cases he
  | @next commits d d' e' _ hallows ih =>
      rcases List.mem_append.mp he with hold | hnew
      · exact ih hold
      · obtain rfl := List.mem_singleton.mp hnew
        obtain ⟨rfl, rfl, -, hcommit⟩ := hallows
        rw [hauthor] at hcommit
        exact hcommit

omit [DecidableEq κ] [Database δ χ] [DecidableEq ι] in
/-- Every COMMIT starts from a database of which holds what holds always. -/
theorem always_of_mem {d : δ} {commits : List (Commit δ γ ι)} (hrun : Run c.Allows store commits d)
    {e : Commit δ γ ι} (he : e ∈ commits) : c.always e.before := by
  induction hrun with
  | start => cases he
  | @next commits d d' e' _ hallows ih =>
      rcases List.mem_append.mp he with hold | hnew
      · exact ih hold
      · obtain rfl := List.mem_singleton.mp hnew
        obtain ⟨rfl, -, halways, -⟩ := hallows
        exact halways

end Runs

end Helpdesk.Transactions
