/-
  File:      Helpdesk/Lib/Coroutines.lean
  Subject:   Coroutines of one event loop on shared state, and what holds between them.

  A `Coroutine` is a call as what it does between its waits: it reads and writes the
  shared state, reads the clock, leaves notes, gives locks back. It waits for a lock, for
  a delay and for the answer of something outside. Between two waits nothing else runs;
  at a wait any other coroutine may, so the order of the waits is any order. The clock is
  any that does not go back: it may move on at every reading.

  * `EventLoop`, `Turn`, `EventLoop.turn`: any number of coroutines in one loop, each turn
    from one wait to the next, with a log of what began, was asked, was answered, was
    noted and ended;
  * `Coroutine.Meets`: the weakest precondition. `given` is what the others leave true,
    `keeps` is what the coroutine owes them at every wait; `meets_bind`, `meets_handle`,
    `meets_withLock` for the ways coroutines compose;
  * **`keeps_of_run`**: when every coroutine meets its part, then in every run the
    invariant holds between any two turns, and of every call what it owes for itself;
  * `Coroutine.alone`: what a coroutine does at one instant with nobody else there;
  * `Coroutine.Quiet`, `store_of_quiet`: a coroutine that never writes.
-/
import Helpdesk.Lib.Runs
import Mathlib.Data.Rat.Defs
import Mathlib.Algebra.Order.Field.Rat
import Mathlib.Logic.Function.Basic

namespace Helpdesk.Coroutines

/-- A reading of a monotonic clock, in seconds. -/
abbrev Time := ℚ

/-! ## 1. Coroutines -/

inductive Coroutine (σ κ ρ ν μ ε α : Type) where
  /-- the call returns -/
  | done (outcome : α)
  /-- an exception leaves the call -/
  | fail (error : ε)
  | read (rest : σ → Coroutine σ κ ρ ν μ ε α)
  | write (f : σ → σ) (rest : Coroutine σ κ ρ ν μ ε α)
  /-- a reading of the clock -/
  | now (rest : Time → Coroutine σ κ ρ ν μ ε α)
  /-- what the log is to say at this point -/
  | note (what : μ) (rest : Coroutine σ κ ρ ν μ ε α)
  | release (k : κ) (rest : Coroutine σ κ ρ ν μ ε α)
  /-- wait for a lock -/
  | acquire (k : κ) (rest : Coroutine σ κ ρ ν μ ε α)
  /-- wait for a while -/
  | sleep (seconds : Time) (rest : Coroutine σ κ ρ ν μ ε α)
  /-- ask something outside and wait for the answer -/
  | call (request : ρ) (rest : ν → Coroutine σ κ ρ ν μ ε α)

variable {σ κ ρ ν μ ε ε' α β γ ι : Type}

namespace Coroutine

/-- Both ways a coroutine ends, each continued. -/
def handle (x : Coroutine σ κ ρ ν μ ε α) (f : α → Coroutine σ κ ρ ν μ ε' β)
    (handler : ε → Coroutine σ κ ρ ν μ ε' β) : Coroutine σ κ ρ ν μ ε' β :=
  match x with
  | done a => f a
  | fail e => handler e
  | read rest => .read fun s => (rest s).handle f handler
  | write g rest => .write g (rest.handle f handler)
  | now rest => .now fun t => (rest t).handle f handler
  | note m rest => .note m (rest.handle f handler)
  | release k rest => .release k (rest.handle f handler)
  | acquire k rest => .acquire k (rest.handle f handler)
  | sleep d rest => .sleep d (rest.handle f handler)
  | call r rest => .call r fun a => (rest a).handle f handler

instance : Monad (Coroutine σ κ ρ ν μ ε) where
  pure := done
  bind x f := x.handle f fail

/-- `try: ... except ...:` -/
def catchError (x : Coroutine σ κ ρ ν μ ε α) (handler : ε → Coroutine σ κ ρ ν μ ε α) :
    Coroutine σ κ ρ ν μ ε α :=
  x.handle done handler

/-- `async with lock:` -/
def withLock (k : κ) (x : Coroutine σ κ ρ ν μ ε α) : Coroutine σ κ ρ ν μ ε α :=
  .acquire k (x.handle (fun a => .release k (.done a)) fun e => .release k (.fail e))

def get : Coroutine σ κ ρ ν μ ε σ := .read done

def modify (f : σ → σ) : Coroutine σ κ ρ ν μ ε Unit := .write f (.done ())

def readClock : Coroutine σ κ ρ ν μ ε Time := .now done

def record (what : μ) : Coroutine σ κ ρ ν μ ε Unit := .note what (.done ())

def pause (seconds : Time) : Coroutine σ κ ρ ν μ ε Unit := .sleep seconds (.done ())

def ask (request : ρ) : Coroutine σ κ ρ ν μ ε ν := .call request done

def ofExcept : Except ε α → Coroutine σ κ ρ ν μ ε α
  | .ok a => .done a
  | .error e => .fail e

end Coroutine

/-! ## 2. The event loop -/

/-- What the log says of a call. -/
inductive Mark (γ ρ ν μ ε α : Type) where
  | began (call : γ)
  | called (request : ρ)
  /-- the answer to a request that was made at `since` -/
  | answered (request : ρ) (answer : ν) (since : Time)
  | noted (what : μ)
  | returned (outcome : α)
  | failed (error : ε)
  | cancelled
  deriving DecidableEq

structure Entry (ι χ : Type) where
  author : ι
  time : Time
  mark : χ
  deriving DecidableEq

/-- The shared state, the clock and the log between two turns. -/
structure Moment (σ ι χ : Type) where
  store : σ
  clock : Time
  log : List (Entry ι χ)

namespace Moment

variable {χ : Type}

def add (v : Moment σ ι χ) (i : ι) (mark : χ) : Moment σ ι χ :=
  { v with log := v.log ++ [⟨i, v.clock, mark⟩] }

def pass (v : Moment σ ι χ) (t : Time) : Moment σ ι χ := { v with clock := t }

def put (v : Moment σ ι χ) (f : σ → σ) : Moment σ ι χ := { v with store := f v.store }

@[simp] theorem add_store (v : Moment σ ι χ) (i : ι) (mark : χ) : (v.add i mark).store = v.store := rfl
@[simp] theorem add_clock (v : Moment σ ι χ) (i : ι) (mark : χ) : (v.add i mark).clock = v.clock := rfl
@[simp] theorem add_log (v : Moment σ ι χ) (i : ι) (mark : χ) :
    (v.add i mark).log = v.log ++ [⟨i, v.clock, mark⟩] := rfl
@[simp] theorem pass_store (v : Moment σ ι χ) (t : Time) : (v.pass t).store = v.store := rfl
@[simp] theorem pass_clock (v : Moment σ ι χ) (t : Time) : (v.pass t).clock = t := rfl
@[simp] theorem pass_log (v : Moment σ ι χ) (t : Time) : (v.pass t).log = v.log := rfl
@[simp] theorem put_store (v : Moment σ ι χ) (f : σ → σ) : (v.put f).store = f v.store := rfl
@[simp] theorem put_clock (v : Moment σ ι χ) (f : σ → σ) : (v.put f).clock = v.clock := rfl
@[simp] theorem put_log (v : Moment σ ι χ) (f : σ → σ) : (v.put f).log = v.log := rfl

/-- What happened between two moments, all of it to calls that meet `P`. -/
def Extends (P : ι → Prop) (v v' : Moment σ ι χ) : Prop :=
  v.clock ≤ v'.clock ∧ ∃ entries, v'.log = v.log ++ entries ∧ ∀ e ∈ entries, P e.author

variable {P Q : ι → Prop} {v v' v'' : Moment σ ι χ}

theorem Extends.refl : Extends P v v := ⟨le_refl _, [], by simp, by simp⟩

theorem Extends.trans (h : Extends P v v') (h' : Extends P v' v'') : Extends P v v'' := by
  obtain ⟨hclock, entries, hlog, hentries⟩ := h
  obtain ⟨hclock', entries', hlog', hentries'⟩ := h'
  refine ⟨hclock.trans hclock', entries ++ entries', ?_, fun e he => ?_⟩
  · rw [hlog', hlog, List.append_assoc]
  · rcases List.mem_append.mp he with hmem | hmem
    · exact hentries e hmem
    · exact hentries' e hmem

theorem Extends.imp (h : Extends P v v') (hPQ : ∀ i, P i → Q i) : Extends Q v v' := by
  obtain ⟨hclock, entries, hlog, hentries⟩ := h
  exact ⟨hclock, entries, hlog, fun e he => hPQ _ (hentries e he)⟩

theorem extends_add {i : ι} {mark : χ} (hi : P i) : Extends P v (v.add i mark) := by
  refine ⟨le_refl _, [⟨i, v.clock, mark⟩], rfl, fun e he => ?_⟩
  obtain rfl := List.mem_singleton.mp he
  exact hi

theorem extends_pass {t : Time} (h : v.clock ≤ t) : Extends P v (v.pass t) :=
  ⟨h, [], by simp, by simp⟩

theorem extends_put {f : σ → σ} : Extends P v (v.put f) := ⟨le_refl _, [], by simp, by simp⟩

/-- What the others did while call `i` waited. -/
def Follows (i : ι) (v v' : Moment σ ι χ) : Prop := Extends (· ≠ i) v v'

/-- The entries of one call. -/
def own [DecidableEq ι] (i : ι) (v : Moment σ ι χ) : List (Entry ι χ) :=
  v.log.filter fun e => e.author = i

theorem Follows.own [DecidableEq ι] {i : ι} (h : Follows i v v') : v'.own i = v.own i := by
  obtain ⟨-, entries, hlog, hentries⟩ := h
  have hnone : entries.filter (fun e => e.author = i) = [] :=
    List.filter_eq_nil_iff.mpr fun e he => by simpa using hentries e he
  rw [Moment.own, hlog, List.filter_append, hnone, List.append_nil]
  rfl

@[simp] theorem own_add [DecidableEq ι] (i : ι) (mark : χ) :
    (v.add i mark).own i = v.own i ++ [⟨i, v.clock, mark⟩] := by
  simp [own]

@[simp] theorem own_pass [DecidableEq ι] (i : ι) (t : Time) : (v.pass t).own i = v.own i := rfl

@[simp] theorem own_put [DecidableEq ι] (i : ι) (f : σ → σ) : (v.put f).own i = v.own i := rfl

end Moment

open Moment

/-- Where a call is between two turns. -/
inductive Status (σ κ ρ ν μ ε α γ : Type) where
  | idle
  | waiting (call : γ) (rest : Coroutine σ κ ρ ν μ ε α) (since : Time)
  | ended (call : γ)

def Status.call? : Status σ κ ρ ν μ ε α γ → Option γ
  | .idle => none
  | .waiting call _ _ => some call
  | .ended call => some call

structure EventLoop (σ κ ρ ν μ ε α γ ι : Type) extends Moment σ ι (Mark γ ρ ν μ ε α) where
  /-- who holds a lock -/
  locks : κ → Option ι
  tasks : ι → Status σ κ ρ ν μ ε α γ

/-- What happens next; `times` are the readings of the clock in the turn, the first of them
    where it starts. -/
inductive Turn (ν γ ι : Type) where
  | begin (i : ι) (call : γ) (times : List Time)
  /-- a call gets the lock it waits for, or has slept -/
  | resume (i : ι) (times : List Time)
  | answer (i : ι) (answer : ν) (times : List Time)
  | cancel (i : ι)

/-- The call whose turn it is. -/
def Turn.author : Turn ν γ ι → ι
  | .begin i _ _ | .resume i _ | .answer i _ _ | .cancel i => i

namespace EventLoop

def start (store : σ) (clock : Time) : EventLoop σ κ ρ ν μ ε α γ ι :=
  ⟨⟨store, clock, []⟩, fun _ => none, fun _ => .idle⟩

section Steps

variable [DecidableEq κ] [DecidableEq ι]

/-- The next reading of the clock: the next of the list, or the last one again. -/
def nextTime (clock : Time) : List Time → Option (Time × List Time)
  | [] => some (clock, [])
  | t :: times => if clock ≤ t then some (t, times) else none

/-- A call comes to a wait or to its end. -/
def set (w : EventLoop σ κ ρ ν μ ε α γ ι) (v : Moment σ ι (Mark γ ρ ν μ ε α)) (i : ι)
    (status : Status σ κ ρ ν μ ε α γ) : EventLoop σ κ ρ ν μ ε α γ ι :=
  { w with toMoment := v, tasks := Function.update w.tasks i status }

/-- One turn of call `i`: what it does until it waits again or ends. -/
def proceed (i : ι) (call : γ) : Coroutine σ κ ρ ν μ ε α → List Time →
    EventLoop σ κ ρ ν μ ε α γ ι → Option (EventLoop σ κ ρ ν μ ε α γ ι)
  | .done a, _, w => some (w.set (w.add i (.returned a)) i (.ended call))
  | .fail e, _, w => some (w.set (w.add i (.failed e)) i (.ended call))
  | .read rest, times, w => proceed i call (rest w.store) times w
  | .write f rest, times, w => proceed i call rest times { w with toMoment := w.put f }
  | .now rest, times, w =>
      match nextTime w.clock times with
      | some (t, times) => proceed i call (rest t) times { w with toMoment := w.pass t }
      | none => none
  | .note m rest, times, w => proceed i call rest times { w with toMoment := w.add i (.noted m) }
  | .release k rest, times, w =>
      proceed i call rest times { w with locks := Function.update w.locks k none }
  | .acquire k rest, _, w => some (w.set w.toMoment i (.waiting call (.acquire k rest) w.clock))
  | .sleep d rest, _, w => some (w.set w.toMoment i (.waiting call (.sleep d rest) w.clock))
  | .call r rest, times, w =>
      match nextTime w.clock times with
      | some (t, _) =>
          some (w.set ((w.pass t).add i (.called r)) i (.waiting call (.call r rest) t))
      | none => none

/-- A cancelled call gives its locks back. -/
def unlock (w : EventLoop σ κ ρ ν μ ε α γ ι) (i : ι) : EventLoop σ κ ρ ν μ ε α γ ι :=
  { w with locks := fun k => if w.locks k = some i then none else w.locks k }

/-- A call that waits goes on, from the moment the turn starts. -/
def wake (w : EventLoop σ κ ρ ν μ ε α γ ι) (i : ι) (call : γ) (times : List Time) :
    Coroutine σ κ ρ ν μ ε α → Option (EventLoop σ κ ρ ν μ ε α γ ι)
  | .acquire k rest =>
      if w.locks k = none then
        proceed i call rest times { w with locks := Function.update w.locks k (some i) }
      else none
  | .sleep _ rest => proceed i call rest times w
  | _ => none

variable (coroutine : γ → Coroutine σ κ ρ ν μ ε α)

/-- One step of the event loop. -/
def turn (w : EventLoop σ κ ρ ν μ ε α γ ι) : Turn ν γ ι → Option (EventLoop σ κ ρ ν μ ε α γ ι)
  | .begin i call times =>
      match w.tasks i, nextTime w.clock times with
      | .idle, some (t, times) =>
          proceed i call (coroutine call) times
            { w with toMoment := (w.pass t).add i (.began call) }
      | _, _ => none
  | .resume i times =>
      match w.tasks i, nextTime w.clock times with
      | .waiting call rest _, some (t, times) =>
          wake { w with toMoment := w.pass t } i call times rest
      | _, _ => none
  | .answer i a times =>
      match w.tasks i, nextTime w.clock times with
      | .waiting call (.call r rest) since, some (t, times) =>
          proceed i call (rest a) times
            { w with toMoment := (w.pass t).add i (.answered r a since) }
      | _, _ => none
  | .cancel i =>
      match w.tasks i with
      | .waiting call _ _ => some ((w.unlock i).set (w.add i .cancelled) i (.ended call))
      | _ => none

/-- The runs of the loop. -/
abbrev Interleaving (store : σ) (clock : Time) (turns : List (Turn ν γ ι))
    (w : EventLoop σ κ ρ ν μ ε α γ ι) : Prop :=
  Run (fun w l w' => turn coroutine w l = some w') (start store clock) turns w

end Steps

end EventLoop

/-! ## 3. What a coroutine meets -/

namespace Coroutine

variable {χ : Type}

section Meets

variable (given keeps : Moment σ ι (Mark γ ρ ν μ ε' β) → Prop) (admits : ρ → ν → Prop) (i : ι)

/-- **The weakest precondition**: at every wait `keeps` holds, the coroutine returns with
    `post` and raises with `raises`, when the others leave `given` true and the answers
    are admitted. -/
def Meets : Coroutine σ κ ρ ν μ ε α → (Moment σ ι (Mark γ ρ ν μ ε' β) → α → Prop) →
    (Moment σ ι (Mark γ ρ ν μ ε' β) → ε → Prop) → Moment σ ι (Mark γ ρ ν μ ε' β) → Prop
  | .done a, post, _, v => post v a
  | .fail e, _, raises, v => raises v e
  | .read rest, post, raises, v => (rest v.store).Meets post raises v
  | .write f rest, post, raises, v => rest.Meets post raises (v.put f)
  | .now rest, post, raises, v => ∀ t, v.clock ≤ t → (rest t).Meets post raises (v.pass t)
  | .note m rest, post, raises, v => rest.Meets post raises (v.add i (.noted m))
  | .release _ rest, post, raises, v => rest.Meets post raises v
  | .acquire _ rest, post, raises, v =>
      keeps v ∧ ∀ v', Follows i v v' → given v' → rest.Meets post raises v'
  | .sleep _ rest, post, raises, v =>
      keeps v ∧ ∀ v', Follows i v v' → given v' → rest.Meets post raises v'
  | .call r rest, post, raises, v => ∀ t, v.clock ≤ t →
      keeps ((v.pass t).add i (.called r)) ∧
        ∀ v' a, Follows i ((v.pass t).add i (.called r)) v' → given v' → admits r a →
          (rest a).Meets post raises (v'.add i (.answered r a t))

/-- What a call that waits goes on with. -/
def Resumes (since : Time) (post : Moment σ ι (Mark γ ρ ν μ ε' β) → α → Prop)
    (raises : Moment σ ι (Mark γ ρ ν μ ε' β) → ε → Prop) (v : Moment σ ι (Mark γ ρ ν μ ε' β)) :
    Coroutine σ κ ρ ν μ ε α → Prop
  | .acquire _ rest => rest.Meets given keeps admits i post raises v
  | .sleep _ rest => rest.Meets given keeps admits i post raises v
  | .call r rest => ∀ a, admits r a →
      (rest a).Meets given keeps admits i post raises (v.add i (.answered r a since))
  | _ => True

end Meets

variable {given keeps : Moment σ ι (Mark γ ρ ν μ ε' β) → Prop} {admits : ρ → ν → Prop} {i : ι}
  {v : Moment σ ι (Mark γ ρ ν μ ε' β)} {δ : Type} {ε'' : Type}

@[simp] theorem meets_handle {x : Coroutine σ κ ρ ν μ ε α} {f : α → Coroutine σ κ ρ ν μ ε'' δ}
    {handler : ε → Coroutine σ κ ρ ν μ ε'' δ} {post : Moment σ ι (Mark γ ρ ν μ ε' β) → δ → Prop}
    {raises : Moment σ ι (Mark γ ρ ν μ ε' β) → ε'' → Prop} :
    (x.handle f handler).Meets given keeps admits i post raises v ↔
      x.Meets given keeps admits i
        (fun v a => (f a).Meets given keeps admits i post raises v)
        (fun v e => (handler e).Meets given keeps admits i post raises v) v := by
  induction x generalizing v with
  | done a => exact Iff.rfl
  | fail e => exact Iff.rfl
  | read rest ih => exact ih _
  | write g rest ih => exact ih
  | now rest ih => exact forall_congr' fun t => imp_congr_right fun _ => ih t
  | note m rest ih => exact ih
  | release k rest ih => exact ih
  | acquire k rest ih =>
      refine and_congr_right' (forall_congr' fun v' => ?_)
      exact imp_congr_right fun _ => imp_congr_right fun _ => ih
  | sleep d rest ih =>
      refine and_congr_right' (forall_congr' fun v' => ?_)
      exact imp_congr_right fun _ => imp_congr_right fun _ => ih
  | call r rest ih =>
      refine forall_congr' fun t => imp_congr_right fun _ => and_congr_right' ?_
      refine forall_congr' fun v' => forall_congr' fun a => imp_congr_right fun _ => ?_
      exact imp_congr_right fun _ => imp_congr_right fun _ => ih a

variable {post : Moment σ ι (Mark γ ρ ν μ ε' β) → α → Prop}
  {raises : Moment σ ι (Mark γ ρ ν μ ε' β) → ε → Prop}

@[simp] theorem meets_bind {x : Coroutine σ κ ρ ν μ ε δ} {f : δ → Coroutine σ κ ρ ν μ ε α} :
    (x >>= f).Meets given keeps admits i post raises v ↔
      x.Meets given keeps admits i
        (fun v a => (f a).Meets given keeps admits i post raises v) raises v :=
  meets_handle

@[simp] theorem meets_catchError {x : Coroutine σ κ ρ ν μ ε α}
    {handler : ε → Coroutine σ κ ρ ν μ ε α} :
    (x.catchError handler).Meets given keeps admits i post raises v ↔
      x.Meets given keeps admits i post
        (fun v e => (handler e).Meets given keeps admits i post raises v) v :=
  meets_handle

/-- A lock is a wait; that it excludes the others is in the run, not in what is known. -/
@[simp] theorem meets_withLock {k : κ} {x : Coroutine σ κ ρ ν μ ε α} :
    (x.withLock k).Meets given keeps admits i post raises v ↔
      keeps v ∧ ∀ v', Follows i v v' → given v' → x.Meets given keeps admits i post raises v' := by
  refine and_congr_right' (forall_congr' fun v' => ?_)
  exact imp_congr_right fun _ => imp_congr_right fun _ => meets_handle

@[simp] theorem meets_pure {a : α} :
    (pure a : Coroutine σ κ ρ ν μ ε α).Meets given keeps admits i post raises v ↔ post v a :=
  Iff.rfl

@[simp] theorem meets_done {a : α} :
    (done a : Coroutine σ κ ρ ν μ ε α).Meets given keeps admits i post raises v ↔ post v a :=
  Iff.rfl

@[simp] theorem meets_fail {e : ε} :
    (fail e : Coroutine σ κ ρ ν μ ε α).Meets given keeps admits i post raises v ↔ raises v e :=
  Iff.rfl

@[simp] theorem meets_get {post : Moment σ ι (Mark γ ρ ν μ ε' β) → σ → Prop} :
    (get : Coroutine σ κ ρ ν μ ε σ).Meets given keeps admits i post raises v ↔ post v v.store :=
  Iff.rfl

@[simp] theorem meets_modify {f : σ → σ} {post : Moment σ ι (Mark γ ρ ν μ ε' β) → Unit → Prop} :
    (modify f : Coroutine σ κ ρ ν μ ε Unit).Meets given keeps admits i post raises v ↔
      post (v.put f) () :=
  Iff.rfl

@[simp] theorem meets_readClock {post : Moment σ ι (Mark γ ρ ν μ ε' β) → Time → Prop} :
    (readClock : Coroutine σ κ ρ ν μ ε Time).Meets given keeps admits i post raises v ↔
      ∀ t, v.clock ≤ t → post (v.pass t) t :=
  Iff.rfl

@[simp] theorem meets_record {m : μ} {post : Moment σ ι (Mark γ ρ ν μ ε' β) → Unit → Prop} :
    (record m : Coroutine σ κ ρ ν μ ε Unit).Meets given keeps admits i post raises v ↔
      post (v.add i (.noted m)) () :=
  Iff.rfl

@[simp] theorem meets_pause {d : Time} {post : Moment σ ι (Mark γ ρ ν μ ε' β) → Unit → Prop} :
    (pause d : Coroutine σ κ ρ ν μ ε Unit).Meets given keeps admits i post raises v ↔
      keeps v ∧ ∀ v', Follows i v v' → given v' → post v' () :=
  Iff.rfl

@[simp] theorem meets_ask {r : ρ} {post : Moment σ ι (Mark γ ρ ν μ ε' β) → ν → Prop} :
    (ask r : Coroutine σ κ ρ ν μ ε ν).Meets given keeps admits i post raises v ↔
      ∀ t, v.clock ≤ t → keeps ((v.pass t).add i (.called r)) ∧
        ∀ v' a, Follows i ((v.pass t).add i (.called r)) v' → given v' → admits r a →
          post (v'.add i (.answered r a t)) a :=
  Iff.rfl

@[simp] theorem meets_ofExcept {x : Except ε α} :
    (ofExcept x : Coroutine σ κ ρ ν μ ε α).Meets given keeps admits i post raises v ↔
      (∀ a, x = .ok a → post v a) ∧ ∀ e, x = .error e → raises v e := by
  cases x <;> simp [ofExcept]

/-- Weaker conditions are met too. -/
theorem Meets.imp {x : Coroutine σ κ ρ ν μ ε α}
    {post' : Moment σ ι (Mark γ ρ ν μ ε' β) → α → Prop}
    {raises' : Moment σ ι (Mark γ ρ ν μ ε' β) → ε → Prop}
    (h : x.Meets given keeps admits i post raises v) (hpost : ∀ v a, post v a → post' v a)
    (hraises : ∀ v e, raises v e → raises' v e) :
    x.Meets given keeps admits i post' raises' v := by
  induction x generalizing v with
  | done a => exact hpost v a h
  | fail e => exact hraises v e h
  | read rest ih => exact ih _ h
  | write g rest ih => exact ih h
  | now rest ih => exact fun t ht => ih t (h t ht)
  | note m rest ih => exact ih h
  | release k rest ih => exact ih h
  | acquire k rest ih => exact ⟨h.1, fun v' hv' hgiven => ih (h.2 v' hv' hgiven)⟩
  | sleep d rest ih => exact ⟨h.1, fun v' hv' hgiven => ih (h.2 v' hv' hgiven)⟩
  | call r rest ih =>
      refine fun t ht => ⟨(h t ht).1, fun v' a hv' hgiven ha => ?_⟩
      exact ih a ((h t ht).2 v' a hv' hgiven ha)

end Coroutine

/-! ## 4. Every interleaving keeps the invariant -/

/-- **What a system of calls keeps**: an invariant of all of them, and of each call what it
    owes for itself, which the others cannot change. -/
structure Discipline (σ ρ ν μ ε α γ ι : Type) where
  always : Moment σ ι (Mark γ ρ ν μ ε α) → Prop
  own : ι → γ → Moment σ ι (Mark γ ρ ν μ ε α) → Prop
  /-- the answers the calls are given -/
  admits : ρ → ν → Prop
  always_pass : ∀ {v t}, v.clock ≤ t → always v → always (v.pass t)
  own_follows : ∀ {i call v v'}, Follows i v v' → own i call v → own i call v'
  always_cancelled : ∀ {i v}, always v → always (v.add i .cancelled)
  own_cancelled : ∀ {i call v}, own i call v → own i call (v.add i .cancelled)

namespace Discipline

variable (D : Discipline σ ρ ν μ ε α γ ι)

def Keeps (i : ι) (call : γ) (v : Moment σ ι (Mark γ ρ ν μ ε α)) : Prop :=
  D.always v ∧ D.own i call v

/-- A call does its part from a moment on, to its end. -/
abbrev Obeys (i : ι) (call : γ) (x : Coroutine σ κ ρ ν μ ε α)
    (v : Moment σ ι (Mark γ ρ ν μ ε α)) : Prop :=
  x.Meets D.always (D.Keeps i call) D.admits i (fun v a => D.Keeps i call (v.add i (.returned a)))
    (fun v e => D.Keeps i call (v.add i (.failed e))) v

/-- What holds of a call between two turns. -/
def Stands (w : EventLoop σ κ ρ ν μ ε α γ ι) (i : ι) : Status σ κ ρ ν μ ε α γ → Prop
  | .idle => ∀ e ∈ w.log, e.author ≠ i
  | .waiting call rest since => D.own i call w.toMoment ∧
      ∀ v', Follows i w.toMoment v' → D.always v' →
        rest.Resumes D.always (D.Keeps i call) D.admits i since
          (fun v a => D.Keeps i call (v.add i (.returned a)))
          (fun v e => D.Keeps i call (v.add i (.failed e))) v'
  | .ended call => D.own i call w.toMoment

structure Sound (w : EventLoop σ κ ρ ν μ ε α γ ι) : Prop where
  always : D.always w.toMoment
  stands : ∀ i, D.Stands w i (w.tasks i)

/-- What may happen: answers that are admitted. -/
def Admits (w : EventLoop σ κ ρ ν μ ε α γ ι) : Turn ν γ ι → Prop
  | .answer i a _ => ∀ call r rest since, w.tasks i = .waiting call (.call r rest) since →
      D.admits r a
  | _ => True

variable {D} {w w' : EventLoop σ κ ρ ν μ ε α γ ι} {i j : ι} {call : γ}
  {status : Status σ κ ρ ν μ ε α γ}

/-- Where a call stands is not changed by what the others do. -/
theorem Stands.follows (h : D.Stands w j status) (hw : Follows j w.toMoment w'.toMoment) :
    D.Stands w' j status := by
  cases status with
  | idle =>
      obtain ⟨-, entries, hlog, hentries⟩ := hw
      intro e he
      rw [hlog] at he
      rcases List.mem_append.mp he with hmem | hmem
      · exact h e hmem
      · exact hentries e hmem
  | waiting call rest since =>
      exact ⟨D.own_follows hw h.1, fun v' hv' halways => h.2 v' (hw.trans hv') halways⟩
  | ended call => exact D.own_follows hw h

variable [DecidableEq ι]

/-- **One turn**: it adds to the log what the call did, and leaves the call where it does
    its part. -/
def Turned (D : Discipline σ ρ ν μ ε α γ ι) (i : ι) (w w' : EventLoop σ κ ρ ν μ ε α γ ι) : Prop :=
  Extends (· = i) w.toMoment w'.toMoment ∧ D.always w'.toMoment ∧
    ∃ status, w'.tasks = Function.update w.tasks i status ∧ D.Stands w' i status

variable [DecidableEq κ]

omit [DecidableEq κ] [DecidableEq ι] in
theorem le_of_nextTime {clock t : Time} {times rest : List Time}
    (h : EventLoop.nextTime clock times = some (t, rest)) : clock ≤ t := by
  cases times with
  | nil =>
      obtain ⟨rfl, rfl⟩ := Prod.mk.inj (Option.some.inj h)
      exact le_refl _
  | cons t' times =>
      by_cases hle : clock ≤ t'
      · rw [EventLoop.nextTime, if_pos hle] at h
        obtain ⟨rfl, rfl⟩ := Prod.mk.inj (Option.some.inj h)
        exact hle
      · rw [EventLoop.nextTime, if_neg hle] at h
        cases h

theorem turned_of_proceed {x : Coroutine σ κ ρ ν μ ε α} {times : List Time}
    (h : D.Obeys i call x w.toMoment) (hproceed : EventLoop.proceed i call x times w = some w') :
    D.Turned i w w' := by
  induction x generalizing w times with
  | done a =>
      obtain rfl := Option.some.inj hproceed
      exact ⟨extends_add rfl, h.1, _, rfl, h.2⟩
  | fail e =>
      obtain rfl := Option.some.inj hproceed
      exact ⟨extends_add rfl, h.1, _, rfl, h.2⟩
  | read rest ih => exact ih _ h hproceed
  | write f rest ih =>
      obtain ⟨hextends, hrest⟩ := ih (w := { w with toMoment := w.put f }) h hproceed
      exact ⟨extends_put.trans hextends, hrest⟩
  | now rest ih =>
      simp only [EventLoop.proceed] at hproceed
      split at hproceed
      · next t times' htime =>
          have ht : w.clock ≤ t := le_of_nextTime htime
          obtain ⟨hextends, hrest⟩ := ih t (w := { w with toMoment := w.pass t }) (h t ht) hproceed
          exact ⟨(extends_pass ht).trans hextends, hrest⟩
      · cases hproceed
  | note m rest ih =>
      have hadd : Extends (· = i) w.toMoment (w.add i (.noted m)) := extends_add rfl
      obtain ⟨hextends, hrest⟩ := ih (w := { w with toMoment := w.add i (.noted m) }) h hproceed
      exact ⟨hadd.trans hextends, hrest⟩
  | release k rest ih =>
      exact ih (w := { w with locks := Function.update w.locks k none }) h hproceed
  | acquire k rest ih =>
      obtain rfl := Option.some.inj hproceed
      exact ⟨.refl, h.1.1, _, rfl, h.1.2, h.2⟩
  | sleep d rest ih =>
      obtain rfl := Option.some.inj hproceed
      exact ⟨.refl, h.1.1, _, rfl, h.1.2, h.2⟩
  | call r rest ih =>
      simp only [EventLoop.proceed] at hproceed
      split at hproceed
      · next t times' htime =>
          have ht : w.clock ≤ t := le_of_nextTime htime
          obtain rfl := Option.some.inj hproceed
          obtain ⟨hkeeps, hrest⟩ := h t ht
          refine ⟨(extends_pass ht).trans (extends_add rfl), hkeeps.1, _, rfl, hkeeps.2, ?_⟩
          exact fun v' hv' halways a ha => hrest v' a hv' halways ha
      · cases hproceed

omit [DecidableEq κ] in
/-- A turn of one call leaves the others where they stand. -/
theorem Turned.sound (h : D.Turned i w w') (hw : D.Sound w) : D.Sound w' := by
  obtain ⟨hextends, halways, status, htasks, hstands⟩ := h
  refine ⟨halways, fun j => ?_⟩
  by_cases hji : j = i
  · subst hji
    rw [htasks, Function.update_self]
    exact hstands
  · rw [htasks, Function.update_of_ne hji]
    exact (hw.stands j).follows (hextends.imp fun k hk => hk ▸ Ne.symm hji)

omit [DecidableEq κ] in
/-- A turn goes on from the moment it starts at. -/
theorem Turned.after {w₁ : EventLoop σ κ ρ ν μ ε α γ ι} (h : D.Turned i w₁ w')
    (hextends : Extends (· = i) w.toMoment w₁.toMoment) (htasks : w₁.tasks = w.tasks) :
    D.Turned i w w' := by
  obtain ⟨hextends', halways, status, htasks', hstands⟩ := h
  exact ⟨hextends.trans hextends', halways, status, by rw [htasks', htasks], hstands⟩

variable {coroutine : γ → Coroutine σ κ ρ ν μ ε α} {l : Turn ν γ ι}

theorem turned_of_wake {x : Coroutine σ κ ρ ν μ ε α} {times : List Time} {since : Time}
    (h : x.Resumes D.always (D.Keeps i call) D.admits i since
      (fun v a => D.Keeps i call (v.add i (.returned a)))
      (fun v e => D.Keeps i call (v.add i (.failed e))) w.toMoment)
    (hwake : EventLoop.wake w i call times x = some w') : D.Turned i w w' := by
  cases x with
  | acquire k rest =>
      simp only [EventLoop.wake] at hwake
      split at hwake
      · exact turned_of_proceed
          (w := { w with locks := Function.update w.locks k (some i) }) h hwake
      · cases hwake
  | sleep d rest => exact turned_of_proceed h hwake
  | _ => cases hwake

/-- **A turn is one of some call that does its part.** -/
theorem turned_of_turn
    (hcalls : ∀ i call v, D.always v → (∀ e ∈ v.log, e.author ≠ i) →
      D.Obeys i call (coroutine call) (v.add i (.began call)))
    (hw : D.Sound w) (hadmits : D.Admits w l) (h : EventLoop.turn coroutine w l = some w') :
    ∃ i, D.Turned i w w' := by
  cases l with
  | begin i call times =>
      simp only [EventLoop.turn] at h
      split at h
      · next hidle htime =>
          next t times' =>
          have ht : w.clock ≤ t := le_of_nextTime htime
          have hstands := hw.stands i
          rw [hidle] at hstands
          have hobeys := hcalls i call (w.pass t) (D.always_pass ht hw.always) hstands
          refine ⟨i, (turned_of_proceed (w := { w with toMoment := _ }) hobeys h).after ?_ rfl⟩
          exact (extends_pass ht).trans (extends_add rfl)
      · cases h
  | resume i times =>
      simp only [EventLoop.turn] at h
      split at h
      · next hwaiting htime =>
          next call rest since t times' =>
          have ht : w.clock ≤ t := le_of_nextTime htime
          have hstands := hw.stands i
          rw [hwaiting] at hstands
          have hresumes := hstands.2 (w.pass t) (extends_pass ht) (D.always_pass ht hw.always)
          exact ⟨i, (turned_of_wake (w := { w with toMoment := w.pass t }) hresumes h).after
            (extends_pass ht) rfl⟩
      · cases h
  | answer i a times =>
      simp only [EventLoop.turn] at h
      split at h
      · next hwaiting htime =>
          next call r rest since t times' =>
          have ht : w.clock ≤ t := le_of_nextTime htime
          have hstands := hw.stands i
          rw [hwaiting] at hstands
          have hresumes := hstands.2 (w.pass t) (extends_pass ht) (D.always_pass ht hw.always) a
            (hadmits call r rest since hwaiting)
          refine ⟨i, (turned_of_proceed (w := { w with toMoment := _ }) hresumes h).after ?_ rfl⟩
          exact (extends_pass ht).trans (extends_add rfl)
      · cases h
  | cancel i =>
      simp only [EventLoop.turn] at h
      split at h
      · next call rest since hwaiting =>
          obtain rfl := Option.some.inj h
          have hstands := hw.stands i
          rw [hwaiting] at hstands
          exact ⟨i, extends_add rfl, D.always_cancelled hw.always, .ended call, rfl,
            D.own_cancelled hstands.1⟩
      · cases h

variable {store : σ} {clock : Time} {turns : List (Turn ν γ ι)}

omit [DecidableEq κ] [DecidableEq ι] in
theorem sound_start (h : D.always ⟨store, clock, []⟩) :
    D.Sound (EventLoop.start store clock : EventLoop σ κ ρ ν μ ε α γ ι) :=
  ⟨h, fun _ _ he => absurd he List.not_mem_nil⟩

/-- **Every interleaving keeps the invariant**, when every call does its part from its
    beginning. -/
theorem sound_of_run (hstart : D.always ⟨store, clock, []⟩)
    (hcalls : ∀ i call v, D.always v → (∀ e ∈ v.log, e.author ≠ i) →
      D.Obeys i call (coroutine call) (v.add i (.began call)))
    (hrun : Run (Guarded D.Admits fun w l w' => EventLoop.turn coroutine w l = some w')
      (.start store clock) turns w) : D.Sound w := by
  refine hrun.invariant (sound_start hstart) fun w l w' hw hstep => ?_
  obtain ⟨i, hturned⟩ := turned_of_turn hcalls hw hstep.1 hstep.2
  exact hturned.sound hw

omit [DecidableEq κ] [DecidableEq ι] in
/-- What a call that has begun owes for itself holds. -/
theorem Sound.own (h : D.Sound w) (hcall : (w.tasks i).call? = some call) :
    D.own i call w.toMoment := by
  have hstands := h.stands i
  cases hstatus : w.tasks i with
  | idle => simp [hstatus, Status.call?] at hcall
  | waiting call' rest since =>
      rw [hstatus] at hcall hstands
      obtain rfl := Option.some.inj hcall
      exact hstands.1
  | ended call' =>
      rw [hstatus] at hcall hstands
      obtain rfl := Option.some.inj hcall
      exact hstands

omit [DecidableEq κ] [DecidableEq ι] in
/-- What a call with an entry in the log owes for itself holds. -/
theorem Sound.own_of_mem (h : D.Sound w) {e : Entry ι (Mark γ ρ ν μ ε α)} (he : e ∈ w.log) :
    ∃ call, D.own e.author call w.toMoment := by
  have hstands := h.stands e.author
  cases hstatus : w.tasks e.author with
  | idle =>
      rw [hstatus] at hstands
      exact absurd rfl (hstands e he)
  | waiting call rest since => exact ⟨call, h.own (by rw [hstatus]; rfl)⟩
  | ended call => exact ⟨call, h.own (by rw [hstatus]; rfl)⟩

/-- When every answer is admitted, every run is one of admitted answers. -/
theorem admitted_of_run (hadmits : ∀ r a, D.admits r a)
    (hrun : EventLoop.Interleaving coroutine store clock turns w) :
    Run (Guarded D.Admits fun w l w' => EventLoop.turn coroutine w l = some w')
      (.start store clock) turns w := by
  refine hrun.mono fun w l w' hstep => ⟨?_, hstep⟩
  cases l with
  | answer i a times => exact fun call r rest since _ => hadmits r a
  | _ => trivial

end Discipline

/-! ## 5. A coroutine by itself -/

namespace Coroutine

/-- What a coroutine does at one instant with nobody else there; `none` where it asks
    something outside. -/
def alone (s : σ) (t : Time) : Coroutine σ κ ρ ν μ ε α → Option (Except ε α × σ)
  | .done a => some (.ok a, s)
  | .fail e => some (.error e, s)
  | .read rest => (rest s).alone s t
  | .write f rest => rest.alone (f s) t
  | .now rest => (rest t).alone s t
  | .note _ rest | .release _ rest | .acquire _ rest | .sleep _ rest => rest.alone s t
  | .call _ _ => none

@[simp] theorem alone_handle {s : σ} {t : Time} {x : Coroutine σ κ ρ ν μ ε α}
    {f : α → Coroutine σ κ ρ ν μ ε' β} {handler : ε → Coroutine σ κ ρ ν μ ε' β} :
    (x.handle f handler).alone s t = (x.alone s t).bind fun
      | (.ok a, s') => (f a).alone s' t
      | (.error e, s') => (handler e).alone s' t := by
  induction x generalizing s with
  | done a => rfl
  | fail e => rfl
  | read rest ih => exact ih _
  | write g rest ih => exact ih
  | now rest ih => exact ih _
  | note m rest ih => exact ih
  | release k rest ih => exact ih
  | acquire k rest ih => exact ih
  | sleep d rest ih => exact ih
  | call r rest ih => rfl

@[simp] theorem alone_bind {s : σ} {t : Time} {x : Coroutine σ κ ρ ν μ ε α}
    {f : α → Coroutine σ κ ρ ν μ ε β} :
    (x >>= f).alone s t = (x.alone s t).bind fun
      | (.ok a, s') => (f a).alone s' t
      | (.error e, s') => some (.error e, s') :=
  alone_handle

/-- With nobody else there a lock is free. -/
@[simp] theorem alone_withLock {s : σ} {t : Time} {k : κ} {x : Coroutine σ κ ρ ν μ ε α} :
    (x.withLock k).alone s t = x.alone s t := by
  show (x.handle _ _).alone s t = _
  rw [alone_handle]
  rcases x.alone s t with _ | ⟨_ | _, _⟩ <;> rfl

/-- It never writes. -/
def Quiet : Coroutine σ κ ρ ν μ ε α → Prop
  | .done _ | .fail _ => True
  | .read rest => ∀ s, (rest s).Quiet
  | .write _ _ => False
  | .now rest => ∀ t, (rest t).Quiet
  | .note _ rest | .release _ rest | .acquire _ rest | .sleep _ rest => rest.Quiet
  | .call _ rest => ∀ a, (rest a).Quiet

variable [DecidableEq κ] [DecidableEq ι] {w w' : EventLoop σ κ ρ ν μ ε α γ ι} {i : ι} {call : γ}
  {l : Turn ν γ ι} {coroutine : γ → Coroutine σ κ ρ ν μ ε α}

/-- A turn ends at a wait or at the end of the same call; if it never writes, nor does what
    is left of it. -/
theorem kept_of_proceed {x : Coroutine σ κ ρ ν μ ε α} {times : List Time}
    (hproceed : EventLoop.proceed i call x times w = some w') :
    ∃ status, w'.tasks = Function.update w.tasks i status ∧ status.call? = some call ∧
      (x.Quiet → w'.store = w.store ∧
        ∀ call' rest since, status = .waiting call' rest since → rest.Quiet) := by
  induction x generalizing w times with
  | done a =>
      obtain rfl := Option.some.inj hproceed
      exact ⟨_, rfl, rfl, fun _ => ⟨rfl, by simp⟩⟩
  | fail e =>
      obtain rfl := Option.some.inj hproceed
      exact ⟨_, rfl, rfl, fun _ => ⟨rfl, by simp⟩⟩
  | read rest ih =>
      obtain ⟨status, htasks, hcall, hquiet⟩ := ih _ hproceed
      exact ⟨status, htasks, hcall, fun h => hquiet (h _)⟩
  | write f rest ih =>
      obtain ⟨status, htasks, hcall, -⟩ := ih (w := { w with toMoment := w.put f }) hproceed
      exact ⟨status, htasks, hcall, False.elim⟩
  | now rest ih =>
      simp only [EventLoop.proceed] at hproceed
      split at hproceed
      · next t times' _ =>
          obtain ⟨status, htasks, hcall, hquiet⟩ :=
            ih t (w := { w with toMoment := w.pass t }) hproceed
          exact ⟨status, htasks, hcall, fun h => hquiet (h t)⟩
      · cases hproceed
  | note m rest ih => exact ih (w := { w with toMoment := w.add i (.noted m) }) hproceed
  | release k rest ih =>
      exact ih (w := { w with locks := Function.update w.locks k none }) hproceed
  | acquire k rest ih =>
      obtain rfl := Option.some.inj hproceed
      refine ⟨_, rfl, rfl, fun h => ⟨rfl, fun call' rest' since heq => ?_⟩⟩
      cases heq
      exact h
  | sleep d rest ih =>
      obtain rfl := Option.some.inj hproceed
      refine ⟨_, rfl, rfl, fun h => ⟨rfl, fun call' rest' since heq => ?_⟩⟩
      cases heq
      exact h
  | call r rest ih =>
      simp only [EventLoop.proceed] at hproceed
      split at hproceed
      · obtain rfl := Option.some.inj hproceed
        refine ⟨_, rfl, rfl, fun h => ⟨rfl, fun call' rest' since heq => ?_⟩⟩
        cases heq
        exact h
      · cases hproceed

/-- **A turn of a call that never writes leaves the state**, and what is left of the call
    never writes. -/
theorem kept_of_turn (hturn : EventLoop.turn coroutine w l = some w')
    (hw : ∀ i call rest since, w.tasks i = .waiting call rest since → (coroutine call).Quiet →
      rest.Quiet) :
    ∃ status call, w'.tasks = Function.update w.tasks l.author status ∧
      status.call? = some call ∧ ((coroutine call).Quiet → w'.store = w.store ∧
        ∀ call' rest since, status = .waiting call' rest since → rest.Quiet) := by
  cases l with
  | begin i call times =>
      simp only [EventLoop.turn] at hturn
      split at hturn
      · exact (kept_of_proceed hturn).imp fun status h => ⟨call, h⟩
      · cases hturn
  | resume i times =>
      simp only [EventLoop.turn] at hturn
      split at hturn
      · next hwaiting htime =>
          next call rest since t times' =>
          cases rest with
          | acquire k rest =>
              simp only [EventLoop.wake] at hturn
              split at hturn
              · obtain ⟨status, htasks, hcall, hquiet⟩ := kept_of_proceed hturn
                have hrest : (coroutine call).Quiet → rest.Quiet :=
                  hw i call (.acquire k rest) since hwaiting
                exact ⟨status, call, htasks, hcall, fun h => hquiet (hrest h)⟩
              · cases hturn
          | sleep d rest =>
              obtain ⟨status, htasks, hcall, hquiet⟩ := kept_of_proceed hturn
              have hrest : (coroutine call).Quiet → rest.Quiet :=
                hw i call (.sleep d rest) since hwaiting
              exact ⟨status, call, htasks, hcall, fun h => hquiet (hrest h)⟩
          | _ => cases hturn
      · cases hturn
  | answer i a times =>
      simp only [EventLoop.turn] at hturn
      split at hturn
      · next hwaiting htime =>
          next call r rest since t times' =>
          obtain ⟨status, htasks, hcall, hquiet⟩ := kept_of_proceed hturn
          exact ⟨status, call, htasks, hcall, fun h => hquiet (hw _ _ _ _ hwaiting h a)⟩
      · cases hturn
  | cancel i =>
      simp only [EventLoop.turn] at hturn
      split at hturn
      · next call rest since hwaiting =>
          obtain rfl := Option.some.inj hturn
          exact ⟨.ended call, call, rfl, rfl, fun _ => ⟨rfl, by simp⟩⟩
      · cases hturn

/-- What is left of a call that never writes never does. -/
theorem quiet_of_run {store : σ} {clock : Time} {turns : List (Turn ν γ ι)}
    (hrun : EventLoop.Interleaving coroutine store clock turns w) :
    ∀ i call rest since, w.tasks i = .waiting call rest since → (coroutine call).Quiet →
      rest.Quiet := by
  refine hrun.invariant (I := fun w => ∀ i call rest since,
    w.tasks i = .waiting call rest since → (coroutine call).Quiet → rest.Quiet)
    (fun i call rest since h => ?_) fun w l w' hw hstep => ?_
  · cases h
  · obtain ⟨status, call, htasks, hcall, hquiet⟩ := kept_of_turn hstep hw
    intro j call' rest since hwaiting hquiet'
    rw [htasks] at hwaiting
    by_cases hji : j = l.author
    · rw [hji] at hwaiting
      rw [Function.update_self] at hwaiting
      subst hwaiting
      obtain rfl : call' = call := Option.some.inj hcall
      exact (hquiet hquiet').2 _ _ _ rfl
    · rw [Function.update_of_ne hji] at hwaiting
      exact hw j call' rest since hwaiting hquiet'

/-- **In every run a turn of a call that never writes leaves the state.** -/
theorem store_of_quiet {store : σ} {clock : Time} {turns : List (Turn ν γ ι)}
    (hrun : EventLoop.Interleaving coroutine store clock turns w)
    (hturn : EventLoop.turn coroutine w l = some w')
    (hcall : (w'.tasks l.author).call? = some call) (hquiet : (coroutine call).Quiet) :
    w'.store = w.store := by
  obtain ⟨status, call', htasks, hcall', hkept⟩ := kept_of_turn hturn (quiet_of_run hrun)
  rw [htasks, Function.update_self, hcall'] at hcall
  obtain rfl := Option.some.inj hcall
  exact (hkept hquiet).1

end Coroutine

end Helpdesk.Coroutines
