/-
  File:      Helpdesk/Lib/Buckets.lean
  Subject:   An object store addressed by key.

  Every operation is atomic on one key. A copy takes what is at its source when it is
  made, whoever has put it there.

  * `Bucket.Holds`: the object at a key exists and meets a condition; what keeps it;
  * `Bucket.SameOn`: the objects of a set of keys are untouched.
-/
import Mathlib.Tactic.Common

namespace Helpdesk

/-- The object at each key, if there is one. -/
abbrev Bucket (κ β : Type) := κ → Option β

namespace Bucket

variable {κ β : Type} {b b' b'' : Bucket κ β} {key target source : κ} {object : β}
  {P Q : β → Prop} {S : κ → Prop}

/-- There is an object at the key, and it meets the condition. -/
def Holds (b : Bucket κ β) (key : κ) (P : β → Prop) : Prop := ∃ object, b key = some object ∧ P object

theorem Holds.mono (h : b.Holds key P) (hPQ : ∀ object, P object → Q object) : b.Holds key Q := by
  obtain ⟨object, hobject, hP⟩ := h
  exact ⟨object, hobject, hPQ object hP⟩

/-- The objects at these keys are the same. -/
def SameOn (S : κ → Prop) (b b' : Bucket κ β) : Prop := ∀ key, S key → b' key = b key

theorem SameOn.refl (b : Bucket κ β) : SameOn S b b := fun _ _ => rfl

theorem SameOn.trans (h : SameOn S b b') (h' : SameOn S b' b'') : SameOn S b b'' :=
  fun key hkey => (h' key hkey).trans (h key hkey)

theorem SameOn.holds (hsame : SameOn S b b') (hkey : S key) (h : b.Holds key P) : b'.Holds key P := by
  obtain ⟨object, hobject, hP⟩ := h
  exact ⟨object, (hsame key hkey).trans hobject, hP⟩

/-! ## Operations -/

variable [DecidableEq κ]

def put (b : Bucket κ β) (target : κ) (object : β) : Bucket κ β :=
  fun key => if key = target then some object else b key

def delete (b : Bucket κ β) (target : κ) : Bucket κ β :=
  fun key => if key = target then none else b key

/-- A copy of the object at the source, which has to exist. -/
def copy (b : Bucket κ β) (source target : κ) : Option (Bucket κ β) :=
  (b source).map (b.put target)

theorem put_self : b.put target object target = some object := if_pos rfl

theorem put_ne (h : key ≠ target) : b.put target object key = b key := if_neg h

theorem delete_ne (h : key ≠ target) : b.delete target key = b key := if_neg h

theorem copy_eq_some : b.copy source target = some b' ↔
    ∃ object, b source = some object ∧ b.put target object = b' := Option.map_eq_some_iff

theorem holds_put (hP : P object) : (b.put target object).Holds target P :=
  ⟨object, put_self, hP⟩

/-- An object that meets the condition may take the place. -/
theorem Holds.put (h : b.Holds key P) (hP : key = target → P object) :
    (b.put target object).Holds key P := by
  by_cases hkey : key = target
  · exact ⟨object, by rw [hkey, put_self], hP hkey⟩
  · obtain ⟨old, hold, hPold⟩ := h
    exact ⟨old, by rw [put_ne hkey, hold], hPold⟩

theorem sameOn_put (htarget : ¬ S target) : SameOn S b (b.put target object) :=
  fun _ hkey => put_ne fun heq => htarget (heq ▸ hkey)

theorem sameOn_delete (htarget : ¬ S target) : SameOn S b (b.delete target) :=
  fun _ hkey => delete_ne fun heq => htarget (heq ▸ hkey)

end Bucket

end Helpdesk
