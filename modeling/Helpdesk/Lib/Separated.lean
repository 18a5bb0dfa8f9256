/-
  File:      Helpdesk/Lib/Separated.lean
  Subject:   Parts that are joined at a separator and split again.

  The whole is split wherever the separator stands, also inside of the parts, so the parts
  come back exactly where none of them has it.

  * `splitOn_join`: each part is split for itself;
  * **`splitOn_join_iff`**: the parts come back whole;
  * `length_splitOn_join_iff`: it is enough that no more come out than go in;
  * `fields_line_iff`, **`readRows_table_iff`**: the same for the cells of a line, and for the
    lines of a table and their cells.
-/
import Mathlib.Data.List.Basic
import Mathlib.Tactic.Common

namespace Helpdesk.Separated

variable {α β : Type}

/-! ## 1. Parts and their ends -/

/-- The last member is the first one, or it is behind it. -/
theorem last_behind {first last : α} {rest body : List α} (h : first :: rest = body ++ [last]) :
    (rest = [] ∧ first = last) ∨ ∃ body, rest = body ++ [last] := by
  cases body with
  | nil =>
    obtain ⟨rfl, rfl⟩ := List.cons.inj h
    exact .inl ⟨rfl, rfl⟩
  | cons d body =>
    obtain ⟨_, rfl⟩ := List.cons.inj h
    exact .inr ⟨body, rfl⟩

theorem join_front (sep first : List α) (rest : List (List α)) :
    ∃ back, sep.intercalate (first :: rest) = first ++ back := by
  cases rest with
  | nil => exact ⟨[], by rw [List.intercalate_singleton, List.append_nil]⟩
  | cons next rest => exact ⟨_, by rw [List.intercalate_cons_cons, List.append_assoc]⟩

theorem join_concat (sep : List α) : ∀ {parts : List (List α)}, parts ≠ [] → ∀ last : List α,
    sep.intercalate (parts ++ [last]) = sep.intercalate parts ++ (sep ++ last)
  | [], h, _ => absurd rfl h
  | [part], _, last => by
    rw [List.singleton_append, List.intercalate_cons_cons, List.intercalate_singleton,
      List.intercalate_singleton, List.append_assoc]
  | part :: next :: parts, _, last => by
    rw [List.cons_append, List.cons_append, List.intercalate_cons_cons, ← List.cons_append,
      join_concat sep (List.cons_ne_nil next parts) last, List.intercalate_cons_cons,
      List.append_assoc _ (sep.intercalate _)]

theorem join_back (sep : List α) (parts : List (List α)) (last : List α) :
    ∃ front, sep.intercalate (parts ++ [last]) = front ++ last := by
  by_cases hnil : parts = []
  · exact ⟨[], by rw [hnil, List.nil_append, List.nil_append, List.intercalate_singleton]⟩
  · exact ⟨_, by rw [join_concat sep hnil, ← List.append_assoc]⟩

/-- A text that begins and ends with a member. -/
structure Framed (c : α) (text : List α) : Prop where
  front : ∃ back, text = c :: back
  back : ∃ front, text = front ++ [c]

/-- The whole begins with the first part and ends with the last one. -/
theorem framed_join {c : α} {parts : List (List α)} (sep : List α)
    (hfirst : ∃ part rest, parts = (c :: part) :: rest)
    (hlast : ∃ front part, parts = front ++ [part ++ [c]]) : Framed c (sep.intercalate parts) := by
  constructor
  · obtain ⟨part, rest, rfl⟩ := hfirst
    obtain ⟨back, hback⟩ := join_front sep (c :: part) rest
    exact ⟨part ++ back, by rw [hback, List.cons_append]⟩
  · obtain ⟨front, part, rfl⟩ := hlast
    obtain ⟨before, hbefore⟩ := join_back sep front (part ++ [c])
    exact ⟨before ++ part, by rw [hbefore, List.append_assoc]⟩

theorem framed_join_of_forall {c : α} {parts : List (List α)} (sep : List α) (hne : parts ≠ [])
    (h : ∀ part ∈ parts, Framed c part) : Framed c (sep.intercalate parts) := by
  refine framed_join sep ?_ ?_
  · obtain ⟨first, rest, rfl⟩ := List.exists_cons_of_ne_nil hne
    obtain ⟨part, hpart⟩ := (h first List.mem_cons_self).front
    exact ⟨part, rest, by rw [hpart]⟩
  · obtain ⟨front, last, rfl⟩ := (List.eq_nil_or_concat' parts).resolve_left hne
    obtain ⟨part, hpart⟩ := (h last (List.mem_append_right front List.mem_cons_self)).back
    exact ⟨front, part, by rw [hpart]⟩

/-- What stands in the whole, besides the separator. -/
theorem mem_join_iff {x sep : α} (hx : x ≠ sep) : ∀ {parts : List (List α)},
    x ∈ [sep].intercalate parts ↔ ∃ part ∈ parts, x ∈ part
  | [] => ⟨fun h => absurd h List.not_mem_nil, fun ⟨_, h, _⟩ => absurd h List.not_mem_nil⟩
  | [part] => by simp
  | part :: next :: rest => by
    rw [List.intercalate_cons_cons, List.mem_append, List.mem_append, List.mem_singleton,
      mem_join_iff hx, or_iff_left hx]
    simp

theorem length_le_flatMap {f : α → List β} {parts : List α} (hne : ∀ part ∈ parts, f part ≠ []) :
    parts.length ≤ (parts.flatMap f).length := by
  induction parts with
  | nil => exact Nat.zero_le _
  | cons part parts ih =>
    have hfirst := List.length_pos_of_ne_nil (hne part List.mem_cons_self)
    have hrest := ih fun p hp => hne p (List.mem_cons_of_mem part hp)
    rw [List.flatMap_cons, List.length_append, List.length_cons]
    omega

/-- Where each part gives one at least, and no more come out than go in, each gives one. -/
theorem length_eq_one_of_flatMap {f : α → List β} :
    ∀ {parts : List α}, (∀ part ∈ parts, f part ≠ []) → (parts.flatMap f).length = parts.length →
      ∀ part ∈ parts, (f part).length = 1
  | [], _, _ => fun _ h => absurd h List.not_mem_nil
  | part :: parts, hne, hlength => by
    have hfirst := List.length_pos_of_ne_nil (hne part List.mem_cons_self)
    have hrest := length_le_flatMap fun p hp => hne p (List.mem_cons_of_mem part hp)
    rw [List.flatMap_cons, List.length_append, List.length_cons] at hlength
    refine List.forall_mem_cons.mpr ⟨by omega, ?_⟩
    exact length_eq_one_of_flatMap (fun p hp => hne p (List.mem_cons_of_mem part hp)) (by omega)

/-! ## 2. Joined and split -/

section Split

variable [BEq α] [LawfulBEq α] {sep : α} {text : List α} {parts : List (List α)}

theorem length_splitOn_eq_one : (text.splitOn sep).length = 1 ↔ sep ∉ text := by
  constructor
  · intro h hmem
    obtain ⟨front, back, rfl, hfront⟩ := List.eq_append_cons_of_mem hmem
    rw [List.splitOn_append_cons_self_of_not_mem hfront, List.length_cons] at h
    exact List.splitOn_ne_nil sep back (List.eq_nil_of_length_eq_zero (Nat.succ.inj h))
  · intro h
    rw [List.splitOn_eq_singleton h, List.length_singleton]

/-- **Each part is split for itself.** -/
theorem splitOn_join : ∀ {parts : List (List α)}, parts ≠ [] →
    ([sep].intercalate parts).splitOn sep = parts.flatMap (List.splitOn sep)
  | [], h => absurd rfl h
  | [part], _ => by rw [List.intercalate_singleton, List.flatMap_singleton]
  | part :: next :: rest, _ => by
    have hrest : ([sep].intercalate (next :: rest)).splitOn sep = (next :: rest).flatMap (List.splitOn sep) :=
      splitOn_join (List.cons_ne_nil _ _)
    rw [List.intercalate_cons_cons, List.append_assoc, List.singleton_append,
      List.splitOn_append_cons_self, hrest]
    rfl

theorem length_le_splitOn_join (hne : parts ≠ []) :
    parts.length ≤ (([sep].intercalate parts).splitOn sep).length := by
  rw [splitOn_join hne]
  exact length_le_flatMap fun p _ => List.splitOn_ne_nil sep p

theorem length_splitOn_join_iff (hne : parts ≠ []) :
    (([sep].intercalate parts).splitOn sep).length = parts.length ↔ ∀ part ∈ parts, sep ∉ part := by
  constructor
  · intro h part hpart
    rw [splitOn_join hne] at h
    exact length_splitOn_eq_one.mp
      (length_eq_one_of_flatMap (fun p _ => List.splitOn_ne_nil sep p) h part hpart)
  · intro h
    rw [splitOn_join hne]
    induction parts with
    | nil => rfl
    | cons part parts ih =>
      have hrest : (parts.flatMap (List.splitOn sep)).length = parts.length := by
        by_cases hnil : parts = []
        · rw [hnil]
          rfl
        · exact ih hnil fun p hp => h p (List.mem_cons_of_mem part hp)
      rw [List.flatMap_cons, List.splitOn_eq_singleton (h part List.mem_cons_self),
        List.singleton_append, List.length_cons, List.length_cons, hrest]

/-- **The parts come back** exactly where no part has the separator. -/
theorem splitOn_join_iff (hne : parts ≠ []) :
    ([sep].intercalate parts).splitOn sep = parts ↔ ∀ part ∈ parts, sep ∉ part := by
  constructor
  · intro h
    exact (length_splitOn_join_iff hne).mp (congrArg List.length h)
  · intro h
    rw [splitOn_join hne]
    clear hne
    induction parts with
    | nil => rfl
    | cons part parts ih =>
      rw [List.flatMap_cons, List.splitOn_eq_singleton (h part List.mem_cons_self),
        ih fun p hp => h p (List.mem_cons_of_mem part hp), List.singleton_append]

end Split

/-! ## 3. Tables -/

section Lines

variable {bar : α} {pad : List α → List α}

/-- The line of a row: the cells, padded, between bars. -/
def line (bar : α) (pad : List α → List α) (cells : List (List α)) : List α :=
  [bar].intercalate ([] :: (cells.map pad ++ [[]]))

theorem mem_line_iff {x : α} (hx : x ≠ bar) {cells : List (List α)} :
    x ∈ line bar pad cells ↔ ∃ cell ∈ cells, x ∈ pad cell := by
  rw [line, mem_join_iff hx]
  constructor
  · intro ⟨part, hpart, hmem⟩
    rcases List.mem_cons.mp hpart with rfl | hpart
    · cases hmem
    · rcases List.mem_append.mp hpart with hpart | hpart
      · obtain ⟨cell, hcell, rfl⟩ := List.mem_map.mp hpart
        exact ⟨cell, hcell, hmem⟩
      · rw [List.mem_singleton.mp hpart] at hmem
        cases hmem
  · intro ⟨cell, hcell, hmem⟩
    exact ⟨pad cell, List.mem_cons_of_mem _ (List.mem_append_left _ (List.mem_map_of_mem hcell)), hmem⟩

/-- A line stands between two bars. -/
theorem framed_line (bar : α) (pad : List α → List α) (cells : List (List α)) :
    Framed bar (line bar pad cells) := by
  constructor
  · obtain ⟨part, parts, hparts⟩ := List.exists_cons_of_ne_nil
      (List.append_ne_nil_of_right_ne_nil (cells.map pad) (List.cons_ne_nil ([] : List α) []))
    exact ⟨_, by rw [line, hparts, List.intercalate_cons_cons]; rfl⟩
  · exact ⟨[bar].intercalate ([] :: cells.map pad), by
      rw [line, ← List.cons_append, join_concat _ (List.cons_ne_nil _ _), List.append_nil]⟩

end Lines

section Tables

variable [BEq α] [LawfulBEq α] {bar newline : α} {pad : List α → List α} {read : List α → β}

/-- What is read between the bars of a line. -/
def fields (bar : α) (read : List α → β) (line : List α) : List β :=
  ((line.splitOn bar).drop 1).dropLast.map read

/-- **The cells of a line come back** exactly where no cell has a bar. -/
theorem fields_line_iff {cells : List (List α)} :
    fields bar read (line bar pad cells) = cells.map (fun cell => read (pad cell)) ↔
      ∀ cell ∈ cells, bar ∉ pad cell := by
  have hne : [] :: (cells.map pad ++ [[]]) ≠ [] := List.cons_ne_nil _ _
  have hparts : (∀ part ∈ [] :: (cells.map pad ++ [[]]), bar ∉ part) ↔ ∀ cell ∈ cells, bar ∉ pad cell := by
    rw [List.forall_mem_cons, List.forall_mem_append, List.forall_mem_singleton, List.forall_mem_map]
    simp
  rw [← hparts]
  constructor
  · intro h
    have hlength := congrArg List.length h
    rw [fields, List.length_map, List.length_dropLast, List.length_drop, List.length_map] at hlength
    have hle : _ ≤ (([bar].intercalate ([] :: (cells.map pad ++ [[]]))).splitOn bar).length :=
      length_le_splitOn_join hne
    rw [← length_splitOn_join_iff hne]
    rw [line] at hlength
    rw [List.length_cons, List.length_append, List.length_map, List.length_singleton] at hle ⊢
    omega
  · intro h
    rw [fields, line, (splitOn_join_iff hne).mpr h, List.drop_succ_cons, List.drop_zero,
      List.dropLast_concat, List.map_map]
    rfl

/-- The lines of a table: a rule stands behind the first row. -/
def table (bar newline : α) (pad : List α → List α) (rule : List α) (first : List (List α))
    (rest : List (List (List α))) : List α :=
  [newline].intercalate (line bar pad first :: rule :: rest.map (line bar pad))

/-- The rows of a table; its second line is the rule. -/
def readRows (bar newline : α) (read : List α → β) (text : List α) : List (List β) :=
  match text.splitOn newline with
  | first :: _ :: rest => (first :: rest).map (fields bar read)
  | _ => []

omit [LawfulBEq α] in
theorem length_readRows (text : List α) :
    (readRows bar newline read text).length = (text.splitOn newline).length - 1 := by
  rw [readRows]
  split
  · next hsplit => rw [hsplit, List.length_map, List.length_cons, List.length_cons, List.length_cons]; rfl
  · next hsplit =>
    cases hlines : text.splitOn newline with
    | nil => rfl
    | cons first rest =>
      cases rest with
      | nil => rfl
      | cons rule rest => exact absurd hlines (hsplit first rule rest)

/-- **The cells of a table come back** exactly where no cell has a bar or the end of a line. -/
theorem readRows_table_iff (hbar : newline ≠ bar) {rule : List α} (hrule : newline ∉ rule)
    {first : List (List α)} {rest : List (List (List α))} :
    readRows bar newline read (table bar newline pad rule first rest) =
        (first :: rest).map (·.map fun cell => read (pad cell)) ↔
      ∀ row ∈ first :: rest, ∀ cell ∈ row, bar ∉ pad cell ∧ newline ∉ pad cell := by
  have hne : line bar pad first :: rule :: rest.map (line bar pad) ≠ [] := List.cons_ne_nil _ _
  have hwhole : (∀ part ∈ line bar pad first :: rule :: rest.map (line bar pad), newline ∉ part) ↔
      ∀ row ∈ first :: rest, ∀ cell ∈ row, newline ∉ pad cell := by
    rw [List.forall_mem_cons, List.forall_mem_cons, List.forall_mem_map, List.forall_mem_cons]
    simp only [mem_line_iff hbar, not_exists, not_and, hrule, not_false_eq_true, true_and]
  have hrows : (∀ row ∈ first :: rest, ∀ cell ∈ row, newline ∉ pad cell) →
      (readRows bar newline read (table bar newline pad rule first rest) =
          (first :: rest).map (·.map fun cell => read (pad cell)) ↔
        ∀ row ∈ first :: rest, ∀ cell ∈ row, bar ∉ pad cell) := by
    intro hline
    rw [readRows, table, (splitOn_join_iff hne).mpr (hwhole.mpr hline)]
    show ((first :: rest).map (line bar pad)).map (fields bar read) = _ ↔ _
    rw [List.map_map, List.map_inj_left]
    exact forall₂_congr fun row _ => fields_line_iff
  constructor
  · intro h
    have hlength := congrArg List.length h
    rw [length_readRows, List.length_map, List.length_cons] at hlength
    have hline := hwhole.mp ((length_splitOn_join_iff hne).mp (by
      rw [table] at hlength
      rw [List.length_cons, List.length_cons, List.length_map]
      omega))
    intro row hrow cell hcell
    exact ⟨(hrows hline).mp h row hrow cell hcell, hline row hrow cell hcell⟩
  · intro h
    refine (hrows ?_).mpr ?_
    · exact fun row hrow cell hcell => (h row hrow cell hcell).2
    · exact fun row hrow cell hcell => (h row hrow cell hcell).1

end Tables

end Helpdesk.Separated
