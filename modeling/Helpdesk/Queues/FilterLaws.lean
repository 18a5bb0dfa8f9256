/-
  File:      Helpdesk/Queues/FilterLaws.lean
  Subject:   The condition of a queue filter says what the filter says.

  * `parameterName_injective`, `numbered_nodup`: the names are numbered without a gap,
    and each stands once in the dict;
  * `Sound`: the parameters a condition names, and its value on every ticket;
  * **`compile_sound`**: a compiled condition is sound, by the structure of the filter.
-/
import Helpdesk.Lib.Fallible
import Helpdesk.Queues.Filters

namespace Helpdesk.Queues

open Helpdesk.Python Helpdesk.Conditions

/-! ## 1. The names of the parameters -/

theorem parameterName_injective {i j : Nat} (h : parameterName i = parameterName j) : i = j := by
  have hlist : ("queue_filter_" ++ toString i).toList = ("queue_filter_" ++ toString j).toList :=
    congrArg String.toList h
  rw [String.toList_append, String.toList_append] at hlist
  have hdigits : (toString i).toList = (toString j).toList := List.append_cancel_left hlist
  have hrepr : ∀ n : Nat, (toString n).toList = Nat.toDigits 10 n := fun n => String.toList_ofList
  rw [hrepr, hrepr] at hdigits
  calc i = Nat.ofDigitChars 10 (Nat.toDigits 10 i) 0 :=
        (Nat.ofDigitChars_toDigits (by decide) (by decide)).symm
    _ = Nat.ofDigitChars 10 (Nat.toDigits 10 j) 0 := by rw [hdigits]
    _ = j := Nat.ofDigitChars_toDigits (by decide) (by decide)

theorem isGenerated_parameterName (i : Nat) : isGenerated (parameterName i) = true := by
  unfold isGenerated parameterName
  rw [String.toList_append, List.isPrefixOf_iff_prefix]
  exact List.prefix_append _ _

/-- Parameters with the numbers from zero on. -/
def numbered (generated : List Bind) : Parameters :=
  generated.zipIdx.map fun p => (parameterName p.2, p.1)

/-- A dict without generated names. -/
def Ungenerated (base : Parameters) : Prop := ∀ p ∈ base, isGenerated p.1 = false

section Names

variable {base : Parameters} {generated : List Bind}

theorem mem_numbered {p : String × Bind} (h : p ∈ numbered generated) :
    ∃ i, p.1 = parameterName i ∧ i < generated.length := by
  obtain ⟨⟨b, i⟩, hmem, rfl⟩ := List.mem_map.mp h
  exact ⟨i, rfl, (List.mem_zipIdx' hmem).1⟩

theorem mem_numbered_of_getElem? {i : Nat} {b : Bind} (h : generated[i]? = some b) :
    (parameterName i, b) ∈ numbered generated := by
  refine List.mem_map.mpr ⟨(b, i), ?_, rfl⟩
  rw [List.mem_zipIdx_iff_getElem?]
  exact h

theorem numbered_append (generated : List Bind) (b : Bind) :
    numbered (generated ++ [b]) = numbered generated ++ [(parameterName generated.length, b)] := by
  simp [numbered, List.zipIdx_append]

theorem nextIndex_numbered (hbase : Ungenerated base) (generated : List Bind) :
    nextIndex (base ++ numbered generated) = generated.length := by
  have hnone : base.countP (fun p => isGenerated p.1) = 0 := by
    rw [List.countP_eq_zero]
    intro p hp
    rw [hbase p hp]
    decide
  have hall : (numbered generated).countP (fun p => isGenerated p.1) = (numbered generated).length := by
    rw [List.countP_eq_length]
    intro p hp
    obtain ⟨i, hi, -⟩ := mem_numbered hp
    rw [hi]
    exact isGenerated_parameterName i
  unfold nextIndex
  rw [List.countP_append, hnone, hall]
  simp [numbered]

/-- The next name is not in the dict yet. -/
theorem nextName_fresh (hbase : Ungenerated base) (generated : List Bind) :
    parameterName generated.length ∉ (base ++ numbered generated).map Prod.fst := by
  rw [List.map_append, List.mem_append, not_or]
  constructor
  · intro h
    obtain ⟨p, hp, heq⟩ := List.mem_map.mp h
    have hfalse := hbase p hp
    rw [heq, isGenerated_parameterName] at hfalse
    cases hfalse
  · intro h
    obtain ⟨p, hp, heq⟩ := List.mem_map.mp h
    obtain ⟨i, hi, hlt⟩ := mem_numbered hp
    have hsame := parameterName_injective (hi.symm.trans heq)
    omega

/-- A bound value gets the next number. -/
theorem bound_numbered (hbase : Ungenerated base) (atom : Nat → Atom) (b : Bind) :
    bound atom b (base ++ numbered generated) =
      ([.atom (atom generated.length)], base ++ numbered (generated ++ [b])) := by
  unfold bound
  rw [nextIndex_numbered hbase, assign_of_fresh (nextName_fresh hbase generated), numbered_append,
    List.append_assoc]

/-- Every key stands once. -/
theorem numbered_nodup (hbase : Ungenerated base) (hkeys : (base.map Prod.fst).Nodup)
    (generated : List Bind) : ((base ++ numbered generated).map Prod.fst).Nodup := by
  induction generated using List.reverseRecOn with
  | nil => simpa [numbered] using hkeys
  | append_singleton generated b ih =>
      have hfresh := nextName_fresh hbase generated
      rw [numbered_append, ← List.append_assoc, List.map_append, List.nodup_append]
      refine ⟨ih, List.nodup_singleton _, ?_⟩
      intro key hkey key' hkey' heq
      obtain rfl : key' = parameterName generated.length := by simpa using hkey'
      exact hfresh (heq ▸ hkey)

end Names

/-! ## 2. What a compiled condition is -/

/-- The statement's parameters: the caller's, and those that were generated. -/
structure Supplies (binds : Binds) (context : QueueContext) (generated : List Bind) : Prop where
  user : binds "current_user_id" = some (.uuid context.userId)
  groups : binds "support_group_ids" = some (.uuids context.supportGroupIds)
  generated : ∀ i b, generated[i]? = some b → binds (parameterName i) = some b

/-- **A condition that says what the filter says**, with these further parameters. -/
structure Sound (value : Json) (sql : Sql) (generated more : List Bind) : Prop where
  indices : indices sql = List.range' generated.length more.length
  truth : ∀ row context binds, Supplies binds context (generated ++ more) →
    ∃ t, Denotes (atomTruth row binds) sql t ∧ (t = some true ↔ holds row context value = true)

structure SoundAll (children : List Json) (parts : List Sql) (generated more : List Bind) : Prop where
  indices : parts.flatMap indices = List.range' generated.length more.length
  truth : ∀ row context binds, Supplies binds context (generated ++ more) →
    ∃ ts, List.Forall₂ (Denotes (atomTruth row binds)) parts ts ∧
      ((∀ t ∈ ts, t = some true) ↔ holdsAll row context children = true) ∧
      ((∃ t ∈ ts, t = some true) ↔ holdsAny row context children = true)

section Sound

variable {generated more : List Bind} {value : Json} {sql : Sql} {a : Atom}

theorem Supplies.mono {binds : Binds} {context : QueueContext} {further : List Bind}
    (h : Supplies binds context (generated ++ further)) : Supplies binds context generated where
  user := h.user
  groups := h.groups
  generated i b hi := h.generated i b (List.getElem?_append_left (List.getElem?_eq_some_iff.mp hi).1
    |>.trans hi)

/-- An atom that binds nothing. -/
theorem sound_atom (hindex : a.index? = none)
    (htruth : ∀ row context binds, Supplies binds context generated →
      (atomTruth row binds a = some true ↔ holds row context value = true)) :
    Sound value [.atom a] generated [] where
  indices := by simp [indices, hindex]
  truth row context binds hsupplies := by
    rw [List.append_nil] at hsupplies
    exact ⟨_, denotes_atom a, htruth row context binds hsupplies⟩

/-- An atom that binds one value. -/
theorem sound_bound {atom : Nat → Atom} {b : Bind}
    (hindex : ∀ i, (atom i).index? = some i)
    (htruth : ∀ row context binds, binds (parameterName generated.length) = some b →
      (atomTruth row binds (atom generated.length) = some true ↔ holds row context value = true)) :
    Sound value [.atom (atom generated.length)] generated [b] where
  indices := by simp [indices, hindex]
  truth row context binds hsupplies := by
    refine ⟨_, denotes_atom _, htruth row context binds (hsupplies.generated _ _ ?_)⟩
    simp

theorem indices_append (sql sql' : Sql) : indices (sql ++ sql') = indices sql ++ indices sql' :=
  List.filterMap_append

theorem indices_parenthesized (sql : Sql) : indices (parenthesized sql) = indices sql := by
  show indices (.lparen :: sql ++ [.rparen]) = indices sql
  rw [indices_append]
  show indices sql ++ [] = indices sql
  rw [List.append_nil]

theorem indices_joined (c : Connective) (parts : List Sql) :
    indices (Conditions.joined c parts) = parts.flatMap indices := by
  induction parts with
  | nil => rfl
  | cons part rest ih =>
      cases rest with
      | nil =>
          show indices (parenthesized part) = _
          rw [indices_parenthesized]
          simp
      | cons part' rest =>
          show indices (parenthesized part ++ .connective c :: Conditions.joined c (part' :: rest)) = _
          rw [indices_append, indices_parenthesized, List.flatMap_cons]
          exact congrArg _ ih

/-- A group says what its connective makes of its children. -/
theorem SoundAll.joined {children : List Json} {parts : List Sql} {key : String} {c : Connective}
    (h : SoundAll children parts generated more) (hkey : connective? key = some c)
    (hne : parts ≠ []) :
    Sound (.dict [(key, .list children)]) (Conditions.joined c parts) generated more where
  indices := by
    rw [indices_joined]
    exact h.indices
  truth row context binds hsupplies := by
    obtain ⟨ts, hts, hall, hany⟩ := h.truth row context binds hsupplies
    obtain ⟨t, hdenotes, ht⟩ := denotes_joined c hts hne
    refine ⟨t, hdenotes, ht.trans ?_⟩
    cases c with
    | and =>
        rw [holds]
        simp only [hkey]
        exact hall
    | or =>
        rw [holds]
        simp only [hkey]
        exact hany

/-- The children of a group, from left to right. -/
theorem Sound.cons {child : Json} {rest : List Json} {parts : List Sql} {more' : List Bind}
    (h : Sound child sql generated more) (hrest : SoundAll rest parts (generated ++ more) more') :
    SoundAll (child :: rest) (sql :: parts) generated (more ++ more') where
  indices := by
    rw [List.flatMap_cons, h.indices, hrest.indices, List.length_append, List.length_append]
    exact List.range'_append_1
  truth row context binds hsupplies := by
    rw [← List.append_assoc] at hsupplies
    obtain ⟨t, hdenotes, ht⟩ := h.truth row context binds hsupplies.mono
    obtain ⟨ts, hts, hall, hany⟩ := hrest.truth row context binds hsupplies
    refine ⟨t :: ts, .cons hdenotes hts, ?_, ?_⟩
    · rw [List.forall_mem_cons, ht, hall, holdsAll, Bool.and_eq_true]
    · rw [List.exists_mem_cons_iff, ht, hany, holdsAny, Bool.or_eq_true]

end Sound

/-! ## 3. Leaves -/

section Leaves

variable {base : Parameters} {generated : List Bind} {field : Field} {operator v : Json} {sql : Sql}
  {parameters' : Parameters}

theorem strings_mem {items : List Json} {expected : List String} (h : strings? items = some expected)
    (text : Option String) :
    (items.any fun
      | .str s => text = some s
      | _ => false) = true ↔ ∃ s ∈ expected, text = some s := by
  rw [strings?, mapM_option] at h
  induction h with
  | nil => simp
  | @cons item s items expected hitem _ ih =>
      have hstr : item = .str s := by
        cases item <;> simp_all
      subst hstr
      rw [List.any_cons, Bool.or_eq_true, ih, List.exists_mem_cons_iff, decide_eq_true_eq]

theorem scalar_castText {value : Json} {b : Bind} (h : scalar? value = some b) :
    ∃ text, b.castText = some text := by
  cases value <;> simp [scalar?] at h <;> subst h <;> exact ⟨_, rfl⟩

/-- **A leaf says what its operator says of the column.** -/
theorem compileOperator_sound (hbase : Ungenerated base)
    (h : compileOperator field operator v (base ++ numbered generated) = .ok (sql, parameters')) :
    ∃ more, parameters' = base ++ numbered (generated ++ more) ∧
      ∀ value, (∀ row context, holds row context value = leafHolds row context field operator v) →
        Sound value sql generated more := by
  unfold compileOperator at h
  split at h
  · obtain ⟨rfl, rfl⟩ := Prod.mk.inj (Except.ok.inj h)
    refine ⟨[], by rw [List.append_nil], fun value hvalue => sound_atom rfl fun row context _ _ => ?_⟩
    rw [hvalue]
    simp [atomTruth, leafHolds]
  · obtain ⟨rfl, rfl⟩ := Prod.mk.inj (Except.ok.inj h)
    refine ⟨[], by rw [List.append_nil], fun value hvalue => sound_atom rfl fun row context _ _ => ?_⟩
    rw [hvalue]
    simp [atomTruth, leafHolds]
  · obtain ⟨rfl, rfl⟩ := Prod.mk.inj (Except.ok.inj h)
    refine ⟨[], by rw [List.append_nil],
      fun value hvalue => sound_atom rfl fun row context binds hsupplies => ?_⟩
    rw [hvalue, atomTruth, Binds.uuid, hsupplies.user, eq3_eq_true]
    simp [leafHolds, QueueRow.uuid]
  · obtain ⟨rfl, rfl⟩ := Prod.mk.inj (Except.ok.inj h)
    refine ⟨[], by rw [List.append_nil],
      fun value hvalue => sound_atom rfl fun row context binds hsupplies => ?_⟩
    rw [hvalue, atomTruth, Binds.uuids, hsupplies.groups, any3_eq_true]
    cases hgroup : row.assignmentGroupId <;> simp [leafHolds, QueueRow.uuid, hgroup]
  · unfold compileValue at h
    split at h
    · next value' =>
        split at h
        · next b hscalar =>
            rw [bound_numbered hbase] at h
            obtain ⟨rfl, rfl⟩ := Prod.mk.inj (Except.ok.inj h)
            refine ⟨[b], rfl, fun value hvalue =>
              sound_bound (fun _ => rfl) fun row context binds hbinds => ?_⟩
            obtain ⟨text, htext⟩ := scalar_castText hscalar
            rw [hvalue, atomTruth, Binds.text, hbinds, Option.bind_some, htext, eq3_eq_true]
            simp [leafHolds, hscalar, htext]
        · cases h
    · next items =>
        split at h
        · next expected hstrings =>
            split at h
            · cases h
            · rw [bound_numbered hbase] at h
              obtain ⟨rfl, rfl⟩ := Prod.mk.inj (Except.ok.inj h)
              refine ⟨[.texts expected], rfl, fun value hvalue =>
                sound_bound (fun _ => rfl) fun row context binds hbinds => ?_⟩
              rw [hvalue, atomTruth, Binds.texts, hbinds, any3_eq_true, leafHolds]
              exact (strings_mem hstrings (row.text field)).symm
        · cases h
    · cases h

/-- What a filter with a field and an operator says. -/
theorem holds_leaf {items : List (String × Json)} {name : String}
    (hfield : Json.lookup "field" items = some (.str name))
    (hoperator : Json.lookup "operator" items = some operator) (hname : field? name = some field)
    (row : QueueRow) (context : QueueContext) :
    holds row context (.dict items) =
      leafHolds row context field operator (Json.getD items "value") := by
  match items, hfield, hoperator with
  | [], hfield, _ => cases hfield
  | [(key, value)], hfield, hoperator =>
      exfalso
      by_cases hkey : key = "field"
      · subst hkey
        simp [Json.lookup] at hoperator
      · simp [Json.lookup, hkey] at hfield
  | first :: second :: rest, hfield, hoperator =>
      rw [holds]
      · simp only [hfield, hoperator, hname, Option.any_some]
      all_goals simp

theorem compileLeaf_sound {items : List (String × Json)} (hbase : Ungenerated base)
    (h : compileLeaf items (base ++ numbered generated) = .ok (sql, parameters')) :
    ∃ more, parameters' = base ++ numbered (generated ++ more) ∧
      Sound (.dict items) sql generated more := by
  unfold compileLeaf at h
  split at h
  · next fieldName operator hfield hoperator =>
      split at h
      · cases h
      · cases h
      · next field hfieldOf =>
          obtain ⟨name, rfl, hname⟩ : ∃ name, fieldName = .str name ∧ field? name = some field := by
            cases fieldName <;> simp [fieldOf] at hfieldOf
            exact ⟨_, rfl, hfieldOf⟩
          obtain ⟨more, hparameters, hsound⟩ := compileOperator_sound hbase h
          exact ⟨more, hparameters, hsound _ fun row context =>
            holds_leaf hfield hoperator hname row context⟩
  · cases h

end Leaves

/-! ## 4. Groups -/

section Groups

variable {base : Parameters} {generated : List Bind} {sql : Sql} {parameters' : Parameters}

theorem sound_empty {value : Json} (hvalue : ∀ row context, holds row context value = true) :
    Sound value [.atom .true] generated [] :=
  sound_atom rfl fun row context _ _ => by simp [atomTruth, hvalue]

theorem compileChildren_ne_nil {children : List Json} {parts : List Sql} {parameters : Parameters}
    {depth : Nat} (h : compileChildren children parameters depth = .ok (parts, parameters'))
    (hne : children ≠ []) : parts ≠ [] := by
  cases children with
  | nil => exact absurd rfl hne
  | cons child rest =>
      rw [compileChildren] at h
      obtain ⟨⟨sql, parameters₁⟩, -, h⟩ := Helpdesk.bind_eq_ok.mp h
      obtain ⟨⟨parts', parameters₂⟩, -, h⟩ := Helpdesk.bind_eq_ok.mp h
      obtain ⟨rfl, -⟩ := Prod.mk.inj (Except.ok.inj h)
      exact List.cons_ne_nil _ _

mutual

/-- **A compiled condition says what the filter says.** -/
theorem compile_sound (hbase : Ungenerated base) (value : Json) (generated : List Bind)
    (depth : Nat) {sql : Sql} {parameters' : Parameters}
    (h : compileFilter value (base ++ numbered generated) depth = .ok (sql, parameters')) :
    ∃ more, parameters' = base ++ numbered (generated ++ more) ∧ Sound value sql generated more := by
  have hempty : ∀ {value : Json}, (∀ row context, holds row context value = true) →
      (.ok ([.atom .true], base ++ numbered generated) : Compiled (Sql × Parameters)) =
        .ok (sql, parameters') →
      ∃ more, parameters' = base ++ numbered (generated ++ more) ∧
        Sound value sql generated more := by
    intro value hvalue hok
    obtain ⟨rfl, rfl⟩ := Prod.mk.inj (Except.ok.inj hok)
    exact ⟨[], by rw [List.append_nil], sound_empty hvalue⟩
  rw [compileFilter.eq_def] at h
  split at h
  · cases h
  · split at h
    · exact hempty (fun _ _ => by rw [holds]) h
    · exact hempty (fun _ _ => by rw [holds]) h
    · exact hempty (fun _ _ => by rw [holds]) h
    · next key children =>
        split at h
        · next connective hkey =>
            split at h
            · cases h
            · next hchildren =>
                obtain ⟨⟨parts, parameters₁⟩, hparts, h⟩ := Helpdesk.bind_eq_ok.mp h
                obtain ⟨rfl, rfl⟩ := Prod.mk.inj (Except.ok.inj h)
                have hne : children ≠ [] := fun hnil => hchildren (.inl hnil)
                obtain ⟨more, hparameters, hsound⟩ :=
                  compileChildren_sound hbase children generated (depth + 1) hparts
                exact ⟨more, hparameters,
                  hsound.joined hkey (compileChildren_ne_nil hparts hne)⟩
        · exact compileLeaf_sound hbase h
    · split at h
      · cases h
      · exact compileLeaf_sound hbase h
    · cases h

theorem compileChildren_sound (hbase : Ungenerated base) (children : List Json)
    (generated : List Bind) (depth : Nat) {parts : List Sql} {parameters' : Parameters}
    (h : compileChildren children (base ++ numbered generated) depth = .ok (parts, parameters')) :
    ∃ more, parameters' = base ++ numbered (generated ++ more) ∧
      SoundAll children parts generated more := by
  match children, h with
  | [], h =>
      rw [compileChildren] at h
      obtain ⟨rfl, rfl⟩ := Prod.mk.inj (Except.ok.inj h)
      exact ⟨[], by rw [List.append_nil], ⟨rfl, fun row context binds _ =>
        ⟨[], .nil, by simp [holdsAll], by simp [holdsAny]⟩⟩⟩
  | child :: rest, h =>
      rw [compileChildren] at h
      obtain ⟨⟨sql, parameters₁⟩, hchild, h⟩ := Helpdesk.bind_eq_ok.mp h
      obtain ⟨⟨parts', parameters₂⟩, hrest, h⟩ := Helpdesk.bind_eq_ok.mp h
      obtain ⟨rfl, rfl⟩ := Prod.mk.inj (Except.ok.inj h)
      obtain ⟨more, rfl, hsound⟩ := compile_sound hbase child generated depth hchild
      obtain ⟨more', rfl, hsoundAll⟩ :=
        compileChildren_sound hbase rest (generated ++ more) depth hrest
      exact ⟨more ++ more', by rw [List.append_assoc], hsound.cons hsoundAll⟩

end

end Groups

end Helpdesk.Queues
