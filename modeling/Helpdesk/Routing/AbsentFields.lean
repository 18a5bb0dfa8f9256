/-
  File:      Helpdesk/Routing/AbsentFields.lean
  Subject:   Custom fields that a ticket has no value for.

  A ticket's values hold the custom fields that were stored, and null was not. A rule
  that reads another field of the form is refused like one that names no field at all,
  and with it the selection, the default route included.

  * `refers`: the rules of the language on given fields;
  * `readsAbsent`: evaluation comes to a leaf whose field has no value;
  * `evaluate_absent`: what the two do to an evaluation;
  * `absent_is_null_iff`: when a selection takes absent fields for null.
-/
import Helpdesk.Lib.Fallible
import Helpdesk.Routing.Selection

namespace Helpdesk.Routing

open Helpdesk.Python Helpdesk.Core Json

/-! ## 1. Rules on given fields -/

mutual

/-- A rule of the language that reads the fields only. -/
def refers (fields : List String) : Json → Bool
  | .null => true
  | .list items => refersAll fields items
  | .dict [] => true
  | .dict [(key, .list items)] => (key = "all" || key = "any") && refersAll fields items
  | .dict items =>
      let keys := items.map (·.1)
      keys.contains "field" && keys.contains "operator" &&
        (keys.all fun key => ["field", "operator", "value"].contains key) &&
        (match getD items "field", getD items "operator" with
          | .str field, .str name => fields.contains field && (operator? name).isSome
          | _, _ => false)
  | _ => false

def refersAll (fields : List String) : List Json → Bool
  | [] => true
  | item :: rest => refers fields item && refersAll fields rest

end

/-- What is asked of the value a computation returns, if it returns one. -/
def reached {α : Type} (next : α → Bool) : Except RuleError α → Bool
  | .ok a => next a
  | .error _ => false

mutual

/-- Evaluation comes to a leaf whose field has no value. -/
def readsAbsent (values : List (String × Json)) : Json → Bool
  | .null => false
  | .list items => readsAbsentAll values items
  | .dict [] => false
  | .dict [(key, .list items)] =>
      if key = "all" then readsAbsentAll values items else readsAbsentAny values items
  | .dict items =>
      match getD items "field" with
      | .str field => (lookup field values).isNone
      | _ => false
  | _ => false

/-- `all(...)` comes to one. -/
def readsAbsentAll (values : List (String × Json)) : List Json → Bool
  | [] => false
  | item :: rest => readsAbsent values item ||
      reached (fun met => met && readsAbsentAll values rest) (evaluate item values)

/-- `any(...)` comes to one. -/
def readsAbsentAny (values : List (String × Json)) : List Json → Bool
  | [] => false
  | item :: rest => readsAbsent values item ||
      reached (fun met => !met && readsAbsentAny values rest) (evaluate item values)

end

/-! ## 2. What an evaluation does about them -/

/-- Everything that has a value keeps it, and all fields have one. -/
structure Completes (fields : List String) (values values' : List (String × Json)) : Prop where
  keeps : ∀ field value, lookup field values = some value → lookup field values' = some value
  total : ∀ field ∈ fields, (lookup field values').isSome

/-- What a computation does: without an absent field it does the same on the completed
    values, with one it is refused; on the completed values it is never refused. -/
structure Treats {α : Type} (absent : Bool) (x x' : Except RuleError α) : Prop where
  same : absent = false → x = x'
  refused : absent = true → ∃ message, x = .error (.invalidRule message)
  accepted : ∀ message, x' ≠ .error (.invalidRule message)

variable {fields : List String} {values values' : List (String × Json)}

theorem treats_ok {α : Type} {a : α} : Treats false (.ok a) (.ok a) :=
  ⟨fun _ => rfl, (by simp), (by simp)⟩

/-- An operator refuses nothing. -/
theorem applyOperator_accepted (op : Operator) (actual expected : Json) (message : String) :
    applyOperator op actual expected ≠ .error (.invalidRule message) := by
  have hcontains : containsOp actual expected ≠ .error (.invalidRule message) := by
    unfold containsOp
    split <;> simp
  cases op
  case contains => exact hcontains
  case isIn | notIn => cases expected <;> simp [applyOperator]
  case startsWith => cases actual <;> cases expected <;> simp [applyOperator]
  all_goals simp [applyOperator]

/-- A leaf. -/
theorem evaluateLeaf_treats (hvalues : Completes fields values values') {items : List (String × Json)}
    (hleaf : ((items.map (·.1)).contains "field" && (items.map (·.1)).contains "operator" &&
        ((items.map (·.1)).all fun key => ["field", "operator", "value"].contains key) &&
        (match getD items "field", getD items "operator" with
          | .str field, .str name => fields.contains field && (operator? name).isSome
          | _, _ => false)) = true) :
    Treats (match getD items "field" with
        | .str field => (lookup field values).isNone
        | _ => false)
      (evaluateLeaf items values) (evaluateLeaf items values') := by
  simp only [Bool.and_eq_true] at hleaf
  obtain ⟨⟨⟨hfield, hoperator⟩, hkeys⟩, hnames⟩ := hleaf
  unfold evaluateLeaf
  simp only [hfield, hoperator, hkeys, Bool.and_self, Bool.not_true, Bool.or_self]
  split at hnames
  · next field name hf ho =>
      simp only [Bool.and_eq_true] at hnames
      obtain ⟨hmem, hop⟩ := hnames
      obtain ⟨op, hop⟩ := Option.isSome_iff_exists.mp hop
      obtain ⟨value, hvalue⟩ := Option.isSome_iff_exists.mp
        (hvalues.total field (List.contains_iff_mem.mp hmem))
      simp only [hf, ho, operatorOf, hop, hvalue]
      cases hlookup : lookup field values with
      | none =>
          refine ⟨by simp, fun _ => ⟨_, rfl⟩, ?_⟩
          exact applyOperator_accepted op value _
      | some actual =>
          have hsame : value = actual :=
            Option.some.inj (hvalue.symm.trans (hvalues.keeps field actual hlookup))
          subst hsame
          exact ⟨fun _ => rfl, by simp, applyOperator_accepted op value _⟩
  · cases hnames

/-- **One computation after the other.** -/
theorem Treats.bind {α β : Type} {absent : Bool} {next : α → Bool} {x x' : Except RuleError α}
    {f f' : α → Except RuleError β} (hx : Treats absent x x')
    (hf : ∀ a, Treats (next a) (f a) (f' a)) :
    Treats (absent || reached next x) (x >>= f) (x' >>= f') := by
  have haccepted : ∀ message, (x' >>= f') ≠ .error (.invalidRule message) := by
    intro message h
    rcases bind_eq_error.mp h with h | ⟨a, _, h⟩
    · exact hx.accepted message h
    · exact (hf a).accepted message h
  cases absent with
  | true =>
      obtain ⟨message, rfl⟩ := hx.refused rfl
      exact ⟨by simp, fun _ => ⟨message, rfl⟩, haccepted⟩
  | false =>
      obtain rfl := hx.same rfl
      cases x with
      | ok a => exact hf a
      | error e => exact ⟨fun _ => rfl, by simp [reached], haccepted⟩

/-- **What a rule's evaluation does about absent fields.** -/
theorem evaluate_treats (hvalues : Completes fields values values') (rule : Json)
    (hrefers : refers fields rule = true) :
    Treats (readsAbsent values rule) (evaluate rule values) (evaluate rule values') := by
  revert hrefers
  refine evaluate.induct
    (fun rule => refers fields rule = true →
      Treats (readsAbsent values rule) (evaluate rule values) (evaluate rule values'))
    (fun items => refersAll fields items = true →
      Treats (readsAbsentAny values items) (evaluateAny items values) (evaluateAny items values'))
    (fun items => refersAll fields items = true →
      Treats (readsAbsentAll values items) (evaluateAll items values) (evaluateAll items values'))
    ?null ?list ?empty ?all ?any ?other ?leaf ?scalar ?anyNil ?anyCons ?allNil ?allCons rule
  case null => exact fun _ => by simpa [readsAbsent, evaluate] using treats_ok
  case list =>
    intro items ih hrefers
    simp only [readsAbsent, evaluate]
    exact ih (by simpa [refers] using hrefers)
  case empty => exact fun _ => by simpa [readsAbsent, evaluate] using treats_ok
  case all =>
    intro items ih hrefers
    simp only [readsAbsent, evaluate, if_true]
    exact ih (by simpa [refers] using hrefers)
  case any =>
    intro items hne ih hrefers
    simp only [readsAbsent, evaluate, hne, if_true, if_false]
    exact ih (by simpa [refers] using hrefers)
  case other =>
    intro key items hall hany hrefers
    simp [refers, hall, hany] at hrefers
  case leaf =>
    intro items hempty hsingle hrefers
    rw [refers] at hrefers
    · rw [readsAbsent, evaluate, evaluate]
      · exact evaluateLeaf_treats hvalues hrefers
      all_goals assumption
    all_goals assumption
  case scalar =>
    intro rule hnull hlist hempty hsingle hdict hrefers
    rw [refers] at hrefers
    · cases hrefers
    all_goals assumption
  case anyNil => exact fun _ => by simpa [readsAbsentAny, evaluateAny] using treats_ok
  case allNil => exact fun _ => by simpa [readsAbsentAll, evaluateAll] using treats_ok
  case anyCons =>
    intro item rest ih ihRest hrefers
    simp only [refersAll, Bool.and_eq_true] at hrefers
    simp only [readsAbsentAny, evaluateAny]
    refine (ih hrefers.1).bind fun met => ?_
    cases met with
    | true => exact treats_ok
    | false => exact ihRest hrefers.2
  case allCons =>
    intro item rest ih ihRest hrefers
    simp only [refersAll, Bool.and_eq_true] at hrefers
    simp only [readsAbsentAll, evaluateAll]
    refine (ih hrefers.1).bind fun met => ?_
    cases met with
    | true => exact ihRest hrefers.2
    | false => exact treats_ok

/-! ## 3. The rules in their order -/

/-- Evaluation comes to one before a rule matches. -/
def readsAbsentFirst (values : List (String × Json)) : List RoutingRuleVersion → Bool
  | [] => false
  | rule :: rest => readsAbsent values rule.condition ||
      reached (fun met => !met && readsAbsentFirst values rest) (evaluate rule.condition values)

theorem firstMatch_treats (hvalues : Completes fields values values') {rules : List RoutingRuleVersion}
    (hrefers : ∀ r ∈ rules, refers fields r.condition = true) :
    Treats (readsAbsentFirst values rules) (firstMatch values rules) (firstMatch values' rules) := by
  induction rules with
  | nil => exact treats_ok
  | cons rule rest ih =>
      have hrest := ih fun r hr => hrefers r (List.mem_cons_of_mem rule hr)
      refine (evaluate_treats hvalues rule.condition (hrefers rule List.mem_cons_self)).bind
        fun met => ?_
      cases met with
      | true => exact treats_ok
      | false =>
          have hlast := hrest.bind (fun found : Option RoutingRuleVersion × List Evaluated =>
            @treats_ok _ (found.1, ⟨rule.routingRuleVersionId, false, false⟩ :: found.2))
          have hreached : ∀ x : Except RuleError (Option RoutingRuleVersion × List Evaluated),
              reached (fun _ => false) x = false := by
            intro x
            cases x <;> rfl
          rw [hreached, Bool.or_false] at hlast
          exact hlast

/-- A rule of the language has an order. -/
theorem specificity_refers (rule : Json) (hrefers : refers fields rule = true) :
    ∃ n, specificity rule = .ok n := by
  revert hrefers
  refine specificity.induct
    (fun rule => refers fields rule = true → ∃ n, specificity rule = .ok n)
    (fun items => refersAll fields items = true → ∃ n, specificities items = .ok n)
    ?null ?list ?empty ?group ?other ?leaf ?noKeys ?scalar ?nil ?cons rule
  case null => exact fun _ => ⟨0, rfl⟩
  case list =>
    intro items ih hrefers
    simp only [specificity]
    exact ih (by simpa [refers] using hrefers)
  case empty => exact fun _ => ⟨0, rfl⟩
  case group =>
    intro key items hkey ih hrefers
    rw [refers, Bool.and_eq_true] at hrefers
    simp only [specificity, if_pos hkey]
    exact ih hrefers.2
  case other =>
    intro key items hkey hrefers
    rw [not_or] at hkey
    simp [refers, hkey.1, hkey.2] at hrefers
  case leaf =>
    intro items hempty hsingle keys hkeys _
    refine ⟨1, ?_⟩
    rw [specificity]
    · exact if_pos hkeys
    all_goals assumption
  case noKeys =>
    intro items hempty hsingle keys hkeys hrefers
    rw [refers] at hrefers
    · simp only [Bool.and_eq_true] at hrefers hkeys
      exact absurd hrefers.1.1 hkeys
    all_goals assumption
  case scalar =>
    intro rule hnull hlist hempty hsingle hdict hrefers
    rw [refers] at hrefers
    · cases hrefers
    all_goals assumption
  case nil => exact fun _ => ⟨0, rfl⟩
  case cons =>
    intro item rest ih ihRest hrefers
    rw [refersAll, Bool.and_eq_true] at hrefers
    obtain ⟨n, hn⟩ := ih hrefers.1
    obtain ⟨m, hm⟩ := ihRest hrefers.2
    exact ⟨n + m, by rw [specificities, hn, hm]; rfl⟩

theorem candidates_refers {versions : List RoutingRuleVersion}
    (hrefers : ∀ r ∈ versions, refers fields r.condition = true) :
    ∃ rules, candidates versions = .ok rules ∧ ∀ r ∈ rules, refers fields r.condition = true := by
  have horder : ∀ r ∈ versions.filter fun r => !isEmptyCondition r.condition,
      ∃ key, (do return (← ruleOrder r, r) : Except SelectError (RuleOrder × RoutingRuleVersion)) =
        .ok key := by
    intro r hr
    obtain ⟨n, hn⟩ := specificity_refers r.condition (hrefers r (List.mem_filter.mp hr).1)
    exact ⟨_, by rw [ruleOrder, hn]; rfl⟩
  obtain ⟨keyed, hkeyed⟩ := mapM_ok horder
  refine ⟨_, by rw [candidates, hkeyed]; rfl, fun r hr => ?_⟩
  obtain ⟨⟨order, _⟩, hpair, rfl⟩ := List.mem_map.mp hr
  rw [List.mem_insertionSort] at hpair
  obtain ⟨r', hr', heq⟩ := mem_of_forall₂ (mapM_pointwise hkeyed) hpair
  rw [bind_eq_ok] at heq
  obtain ⟨_, _, heq⟩ := heq
  obtain rfl := (Prod.mk.inj (pure_eq_ok.mp heq)).2
  exact hrefers r' (List.mem_filter.mp hr').1

/-! ## 4. Absent fields as null -/

/-- The fields every ticket has. -/
def builtinFields : List String :=
  ["project_id", "project_code", "service_node_id", "service_node_code", "service_code",
   "module_code", "environment_code", "work_type_code", "priority_code", "status_code", "summary",
   "description"]

/-- The values with null for the custom fields that have none. -/
def withNulls (codes : List String) (values : List (String × Json)) : List (String × Json) :=
  values ++ (codes.filter fun code => (lookup (fieldName code) values).isNone).map fun code =>
    (fieldName code, .null)

theorem lookup_append (key : String) (xs ys : List (String × Json)) :
    lookup key (xs ++ ys) = (lookup key xs).or (lookup key ys) := by
  induction xs with
  | nil => rfl
  | cons x xs ih =>
      obtain ⟨k, v⟩ := x
      by_cases hk : k = key
      · simp [lookup, hk]
      · simp [lookup, hk, ih]

theorem lookup_isSome {key : String} {value : Json} {items : List (String × Json)}
    (h : (key, value) ∈ items) : (lookup key items).isSome := by
  induction items with
  | nil => cases h
  | cons item items ih =>
      obtain ⟨k, v⟩ := item
      by_cases hk : k = key
      · simp [lookup, hk]
      · have hmem : (key, value) ∈ items := by
          rcases List.mem_cons.mp h with heq | hmem
          · exact absurd (congrArg Prod.fst heq).symm hk
          · exact hmem
        simpa [lookup, hk] using ih hmem

theorem setItem_isSome {key other : String} {value : Json} {items : List (String × Json)}
    (h : (lookup other items).isSome) : (lookup other (setItem key value items)).isSome := by
  induction items with
  | nil => cases h
  | cons item items ih =>
      obtain ⟨k, v⟩ := item
      by_cases hk : k = key <;> by_cases ho : k = other <;> simp_all [setItem, lookup]

theorem setDefault_isSome {key other : String} {value : Json} {items : List (String × Json)}
    (h : (lookup other items).isSome) : (lookup other (setDefault key value items)).isSome := by
  unfold setDefault
  split
  · exact h
  · rw [lookup_append, Option.isSome_or, h, Bool.true_or]

/-- Every ticket has a value for the built-in fields, if only null. -/
theorem routingValues_builtin (ticket : RoutingTicket) :
    ∀ field ∈ builtinFields, (lookup field (routingValues ticket)).isSome := by
  intro field hfield
  have hbuiltin : (lookup field (builtinValues ticket)).isSome := by
    have hnames : builtinFields = (builtinValues ticket).map (·.1) := rfl
    rw [hnames] at hfield
    obtain ⟨⟨_, value⟩, hmem, rfl⟩ := List.mem_map.mp hfield
    exact lookup_isSome hmem
  unfold routingValues
  generalize builtinValues ticket = values at hbuiltin
  generalize ticket.customFields = custom
  induction custom generalizing values with
  | nil => exact hbuiltin
  | cons item custom ih => exact ih _ (setDefault_isSome (setItem_isSome hbuiltin))

theorem withNulls_completes (codes : List String) (ticket : RoutingTicket) :
    Completes (builtinFields ++ codes.map fieldName) (routingValues ticket)
      (withNulls codes (routingValues ticket)) where
  keeps := by
    intro field value h
    rw [withNulls, lookup_append, h]
    rfl
  total := by
    intro field hfield
    rw [withNulls, lookup_append, Option.isSome_or, Bool.or_eq_true]
    rcases List.mem_append.mp hfield with hbuiltin | hcustom
    · exact Or.inl (routingValues_builtin ticket field hbuiltin)
    · obtain ⟨code, hcode, rfl⟩ := List.mem_map.mp hcustom
      cases hvalue : lookup (fieldName code) (routingValues ticket) with
      | some _ => exact Or.inl rfl
      | none =>
          refine Or.inr (lookup_isSome (List.mem_map.mpr ⟨code, ?_, rfl⟩))
          exact List.mem_filter.mpr ⟨hcode, by rw [hvalue]; rfl⟩

/-- One version of each rule, and one of them the default. -/
def Configured (versions : List RoutingRuleVersion) : Prop :=
  duplicated versions = false ∧ (defaults versions).length = 1

/-- **Absent fields are null**: the selection is the one on the values with null for
    them, and a configuration that has its default is not refused. -/
structure AbsentIsNull (codes : List String) (versions : List RoutingRuleVersion)
    (ticket : RoutingTicket) : Prop where
  same : selectRule versions ticket =
    selectAmong versions (withNulls codes (routingValues ticket))
  accepted : Configured versions →
    ∀ message, selectRule versions ticket ≠ .error (.configuration message)

/-- The rules are evaluated, and evaluation comes to an absent field before one of
    them matches. -/
def ReadsAbsent (versions : List RoutingRuleVersion) (ticket : RoutingTicket) : Prop :=
  Configured versions ∧ ∃ rules, candidates versions = .ok rules ∧
    readsAbsentFirst (routingValues ticket) rules = true

/-- A selection from one default and the rules in their order. -/
theorem selectAmong_configured {versions rules : List RoutingRuleVersion}
    (hconfigured : Configured versions) (hrules : candidates versions = .ok rules) :
    ∃ default, ∀ values, selectAmong versions values = match firstMatch values rules with
      | .ok (some rule, evaluated) => .ok ⟨rule, false, evaluated⟩
      | .ok (none, evaluated) =>
          .ok ⟨default, true, evaluated ++ [⟨default.routingRuleVersionId, true, true⟩]⟩
      | .error (.invalidRule _) => .error (.configuration
          "A published routing rule contains unsupported deterministic configuration.")
      | .error .typeError => .error .typeError := by
  obtain ⟨hunique, hdefault⟩ := hconfigured
  obtain ⟨default, hdefault⟩ := List.length_eq_one_iff.mp hdefault
  refine ⟨default, fun values => ?_⟩
  rw [selectAmong, hunique, hdefault]
  simp only [Bool.false_eq_true, if_false, hrules]
  rfl

/-- Without a default, or with two versions of a rule, the values do not matter. -/
theorem selectAmong_unconfigured {versions : List RoutingRuleVersion}
    (hconfigured : ¬ Configured versions) (values values' : List (String × Json)) :
    selectAmong versions values = selectAmong versions values' := by
  unfold selectAmong
  cases hduplicated : duplicated versions with
  | true => rfl
  | false =>
      match hdefault : defaults versions with
      | [] | _ :: _ :: _ => rfl
      | [default] => exact absurd ⟨hduplicated, by rw [hdefault]; rfl⟩ hconfigured

/-- **When a selection takes absent fields for null.** -/
theorem absent_is_null_iff {codes : List String} {versions : List RoutingRuleVersion}
    (ticket : RoutingTicket)
    (hrules : ∀ r ∈ versions, refers (builtinFields ++ codes.map fieldName) r.condition = true) :
    AbsentIsNull codes versions ticket ↔ ¬ ReadsAbsent versions ticket := by
  obtain ⟨rules, hcandidates, hrefers⟩ := candidates_refers hrules
  have htreats := firstMatch_treats (withNulls_completes codes ticket) hrefers
  by_cases hconfigured : Configured versions
  · obtain ⟨default, hselect⟩ := selectAmong_configured hconfigured hcandidates
    constructor
    · rintro habsent ⟨_, rules', hcandidates', hreads⟩
      obtain rfl : rules = rules' := Except.ok.inj (hcandidates.symm.trans hcandidates')
      obtain ⟨message, hrefused⟩ := htreats.refused hreads
      have hselected := hselect (routingValues ticket)
      rw [hrefused] at hselected
      exact habsent.accepted hconfigured _ hselected
    · intro hreads
      have hsame := htreats.same (by
        by_contra h
        exact hreads ⟨hconfigured, rules, hcandidates, by simpa using h⟩)
      refine ⟨by rw [selectRule, hselect, hselect, hsame], fun _ message h => ?_⟩
      rw [selectRule, hselect, hsame] at h
      split at h
      · cases h
      · cases h
      · next other hother => exact htreats.accepted other hother
      · cases h
  · constructor
    · rintro _ ⟨hwith, _⟩
      exact hconfigured hwith
    · exact fun _ => ⟨selectAmong_unconfigured hconfigured _ _, fun h => absurd h hconfigured⟩

/-! ## 5. A rule on an optional field -/

def ledgerTicket (customFields : List (String × Json)) : RoutingTicket where
  ticketId := 1
  tenantId := 2
  ticketKey := "ERP-1"
  projectId := 3
  projectCode := "ERP"
  serviceNodeId := none
  serviceNodeCode := none
  serviceCode := none
  moduleCode := none
  environmentCode := none
  workTypeCode := "INCIDENT"
  priorityCode := "P4"
  statusCode := "OPEN"
  summary := "Ledger"
  description := none
  assignmentGroupId := none
  assigneeUserId := none
  rowVersion := 1
  customFields

def ledgerRule (id : Uuid) (priority : Int) (condition : Json) : RoutingRuleVersion where
  routingRuleId := id
  routingRuleVersionId := id
  versionNumber := 1
  rulePriority := priority
  condition
  assignmentGroupId := 4
  assignmentMethod := "GROUP_ONLY"
  assigneeUserId := none
  effectiveFrom := none
  groupCode := "ERP_L1"

/-- A route for tickets of one ledger, and the default. -/
def ledgerRules : List RoutingRuleVersion :=
  [ledgerRule 5 10 (.dict [("field", .str "field.affected_ledger"), ("operator", .str "equals"),
      ("value", .str "UK01")]),
   ledgerRule 6 9999 (.dict [])]

theorem ledgerRules_refer : ∀ r ∈ ledgerRules,
    refers (builtinFields ++ ["affected_ledger"].map fieldName) r.condition = true := by
  decide +kernel

theorem absent_is_null_iff_sample :
    AbsentIsNull ["affected_ledger"] ledgerRules (ledgerTicket [("affected_ledger", .str "UK02")]) ↔
      ¬ ReadsAbsent ledgerRules (ledgerTicket [("affected_ledger", .str "UK02")]) :=
  absent_is_null_iff _ ledgerRules_refer

/-- **A ticket without the ledger is not routed**, not even to the default. -/
theorem absent_field_refused :
    ¬ ∀ (codes : List String) (versions : List RoutingRuleVersion) (ticket : RoutingTicket),
      (∀ r ∈ versions, refers (builtinFields ++ codes.map fieldName) r.condition = true) →
        AbsentIsNull codes versions ticket := by
  intro hclaim
  have habsent := hclaim ["affected_ledger"] ledgerRules (ledgerTicket []) ledgerRules_refer
  refine habsent.accepted ⟨by decide +kernel, by decide +kernel⟩
    "A published routing rule contains unsupported deterministic configuration." ?_
  rfl

end Helpdesk.Routing
