/-
  File:      Helpdesk/Routing/RoundRobin.lean
  Subject:   Round-robin assignment is fair, however many routes run at once.

  A route to a round-robin group holds the group's advisory lock from before it counts
  until its COMMIT, and every route that adds an assignment to the group holds it
  too; what was counted is therefore what is committed when the row is added. So each
  COMMIT gives one more assignment to a member who has the fewest, and the shares
  stay balanced whatever the order.

  * `fairness`: the contract of the routes beside each other;
  * `route_honours`: `route` meets it;
  * **`round_robin_fair`**: after `k` assignments each member has `k / m` of them,
    rounded down or up, and nobody else has any;
  * `observer_never_chosen`: the members are those a route may choose; an observer
    of the group is an active member and gets nothing.
-/
import Helpdesk.Lib.Balance
import Helpdesk.Routing.Assignment

namespace Helpdesk.Routing

open Helpdesk.Python Helpdesk.Core Helpdesk.Tickets Helpdesk.Transactions
open Helpdesk.Transactions.Procedure

/-! ## 1. Who has the fewest -/

/-- The assignments to a group. -/
def assignmentsTo (group : Uuid) (history : List Assignment) : List Assignment :=
  history.filter fun a => a.toGroupId = some group

/-- `u` has no more assignments than any other member. -/
def Fewest (members : Finset Uuid) (group : Uuid) (history : List Assignment) (u : Uuid) : Prop :=
  u ∈ members ∧ ∀ v ∈ members, assignmentCount history group u ≤ assignmentCount history group v

section Counts

variable {group tenant u : Uuid} {history history' : List Assignment} {members : Finset Uuid}
  {d : Tables} {a : Assignment}

theorem assignmentCount_eq (history : List Assignment) (group u : Uuid) :
    assignmentCount history group u =
      (assignmentsTo group history).countP fun a => a.toAssigneeId = some u := by
  unfold assignmentCount assignmentsTo
  rw [List.countP_filter]
  refine List.countP_congr fun a _ => ?_
  simp [and_comm]

/-- The counts of a group are those of its own assignments. -/
theorem assignmentCount_congr (h : assignmentsTo group history' = assignmentsTo group history)
    (u : Uuid) : assignmentCount history' group u = assignmentCount history group u := by
  rw [assignmentCount_eq, assignmentCount_eq, h]

theorem Fewest.congr (h : Fewest members group history u)
    (hsame : assignmentsTo group history' = assignmentsTo group history) :
    Fewest members group history' u := by
  refine ⟨h.1, fun v hv => ?_⟩
  rw [assignmentCount_congr hsame, assignmentCount_congr hsame]
  exact h.2 v hv

/-- What the statement selects is a member with the fewest assignments. -/
theorem fewest_of_select (hmembers : (eligible d tenant group).toFinset = members)
    (h : fewestAssignments d tenant group = some u) : Fewest members group d.history u := by
  unfold fewestAssignments at h
  have hmem : ∀ v, v ∈ members ↔ v ∈ (eligible d tenant group).insertionSort fun a b =>
      toLex (assignmentCount d.history group a, a) ≤
        toLex (assignmentCount d.history group b, b) := by
    intro v
    rw [← hmembers, List.mem_toFinset, List.mem_insertionSort]
  obtain ⟨rest, hsorted⟩ := List.head?_eq_some_iff.mp h
  have hpairwise := List.pairwise_insertionSort
    (fun a b => toLex (assignmentCount d.history group a, a) ≤
      toLex (assignmentCount d.history group b, b)) (eligible d tenant group)
  rw [hsorted] at hpairwise hmem
  refine ⟨(hmem u).mpr List.mem_cons_self, fun v hv => ?_⟩
  rcases List.mem_cons.mp ((hmem v).mp hv) with rfl | hrest
  · exact Nat.le_refl _
  · have hle := (List.pairwise_cons.mp hpairwise).1 v hrest
    rcases Prod.Lex.toLex_le_toLex.mp hle with hlt | ⟨heq, -⟩
    · exact Nat.le_of_lt hlt
    · exact Nat.le_of_eq heq

theorem assignmentsTo_append_of_ne (h : a.toGroupId ≠ some group) :
    assignmentsTo group (history ++ [a]) = assignmentsTo group history := by
  simp [assignmentsTo, h]

theorem assignmentsTo_append_of_eq (h : a.toGroupId = some group) :
    assignmentsTo group (history ++ [a]) = assignmentsTo group history ++ [a] := by
  simp [assignmentsTo, h]

/-- Every assignment to members is one of somebody's share. -/
theorem sum_countP (members : Finset Uuid) (rows : List Assignment)
    (h : ∀ a ∈ rows, ∃ u ∈ members, a.toAssigneeId = some u) :
    ∑ u ∈ members, rows.countP (fun a => a.toAssigneeId = some u) = rows.length := by
  induction rows with
  | nil => simp
  | cons a rest ih =>
      obtain ⟨u, hu, hau⟩ := h a List.mem_cons_self
      have hrest := ih fun b hb => h b (List.mem_cons_of_mem a hb)
      have hone : ∑ v ∈ members, (if a.toAssigneeId = some v then 1 else 0) = 1 := by
        rw [hau]
        simp [hu]
      simp only [List.countP_cons, Finset.sum_add_distrib, hrest, decide_eq_true_eq, hone,
        List.length_cons]

end Counts

/-- The rule that is selected is one of the versions. -/
theorem firstMatch_mem {values : List (String × Json)} {rules : List RoutingRuleVersion}
    {rule : RoutingRuleVersion} {evaluated : List Evaluated}
    (h : firstMatch values rules = .ok (some rule, evaluated)) : rule ∈ rules := by
  induction rules generalizing evaluated with
  | nil => cases h
  | cons r rest ih =>
      obtain ⟨matched, -, h⟩ := Helpdesk.bind_eq_ok.mp h
      split at h
      · obtain rfl : r = rule := by
          injection h with h
          simpa using congrArg Prod.fst h
        exact List.mem_cons_self
      · obtain ⟨⟨found, evaluated'⟩, hfound, h⟩ := Helpdesk.bind_eq_ok.mp h
        obtain rfl : found = some rule := by
          injection h with h
          simpa using congrArg Prod.fst h
        exact List.mem_cons_of_mem r (ih hfound)

theorem candidates_mem {versions rules : List RoutingRuleVersion}
    (h : candidates versions = .ok rules) : ∀ r ∈ rules, r ∈ versions := by
  intro r hr
  obtain ⟨keyed, hkeyed, h⟩ := Helpdesk.bind_eq_ok.mp h
  obtain rfl := Except.ok.inj h
  obtain ⟨⟨order, r'⟩, hpair, rfl⟩ := List.mem_map.mp hr
  rw [List.mem_insertionSort] at hpair
  obtain ⟨r'', hr'', heq⟩ := mem_of_forall₂ (mapM_pointwise hkeyed) hpair
  obtain ⟨order', -, heq⟩ := Helpdesk.bind_eq_ok.mp heq
  obtain rfl : r'' = r' := by
    injection heq with heq
    exact congrArg Prod.snd heq
  exact (List.mem_filter.mp hr'').1

theorem selectRule_mem {versions : List RoutingRuleVersion} {ticket : RoutingTicket}
    {selection : Selection} (h : selectRule versions ticket = .ok selection) :
    selection.rule ∈ versions := by
  unfold selectRule selectAmong at h
  split at h
  · cases h
  · split at h
    · next default hdefault =>
        obtain ⟨rules, hrules, h⟩ := Helpdesk.bind_eq_ok.mp h
        have hmem : default ∈ versions := by
          have hin : default ∈ defaults versions := by simp [hdefault]
          exact (List.mem_filter.mp hin).1
        split at h
        · next rule evaluated hmatch =>
            obtain rfl := Except.ok.inj h
            exact candidates_mem hrules rule (firstMatch_mem hmatch)
        · obtain rfl := Except.ok.inj h
          exact hmem
        · cases h
        · cases h
    · cases h

/-! ## 2. The contract -/

/-- A group with its members: every rule that routes to it does so round-robin. -/
structure RoundRobinGroup (group tenant : Uuid) (members : Finset Uuid) (d : Tables) : Prop where
  members : (eligible d tenant group).toFinset = members
  tenant : ∀ g ∈ d.groups, g.supportGroupId = group → g.tenantId = tenant
  method : ∀ v ∈ d.versions, v.assignmentGroupId = group → v.assignmentMethod = "ROUND_ROBIN"

/-- The tables a route does not write. -/
structure SameDirectory (d d' : Tables) : Prop where
  groups : d'.groups = d.groups
  members : d'.members = d.members
  users : d'.users = d.users
  versions : d'.versions = d.versions

/-- What the COMMIT of a route adds to the history: nothing, or one assignment, and one
    to the group under its lock and to a member who has the fewest. -/
def AddsFairly (group : Uuid) (members : Finset Uuid) (held : List Lock) (d d' : Tables) : Prop :=
  d'.history = d.history ∨ ∃ a, d'.history = d.history ++ [a] ∧
    (a.toGroupId = some group → Lock.group group ∈ held ∧
      ∃ u, a.toAssigneeId = some u ∧ Fewest members group d.history u)

theorem SameDirectory.roundRobin {d d' : Tables} {group tenant : Uuid} {members : Finset Uuid}
    (hsame : SameDirectory d d') (h : RoundRobinGroup group tenant members d) :
    RoundRobinGroup group tenant members d' where
  members := by
    have heligible : eligible d' tenant group = eligible d tenant group := by
      unfold eligible
      rw [hsame.members, hsame.users]
    rw [heligible]
    exact h.members
  tenant := hsame.groups ▸ h.tenant
  method := hsame.versions ▸ h.method

/-- A version routes to a group of its ticket's tenant, by the group's method. -/
theorem ruleVersions_roundRobin {group tenant : Uuid} {members : Finset Uuid} {d : Tables}
    {now : Instant} {ticket : RoutingTicket} {rule : RoutingRuleVersion}
    (h : RoundRobinGroup group tenant members d) (hrule : rule ∈ ruleVersions now ticket d)
    (hgroup : rule.assignmentGroupId = group) :
    rule.assignmentMethod = "ROUND_ROBIN" ∧ ticket.tenantId = tenant := by
  simp only [ruleVersions, List.mem_flatMap, List.mem_map, List.mem_filter, decide_eq_true_eq]
    at hrule
  obtain ⟨base, ⟨-, htenant, -⟩, version, ⟨hversion, -⟩, g, ⟨hg, hid, hgtenant, -⟩, rfl⟩ := hrule
  refine ⟨h.method version hversion hgroup, ?_⟩
  rw [← htenant, ← hgtenant]
  exact h.tenant g hg (hid.trans hgroup)

/-- **The contract of the routes.** Other programs keep the members of the group, and
    make no assignment to it. -/
def fairness (group tenant : Uuid) (members : Finset Uuid) : Contract Tables Lock RouteRequest where
  always := RoundRobinGroup group tenant members
  guarantee _ held d d' := SameDirectory d d' ∧ AddsFairly group members held d d'
  apart _ _ := False
  elsewhere d d' := RoundRobinGroup group tenant members d' ∧
    assignmentsTo group d'.history = assignmentsTo group d.history
  starts _ _ := True
  kept h halways := h.1.roundRobin halways
  keptElsewhere h _ := h.1
  startsKept _ _ := trivial
  startsElsewhere _ _ := trivial

section Route

variable {group tenant : Uuid} {members : Finset Uuid} {request : RouteRequest}
  {p : Place Tables Lock Statement} {α : Type} {d : Tables} {held : List Lock} {u : Uuid}

/-- **What was counted under the lock stays so.** -/
theorem stable_fewest (hlock : Lock.group group ∈ held) :
    (fairness group tenant members).Stable request held fun d =>
      Fewest members group d.history u := by
  rintro d d' (⟨-, hsame⟩ | ⟨other, held', -, hdisjoint, -, hadds⟩) - hfewest
  · exact hfewest.congr hsame
  · rcases hadds with hsame | ⟨a, happend, hlocked⟩
    · rwa [hsame]
    · refine hfewest.congr ?_
      rw [happend]
      refine assignmentsTo_append_of_ne fun hgroup => ?_
      exact hdisjoint _ (hlocked hgroup).1 hlock

variable {raises : Place Tables Lock Statement → AppError → Prop}

theorem meets_claimIdempotency {record : RoutingRecord}
    {post : Place Tables Lock Statement → RoutingRecord → Prop}
    (hstable : (fairness group tenant members).Stable request p.held p.known)
    (hraises : ∀ p e, raises p e)
    (h : ∀ r, post { p with
      held := .idempotency record.tenantId record.operationCode record.idempotencyKey :: p.held
      changes := p.changes ++ [.claim record] } r) :
    (claimIdempotency record).Meets (fairness group tenant members) request p post raises := by
  unfold claimIdempotency
  rw [meets_bind, meets_acquire, meets_bind, meets_write, meets_bind]
  refine meets_query_result (hstable.mono fun k hk => List.mem_cons_of_mem _ hk) fun d _ _ => ?_
  rw [meets_demand]
  exact ⟨fun r _ => h r, fun _ => hraises _ _⟩

theorem meets_lockedTicket {post : Place Tables Lock Statement → RoutingTicket → Prop}
    (hstable : (fairness group tenant members).Stable request p.held p.known)
    (hraises : ∀ p e, raises p e) {tenantId : Uuid}
    (h : ∀ id ticket, post { p with held := .ticket id :: p.held } ticket) :
    (lockedTicket request tenantId).Meets (fairness group tenant members) request p post raises := by
  unfold lockedTicket
  rw [meets_bind]
  refine meets_query_result hstable fun d _ _ => ?_
  rw [meets_bind, meets_demand]
  refine ⟨fun ticket _ => ?_, fun _ => hraises _ _⟩
  rw [meets_bind, meets_acquire, meets_bind]
  refine meets_query_result (hstable.mono fun k hk => List.mem_cons_of_mem _ hk) fun d _ _ => ?_
  rw [meets_demand]
  exact ⟨fun locked _ => h _ locked, fun _ => hraises _ _⟩

/-- **The assignee**: of the group, and counted under its lock, when it is the rule's. -/
theorem meets_assignee {ticket : RoutingTicket} {rule : RoutingRuleVersion}
    {post : Place Tables Lock Statement → Option Uuid → Prop}
    (hstable : (fairness group tenant members).Stable request p.held p.known)
    (hraises : ∀ p e, raises p e)
    (hrule : rule.assignmentGroupId = group →
      rule.assignmentMethod = "ROUND_ROBIN" ∧ ticket.tenantId = tenant)
    (hhistory : ∀ d : Tables, (pending d p.changes).history = d.history)
    (hdirectory : ∀ d : Tables, SameDirectory d (pending d p.changes))
    (helsewhere : rule.assignmentGroupId ≠ group → ∀ held known assigneeId,
      (fairness group tenant members).Stable request held known →
      post { p with held := held, known := known } assigneeId)
    (hgroup : rule.assignmentGroupId = group → ∀ u, post { p with
      held := .group group :: p.held
      known := fun d => Fewest members group d.history u } (some u)) :
    (assignee ticket rule).Meets (fairness group tenant members) request p post raises := by
  by_cases heq : rule.assignmentGroupId = group
  · obtain ⟨hmethod, htenant⟩ := hrule heq
    have hother : ¬ rule.assignmentMethod = "GROUP_ONLY" := by
      rw [hmethod]
      decide
    unfold assignee roundRobinAssignee
    rw [if_neg hother, if_pos hmethod, meets_bind, meets_bind, meets_acquire, meets_query, heq,
      htenant]
    intro d halways hknown
    have hselected : ∀ u, fewestAssignments (pending d p.changes) tenant group = some u →
        Fewest members group d.history u := by
      intro u hu
      have hfewest := fewest_of_select ((hdirectory d).roundRobin halways).members hu
      rwa [hhistory] at hfewest
    cases hchosen : fewestAssignments (pending d p.changes) tenant group with
    | none =>
        refine ⟨p.known, hstable.mono fun k hk => List.mem_cons_of_mem _ hk, hknown, ?_⟩
        rw [meets_bind, meets_demand]
        exact ⟨nofun, fun _ => hraises _ _⟩
    | some u =>
        refine ⟨fun d => Fewest members group d.history u, stable_fewest List.mem_cons_self,
          hselected u hchosen, ?_⟩
        rw [meets_bind, meets_demand]
        refine ⟨fun assigneeId hsome => ?_, nofun⟩
        obtain rfl := Option.some.inj hsome
        exact hgroup heq u
  · have hpost := helsewhere heq
    unfold assignee
    dsimp only
    split
    · exact hpost p.held p.known _ hstable
    split
    · unfold roundRobinAssignee
      have hlocked : (fairness group tenant members).Stable request
          (.group rule.assignmentGroupId :: p.held) p.known :=
        hstable.mono fun k hk => List.mem_cons_of_mem _ hk
      rw [meets_bind, meets_bind, meets_acquire]
      refine meets_query_result hlocked fun d _ _ => ?_
      rw [meets_bind, meets_demand]
      exact ⟨fun assigneeId _ => hpost _ _ _ hlocked, fun _ => hraises _ _⟩
    split
    · rw [meets_bind, meets_demand]
      refine ⟨fun assigneeId _ => ?_, fun _ => hraises _ _⟩
      rw [meets_bind]
      refine meets_query_result hstable fun d _ _ => ?_
      rw [meets_bind, meets_check]
      exact ⟨fun _ => hpost p.held p.known _ hstable, fun _ => hraises _ _⟩
    · rw [meets_fail]
      exact hraises _ _

theorem meets_assign {ticket : RoutingTicket} {groupId : Uuid} {assigneeId : Option Uuid}
    {post : Place Tables Lock Statement → Bool → Prop}
    (hstable : (fairness group tenant members).Stable request p.held p.known)
    (hwritten : post { p with
      changes := p.changes ++ [.assign ticket.ticketId groupId assigneeId] } true)
    (hnot : post p false) :
    (assign ticket groupId assigneeId).Meets (fairness group tenant members) request p post raises := by
  unfold assign
  rw [meets_bind]
  refine meets_query_result hstable fun d _ _ => ?_
  split
  · exact hwritten
  · exact hnot

/-- What a claim leaves as it was. -/
theorem pending_claim (d : Tables) (record : RoutingRecord) :
    (pending d [Statement.claim record]).history = d.history ∧
      SameDirectory d (pending d [Statement.claim record]) := by
  show (d.change (.claim record)).history = d.history ∧ SameDirectory d (d.change (.claim record))
  unfold Tables.change
  dsimp only
  split
  · exact ⟨rfl, rfl, rfl, rfl, rfl⟩
  · exact ⟨rfl, rfl, rfl, rfl, rfl⟩

/-- What a whole route changes: one row of the history, and no directory. -/
theorem pending_route (d : Tables) (record : RoutingRecord) (ticketId groupId recordId : Uuid)
    (assigneeId : Option Uuid) (row : Assignment) (payload : AssignmentPayload) :
    (pending d [Statement.claim record, .assign ticketId groupId assigneeId, .record row,
      .complete recordId payload]).history = d.history ++ [row] ∧
    SameDirectory d (pending d [Statement.claim record, .assign ticketId groupId assigneeId,
      .record row, .complete recordId payload]) := by
  obtain ⟨hhistory, hgroups, hmembers, husers, hversions⟩ := pending_claim d record
  refine ⟨?_, hgroups, hmembers, husers, hversions⟩
  show (pending d [Statement.claim record]).history ++ [row] = _
  rw [hhistory]

theorem meets_routeTicket {tenantId userId recordId : Uuid} {record : RoutingRecord}
    (hchanges : p.changes = [.claim record])
    (hstable : (fairness group tenant members).Stable request p.held p.known) :
    (routeTicket request tenantId userId recordId).Meets (fairness group tenant members) request p
      (fun _ _ => True) fun _ _ => True := by
  unfold routeTicket
  rw [meets_bind]
  refine meets_lockedTicket hstable (fun _ _ => trivial) fun id ticket => ?_
  have hlocked := hstable.mono fun k hk => List.mem_cons_of_mem (Lock.ticket id) hk
  rw [meets_bind, meets_check]
  refine ⟨fun _ => ?_, fun _ => trivial⟩
  rw [meets_bind]
  refine meets_query_result hlocked fun d halways _ => ?_
  rw [meets_bind, meets_ofExcept]
  refine ⟨fun selection hselection => ?_, fun _ _ => trivial⟩
  obtain ⟨selection', hselected, rfl⟩ : ∃ s, selectRule (ruleVersions request.startedAt ticket
      (pending d p.changes)) ticket = .ok s ∧ s = selection := by
    cases hselect : selectRule (ruleVersions request.startedAt ticket (pending d p.changes)) ticket with
    | ok s => exact ⟨s, rfl, by simpa [hselect, Except.mapError] using hselection⟩
    | error e => simp [hselect, Except.mapError] at hselection
  have hrule : selection'.rule.assignmentGroupId = group →
      selection'.rule.assignmentMethod = "ROUND_ROBIN" ∧ ticket.tenantId = tenant := by
    rw [hchanges] at hselected
    exact ruleVersions_roundRobin ((pending_claim d record).2.roundRobin halways)
      (selectRule_mem hselected)
  rw [meets_bind]
  unfold authorizeGroup
  rw [meets_check]
  refine ⟨fun _ => ?_, fun _ => trivial⟩
  rw [meets_bind]
  -- the COMMIT, with the locks that are held then and what was counted
  have hend : ∀ held (known : Tables → Prop) assigneeId,
      (fairness group tenant members).Stable request held known →
      (∀ d, known d → selection'.rule.assignmentGroupId = group → Lock.group group ∈ held ∧
        ∃ u, assigneeId = some u ∧ Fewest members group d.history u) →
      (do
        let written ← assign ticket selection'.rule.assignmentGroupId assigneeId
        check (written = true) (.concurrency "Ticket changed while routing was executing.")
        write (.record (historyRow ticket selection' assigneeId userId))
        write (.complete recordId (routePayload selection' assigneeId))
        save
        return (routePayload selection' assigneeId, false) : RoutingCall _).Meets
          (fairness group tenant members) request
          { p with held := held, known := known } (fun _ _ => True) fun _ _ => True := by
    intro held known assigneeId hknownStable hfair
    rw [meets_bind]
    refine meets_assign hknownStable ?_ ?_
    · rw [meets_bind, meets_check]
      refine ⟨fun _ => ?_, fun _ => trivial⟩
      rw [meets_bind, meets_write, meets_bind, meets_write, meets_bind, meets_save]
      intro d' halways' hknown'
      obtain ⟨hhistory, hdirectory⟩ := pending_route d' record ticket.ticketId
        selection'.rule.assignmentGroupId recordId assigneeId
        (historyRow ticket selection' assigneeId userId) (routePayload selection' assigneeId)
      simp only [hchanges, List.cons_append, List.nil_append]
      refine ⟨⟨hdirectory, .inr ⟨_, hhistory, fun hto => ?_⟩⟩, fun _ => True,
        Contract.stable_true, trivial, trivial⟩
      exact hfair d' hknown' (Option.some.inj hto)
    · rw [meets_bind, meets_check]
      exact ⟨nofun, fun _ => trivial⟩
  refine meets_assignee hlocked (fun _ _ => trivial) hrule ?_ ?_ ?_ ?_
  · intro d
    rw [hchanges]
    exact (pending_claim d record).1
  · intro d
    rw [hchanges]
    exact (pending_claim d record).2
  · exact fun hne held known assigneeId hknownStable =>
      hend held known assigneeId hknownStable fun _ _ heq => absurd heq hne
  · exact fun _ u => hend _ _ _ (stable_fewest List.mem_cons_self) fun d hd _ =>
      ⟨List.mem_cons_self, u, rfl, hd⟩

/-- **`route` meets the contract.** -/
theorem route_honours (requestHash : String → Nat → String) :
    Honours (fairness group tenant members) (route requestHash) (fun _ _ _ => True)
      fun _ _ _ => True := by
  intro request
  unfold route
  rw [meets_bind, meets_ofExcept]
  refine ⟨fun _ _ => ?_, fun _ _ => trivial⟩
  rw [meets_bind, meets_ofExcept]
  refine ⟨fun (tenantId, userId) _ => ?_, fun _ _ => trivial⟩
  dsimp only
  rw [meets_bind]
  refine meets_query_result Contract.stable_true fun d _ _ => ?_
  rw [meets_bind, meets_demand]
  refine ⟨fun _ _ => ?_, fun _ => trivial⟩
  rw [meets_bind]
  refine meets_claimIdempotency Contract.stable_true (fun _ _ => trivial) fun idem => ?_
  rw [meets_bind, meets_check]
  refine ⟨fun _ => ?_, fun _ => trivial⟩
  split
  · rw [meets_bind, meets_save]
    intro d _ _
    obtain ⟨hhistory, hdirectory⟩ := pending_claim d _
    exact ⟨⟨hdirectory, .inl hhistory⟩, fun _ => True, Contract.stable_true, trivial, trivial⟩
  · exact meets_routeTicket rfl Contract.stable_true

end Route

/-! ## 3. The shares -/

section Fairness

variable {ι : Type} {group tenant : Uuid} {members : Finset Uuid}

/-- The COMMITs that assigned a ticket to the group. -/
def routingsTo (group : Uuid) (history : List (Transactions.Commit Tables RouteRequest ι)) : Nat :=
  history.countP fun e => assignmentsTo group e.after.history ≠ assignmentsTo group e.before.history

/-- **What every COMMIT keeps**: the shares are balanced, they are all the members',
    and there are as many as there were routings. -/
structure Fair (group : Uuid) (members : Finset Uuid)
    (commits : List (Transactions.Commit Tables RouteRequest ι)) (d : Tables) : Prop where
  balanced : Balanced members (assignmentCount d.history group)
  toMembers : ∀ a ∈ assignmentsTo group d.history, ∃ u ∈ members, a.toAssigneeId = some u
  counted : (assignmentsTo group d.history).length = routingsTo group commits

/-- A COMMIT that leaves the group's assignments. -/
theorem Fair.unchanged {commits : List (Transactions.Commit Tables RouteRequest ι)}
    {e : Transactions.Commit Tables RouteRequest ι} (h : Fair group members commits e.before)
    (hsame : assignmentsTo group e.after.history = assignmentsTo group e.before.history) :
    Fair group members (commits ++ [e]) e.after where
  balanced := by
    have hcounts : assignmentCount e.after.history group = assignmentCount e.before.history group :=
      funext fun u => assignmentCount_congr hsame u
    rw [hcounts]
    exact h.balanced
  toMembers := hsame ▸ h.toMembers
  counted := by
    rw [hsame, h.counted]
    simp [routingsTo, hsame]

/-- **A COMMIT that assigns to the group**, to a member who has the fewest. -/
theorem Fair.assigned {commits : List (Transactions.Commit Tables RouteRequest ι)}
    {e : Transactions.Commit Tables RouteRequest ι} (h : Fair group members commits e.before)
    {a : Assignment} {u : Uuid} (happend : e.after.history = e.before.history ++ [a])
    (hgroup : a.toGroupId = some group) (hu : a.toAssigneeId = some u)
    (hfewest : Fewest members group e.before.history u) :
    Fair group members (commits ++ [e]) e.after := by
  have hrows : assignmentsTo group e.after.history = assignmentsTo group e.before.history ++ [a] := by
    rw [happend]
    exact assignmentsTo_append_of_eq hgroup
  have hcount : ∀ v, assignmentCount e.after.history group v =
      assignmentCount e.before.history group v + if u = v then 1 else 0 := by
    intro v
    rw [assignmentCount_eq, assignmentCount_eq, hrows, List.countP_append]
    simp [hu]
  constructor
  · refine h.balanced.give hfewest.2 (by rw [hcount, if_pos rfl]) fun v hv => ?_
    rw [hcount, if_neg (Ne.symm hv), Nat.add_zero]
  · intro b hb
    rw [hrows, List.mem_append, List.mem_singleton] at hb
    rcases hb with hold | rfl
    · exact h.toMembers b hold
    · exact ⟨u, hfewest.1, hu⟩
  · rw [hrows, List.length_append, h.counted]
    simp [routingsTo, hrows]

theorem fair_of_commits {store d : Tables}
    {commits : List (Transactions.Commit Tables RouteRequest ι)}
    (hempty : assignmentsTo group store.history = [])
    (hrun : Run (fairness group tenant members).Allows store commits d) :
    Fair group members commits d := by
  induction hrun with
  | start =>
      refine ⟨fun u _ v _ => ?_, by simp [hempty], by simp [hempty, routingsTo]⟩
      simp [assignmentCount_eq, hempty]
  | @next commits d d' e _ hallows ih =>
      obtain ⟨rfl, rfl, -, hcommit⟩ := hallows
      split at hcommit
      · exact ih.unchanged hcommit.2
      · obtain ⟨held, -, hsame | ⟨a, happend, hlocked⟩⟩ := hcommit
        · exact ih.unchanged (by rw [hsame])
        · by_cases hgroup : a.toGroupId = some group
          · obtain ⟨-, u, hu, hfewest⟩ := hlocked hgroup
            exact ih.assigned happend hgroup hu hfewest
          · refine ih.unchanged ?_
            rw [happend]
            exact assignmentsTo_append_of_ne hgroup

variable [DecidableEq ι]

/-- **Round-robin is fair.** Whatever routes run at once, after `k` of them have
    assigned to the group, each of its `m` members has `k / m` assignments, rounded down
    or up, and no other user has any. -/
theorem round_robin_fair (requestHash : String → Nat → String) {store : Tables}
    {events : List (Transactions.Event Tables RouteRequest ι)}
    {w : Transactions.World Tables Lock Statement AppError (AssignmentPayload × Bool) RouteRequest ι}
    (hgroup : RoundRobinGroup group tenant members store)
    (hempty : assignmentsTo group store.history = [])
    (hrun : Transactions.Interleaving (fairness group tenant members) (route requestHash) store
      events w) :
    (∀ u ∈ members,
      assignmentCount w.store.history group u = routingsTo group w.history / members.card ∨
      assignmentCount w.store.history group u =
        (routingsTo group w.history + members.card - 1) / members.card) ∧
    ∀ a ∈ assignmentsTo group w.store.history, ∃ u ∈ members, a.toAssigneeId = some u := by
  have hsound := sound_of_run (route_honours requestHash) hgroup hrun
  have hfair := fair_of_commits hempty hsound.history
  have hsum : ∑ u ∈ members, assignmentCount w.store.history group u =
      routingsTo group w.history := by
    rw [← hfair.counted, ← sum_countP members _ hfair.toMembers]
    exact Finset.sum_congr rfl fun u _ => assignmentCount_eq _ _ _
  refine ⟨fun u hu => ?_, hfair.toMembers⟩
  have hshare := hfair.balanced.share hu
  rwa [hsum] at hshare

end Fairness

/-! ## 4. A service desk -/

/-- The active members of a group, whatever their role. -/
def activeMembers (d : Tables) (tenantId groupId : Uuid) : Finset Uuid :=
  ((d.members.filter fun m => m.supportGroupId = groupId ∧ m.activeFlag ∧
    d.users.any fun u => u.userId = m.userId ∧ u.tenantId = tenantId ∧ u.activeFlag).map
      (·.userId)).toFinset

/-- A new ticket of tenant 1, in project 7. -/
def newTicket (ticketId : Uuid) (ticketKey : String) : RoutingTicket :=
  ⟨ticketId, 1, ticketKey, 7, "HR", none, none, none, none, none, "INCIDENT", "P3", "NEW", "Help",
    none, none, none, 1, []⟩

/-- The default rule of project 7 routes round-robin to group 5: users 10 and 11, the
    second of them in the given role. -/
def deskWith (second : MemberRole) : Tables where
  tickets := [newTicket 100 "HR-1", newTicket 101 "HR-2"]
  groups := [⟨5, 1, "SUPPORT", true⟩]
  members := [⟨5, 10, .agent, true⟩, ⟨5, 11, second, true⟩]
  users := [⟨10, 1, true⟩, ⟨11, 1, true⟩]
  rules := [⟨20, 1, 7, true, none, none⟩]
  versions := [⟨21, 20, 1, 100, .null, 5, "ROUND_ROBIN", none, true, some 0, none, none⟩]
  history := []
  records := []

def routeOf (recordId : Uuid) (ticketKey key : String) : RouteRequest where
  context := ⟨some 1, some 30, [], "", "", fun _ => true⟩
  ticketKey := ticketKey
  rowVersion := 1
  idempotencyKey := key
  startedAt := 1000
  newRecordId := recordId

/-- Session 1 starts while session 0 holds the group's lock, and goes on after its
    COMMIT. -/
def twoRoutes : List (Transactions.Event Tables RouteRequest Nat) :=
  .begin 0 (routeOf 40 "HR-1" "first") :: List.replicate 10 (.statement 0) ++
    .begin 1 (routeOf 41 "HR-2" "second") :: List.replicate 8 (.statement 1) ++
    List.replicate 6 (.statement 0) ++ List.replicate 8 (.statement 1)

theorem deskWith_roundRobin (second : MemberRole) :
    RoundRobinGroup 5 1 (eligible (deskWith second) 1 5).toFinset (deskWith second) where
  members := rfl
  tenant := by
    cases second <;> decide
  method := by
    cases second <;> decide

theorem round_robin_fair_twoRoutes :
    RoundRobinGroup 5 1 (eligible (deskWith .lead) 1 5).toFinset (deskWith .lead) ∧
      ∃ w : Transactions.World Tables Lock Statement AppError (AssignmentPayload × Bool)
        RouteRequest Nat, routingsTo 5 w.history = 2 ∧
        ∀ u ∈ (eligible (deskWith .lead) 1 5).toFinset,
          assignmentCount w.store.history 5 u = 2 / 2 ∨
            assignmentCount w.store.history 5 u = (2 + 2 - 1) / 2 := by
  have hvalue : (twoRoutes.foldlM (fun w event =>
      if event.isOwn = true then perform (route fun key _ => key) w event else none)
      (.start (deskWith .lead))).map (fun w => routingsTo 5 w.history) = some 2 := by
    decide +kernel
  obtain ⟨w, hrun, hcount⟩ := Option.map_eq_some_iff.mp hvalue
  have hfair := (round_robin_fair _ (deskWith_roundRobin .lead) rfl
    (interleaving_of_foldlM (fun w _ hown => Contract.admits_own (fun _ _ => not_false)
      (fun _ _ => trivial) hown w) hrun)).1
  rw [hcount] at hfair
  exact ⟨deskWith_roundRobin .lead, w, hcount, hfair⟩

/-- The observer of a group is an active member of it, and no route chooses them: after
    two routings to a group of an agent and an observer the agent has both. -/
theorem observer_never_chosen :
    ¬ ∀ (requestHash : String → Nat → String) (group tenant : Uuid) (store : Tables)
      (events : List (Transactions.Event Tables RouteRequest Nat))
      (w : Transactions.World Tables Lock Statement AppError (AssignmentPayload × Bool)
        RouteRequest Nat),
      RoundRobinGroup group tenant (eligible store tenant group).toFinset store →
      assignmentsTo group store.history = [] →
      Transactions.Interleaving (fairness group tenant (eligible store tenant group).toFinset)
        (route requestHash) store events w →
      ∀ u ∈ activeMembers store tenant group,
        assignmentCount w.store.history group u =
          routingsTo group w.history / (activeMembers store tenant group).card ∨
        assignmentCount w.store.history group u =
          (routingsTo group w.history + (activeMembers store tenant group).card - 1) /
            (activeMembers store tenant group).card := by
  intro hclaim
  have hvalue : (twoRoutes.foldlM (fun w event =>
      if event.isOwn = true then perform (route fun key _ => key) w event else none)
      (.start (deskWith .observer))).map
        (fun w => (routingsTo 5 w.history, assignmentCount w.store.history 5 11)) = some (2, 0) := by
    decide +kernel
  obtain ⟨w, hrun, hcounts⟩ := Option.map_eq_some_iff.mp hvalue
  obtain ⟨hrouted, hobserver⟩ := Prod.mk.inj hcounts
  have hshare := hclaim _ 5 1 _ _ w (deskWith_roundRobin .observer) rfl
    (interleaving_of_foldlM (fun w _ hown => Contract.admits_own (fun _ _ => not_false)
      (fun _ _ => trivial) hown w) hrun) 11 (by decide)
  have hcard : (activeMembers (deskWith .observer) 1 5).card = 2 := by decide
  rw [hrouted, hobserver, hcard] at hshare
  omega

end Helpdesk.Routing
