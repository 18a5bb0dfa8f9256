/-
  File:      Helpdesk/Workflow/Ledger.lean
  Subject:   What an approval and its votes say of one another, over every run
             (apps/api/app/approvals: `request`, `decide`, `expire_if_due`,
             `record_decision`, `cancel_pending`).

  The status of an approval is written by one statement and the votes by another; the
  outcome is computed from the votes alone. An approval may be asked for, decided,
  found expired or cancelled in any order, beside comments and transitions.

  * `Kept`: the status is what the votes come to, the row version counts the votes and
    the closing, an approval is completed once it is no longer pending;
  * **`ledger_of_run`**: every run keeps this of every approval;
  * **`settled_lasts`**: what is settled and what is voted never changes;
  * **`outcome_follows_votes`**: the outcome is a function of the votes, whatever order
    they came in;
  * **`decided_once`**: no two decisions are taken on one row version.
-/
import Helpdesk.Workflow.Runs

namespace Helpdesk.Workflow

open Helpdesk.Python Helpdesk.Core Helpdesk.Tickets

variable {sha256 : String → String} {now : Instant} {context : RequestContext} {ticketKey : String}
  {desk desk' : Desk}

/-! ## 1. Lists of rows -/

section Rows

variable {α : Type} {f : α → α} {p : α → Bool} {v : α}

/-- **One row is updated**: what is counted changes by that row alone. -/
theorem countP_update : ∀ {l : List α}, l.Nodup → v ∈ l → (∀ u ∈ l, u ≠ v → f u = u) →
    (l.map f).countP p + (if p v then 1 else 0) = l.countP p + (if p (f v) then 1 else 0)
  | [], _, hv, _ => absurd hv List.not_mem_nil
  | u :: l, hnodup, hv, hsame => by
      obtain ⟨hu, hl⟩ := List.nodup_cons.mp hnodup
      rcases List.mem_cons.mp hv with rfl | hin
      · have hid : ∀ w ∈ l, f w = id w := fun w hw =>
          hsame w (List.mem_cons_of_mem _ hw) fun h => hu (h ▸ hw)
        have hrest : l.map f = l := (List.map_congr_left hid).trans (List.map_id l)
        rw [List.map_cons, hrest, List.countP_cons, List.countP_cons]
        omega
      · have hother : f u = u := hsame u List.mem_cons_self fun h => hu (h ▸ hin)
        have ih := countP_update hl hin fun w hw => hsame w (List.mem_cons_of_mem _ hw)
        rw [List.map_cons, hother, List.countP_cons, List.countP_cons]
        omega

theorem nodup_eraseDups [BEq α] [LawfulBEq α] : ∀ {n : Nat} {l : List α}, l.length ≤ n →
    l.eraseDups.Nodup
  | _, [], _ => List.nodup_nil
  | n + 1, a :: l, h => by
      rw [List.eraseDups_cons, List.nodup_cons, List.mem_eraseDups]
      refine ⟨by simp, nodup_eraseDups (n := n) ?_⟩
      exact Nat.le_trans (List.length_filter_le _ _) (Nat.le_of_succ_le_succ h)

end Rows

/-! ## 2. The ledger -/

/-- The approvers of an approval, with their votes. -/
def votesFor (approvers : List TicketApprover) (approvalId : Uuid) : List TicketApprover :=
  approvers.filter (·.approvalId = approvalId)

def tally (votes : List TicketApprover) (d : Decision) : Nat :=
  votes.countP (·.decision = some d)

/-- What the votes come to, under the definition they are counted by. -/
def outcome (config : DeskConfig) (votes : List TicketApprover) (versionId : Uuid) :
    Option Decision :=
  match config.approvalDefinitions.find? fun d => d.versionId = versionId with
  | none => none
  | some definition =>
      match terminalStatus definition.mode votes.length (tally votes .approved)
          (tally votes .rejected) with
      | .ok result => result
      | .error _ => none

/-- The outcome a status records. -/
def recorded : ApprovalStatus → Option Decision
  | .approved => some .approved
  | .rejected => some .rejected
  | .pending | .cancelled | .expired => none

/-- An approval was closed without an outcome. -/
def closed (status : ApprovalStatus) : Nat :=
  if status = .expired ∨ status = .cancelled then 1 else 0

/-- **An approval's row agrees with its votes.** -/
structure Kept (config : DeskConfig) (approvers : List TicketApprover) (a : TicketApproval) :
    Prop where
  asked : votesFor approvers a.approvalId ≠ []
  outcome : recorded a.status = outcome config (votesFor approvers a.approvalId) a.versionId
  version : a.rowVersion =
    1 + (votesFor approvers a.approvalId).countP (·.decision.isSome) + closed a.status
  completed : a.completedAt.isSome ↔ a.status ≠ .pending

structure Ledger (desk : Desk) : Prop where
  ids : (desk.approvals.map (·.approvalId)).Nodup
  below : ∀ a ∈ desk.approvals, a.approvalId < desk.nextId
  approverIds : ∀ v ∈ desk.approvers, v.approvalId < desk.nextId
  voters : (desk.approvers.map fun v => (v.approvalId, v.approverUserId)).Nodup
  kept : ∀ a ∈ desk.approvals, Kept desk.config desk.approvers a

theorem Ledger.row_unique (h : Ledger desk) {a b : TicketApproval} (ha : a ∈ desk.approvals)
    (hb : b ∈ desk.approvals) (hid : a.approvalId = b.approvalId) : a = b :=
  List.inj_on_of_nodup_map h.ids ha hb hid

theorem Ledger.vote_unique (h : Ledger desk) {v w : TicketApprover} (hv : v ∈ desk.approvers)
    (hw : w ∈ desk.approvers) (hid : v.approvalId = w.approvalId)
    (huser : v.approverUserId = w.approverUserId) : v = w :=
  List.inj_on_of_nodup_map h.voters hv hw (Prod.ext hid huser)

/-- An approval none of whose votes changed. -/
theorem Kept.of_votes {config : DeskConfig} {approvers approvers' : List TicketApprover}
    {a : TicketApproval} (h : Kept config approvers a)
    (hsame : votesFor approvers' a.approvalId = votesFor approvers a.approvalId) :
    Kept config approvers' a where
  asked := by
    rw [hsame]
    exact h.asked
  outcome := by
    rw [hsame]
    exact h.outcome
  version := by
    rw [hsame]
    exact h.version
  completed := h.completed

/-- **Nothing is taken back**: approvals and approvers remain, row versions do not fall, and
    neither a settled approval nor a vote changes. -/
structure Lasting (desk desk' : Desk) : Prop where
  approvals : ∀ a ∈ desk.approvals, ∃ a' ∈ desk'.approvals, a'.approvalId = a.approvalId ∧
    a.rowVersion ≤ a'.rowVersion ∧ (a.status ≠ .pending → a' = a)
  votes : ∀ v ∈ desk.approvers, ∃ v' ∈ desk'.approvers, v'.approvalId = v.approvalId ∧
    v'.approverUserId = v.approverUserId ∧ (v.decision.isSome → v' = v)

theorem Lasting.refl (desk : Desk) : Lasting desk desk :=
  ⟨fun a ha => ⟨a, ha, rfl, Nat.le_refl _, fun _ => rfl⟩, fun v hv => ⟨v, hv, rfl, rfl, fun _ => rfl⟩⟩

theorem Lasting.trans {a b c : Desk} (hab : Lasting a b) (hbc : Lasting b c) : Lasting a c := by
  constructor
  · intro x hx
    obtain ⟨y, hy, hid, hle, hsame⟩ := hab.approvals x hx
    obtain ⟨z, hz, hid', hle', hsame'⟩ := hbc.approvals y hy
    refine ⟨z, hz, hid'.trans hid, Nat.le_trans hle hle', fun hsettled => ?_⟩
    obtain rfl := hsame hsettled
    exact hsame' hsettled
  · intro v hv
    obtain ⟨w, hw, hid, huser, hsame⟩ := hab.votes v hv
    obtain ⟨u, hu, hid', huser', hsame'⟩ := hbc.votes w hw
    refine ⟨u, hu, hid'.trans hid, huser'.trans huser, fun hvoted => ?_⟩
    obtain rfl := hsame hvoted
    exact hsame' hvoted

/-- What every transaction is shown to do. -/
def Advances (desk desk' : Desk) : Prop :=
  desk'.config = desk.config ∧ (Ledger desk → Ledger desk' ∧ Lasting desk desk')

theorem Advances.refl (desk : Desk) : Advances desk desk := ⟨rfl, fun h => ⟨h, .refl desk⟩⟩

theorem Advances.trans (a b c : Desk) (hab : Advances a b) (hbc : Advances b c) : Advances a c := by
  refine ⟨hbc.1.trans hab.1, fun h => ?_⟩
  obtain ⟨hb, hlast⟩ := hab.2 h
  obtain ⟨hc, hlast'⟩ := hbc.2 hb
  exact ⟨hc, hlast.trans hlast'⟩

/-- A change of other tables. -/
theorem Advances.of_tables (hconfig : desk'.config = desk.config)
    (happrovals : desk'.approvals = desk.approvals) (happrovers : desk'.approvers = desk.approvers)
    (hnext : desk.nextId ≤ desk'.nextId) : Advances desk desk' := by
  refine ⟨hconfig, fun h => ⟨⟨?_, ?_, ?_, ?_, ?_⟩, ⟨?_, ?_⟩⟩⟩
  · rw [happrovals]
    exact h.ids
  · rw [happrovals]
    exact fun a ha => Nat.lt_of_lt_of_le (h.below a ha) hnext
  · rw [happrovers]
    exact fun v hv => Nat.lt_of_lt_of_le (h.approverIds v hv) hnext
  · rw [happrovers]
    exact h.voters
  · rw [happrovals, happrovers, hconfig]
    exact h.kept
  · rw [happrovals]
    exact (Lasting.refl desk).approvals
  · rw [happrovers]
    exact (Lasting.refl desk).votes

/-- **Rows are updated in place**: pending approvals and open votes alone. -/
theorem Ledger.update (h : Ledger desk) {g : TicketApproval → TicketApproval}
    {f : TicketApprover → TicketApprover} (hconfig : desk'.config = desk.config)
    (happrovals : desk'.approvals = desk.approvals.map g)
    (happrovers : desk'.approvers = desk.approvers.map f) (hnext : desk.nextId ≤ desk'.nextId)
    (hg : ∀ a ∈ desk.approvals, (g a).approvalId = a.approvalId ∧ a.rowVersion ≤ (g a).rowVersion ∧
      (a.status ≠ .pending → g a = a))
    (hf : ∀ v ∈ desk.approvers, (f v).approvalId = v.approvalId ∧
      (f v).approverUserId = v.approverUserId ∧ (v.decision.isSome → f v = v))
    (hkept : ∀ a ∈ desk.approvals, Kept desk.config (desk.approvers.map f) (g a)) :
    Ledger desk' ∧ Lasting desk desk' := by
  have hids : (desk.approvals.map g).map (·.approvalId) = desk.approvals.map (·.approvalId) := by
    rw [List.map_map]
    exact List.map_congr_left fun a ha => (hg a ha).1
  have hvoters : (desk.approvers.map f).map (fun v => (v.approvalId, v.approverUserId)) =
      desk.approvers.map fun v => (v.approvalId, v.approverUserId) := by
    rw [List.map_map]
    exact List.map_congr_left fun v hv => Prod.ext (hf v hv).1 (hf v hv).2.1
  refine ⟨⟨?_, ?_, ?_, ?_, ?_⟩, ⟨fun a ha => ?_, fun v hv => ?_⟩⟩
  · rw [happrovals, hids]
    exact h.ids
  · rw [happrovals]
    intro a' ha'
    obtain ⟨a, ha, rfl⟩ := List.mem_map.mp ha'
    rw [(hg a ha).1]
    exact Nat.lt_of_lt_of_le (h.below a ha) hnext
  · rw [happrovers]
    intro v' hv'
    obtain ⟨v, hv, rfl⟩ := List.mem_map.mp hv'
    rw [(hf v hv).1]
    exact Nat.lt_of_lt_of_le (h.approverIds v hv) hnext
  · rw [happrovers, hvoters]
    exact h.voters
  · rw [happrovals, happrovers, hconfig]
    intro a' ha'
    obtain ⟨a, ha, rfl⟩ := List.mem_map.mp ha'
    exact hkept a ha
  · rw [happrovals]
    exact ⟨g a, List.mem_map_of_mem ha, hg a ha⟩
  · rw [happrovers]
    exact ⟨f v, List.mem_map_of_mem hv, hf v hv⟩

/-- An approval that is closed without a vote. -/
theorem Kept.close {config : DeskConfig} {approvers : List TicketApprover} {a : TicketApproval}
    (h : Kept config approvers a) (hpending : a.status = .pending) {status : ApprovalStatus}
    (hstatus : status = .expired ∨ status = .cancelled) (now : Instant) :
    Kept config approvers
      { a with status := status, completedAt := some now, rowVersion := a.rowVersion + 1 } where
  asked := h.asked
  outcome := by
    rw [← h.outcome, hpending]
    rcases hstatus with rfl | rfl <;> rfl
  version := by
    have hversion := h.version
    rw [hpending, show closed .pending = 0 from rfl] at hversion
    rw [closed, if_pos hstatus]
    exact congrArg (· + 1) hversion
  completed := by
    rcases hstatus with rfl | rfl <;> simp

/-- **Pending approvals are closed without a vote**, the others stay. -/
theorem Ledger.close (h : Ledger desk) {g : TicketApproval → TicketApproval}
    {status : ApprovalStatus} (hstatus : status = .expired ∨ status = .cancelled) (now : Instant)
    (hconfig : desk'.config = desk.config) (happrovals : desk'.approvals = desk.approvals.map g)
    (happrovers : desk'.approvers = desk.approvers) (hnext : desk.nextId ≤ desk'.nextId)
    (hg : ∀ a ∈ desk.approvals, g a = a ∨ a.status = .pending ∧
      g a = { a with status := status, completedAt := some now, rowVersion := a.rowVersion + 1 }) :
    Ledger desk' ∧ Lasting desk desk' := by
  refine h.update (f := id) hconfig happrovals (by rw [happrovers, List.map_id]) hnext
    (fun a ha => ?_) (fun v _ => ⟨rfl, rfl, fun _ => rfl⟩) fun a ha => ?_
  · rcases hg a ha with hsame | ⟨hpending, hclosed⟩
    · rw [hsame]
      exact ⟨rfl, Nat.le_refl _, fun _ => rfl⟩
    · rw [hclosed]
      exact ⟨rfl, Nat.le_succ _, fun hsettled => absurd hpending hsettled⟩
  · rw [List.map_id]
    rcases hg a ha with hsame | ⟨hpending, hclosed⟩
    · rw [hsame]
      exact h.kept a ha
    · rw [hclosed]
      exact (h.kept a ha).close hpending hstatus now

/-! ## 3. A request -/

/-- Nobody has voted yet. -/
theorem outcome_unvoted {config : DeskConfig} {votes : List TicketApprover} {versionId : Uuid}
    (hasked : votes ≠ []) (hopen : ∀ v ∈ votes, v.decision = none) :
    outcome config votes versionId = none := by
  have htally : ∀ d, tally votes d = 0 := fun d => List.countP_eq_zero.mpr fun v hv => by
    simp [hopen v hv]
  have hlength : ¬ 0 = votes.length := fun h => hasked (List.length_eq_zero_iff.mp h.symm)
  unfold outcome
  cases config.approvalDefinitions.find? fun d => d.versionId = versionId with
  | none => rfl
  | some definition =>
      simp only [htally, terminalStatus, ne_eq, not_true_eq_false, if_false, if_neg hlength]
      by_cases hany : definition.mode = "ANY_ONE_APPROVER" ∨ definition.mode = "MANAGER_APPROVAL"
      · rw [if_pos hany]
      · rw [if_neg hany]
        by_cases hall : definition.mode = "ALL_APPROVERS"
        · rw [if_pos hall]
        · rw [if_neg hall]

/-- **A new approval**, of approvers that are each named once. -/
theorem Ledger.create (h : Ledger desk) {a : TicketApproval} {approverIds : List Uuid}
    {tenantId : Uuid} (hids : approverIds.Nodup) (hasked : approverIds ≠ [])
    (hid : a.approvalId = desk.nextId) (hstatus : a.status = .pending) (hversion : a.rowVersion = 1)
    (hcompleted : a.completedAt = none) (hconfig : desk'.config = desk.config)
    (happrovals : desk'.approvals = desk.approvals ++ [a])
    (happrovers : desk'.approvers = desk.approvers ++ (approverIds.zipIdx 1).map fun entry =>
      (⟨desk.nextId, entry.1, entry.2, tenantId, none⟩ : TicketApprover))
    (hnext : desk.nextId < desk'.nextId) : Ledger desk' ∧ Lasting desk desk' := by
  obtain ⟨new, hnew⟩ : ∃ new, (approverIds.zipIdx 1).map (fun entry =>
      (⟨desk.nextId, entry.1, entry.2, tenantId, none⟩ : TicketApprover)) = new := ⟨_, rfl⟩
  rw [hnew] at happrovers
  have hopen : ∀ v ∈ new, v.approvalId = desk.nextId ∧ v.decision = none := by
    rw [← hnew]
    intro v hv
    obtain ⟨_, _, rfl⟩ := List.mem_map.mp hv
    exact ⟨rfl, rfl⟩
  have husers : new.map (fun v => (v.approvalId, v.approverUserId)) =
      approverIds.map fun id => (desk.nextId, id) := by
    rw [← hnew, List.map_map]
    conv_rhs => rw [← List.zipIdx_map_fst 1 approverIds, List.map_map]
    rfl
  have hne : new ≠ [] := by
    rintro rfl
    rw [List.map_nil] at husers
    exact hasked (List.map_eq_nil_iff.mp husers.symm)
  have hold : ∀ id < desk.nextId, votesFor desk'.approvers id = votesFor desk.approvers id := by
    intro id hlt
    have hnone : votesFor new id = [] := List.filter_eq_nil_iff.mpr fun v hv => by
      rw [(hopen v hv).1]
      simpa using (Nat.ne_of_lt hlt).symm
    rw [happrovers, votesFor, List.filter_append]
    exact (congrArg (votesFor desk.approvers id ++ ·) hnone).trans (List.append_nil _)
  have hvotes : votesFor desk'.approvers a.approvalId = new := by
    have hnone : votesFor desk.approvers a.approvalId = [] :=
      List.filter_eq_nil_iff.mpr fun v hv => by
        simpa [hid] using Nat.ne_of_lt (h.approverIds v hv)
    have hall : votesFor new a.approvalId = new :=
      List.filter_eq_self.mpr fun v hv => by simpa [hid] using (hopen v hv).1
    rw [happrovers, votesFor, List.filter_append]
    exact (congrArg (· ++ votesFor new a.approvalId) hnone).trans hall
  refine ⟨⟨?_, ?_, ?_, ?_, ?_⟩, ⟨fun b hb => ?_, fun v hv => ?_⟩⟩
  · rw [happrovals, List.map_append, List.nodup_append]
    refine ⟨h.ids, List.nodup_singleton _, ?_⟩
    intro id hin id' hin'
    obtain ⟨b, hb, rfl⟩ := List.mem_map.mp hin
    rw [List.map_singleton, List.mem_singleton, hid] at hin'
    rw [hin']
    exact Nat.ne_of_lt (h.below b hb)
  · rw [happrovals]
    intro b hb
    rcases List.mem_append.mp hb with hb | hb
    · exact Nat.lt_trans (h.below b hb) hnext
    · rw [List.mem_singleton.mp hb, hid]
      exact hnext
  · rw [happrovers]
    intro v hv
    rcases List.mem_append.mp hv with hv | hv
    · exact Nat.lt_trans (h.approverIds v hv) hnext
    · rw [(hopen v hv).1]
      exact hnext
  · rw [happrovers, List.map_append, List.nodup_append, husers]
    refine ⟨h.voters, hids.map fun _ _ heq => (Prod.mk.inj heq).2, ?_⟩
    intro key hkey key' hkey'
    obtain ⟨v, hv, rfl⟩ := List.mem_map.mp hkey
    obtain ⟨id, _, rfl⟩ := List.mem_map.mp hkey'
    exact fun heq => Nat.ne_of_lt (h.approverIds v hv) (Prod.mk.inj heq).1
  · rw [happrovals, hconfig]
    intro b hb
    rcases List.mem_append.mp hb with hb | hb
    · exact (h.kept b hb).of_votes (hold b.approvalId (h.below b hb))
    · rw [List.mem_singleton.mp hb]
      have hcount : new.countP (·.decision.isSome) = 0 := List.countP_eq_zero.mpr fun v hv => by
        simp [(hopen v hv).2]
      refine ⟨by rw [hvotes]; exact hne, ?_, ?_, ?_⟩
      · rw [hvotes, outcome_unvoted hne fun v hv => (hopen v hv).2, hstatus]
        rfl
      · rw [hvotes, hcount, hversion, hstatus]
        rfl
      · simp [hcompleted, hstatus]
  · rw [happrovals]
    exact ⟨b, List.mem_append_left _ hb, rfl, Nat.le_refl _, fun _ => rfl⟩
  · rw [happrovers]
    exact ⟨v, List.mem_append_left _ hv, rfl, rfl, fun _ => rfl⟩

theorem resolve_ok {config : DeskConfig} {ticket : Ticket} {definition : ApprovalDefinitionRow}
    {ids : List Uuid} (h : resolve config ticket definition = .ok ids) : ids.Nodup ∧ ids ≠ [] := by
  unfold resolve at h
  split at h
  · dsimp only at h
    split at h
    · split at h
      · cases h
      · split at h
        · obtain ⟨given, hgiven, h⟩ := bind_eq_ok.mp h
          split at h
          · cases h
          · obtain rfl := Except.ok.inj h
            refine ⟨nodup_eraseDups (Nat.le_refl _), ?_⟩
            cases mapM_pointwise hgiven with
            | cons => simp [List.eraseDups_cons]
        · cases h
    · split at h
      · split at h
        · cases h
        · split at h
          · cases h
          · split at h
            · obtain rfl := Except.ok.inj h
              exact ⟨List.nodup_singleton _, List.cons_ne_nil _ _⟩
            · cases h
      · cases h
  · cases h

/-! ## 4. A vote -/

/-- What `record_decision` sets of an approval beside its row version. -/
def settle (now : Instant) (terminal : Option Decision) (a : TicketApproval) : TicketApproval :=
  match terminal with
  | some terminal => { a with status := terminal.status, completedAt := some now }
  | none => a

/-- The votes after an approver's decision. -/
def castVote (approvalId userId : Uuid) (d : Decision) (v : TicketApprover) : TicketApprover :=
  if v.approvalId = approvalId ∧ v.approverUserId = userId ∧ v.decision = none then
    { v with decision := some d }
  else v

theorem castVote_keys (approvalId userId : Uuid) (d : Decision) (v : TicketApprover) :
    (castVote approvalId userId d v).approvalId = v.approvalId ∧
      (castVote approvalId userId d v).approverUserId = v.approverUserId ∧
      (v.decision.isSome → castVote approvalId userId d v = v) := by
  unfold castVote
  by_cases hopen : v.approvalId = approvalId ∧ v.approverUserId = userId ∧ v.decision = none
  · rw [if_pos hopen, hopen.2.2]
    exact ⟨rfl, rfl, nofun⟩
  · rw [if_neg hopen]
    exact ⟨rfl, rfl, fun _ => rfl⟩

theorem votesFor_map {f : TicketApprover → TicketApprover}
    (hf : ∀ v, (f v).approvalId = v.approvalId) (approvers : List TicketApprover) (id : Uuid) :
    votesFor (approvers.map f) id = (votesFor approvers id).map f := by
  rw [votesFor, List.filter_map]
  congr 1
  exact List.filter_congr fun v _ => by simp [hf]

/-- **A vote on a pending approval**: the status becomes what the votes then come to. -/
theorem Ledger.vote (h : Ledger desk) (now : Instant) (terminal : Option Decision)
    {a : TicketApproval} (ha : a ∈ desk.approvals)
    (hpending : a.status = .pending) {v : TicketApprover} (hv : v ∈ desk.approvers)
    (hid : v.approvalId = a.approvalId) (hopen : v.decision = none)
    {definition : ApprovalDefinitionRow}
    (hdefinition : desk.config.approvalDefinitions.find? (fun d => d.versionId = a.versionId) =
      some definition) {d : Decision}
    (hterminal : terminalStatus definition.mode (votesFor desk.approvers a.approvalId).length
      (tally (votesFor desk.approvers a.approvalId) .approved + if d = .approved then 1 else 0)
      (tally (votesFor desk.approvers a.approvalId) .rejected + if d = .rejected then 1 else 0) =
        .ok terminal)
    (hconfig : desk'.config = desk.config)
    (happrovals : desk'.approvals = (putApproval a.approvalId (settle now terminal) desk).approvals)
    (happrovers : desk'.approvers =
      desk.approvers.map (castVote a.approvalId v.approverUserId d))
    (hnext : desk.nextId ≤ desk'.nextId) : Ledger desk' ∧ Lasting desk desk' := by
  have hkeys := castVote_keys a.approvalId v.approverUserId d
  have hvotes := votesFor_map (fun v => (hkeys v).1) desk.approvers
  refine h.update hconfig happrovals happrovers hnext (fun b hb => ?_) (fun u _ => hkeys u)
    fun b hb => ?_
  · by_cases heq : b.approvalId = a.approvalId
    · obtain rfl := h.row_unique hb ha heq
      rw [if_pos rfl]
      refine ⟨?_, Nat.le_succ _, fun hsettled => absurd hpending hsettled⟩
      cases terminal <;> rfl
    · rw [if_neg heq]
      exact ⟨rfl, Nat.le_refl _, fun _ => rfl⟩
  · by_cases heq : b.approvalId = a.approvalId
    · obtain rfl := h.row_unique hb ha heq
      have hkept := h.kept b ha
      have hin : v ∈ votesFor desk.approvers b.approvalId :=
        List.mem_filter.mpr ⟨hv, by simpa using hid⟩
      have hnodup : (votesFor desk.approvers b.approvalId).Nodup :=
        (List.Nodup.of_map _ h.voters).filter _
      have hcast : castVote b.approvalId v.approverUserId d v = { v with decision := some d } :=
        if_pos ⟨hid, rfl, hopen⟩
      have hsame : ∀ u ∈ votesFor desk.approvers b.approvalId, u ≠ v →
          castVote b.approvalId v.approverUserId d u = u := by
        intro u hu hne
        refine if_neg fun hcast => hne ?_
        exact h.vote_unique (List.mem_filter.mp hu).1 hv (hcast.1.trans hid.symm) hcast.2.1
      -- one open vote becomes the decision, the others stay
      have htally : ∀ e, tally ((votesFor desk.approvers b.approvalId).map
          (castVote b.approvalId v.approverUserId d)) e =
          tally (votesFor desk.approvers b.approvalId) e + if d = e then 1 else 0 := by
        intro e
        have hcount := countP_update (p := (·.decision = some e)) hnodup hin hsame
        simpa [hcast, hopen, tally] using hcount
      have hdecided : ((votesFor desk.approvers b.approvalId).map
          (castVote b.approvalId v.approverUserId d)).countP (·.decision.isSome) =
          (votesFor desk.approvers b.approvalId).countP (·.decision.isSome) + 1 := by
        have hcount := countP_update (p := (·.decision.isSome)) hnodup hin hsame
        simpa [hcast, hopen] using hcount
      have houtcome : outcome desk.config ((votesFor desk.approvers b.approvalId).map
          (castVote b.approvalId v.approverUserId d)) b.versionId = terminal := by
        rw [outcome, hdefinition]
        simp only [List.length_map, htally, hterminal]
      have hversion := hkept.version
      rw [hpending, show closed .pending = 0 from rfl] at hversion
      rw [if_pos rfl]
      cases terminal with
      | none =>
          refine ⟨?_, ?_, ?_, hkept.completed⟩
          · simpa only [settle, hvotes, ne_eq, List.map_eq_nil_iff] using hkept.asked
          · simp only [settle, hvotes, houtcome, hpending]
            rfl
          · simp only [settle, hvotes, hdecided, hpending, show closed .pending = 0 from rfl]
            omega
      | some outcome =>
          have hclosed : closed outcome.status = 0 := by cases outcome <;> rfl
          refine ⟨?_, ?_, ?_, ?_⟩
          · simpa only [settle, hvotes, ne_eq, List.map_eq_nil_iff] using hkept.asked
          · simp only [settle, hvotes, houtcome]
            cases outcome <;> rfl
          · simp only [settle, hvotes, hdecided, hclosed]
            omega
          · simp only [settle]
            cases outcome <;> simp [Decision.status]
    · have hother : votesFor (desk.approvers.map (castVote a.approvalId v.approverUserId d))
          b.approvalId = votesFor desk.approvers b.approvalId := by
        rw [hvotes]
        refine (List.map_congr_left fun u hu => ?_).trans (List.map_id _)
        have hmember : u.approvalId = b.approvalId := by simpa using (List.mem_filter.mp hu).2
        exact if_neg fun hcast => heq (hmember.symm.trans hcast.1)
      rw [if_neg heq]
      exact (h.kept b hb).of_votes hother

/-! ## 5. What every service does -/

abbrev Advancing {α : Type} (x : DeskTransaction α) : Prop := Transaction.Respects Advances x

theorem advancing_pure {α : Type} (a : α) : Advancing (pure a) := .pure Advances.refl a

theorem advancing_bind {α β : Type} {x : DeskTransaction α} {f : α → DeskTransaction β}
    (hx : Advancing x) (hf : ∀ a, Advancing (f a)) : Advancing (x >>= f) :=
  .bind Advances.trans hx hf

theorem advancing_newId : Advancing newId := by
  intro desk id desk' h
  obtain ⟨_, rfl⟩ := Prod.mk.inj (Except.ok.inj h)
  exact .of_tables rfl rfl rfl (Nat.le_succ _)

theorem advancing_emitOrIgnore {tenantId aggregateId : Uuid} {aggregateType eventType : String}
    {payload : List (String × Json)} {key : DeduplicationKey} :
    Advancing (emitOrIgnore now tenantId aggregateType aggregateId eventType payload key) :=
  advancing_bind advancing_newId fun _ => .modify fun _ => .of_tables rfl rfl rfl (Nat.le_refl _)

theorem advancing_emit {tenantId aggregateId : Uuid} {aggregateType eventType : String}
    {payload : List (String × Json)} {key : Option DeduplicationKey} :
    Advancing (emit now tenantId aggregateType aggregateId eventType payload key) := by
  intro desk u desk' h
  rw [emit_ok h]
  exact .of_tables rfl rfl rfl (Nat.le_succ _)

theorem advancing_claimIdempotency {tenantId userId : Uuid}
    {key requestHash operationCode : String} :
    Advancing (claimIdempotency tenantId userId key requestHash operationCode) := by
  intro desk record desk' h
  obtain ⟨records, rfl⟩ := claimIdempotency_ok h
  exact .of_tables rfl rfl rfl (Nat.le_refl _)

theorem advancing_completeIdempotency {record : IdempotencyRecord} {resourceId : Uuid} :
    Advancing (completeIdempotency record resourceId) :=
  .modify fun _ => .of_tables rfl rfl rfl (Nat.le_refl _)

theorem advancing_insertComment {ticketId authorUserId : Uuid} {visibility : Visibility}
    {body sourceChannel : String} :
    Advancing (insertComment now ticketId authorUserId visibility body sourceChannel) :=
  advancing_bind advancing_newId fun _ =>
    advancing_bind (.modify fun _ => .of_tables rfl rfl rfl (Nat.le_refl _)) fun _ => advancing_pure _

theorem advancing_addPublicComment {tenantId ticketId actorUserId : Uuid}
    {body slaType : String} :
    Advancing (addPublicComment now tenantId ticketId actorUserId body slaType) := by
  unfold addPublicComment
  refine .guard (advancing_bind advancing_insertComment fun _ => ?_)
  refine advancing_bind advancing_emitOrIgnore fun _ => ?_
  exact advancing_bind advancing_emitOrIgnore fun _ => advancing_pure _

theorem advancing_addComment {tenantId ticketId actorUserId : Uuid} {visibility : Visibility}
    {body : String} :
    Advancing (addComment now tenantId ticketId actorUserId visibility body) := by
  unfold addComment
  refine advancing_bind advancing_insertComment fun _ => ?_
  split
  · exact advancing_bind advancing_emitOrIgnore fun _ => advancing_pure _
  · exact advancing_pure _

theorem advancing_ticketComment {command : PublicCommentCreateRequest} {key : String} :
    Advancing (ticketComment sha256 now context ticketKey command key) := by
  unfold ticketComment
  refine .lift_bind fun ids _ => .lift_bind fun _ _ => .guard (.get_bind fun desk => ?_)
  refine .lift_bind fun ticket _ => advancing_bind advancing_claimIdempotency fun idem => ?_
  refine .lift_bind fun _ _ => ?_
  split
  · exact advancing_pure none
  · refine advancing_bind advancing_addPublicComment fun commentId => ?_
    exact advancing_bind advancing_completeIdempotency fun _ => advancing_pure _

theorem advancing_queueComment {command : AnalystCommentCreateRequest} {key : String} :
    Advancing (queueComment sha256 now context ticketKey command key) := by
  unfold queueComment
  refine .lift_bind fun ids _ => .lift_bind fun _ _ => .lift_bind fun _ _ => ?_
  refine .guard (.get_bind fun desk => ?_)
  split
  · refine advancing_bind advancing_claimIdempotency fun idem => .lift_bind fun _ _ => ?_
    split
    · refine .get_bind fun desk => ?_
      split
      · exact .throw _
      · exact advancing_pure _
    · refine advancing_bind advancing_addComment fun commentId => ?_
      refine advancing_bind advancing_completeIdempotency fun _ => .get_bind fun desk => ?_
      split
      · exact .throw _
      · exact advancing_pure _
  · exact .throw _

theorem advancing_draftComment {draft : StoredDraft} {editedBody : String} :
    Advancing (draftComment sha256 now context ticketKey draft editedBody) := by
  unfold draftComment
  split
  · refine .lift_bind fun _ _ => ?_
    dsimp only
    split
    · exact advancing_queueComment
    · exact .throw _
  · exact .throw _

theorem advancing_comment (request : CommentRequest) :
    Advancing (request.transaction sha256 now context) := by
  cases request with
  | ticketApi => exact advancing_bind advancing_ticketComment fun _ => advancing_pure _
  | agentQueue => exact advancing_bind advancing_queueComment fun _ => advancing_pure _
  | copilotDraft => exact advancing_bind advancing_draftComment fun _ => advancing_pure _

theorem advancing_updateTicket {ticketId : Uuid} {change : Ticket → Ticket} :
    Advancing (updateTicket ticketId change) := by
  intro desk u desk' h
  obtain ⟨_, rfl⟩ := updateTicket_ok h
  exact .of_tables rfl rfl rfl (Nat.le_refl _)

theorem advancing_continueWorkflow {approval : LockedApproval} {transitionId : Uuid} :
    Advancing (continueWorkflow now context approval transitionId) := by
  unfold continueWorkflow
  refine .get_bind fun desk => ?_
  split
  · exact .throw _
  · exact advancing_bind advancing_updateTicket fun _ => advancing_emit

theorem advancing_recordFact {tenantId approvalId : Uuid} {eventType : String}
    {payload : List (String × Json)} {rowVersion : Nat} :
    Advancing (recordFact now tenantId approvalId eventType payload rowVersion) :=
  advancing_emitOrIgnore

theorem advancing_createApproval {ticket : Ticket} {definition : ApprovalDefinitionRow}
    {approverIds : List Uuid} (hids : approverIds.Nodup) (hasked : approverIds ≠ []) :
    Advancing (createApproval now ticket definition approverIds) := by
  intro desk u desk' h
  unfold createApproval at h
  obtain ⟨id, desk₁, hid, h⟩ := Transaction.bind_eq_ok.mp h
  obtain ⟨rfl, rfl⟩ := Prod.mk.inj (Except.ok.inj hid)
  rw [Transaction.get_bind] at h
  dsimp only at h
  rw [Transaction.guard_eq_ok, Transaction.set_bind] at h
  refine Advances.trans _ _ _ ?_ (advancing_recordFact _ _ _ h.2)
  refine ⟨rfl, fun hledger => ?_⟩
  exact hledger.create hids hasked rfl rfl rfl rfl rfl rfl rfl (Nat.lt_succ_self _)

theorem advancing_request {tenantId ticketId : Uuid} {approvalCode : String} :
    Advancing (request now tenantId ticketId approvalCode) := by
  unfold request
  refine .get_bind fun desk => ?_
  split
  · split
    · refine .lift_bind fun approvers happrovers => .guard ?_
      obtain ⟨hids, hasked⟩ := resolve_ok happrovers
      exact advancing_createApproval hids hasked
    · exact .throw _
  · exact .throw _

theorem advancing_moveTicket {userId : Uuid} {ticket : WorkflowTicket}
    {transition : WorkflowTransition} {command : TransitionCommand} {comment : Option String} :
    Advancing (moveTicket now context userId ticket transition command comment) := by
  unfold moveTicket
  refine .get_bind fun desk => .lift_bind fun updates _ => ?_
  have hrest : Advancing (do
      updateTicket ticket.row.ticketId (updates.apply transition.row.toStatusId)
      recordTransition now context ticket.row transition (ticket.row.rowVersion + 1)) :=
    advancing_bind advancing_updateTicket fun _ =>
      advancing_bind advancing_emit fun _ => advancing_emitOrIgnore
  split
  · exact advancing_bind advancing_addPublicComment fun _ => hrest
  · exact hrest

theorem advancing_execute {command : TransitionCommand} {key : String} :
    Advancing (execute sha256 now context ticketKey command key) := by
  unfold execute
  refine .lift_bind fun _ _ => .lift_bind fun ids _ => .get_bind fun desk => ?_
  split
  · exact .throw _
  · refine advancing_bind advancing_claimIdempotency fun idem => .lift_bind fun _ _ => ?_
    split
    · exact advancing_pure none
    · refine .guard (.guard (.get_bind fun desk => ?_))
      split
      · exact .throw _
      · refine .lift_bind fun _ _ => .guard (advancing_bind advancing_moveTicket fun _ => ?_)
        refine .lift_bind fun requests _ => ?_
        refine advancing_bind (.forM Advances.refl Advances.trans (fun _ => advancing_request)
          requests) fun _ => ?_
        exact advancing_bind advancing_completeIdempotency fun _ => advancing_pure _

/-! ## 6. Decisions -/

/-- What was locked is the approval's row, the vote of the caller and the definition. -/
theorem lockForDecision_some {tenantId approvalId userId : Uuid} {approval : LockedApproval}
    (h : lockForDecision desk tenantId approvalId userId = some approval) :
    ∃ a ∈ desk.approvals, ∃ v ∈ desk.approvers, ∃ definition,
      desk.config.approvalDefinitions.find? (fun d => d.versionId = a.versionId) = some definition ∧
      a.approvalId = approvalId ∧ v.approvalId = a.approvalId ∧ v.approverUserId = userId ∧
      approval.approvalId = a.approvalId ∧ approval.status = a.status ∧
      approval.rowVersion = a.rowVersion ∧ approval.mode = definition.mode ∧
      approval.existingDecision = v.decision := by
  unfold lockForDecision at h
  simp only [Option.bind_eq_bind, Option.bind_eq_some_iff, Option.pure_def,
    Option.some.injEq] at h
  obtain ⟨a, ha, v, hv, ticket, -, definition, hdefinition, rfl⟩ := h
  have hid := List.find?_some ha
  have hkeys := List.find?_some hv
  simp only [Bool.and_eq_true, decide_eq_true_eq] at hid hkeys
  exact ⟨a, List.mem_of_find?_eq_some ha, v, List.mem_of_find?_eq_some hv, definition, hdefinition,
    hid.2, hkeys.1, hkeys.2, rfl, rfl, rfl, rfl, rfl⟩

/-- An approval is marked expired, or nothing is written. -/
theorem expireIfDue_ok {approval : LockedApproval} {expired : Bool}
    (h : (expireIfDue now approval).run desk = .ok (expired, desk')) :
    (expired = false ∧ desk' = desk) ∨
    expired = true ∧ approval.status = .pending ∧ desk'.config = desk.config ∧
      desk'.approvals = (putApproval approval.approvalId (fun a =>
        { a with status := .expired, completedAt := some now }) desk).approvals ∧
      desk'.approvers = desk.approvers ∧ desk.nextId ≤ desk'.nextId := by
  unfold expireIfDue at h
  split at h
  · obtain ⟨rfl, rfl⟩ := Transaction.pure_eq_ok.mp h
    exact .inl ⟨rfl, rfl⟩
  · rename_i hdue
    obtain ⟨rfl, rfl⟩ := Prod.mk.inj (Except.ok.inj h)
    exact .inr ⟨rfl, not_not.mp fun hp => hdue (.inr hp), rfl, rfl, rfl, Nat.le_succ _⟩

theorem advancing_expireIfDue {tenantId approvalId userId : Uuid} {approval : LockedApproval}
    {expired : Bool} (hlock : lockForDecision desk tenantId approvalId userId = some approval)
    (h : (expireIfDue now approval).run desk = .ok (expired, desk')) : Advances desk desk' := by
  rcases expireIfDue_ok h with ⟨-, rfl⟩ | ⟨-, hpending, hconfig, happrovals, happrovers, hnext⟩
  · exact .refl _
  · obtain ⟨a, ha, _, _, _, _, _, _, _, hid, hstatus, -⟩ := lockForDecision_some hlock
    rw [hid] at happrovals
    rw [hstatus] at hpending
    refine ⟨hconfig, fun hledger => ?_⟩
    refine hledger.close (.inl rfl) now hconfig happrovals happrovers hnext fun b hb => ?_
    by_cases heq : b.approvalId = a.approvalId
    · obtain rfl := hledger.row_unique hb ha heq
      exact .inr ⟨hpending, if_pos rfl⟩
    · exact .inl (if_neg heq)

theorem admissible_ok {approval : LockedApproval} {userId : Uuid}
    {command : ApprovalDecisionCommand} {comment : Option String}
    (h : admissible approval userId command comment = .ok ()) :
    approval.status = .pending ∧ approval.rowVersion = command.expectedVersion ∧
      approval.existingDecision = none := by
  unfold admissible at h
  split at h
  · cases h
  · rename_i hpending
    split at h
    · cases h
    · rename_i hversion
      split at h
      · cases h
      · rename_i hopen
        exact ⟨not_not.mp hpending, not_not.mp hversion, by simpa using hopen⟩

/-- **A decision that is taken** writes the vote under the next row version, and what comes
    after it is no change of the approval. -/
theorem applyDecision_ok {tenantId approvalId userId : Uuid} {approval : LockedApproval}
    {decision : Decision} {comment : Option String} {rowVersion : Nat}
    (hlock : lockForDecision desk tenantId approvalId userId = some approval)
    (hpending : approval.status = .pending) (hopen : approval.existingDecision = none)
    (h : (applyDecision now context approval userId decision comment).run desk =
      .ok (rowVersion, desk')) :
    ∃ desk₁, Advances desk desk₁ ∧ Advances desk₁ desk' ∧ rowVersion = approval.rowVersion + 1 ∧
      (∃ a ∈ desk₁.approvals, a.approvalId = approvalId ∧ a.rowVersion = rowVersion) ∧
      ∃ v ∈ desk₁.approvers, v.approvalId = approvalId ∧ v.approverUserId = userId ∧
        v.decision = some decision := by
  obtain ⟨a, ha, v, hv, definition, hdefinition, rfl, hvid, rfl, hid, hstatus, hversion, hmode,
    hdecision⟩ := lockForDecision_some hlock
  unfold applyDecision at h
  rw [Transaction.get_bind] at h
  obtain ⟨terminal, hterminal, hrest⟩ := Transaction.lift_bind_eq_ok.mp h
  obtain ⟨version, desk₁, hrecord, hgoes⟩ := Transaction.bind_eq_ok.mp hrest
  obtain ⟨hconfig, happrovals, happrovers, hnext, rfl⟩ : desk₁.config = desk.config ∧
      desk₁.approvals = (putApproval a.approvalId (settle now terminal) desk).approvals ∧
      desk₁.approvers = desk.approvers.map (castVote a.approvalId v.approverUserId decision) ∧
      desk.nextId ≤ desk₁.nextId ∧ version = approval.rowVersion + 1 := by
    obtain ⟨rfl, rfl⟩ := Prod.mk.inj (Except.ok.inj hrecord)
    rw [← hid]
    exact ⟨rfl, rfl, rfl, Nat.le_succ _, rfl⟩
  have hlast : Advances desk₁ desk' ∧ rowVersion = approval.rowVersion + 1 := by
    split at hgoes
    · obtain ⟨rfl, rfl⟩ := Transaction.pure_eq_ok.mp hgoes
      exact ⟨.refl _, rfl⟩
    · split at hgoes
      · exact (Transaction.throw_ne_ok.mp hgoes).elim
      · obtain ⟨_, desk₂, hcontinue, hpure⟩ := Transaction.bind_eq_ok.mp hgoes
        obtain ⟨rfl, rfl⟩ := Transaction.pure_eq_ok.mp hpure
        exact ⟨advancing_continueWorkflow _ _ _ hcontinue, rfl⟩
  refine ⟨desk₁, ⟨hconfig, fun hledger => ?_⟩, hlast.1, hlast.2, ?_, ?_⟩
  · rw [hmode, hid] at hterminal
    refine hledger.vote now terminal ha (hstatus ▸ hpending) hv hvid (hdecision ▸ hopen) hdefinition
      (d := decision) ?_ hconfig happrovals happrovers hnext
    simpa only [tally, votesFor, List.countP_eq_length_filter] using hterminal
  · rw [happrovals]
    refine ⟨_, List.mem_map_of_mem ha, ?_, ?_⟩
    · rw [if_pos rfl]
      cases terminal <;> rfl
    · rw [if_pos rfl, hlast.2, hversion]
  · rw [happrovers]
    refine ⟨_, List.mem_map_of_mem hv, ?_⟩
    rw [castVote, if_pos ⟨hvid, rfl, hdecision ▸ hopen⟩]
    exact ⟨hvid, rfl, rfl⟩

/-- A decision that was taken on an approval, with the state before and behind it. -/
structure Decided (context : RequestContext) (approvalId : Uuid) (command : ApprovalDecisionCommand)
    (desk desk' : Desk) (rowVersion : Nat) : Prop where
  version : rowVersion = command.expectedVersion + 1
  pending : ∃ a ∈ desk.approvals, a.approvalId = approvalId ∧ a.status = .pending ∧
    a.rowVersion = command.expectedVersion
  unvoted : ∃ v ∈ desk.approvers, v.approvalId = approvalId ∧
    context.userId = some v.approverUserId ∧ v.decision = none
  raised : Ledger desk → ∃ a ∈ desk'.approvals, a.approvalId = approvalId ∧
    rowVersion ≤ a.rowVersion
  voted : Ledger desk → ∃ v ∈ desk'.approvers, v.approvalId = approvalId ∧
    context.userId = some v.approverUserId ∧ v.decision = some command.decision

theorem identity_user {error : AppError} {tenantId userId : Uuid}
    (h : identity context error = .ok (tenantId, userId)) : context.userId = some userId := by
  unfold identity at h
  split at h
  · rename_i huser
    cases h
    exact huser
  · cases h

/-- **`decide`** keeps the ledger, whatever it comes to. -/
theorem decide_ok {approvalId : Uuid} {command : ApprovalDecisionCommand} {key : String}
    {result : DecisionOutcome}
    (h : (decide sha256 now context approvalId command key).run desk = .ok (result, desk')) :
    Advances desk desk' ∧ ∀ rowVersion, result = .decided rowVersion →
      Decided context approvalId command desk desk' rowVersion := by
  unfold decide at h
  obtain ⟨_, -, h₁⟩ := Transaction.lift_bind_eq_ok.mp h
  obtain ⟨⟨tenantId, userId⟩, hidentity, h₂⟩ := Transaction.lift_bind_eq_ok.mp h₁
  obtain ⟨idem, desk₁, hclaim, h₃⟩ := Transaction.bind_eq_ok.mp h₂
  obtain ⟨_, -, h₄⟩ := Transaction.lift_bind_eq_ok.mp h₃
  have hclaimed := advancing_claimIdempotency _ _ _ hclaim
  obtain ⟨records, rfl⟩ := claimIdempotency_ok hclaim
  rw [Transaction.get_bind] at h₄
  split at h₄
  · exact (Transaction.throw_ne_ok.mp h₄).elim
  · rename_i approval hlock
    split at h₄
    · obtain ⟨rfl, rfl⟩ := Transaction.pure_eq_ok.mp h₄
      exact ⟨hclaimed, nofun⟩
    · obtain ⟨expired, desk₂, hexpire, h₅⟩ := Transaction.bind_eq_ok.mp h₄
      rcases expireIfDue_ok hexpire with ⟨rfl, rfl⟩ | ⟨rfl, -⟩
      · obtain ⟨_, hadmissible, h₆⟩ := Transaction.lift_bind_eq_ok.mp h₅
        obtain ⟨rowVersion, desk₃, happly, h₇⟩ := Transaction.bind_eq_ok.mp h₆
        obtain ⟨_, desk₄, hcomplete, hpure⟩ := Transaction.bind_eq_ok.mp h₇
        obtain ⟨rfl, rfl⟩ := Transaction.pure_eq_ok.mp hpure
        obtain ⟨hpending, hexpected, hopen⟩ := admissible_ok hadmissible
        obtain ⟨desk₅, hvote, hrest, hversion, ⟨a', ha', hid', hraised⟩, v', hv', hvid', huser', hcast⟩ :=
          applyDecision_ok hlock hpending hopen happly
        have hend : Advances desk₅ desk₄ :=
          hrest.trans _ _ _ (advancing_completeIdempotency _ _ _ hcomplete)
        have huser := identity_user hidentity
        refine ⟨hclaimed.trans _ _ _ (hvote.trans _ _ _ hend), fun n hn => ?_⟩
        obtain rfl := DecisionOutcome.decided.inj hn
        obtain ⟨a, ha, v, hv, _, _, hid, hvid, huserId, _, hstatus, hrow, _, hdecision⟩ :=
          lockForDecision_some hlock
        have hledger₅ : Ledger desk → Ledger desk₅ := fun hledger =>
          (hvote.2 (hclaimed.2 hledger).1).1
        refine ⟨by rw [hversion, hexpected], ⟨a, ha, hid, hstatus ▸ hpending, hrow ▸ hexpected⟩,
          ⟨v, hv, hvid.trans hid, by rw [huserId]; exact huser, hdecision ▸ hopen⟩,
          fun hledger => ?_, fun hledger => ?_⟩
        · obtain ⟨b, hb, hbid, hle, _⟩ := (hend.2 (hledger₅ hledger)).2.approvals a' ha'
          exact ⟨b, hb, hbid.trans hid', hraised ▸ hle⟩
        · obtain ⟨w, hw, _, _, hsame⟩ := (hend.2 (hledger₅ hledger)).2.votes v' hv'
          obtain rfl := hsame (by rw [hcast]; rfl)
          exact ⟨w, hw, hvid', by rw [huser']; exact huser, hcast⟩
      · obtain ⟨rfl, rfl⟩ := Transaction.pure_eq_ok.mp h₅
        exact ⟨hclaimed.trans _ _ _ (advancing_expireIfDue hlock hexpire), nofun⟩

/-! ## 7. Runs -/

/-- What the `UPDATE` of `cancel_pending` makes of a row. -/
def cancelRow (now : Instant) (tenantId ticketId : Uuid) (a : TicketApproval) : TicketApproval :=
  if a.tenantId = tenantId ∧ a.ticketId = ticketId ∧ a.status = .pending then
    { a with status := .cancelled, completedAt := some now, rowVersion := a.rowVersion + 1 }
  else a

/-- `cancel_pending`. -/
def cancelPending (now : Instant) (tenantId ticketId : Uuid) : DeskTransaction Nat := do
  let desk ← get
  let rows := desk.approvals.filter fun a =>
    a.tenantId = tenantId && a.ticketId = ticketId && a.status = .pending
  set { desk with approvals := desk.approvals.map (cancelRow now tenantId ticketId) }
  rows.forM fun row =>
    recordFact now tenantId row.approvalId "APPROVAL_CANCELLED"
      [("approval_id", .str (uuidText row.approvalId))] 1
  return rows.length

theorem advancing_cancelPending {tenantId ticketId : Uuid} :
    Advancing (cancelPending now tenantId ticketId) := by
  intro desk n desk' h
  unfold cancelPending at h
  rw [Transaction.get_bind, Transaction.set_bind] at h
  refine Advances.trans _ _ _ ?_ (advancing_bind (.forM Advances.refl Advances.trans
    (fun _ => advancing_recordFact) _) (fun _ => advancing_pure _) _ _ _ h)
  refine ⟨rfl, fun hledger => ?_⟩
  refine hledger.close (.inr rfl) now rfl rfl rfl (Nat.le_refl _) fun a _ => ?_
  by_cases hopen : a.tenantId = tenantId ∧ a.ticketId = ticketId ∧ a.status = .pending
  · exact .inr ⟨hopen.2.2, if_pos hopen⟩
  · exact .inl (if_neg hopen)

/-- What happens to the approvals in one step. -/
inductive ApprovalLabel where
  | comment (now : Instant) (context : RequestContext) (request : CommentRequest)
  | transition (now : Instant) (context : RequestContext) (ticketKey : String)
      (command : TransitionCommand) (idempotencyKey : String)
  | decision (now : Instant) (context : RequestContext) (approvalId : Uuid)
      (command : ApprovalDecisionCommand) (idempotencyKey : String)
  | cancel (now : Instant) (tenantId ticketId : Uuid)
  | elsewhere

/-- **One committed transaction**; the ones elsewhere touch no approval. -/
inductive ApprovalStep (sha256 : String → String) : Desk → ApprovalLabel → Desk → Prop where
  | comment {desk desk' : Desk} {now : Instant} {context : RequestContext}
      {request : CommentRequest} {u : Unit}
      (h : (request.transaction sha256 now context).run desk = .ok (u, desk')) :
      ApprovalStep sha256 desk (.comment now context request) desk'
  | transition {desk desk' : Desk} {now : Instant} {context : RequestContext} {ticketKey : String}
      {command : TransitionCommand} {key : String} {version : Option Nat}
      (h : (execute sha256 now context ticketKey command key).run desk = .ok (version, desk')) :
      ApprovalStep sha256 desk (.transition now context ticketKey command key) desk'
  | decision {desk desk' : Desk} {now : Instant} {context : RequestContext} {approvalId : Uuid}
      {command : ApprovalDecisionCommand} {key : String} {result : DecisionOutcome}
      (h : (decide sha256 now context approvalId command key).run desk = .ok (result, desk')) :
      ApprovalStep sha256 desk (.decision now context approvalId command key) desk'
  | cancel {desk desk' : Desk} {now : Instant} {tenantId ticketId : Uuid} {n : Nat}
      (h : (cancelPending now tenantId ticketId).run desk = .ok (n, desk')) :
      ApprovalStep sha256 desk (.cancel now tenantId ticketId) desk'
  | elsewhere {desk desk' : Desk} (hconfig : desk'.config = desk.config)
      (happrovals : desk'.approvals = desk.approvals)
      (happrovers : desk'.approvers = desk.approvers) (hnext : desk.nextId ≤ desk'.nextId) :
      ApprovalStep sha256 desk .elsewhere desk'

theorem ApprovalStep.advances {l : ApprovalLabel} (h : ApprovalStep sha256 desk l desk') :
    Advances desk desk' := by
  cases h with
  | comment h => exact advancing_comment _ _ _ _ h
  | transition h => exact advancing_execute _ _ _ h
  | decision h => exact (decide_ok h).1
  | cancel h => exact advancing_cancelPending _ _ _ h
  | elsewhere hconfig happrovals happrovers hnext =>
      exact .of_tables hconfig happrovals happrovers hnext

theorem run_advances {desk₀ : Desk} {ls : List ApprovalLabel}
    (hrun : Run (ApprovalStep sha256) desk₀ ls desk) : Advances desk₀ desk :=
  hrun.related Advances.refl Advances.trans fun _ _ _ h => h.advances

/-! ## 8. What holds in every run -/

section Results

variable {desk₀ : Desk} {ls : List ApprovalLabel}

/-- **Every approval agrees with its votes**, in whatever order requests, decisions, expiries
    and cancellations came. -/
theorem ledger_of_run (hrun : Run (ApprovalStep sha256) desk₀ ls desk) (h : Ledger desk₀) :
    Ledger desk :=
  ((run_advances hrun).2 h).1

/-- **A settled approval stays as it is**, and so does every vote that was cast. -/
theorem settled_lasts (hrun : Run (ApprovalStep sha256) desk₀ ls desk) (h : Ledger desk₀) :
    (∀ a ∈ desk₀.approvals, a.status ≠ .pending → a ∈ desk.approvals) ∧
    ∀ v ∈ desk₀.approvers, v.decision.isSome → v ∈ desk.approvers := by
  have hlasting := ((run_advances hrun).2 h).2
  constructor
  · intro a ha hsettled
    obtain ⟨a', ha', _, _, hsame⟩ := hlasting.approvals a ha
    exact hsame hsettled ▸ ha'
  · intro v hv hvoted
    obtain ⟨v', hv', _, _, hsame⟩ := hlasting.votes v hv
    exact hsame hvoted ▸ hv'

theorem recorded_eq_some {status : ApprovalStatus} {d : Decision} :
    recorded status = some d ↔ status = d.status := by
  cases status <;> cases d <;> simp [recorded, Decision.status]

theorem tally_pos {votes : List TicketApprover} {d : Decision} :
    tally votes d ≠ 0 ↔ ∃ v ∈ votes, v.decision = some d := by
  rw [tally, Nat.ne_zero_iff_zero_lt, List.countP_pos_iff]
  simp

theorem tally_all {votes : List TicketApprover} {d : Decision} :
    tally votes d = votes.length ↔ ∀ v ∈ votes, v.decision = some d := by
  rw [tally, List.countP_eq_length]
  simp

/-- All decided one way, so nobody the other. -/
theorem tally_other {votes : List TicketApprover} {d e : Decision} (hne : d ≠ e)
    (hall : tally votes d = votes.length) : tally votes e = 0 := by
  by_contra hsome
  obtain ⟨v, hv, hother⟩ := tally_pos.mp hsome
  exact hne (Option.some.inj ((tally_all.mp hall v hv).symm.trans hother))

/-- **The outcome is a function of the votes.** One approval is enough for a request to any
    one and to a manager, and all have to reject it; one rejection is enough where all have
    to approve. -/
theorem outcome_follows_votes (hrun : Run (ApprovalStep sha256) desk₀ ls desk) (h : Ledger desk₀)
    {a : TicketApproval} (ha : a ∈ desk.approvals) {definition : ApprovalDefinitionRow}
    (hdefinition : desk.config.approvalDefinitions.find? (fun d => d.versionId = a.versionId) =
      some definition) :
    (definition.mode = "ANY_ONE_APPROVER" ∨ definition.mode = "MANAGER_APPROVAL" →
      (a.status = .approved ↔
        ∃ v ∈ votesFor desk.approvers a.approvalId, v.decision = some .approved) ∧
      (a.status = .rejected ↔
        ∀ v ∈ votesFor desk.approvers a.approvalId, v.decision = some .rejected)) ∧
    (definition.mode = "ALL_APPROVERS" →
      (a.status = .approved ↔
        ∀ v ∈ votesFor desk.approvers a.approvalId, v.decision = some .approved) ∧
      (a.status = .rejected ↔
        ∃ v ∈ votesFor desk.approvers a.approvalId, v.decision = some .rejected)) := by
  have hkept := ((run_advances hrun).2 h).1.kept a ha
  have hasked : ¬ 0 = (votesFor desk.approvers a.approvalId).length := fun hzero =>
    hkept.asked (List.length_eq_zero_iff.mp hzero.symm)
  have houtcome := hkept.outcome
  rw [outcome, hdefinition] at houtcome
  have happroved : a.status = .approved ↔ recorded a.status = some .approved :=
    (recorded_eq_some (d := .approved)).symm
  have hrejected : a.status = .rejected ↔ recorded a.status = some .rejected :=
    (recorded_eq_some (d := .rejected)).symm
  rw [happroved, hrejected, houtcome, ← tally_pos, ← tally_pos, ← tally_all, ← tally_all]
  constructor
  · intro hmode
    simp only [terminalStatus, if_pos hmode]
    by_cases hsome : tally (votesFor desk.approvers a.approvalId) .approved = 0
    · by_cases hall : tally (votesFor desk.approvers a.approvalId) .rejected =
          (votesFor desk.approvers a.approvalId).length
      · simp [hsome, hall]
      · simp [hsome, hall]
    · have hnot : tally (votesFor desk.approvers a.approvalId) .rejected ≠
          (votesFor desk.approvers a.approvalId).length := fun hall =>
        hsome (tally_other (by simp) hall)
      simp [hsome, hnot]
  · intro hmode
    have hother : ¬ (definition.mode = "ANY_ONE_APPROVER" ∨
        definition.mode = "MANAGER_APPROVAL") := by
      rw [hmode]
      decide
    simp only [terminalStatus, if_neg hother, if_pos hmode]
    by_cases hsome : tally (votesFor desk.approvers a.approvalId) .rejected = 0
    · by_cases hall : tally (votesFor desk.approvers a.approvalId) .approved =
          (votesFor desk.approvers a.approvalId).length
      · simp [hsome, hall]
      · simp [hsome, hall]
    · have hnot : tally (votesFor desk.approvers a.approvalId) .approved ≠
          (votesFor desk.approvers a.approvalId).length := fun hall =>
        hsome (tally_other (by simp) hall)
      simp [hsome, hnot]

/-- **No two decisions on one row version, and none twice by one approver**, whatever came
    between them. -/
theorem decided_once {desk₁ desk₂ desk₃ desk₄ : Desk} {approvalId : Uuid}
    {now' : Instant} {context' : RequestContext} {command command' : ApprovalDecisionCommand}
    {key key' : String} {n n' : Nat} (h : Ledger desk₁)
    (hfirst : (decide sha256 now context approvalId command key).run desk₁ =
      .ok (.decided n, desk₂))
    (hbetween : Run (ApprovalStep sha256) desk₂ ls desk₃)
    (hsecond : (decide sha256 now' context' approvalId command' key').run desk₃ =
      .ok (.decided n', desk₄)) :
    command.expectedVersion < command'.expectedVersion ∧ context.userId ≠ context'.userId := by
  obtain ⟨hadvances, hdecided⟩ := decide_ok hfirst
  have hdecided := hdecided n rfl
  have hdecided' := (decide_ok hsecond).2 n' rfl
  obtain ⟨a, ha, hid, hraised⟩ := hdecided.raised h
  obtain ⟨v, hv, hvid, huser, hvote⟩ := hdecided.voted h
  have hledger₂ := (hadvances.2 h).1
  obtain ⟨hledger₃, hlasting⟩ := (run_advances hbetween).2 hledger₂
  constructor
  · obtain ⟨b, hb, hbid, hle, _⟩ := hlasting.approvals a ha
    obtain ⟨c, hc, hcid, _, hexpected⟩ := hdecided'.pending
    obtain rfl := hledger₃.row_unique hb hc (hbid.trans (hid.trans hcid.symm))
    have hversion := hdecided.version
    omega
  · intro hsame
    obtain ⟨w, hw, hwid, hwuser, hopen⟩ := hdecided'.unvoted
    obtain ⟨v', hv', _, _, hkeeps⟩ := hlasting.votes v hv
    obtain rfl := hkeeps (by rw [hvote]; rfl)
    have hvoter : v'.approverUserId = w.approverUserId :=
      Option.some.inj (huser.symm.trans (hsame.trans hwuser))
    obtain rfl := hledger₃.vote_unique hv' hw (hvid.trans hwid.symm) hvoter
    rw [hvote] at hopen
    cases hopen

end Results

/-! ## 9. Two approvers -/

/-- A request that users 5 and 6 both have to approve. -/
def panelDesk : Desk :=
  { sampleDesk with
    config := { sampleConfig with
      approvalDefinitions := sampleConfig.approvalDefinitions.map fun d =>
        { d with mode := "ALL_APPROVERS" } }
    approvers := [⟨1, 5, 1, 1, none⟩, ⟨1, 6, 2, 1, none⟩]
    nextId := 2 }

theorem panelDesk_ledger : Ledger panelDesk where
  ids := by decide
  below := by decide
  approverIds := by decide
  voters := by decide
  kept := by
    intro a ha
    obtain rfl := List.mem_singleton.mp ha
    exact ⟨by decide, by decide +kernel, by decide, by decide⟩

/-- The approval of one of them. -/
def panelDecision (userId : Uuid) (expectedVersion : Nat) (key : String) :
    DeskTransaction DecisionOutcome :=
  decide (fun _ => "") 0 { sampleContext with userId := some userId } 1
    ⟨.approved, expectedVersion, none⟩ key

/-- The row version a decision was taken on, and the desk behind it. -/
def decidedAt (x : DeskTransaction DecisionOutcome) (desk : Desk) : Option Nat :=
  match x.run desk with
  | .ok (.decided rowVersion, _) => some rowVersion
  | _ => none

def deskAfter (x : DeskTransaction DecisionOutcome) (desk : Desk) : Desk :=
  match x.run desk with
  | .ok (_, desk') => desk'
  | .error _ => desk

theorem run_of_decidedAt {x : DeskTransaction DecisionOutcome} {n : Nat}
    (h : decidedAt x desk = some n) : x.run desk = .ok (.decided n, deskAfter x desk) := by
  unfold decidedAt at h
  unfold deskAfter
  cases hrun : x.run desk with
  | error e => simp [hrun] at h
  | ok result =>
      obtain ⟨result, desk'⟩ := result
      cases result <;> simp_all

theorem panel_first :
    (panelDecision 5 1 "first").run panelDesk =
      .ok (.decided 2, deskAfter (panelDecision 5 1 "first") panelDesk) :=
  run_of_decidedAt (by decide +kernel)

theorem panel_second :
    (panelDecision 6 2 "second").run (deskAfter (panelDecision 5 1 "first") panelDesk) =
      .ok (.decided 3, deskAfter (panelDecision 6 2 "second")
        (deskAfter (panelDecision 5 1 "first") panelDesk)) :=
  run_of_decidedAt (by decide +kernel)

/-- Both have approved. -/
def panelApproved : Desk :=
  deskAfter (panelDecision 6 2 "second") (deskAfter (panelDecision 5 1 "first") panelDesk)

theorem panel_run : ∃ ls, Run (ApprovalStep fun _ => "") panelDesk ls panelApproved :=
  ⟨_, .next (.next .start (.decision panel_first)) (.decision panel_second)⟩

theorem ledger_of_panel : Ledger panelApproved := by
  obtain ⟨ls, hrun⟩ := panel_run
  exact ledger_of_run hrun panelDesk_ledger

/-- The vote of user 5 is still there when user 6 has voted. -/
theorem panel_votes_last :
    (∀ a ∈ (deskAfter (panelDecision 5 1 "first") panelDesk).approvals, a.status ≠ .pending →
      a ∈ panelApproved.approvals) ∧
    ∀ v ∈ (deskAfter (panelDecision 5 1 "first") panelDesk).approvers, v.decision.isSome →
      v ∈ panelApproved.approvers :=
  settled_lasts (.next .start (.decision panel_second))
    ((decide_ok panel_first).1.2 panelDesk_ledger).1

theorem panel_follows_votes : ∃ a ∈ panelApproved.approvals,
    (a.status = .approved ↔
      ∀ v ∈ votesFor panelApproved.approvers a.approvalId, v.decision = some .approved) := by
  obtain ⟨ls, hrun⟩ := panel_run
  obtain ⟨a, ha⟩ : ∃ a, a ∈ panelApproved.approvals :=
    List.exists_mem_of_ne_nil _ (by decide +kernel)
  refine ⟨a, ha, ?_⟩
  have hconfig : panelApproved.config = panelDesk.config := (run_advances hrun).1
  have hversion : a.versionId = 1 := by
    revert a
    decide +kernel
  exact ((outcome_follows_votes hrun panelDesk_ledger ha
    (by rw [hconfig, hversion]; rfl)).2 rfl).1

theorem panel_decided_once : 1 < 2 ∧ some (5 : Uuid) ≠ some 6 :=
  decided_once panelDesk_ledger panel_first .start panel_second

end Helpdesk.Workflow
