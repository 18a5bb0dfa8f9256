/-
  File:      Helpdesk/Admin/LastAdministrator.lean
  Subject:   The last administrator of a tenant stays, however many access changes run
             at once, as long as nobody's assignment expires while one is under way.

  Every call that changes the users or roles of a tenant holds the tenant's advisory
  lock from before it reads until its COMMIT; what it counted is therefore still there
  when it commits. But it counts at `CURRENT_TIMESTAMP`, the time its transaction
  started, and an assignment that was valid then may have ended by the COMMIT.

  * `safety`: the contract of the calls beside each other;
  * `changeAccess_honours`: `set_user_status` and `remove_role` meet it;
  * **`administrator_survives`**: a COMMIT with no such expiry leaves the tenant an
    administrator if it had one; a refused call has changed no user and no role;
  * `last_administrator_expires`: without the condition the last one goes.
-/
import Helpdesk.Admin.Access

namespace Helpdesk.Admin

open Helpdesk.Python Helpdesk.Tickets Helpdesk.Transactions
open Helpdesk.Transactions.Procedure

/-! ## 1. Administrators -/

/-- An assignment of `PLATFORM_ADMIN` in the tenant that is effective at a time. -/
def UserRole.administers (now : Instant) (tenantId : Uuid) (r : UserRole) : Bool :=
  r.tenantId = tenantId ∧ r.roleCode = adminRoleCode ∧ r.validAt now

/-- **An active user of the tenant with a currently valid assignment.** -/
def HasAdministrator (tenantId : Uuid) (d : Identity) : Prop :=
  ∃ u ∈ d.users, u.tenantId = tenantId ∧ u.activeFlag = true ∧
    ∃ r ∈ d.roles, r.userId = u.userId ∧ r.administers d.clock tenantId = true

/-- An administrator at a time who is not the excluded user. -/
def Survivor (now : Instant) (tenantId excludedUserId : Uuid) (d : Identity) : Prop :=
  ∃ u ∈ d.users, u.tenantId = tenantId ∧ u.activeFlag = true ∧ u.userId ≠ excludedUserId ∧
    ∃ r ∈ d.roles, r.userId = u.userId ∧ r.administers now tenantId = true

/-- Nothing of the users and the roles. -/
def SameAccess (d d' : Identity) : Prop := d'.users = d.users ∧ d'.roles = d.roles

/-- The rows of a tenant are the same. -/
def SameTenant (tenantId : Uuid) (d d' : Identity) : Prop :=
  (d'.users.filter fun u => u.tenantId = tenantId) = (d.users.filter fun u => u.tenantId = tenantId) ∧
    (d'.roles.filter fun r => r.tenantId = tenantId) = d.roles.filter fun r => r.tenantId = tenantId

/-- Everybody keeps what makes an administrator. -/
structure KeepsAdministrators (tenantId : Uuid) (d d' : Identity) : Prop where
  users : ∀ u ∈ d.users, u.tenantId = tenantId → u.activeFlag = true →
    ∃ u' ∈ d'.users, u'.userId = u.userId ∧ u'.tenantId = tenantId ∧ u'.activeFlag = true
  roles : ∀ r ∈ d.roles, r.roleCode = adminRoleCode → r ∈ d'.roles

/-- Everybody but one user keeps their rows. -/
structure KeepsOthers (excludedUserId : Uuid) (d d' : Identity) : Prop where
  users : ∀ u ∈ d.users, u.userId ≠ excludedUserId → u ∈ d'.users
  roles : ∀ r ∈ d.roles, r.userId ≠ excludedUserId → r ∈ d'.roles

/-- **No expiry in between**: an assignment of the role that had not ended when the
    transaction started has not ended now. -/
def NothingExpires (tenantId : Uuid) (startedAt : Instant) (d : Identity) : Prop :=
  ∀ r ∈ d.roles, r.tenantId = tenantId → r.roleCode = adminRoleCode → r.activeFlag = true →
    ∀ t, r.validTo = some t → startedAt < t → d.clock < t

section Administrators

variable {tenantId other excludedUserId : Uuid} {now : Instant} {d d' : Identity} {r : UserRole}

theorem administers_iff : r.administers now tenantId = true ↔
    r.tenantId = tenantId ∧ r.roleCode = adminRoleCode ∧ r.activeFlag = true ∧ r.validFrom ≤ now ∧
      ∀ t, r.validTo = some t → now < t := by
  simp only [UserRole.administers, UserRole.validAt, Bool.and_eq_true, decide_eq_true_eq, and_assoc,
    Option.all_eq_true]

/-- What is counted is somebody. -/
theorem survivor_of_count (h : activeAdminCount now tenantId excludedUserId d ≠ 0) :
    Survivor now tenantId excludedUserId d := by
  have hne : ((d.roles.filter fun r => r.tenantId = tenantId ∧ r.roleCode = adminRoleCode ∧
      r.validAt now ∧ r.userId ≠ excludedUserId ∧
      d.users.any fun u => u.userId = r.userId ∧ u.tenantId = tenantId ∧ u.activeFlag).map
        (·.userId)) ≠ [] := by
    intro hnil
    apply h
    unfold activeAdminCount
    rw [hnil]
    rfl
  obtain ⟨userId, huser⟩ := List.exists_mem_of_ne_nil _ hne
  obtain ⟨r, hr, rfl⟩ := List.mem_map.mp huser
  obtain ⟨hr, hcond⟩ := List.mem_filter.mp hr
  simp only [decide_eq_true_eq, List.any_eq_true] at hcond
  obtain ⟨htenant, hrole, hvalid, hexcluded, u, hu, hid, hutenant, hactive⟩ := hcond
  refine ⟨u, hu, hutenant, hactive, ?_, r, hr, hid.symm, ?_⟩
  · rw [hid]
    exact hexcluded
  · simp [UserRole.administers, htenant, hrole, hvalid]

theorem SameAccess.sameTenant (h : SameAccess d d') : SameTenant tenantId d d' := by
  unfold SameTenant
  rw [h.1, h.2]
  exact ⟨rfl, rfl⟩

theorem SameTenant.users (h : SameTenant tenantId d d') {u : AppUser} (hu : u ∈ d.users)
    (htenant : u.tenantId = tenantId) : u ∈ d'.users := by
  have hmem : u ∈ d'.users.filter fun u => u.tenantId = tenantId := by
    rw [h.1]
    exact List.mem_filter.mpr ⟨hu, decide_eq_true htenant⟩
  exact (List.mem_filter.mp hmem).1

theorem SameTenant.roles_iff (h : SameTenant tenantId d d') (htenant : r.tenantId = tenantId) :
    r ∈ d'.roles ↔ r ∈ d.roles := by
  have hmem : r ∈ d'.roles.filter (fun r => r.tenantId = tenantId) ↔
      r ∈ d.roles.filter fun r => r.tenantId = tenantId := by
    rw [h.2]
  simpa [htenant] using hmem

theorem Survivor.transfer (h : Survivor now tenantId excludedUserId d)
    (hsame : SameTenant tenantId d d') : Survivor now tenantId excludedUserId d' := by
  obtain ⟨u, hu, htenant, hactive, hne, r, hr, hid, hadmin⟩ := h
  exact ⟨u, hsame.users hu htenant, htenant, hactive, hne, r,
    (hsame.roles_iff (administers_iff.mp hadmin).1).mpr hr, hid, hadmin⟩

/-- An administrator stays one when everybody keeps what makes one. -/
theorem HasAdministrator.keep (h : HasAdministrator tenantId d) (hclock : d'.clock = d.clock)
    (hkeeps : KeepsAdministrators tenantId d d') : HasAdministrator tenantId d' := by
  obtain ⟨u, hu, htenant, hactive, r, hr, hid, hadmin⟩ := h
  obtain ⟨u', hu', hid', htenant', hactive'⟩ := hkeeps.users u hu htenant hactive
  refine ⟨u', hu', htenant', hactive', r, hkeeps.roles r hr (administers_iff.mp hadmin).2.1,
    hid.trans hid'.symm, ?_⟩
  rw [hclock]
  exact hadmin

theorem HasAdministrator.transfer (h : HasAdministrator tenantId d) (hclock : d'.clock = d.clock)
    (hsame : SameTenant tenantId d d') : HasAdministrator tenantId d' := by
  obtain ⟨u, hu, htenant, hactive, r, hr, hid, hadmin⟩ := h
  refine ⟨u, hsame.users hu htenant, htenant, hactive, r,
    (hsame.roles_iff (administers_iff.mp hadmin).1).mpr hr, hid, ?_⟩
  rw [hclock]
  exact hadmin

/-- **The survivor of a removal is an administrator**, when nothing expired since they
    were counted. -/
theorem Survivor.hasAdministrator (h : Survivor now tenantId excludedUserId d)
    (hkeeps : KeepsOthers excludedUserId d d') (hclock : d'.clock = d.clock) (hnow : now ≤ d.clock)
    (hexpires : NothingExpires tenantId now d) : HasAdministrator tenantId d' := by
  obtain ⟨u, hu, htenant, hactive, hne, r, hr, hid, hadmin⟩ := h
  obtain ⟨hrtenant, hrole, hractive, hfrom, hto⟩ := administers_iff.mp hadmin
  refine ⟨u, hkeeps.users u hu hne, htenant, hactive, r, hkeeps.roles r hr (by rwa [hid]), hid, ?_⟩
  rw [hclock, administers_iff]
  exact ⟨hrtenant, hrole, hractive, hfrom.trans hnow,
    fun t ht => hexpires r hr hrtenant hrole hractive t ht (hto t ht)⟩

end Administrators

/-! ## 2. The contract -/

/-- **What a COMMIT does**: it changes no user or role, or those of one tenant under its
    lock, and an administrator only when another was left. -/
def Safe (request : AccessRequest) (held : List Lock) (d d' : Identity) : Prop :=
  d'.clock = d.clock ∧ (SameAccess d d' ∨ ∃ tenantId, Lock.tenant tenantId ∈ held ∧
    request.startedAt ≤ d.clock ∧ (∀ other, other ≠ tenantId → SameTenant other d d') ∧
    (KeepsAdministrators tenantId d d' ∨ ∃ excludedUserId,
      Survivor request.startedAt tenantId excludedUserId d ∧ KeepsOthers excludedUserId d d'))

/-- The contract of the calls; beside them time passes. -/
def safety : Contract Identity Lock AccessRequest where
  always _ := True
  guarantee := Safe
  apart _ _ := False
  elsewhere d d' := SameAccess d d' ∧ d.clock ≤ d'.clock
  starts request d := request.startedAt ≤ d.clock
  kept _ _ := trivial
  keptElsewhere _ _ := trivial
  startsKept h hstarts := by
    rw [h.1]
    exact hstarts
  startsElsewhere h hstarts := hstarts.trans h.2

section Calls

variable {request : AccessRequest} {held : List Lock} {tenantId userId : Uuid} {d d' : Identity}
  {p : Place Identity Lock Statement} {A : Identity → Prop}
  {raises : Place Identity Lock Statement → AppError → Prop}

/-- A column of other rows keeps a selection. -/
theorem filter_map_of_fixed {α : Type} {f : α → α} {p : α → Bool} (hp : ∀ a, p (f a) = p a)
    (hfixed : ∀ a, p a = true → f a = a) (xs : List α) : (xs.map f).filter p = xs.filter p := by
  rw [List.filter_map]
  have hcomp : p ∘ f = p := funext hp
  rw [hcomp]
  refine (List.map_congr_left fun a ha => ?_).trans (List.map_id _)
  exact hfixed a (List.mem_filter.mp ha).2

theorem setActive_other {now : Instant} {active : Bool} {other : Uuid} (hne : other ≠ tenantId)
    (users : List AppUser) :
    ((users.map (setActive tenantId userId active now)).filter fun u => u.tenantId = other) =
      users.filter fun u => u.tenantId = other := by
  refine filter_map_of_fixed (fun u => ?_) (fun u hu => ?_) users
  · unfold setActive
    split <;> rfl
  · have hother : u.tenantId = other := of_decide_eq_true hu
    unfold setActive
    rw [if_neg fun h => hne (hother.symm.trans h.1)]

theorem closeAssignment_other {now : Instant} {roleCode : String} {other : Uuid}
    (hne : other ≠ tenantId) (roles : List UserRole) :
    ((roles.map (closeAssignment tenantId userId roleCode now)).filter fun r => r.tenantId = other) =
      roles.filter fun r => r.tenantId = other := by
  refine filter_map_of_fixed (fun r => ?_) (fun r hr => ?_) roles
  · unfold closeAssignment
    split <;> rfl
  · have hother : r.tenantId = other := of_decide_eq_true hr
    unfold closeAssignment
    rw [if_neg]
    intro h
    have hof : r.tenantId = tenantId := by
      have := h.1
      simp only [UserRole.isOf, decide_eq_true_eq] at this
      exact this.1
    exact hne (hother.symm.trans hof)

/-- An UPDATE keeps a row that it does not select. -/
theorem mem_map_of_fixed {α : Type} {f : α → α} {xs : List α} {a : α} (ha : a ∈ xs)
    (hfixed : f a = a) : a ∈ xs.map f :=
  List.mem_map.mpr ⟨a, ha, hfixed⟩

/-- Reactivation takes nothing from anybody. -/
theorem keepsAdministrators_reactivate {now : Instant} {actions : List AdminAction} :
    KeepsAdministrators tenantId d { d with
      users := d.users.map (setActive tenantId userId true now), actions := actions } where
  users u hu htenant hactive := by
    refine ⟨_, List.mem_map_of_mem hu, ?_⟩
    unfold setActive
    split
    · exact ⟨rfl, htenant, rfl⟩
    · exact ⟨rfl, htenant, hactive⟩
  roles r hr _ := hr

theorem keepsOthers_setActive {now : Instant} {active : Bool} {actions : List AdminAction} :
    KeepsOthers userId d { d with
      users := d.users.map (setActive tenantId userId active now), actions := actions } where
  users u hu hne := by
    refine mem_map_of_fixed hu ?_
    unfold setActive
    exact if_neg fun h => hne h.2
  roles r hr _ := hr

theorem closeAssignment_of_ne {r : UserRole} {roleCode : String} {now : Instant}
    (h : ¬ (r.isOf tenantId userId roleCode = true ∧ r.validAt now = true)) :
    closeAssignment tenantId userId roleCode now r = r := by
  unfold closeAssignment
  rw [if_neg]
  simpa using h

theorem keepsOthers_close {now : Instant} {roleCode : String} {actions : List AdminAction} :
    KeepsOthers userId d { d with
      roles := d.roles.map (closeAssignment tenantId userId roleCode now), actions := actions } where
  users u hu _ := hu
  roles r hr hne := by
    refine mem_map_of_fixed hr (closeAssignment_of_ne fun h => hne ?_)
    have hof := h.1
    simp only [UserRole.isOf, decide_eq_true_eq] at hof
    exact hof.2.1

/-- To close no administrator's assignment takes nothing from anybody. -/
theorem keepsAdministrators_close {now : Instant} {roleCode : String} {actions : List AdminAction}
    (h : roleCode = adminRoleCode →
      ∀ r ∈ d.roles, ¬ (r.isOf tenantId userId roleCode = true ∧ r.validAt now = true)) :
    KeepsAdministrators tenantId d { d with
      roles := d.roles.map (closeAssignment tenantId userId roleCode now), actions := actions } where
  users u hu htenant hactive := ⟨u, hu, rfl, htenant, hactive⟩
  roles r hr hadmin := by
    refine mem_map_of_fixed hr (closeAssignment_of_ne fun hclosed => ?_)
    have hof := hclosed.1
    simp only [UserRole.isOf, decide_eq_true_eq] at hof
    exact h (hof.2.2.symm.trans hadmin) r hr hclosed

/-- Under the tenant's lock its rows stay. -/
theorem sameTenant_of_interferes (hlock : Lock.tenant tenantId ∈ held)
    (h : safety.Interferes request held d d') : SameTenant tenantId d d' := by
  rcases h with ⟨hsame, -⟩ | ⟨other, held', -, hdisjoint, -, hsame | ⟨tenantId', hheld, -, hothers, -⟩⟩
  · exact hsame.sameTenant
  · exact hsame.sameTenant
  · refine hothers tenantId fun heq => ?_
    subst heq
    exact hdisjoint _ hheld hlock

theorem stable_of_sameTenant (hlock : Lock.tenant tenantId ∈ held)
    (hA : ∀ d d', SameTenant tenantId d d' → A d → A d') : safety.Stable request held A :=
  fun d d' h _ hd => hA d d' (sameTenant_of_interferes hlock h) hd

/-- A place under the tenant's lock, before the call has changed anything. -/
structure Ready (request : AccessRequest) (tenantId : Uuid) (p : Place Identity Lock Statement) :
    Prop where
  lock : Lock.tenant tenantId ∈ p.held
  changes : p.changes = []
  stable : safety.Stable request p.held p.known
  started : ∀ d, p.known d → request.startedAt ≤ d.clock

theorem Ready.pending (h : Ready request tenantId p) (d : Identity) :
    Transactions.pending d p.changes = d := by
  rw [h.changes]
  rfl

theorem Ready.learn (h : Ready request tenantId p)
    (hA : ∀ d d', SameTenant tenantId d d' → A d → A d') :
    Ready request tenantId { p with known := fun d => p.known d ∧ A d } where
  lock := h.lock
  changes := h.changes
  stable := h.stable.and (stable_of_sameTenant h.lock hA)
  started d hd := h.started d hd.1

/-- The users and the roles are read under the tenant's lock. -/
theorem meets_lockedUser {post : Place Identity Lock Statement → AppUser → Prop}
    (hchanges : p.changes = []) (hstable : safety.Stable request p.held p.known)
    (hstarted : ∀ d, p.known d → request.startedAt ≤ d.clock)
    (hraises : ∀ q e, q.commits = p.commits → raises q e)
    (hpost : ∀ q user, q.commits = p.commits → Ready request tenantId q → post q user) :
    (lockedUser tenantId userId).Meets safety request p post raises := by
  unfold lockedUser
  rw [meets_bind, meets_acquire, meets_bind, meets_acquire, meets_bind]
  have hheld : safety.Stable request (.user userId :: .tenant tenantId :: p.held) p.known :=
    hstable.mono fun k hk => List.mem_cons_of_mem _ (List.mem_cons_of_mem _ hk)
  refine meets_query_result hheld fun d _ _ => ?_
  rw [meets_demand]
  refine ⟨fun user _ => hpost _ user rfl ⟨?_, hchanges, hheld, hstarted⟩, fun _ => hraises _ _ rfl⟩
  exact List.mem_cons_of_mem _ List.mem_cons_self

/-- **A survivor that was counted stays one**, up to the COMMIT. -/
theorem meets_requireSurvivingAdministrator {post : Place Identity Lock Statement → Unit → Prop}
    (hp : Ready request tenantId p) (hraises : ∀ q e, q.commits = p.commits → raises q e)
    (hpost : post
      { p with known := fun d => p.known d ∧ Survivor request.startedAt tenantId userId d } ()) :
    (requireSurvivingAdministrator request.startedAt tenantId userId).Meets safety request p post
      raises := by
  unfold requireSurvivingAdministrator
  rw [meets_bind, meets_query]
  intro d _ hd
  rw [hp.pending d]
  by_cases hcount : activeAdminCount request.startedAt tenantId userId d = 0
  · refine ⟨p.known, hp.stable, hd, ?_⟩
    rw [meets_check]
    exact ⟨fun hne => absurd hcount hne, fun _ => hraises _ _ rfl⟩
  · have hlearned := hp.learn (A := Survivor request.startedAt tenantId userId)
      fun _ _ hsame h => h.transfer hsame
    refine ⟨_, hlearned.stable, ⟨hd, survivor_of_count hcount⟩, ?_⟩
    rw [meets_check]
    exact ⟨fun _ => hpost, fun hzero => absurd hcount hzero⟩

/-- What a call may change at its COMMIT. -/
theorem meets_commit {post : Place Identity Lock Statement → Unit → Prop}
    (hp : Lock.tenant tenantId ∈ p.held)
    (hsafe : ∀ d, p.known d → request.startedAt ≤ d.clock ∧
      (pending d p.changes).clock = d.clock ∧
      (∀ other, other ≠ tenantId → SameTenant other d (pending d p.changes)) ∧
      (KeepsAdministrators tenantId d (pending d p.changes) ∨ ∃ excludedUserId,
        Survivor request.startedAt tenantId excludedUserId d ∧
          KeepsOthers excludedUserId d (pending d p.changes)))
    (hpost : ∀ q, post q ()) :
    (save : AccessCall Unit).Meets safety request p post raises := by
  rw [meets_save]
  intro d _ hd
  obtain ⟨hstarted, hclock, hothers, hadministrators⟩ := hsafe d hd
  exact ⟨⟨hclock, .inr ⟨tenantId, hp, hstarted, hothers, hadministrators⟩⟩, fun _ => True,
    Contract.stable_true, trivial, hpost _⟩

theorem meets_changeStatus {active : Bool} {post : Place Identity Lock Statement → AccessResponse → Prop}
    (hp : Ready request tenantId p) (hraises : ∀ q e, q.commits = p.commits → raises q e)
    (hpost : ∀ q response, post q response) :
    (changeStatus request tenantId userId active).Meets safety request p post raises := by
  have hothers : ∀ (d : Identity) actions other, other ≠ tenantId → SameTenant other d { d with
      users := d.users.map (setActive tenantId userId active request.startedAt)
      actions := actions } :=
    fun d _ other hne => ⟨setActive_other hne d.users, rfl⟩
  unfold changeStatus guardStatus
  rw [meets_bind]
  split
  · next hactive =>
      subst hactive
      rw [meets_pure, meets_bind, meets_write, meets_bind, meets_write, meets_bind]
      refine meets_commit hp.lock (fun d hd => ?_) fun q => hpost q _
      rw [hp.changes]
      exact ⟨hp.started d hd, rfl, hothers d _, .inl keepsAdministrators_reactivate⟩
  · refine meets_requireSurvivingAdministrator hp hraises ?_
    rw [meets_bind, meets_write, meets_bind, meets_write, meets_bind]
    refine meets_commit hp.lock (fun d hd => ?_) fun q => hpost q _
    rw [hp.changes]
    exact ⟨hp.started d hd.1, rfl, hothers d _, .inr ⟨userId, hd.2, keepsOthers_setActive⟩⟩

theorem meets_setUserStatus {active : Bool} {expectedUpdatedAt : Instant}
    {post : Place Identity Lock Statement → AccessResponse → Prop}
    (hchanges : p.changes = []) (hstable : safety.Stable request p.held p.known)
    (hstarted : ∀ d, p.known d → request.startedAt ≤ d.clock)
    (hraises : ∀ q e, q.commits = p.commits → raises q e)
    (hpost : ∀ q response, post q response) :
    (setUserStatus request tenantId userId active expectedUpdatedAt).Meets safety request p post
      raises := by
  unfold setUserStatus
  rw [meets_bind]
  refine meets_lockedUser hchanges hstable hstarted hraises fun q user hcommits hq => ?_
  split
  · rw [meets_bind, meets_save]
    intro d _ _
    rw [hq.changes]
    exact ⟨⟨rfl, .inl ⟨rfl, rfl⟩⟩, fun _ => True, Contract.stable_true, trivial, hpost _ _⟩
  · rw [meets_bind, meets_check]
    refine ⟨fun _ => ?_, fun _ => hraises _ _ hcommits⟩
    exact meets_changeStatus hq (fun q' e h => hraises q' e (h.trans hcommits)) hpost

/-- **The guard of a removal**: no administrator's assignment is closed, or another
    administrator is left. -/
theorem meets_guardRemoval {roleCode : String} {post : Place Identity Lock Statement → Unit → Prop}
    (hp : Ready request tenantId p) (hraises : ∀ q e, q.commits = p.commits → raises q e)
    (hpost : ∀ q, q.commits = p.commits → Ready request tenantId q →
      (∀ d, q.known d →
        (roleCode = adminRoleCode → ∀ r ∈ d.roles,
          ¬ (r.isOf tenantId userId roleCode = true ∧ r.validAt request.startedAt = true)) ∨
        Survivor request.startedAt tenantId userId d) → post q ()) :
    (guardRemoval request.startedAt tenantId userId roleCode).Meets safety request p post raises := by
  unfold guardRemoval
  split
  · rw [meets_bind, meets_query]
    intro d _ hd
    rw [hp.pending d]
    by_cases hassigned : (d.roles.any fun r =>
        r.isOf tenantId userId roleCode ∧ r.validAt request.startedAt) = true
    · refine ⟨p.known, hp.stable, hd, ?_⟩
      show (if (d.roles.any fun r =>
        r.isOf tenantId userId roleCode ∧ r.validAt request.startedAt) = true then _ else _ :
          AccessCall Unit).Meets _ _ _ _ _
      rw [if_pos hassigned]
      refine meets_requireSurvivingAdministrator hp hraises (hpost _ rfl ?_ fun d' hd' => .inr hd'.2)
      exact hp.learn fun _ _ hsame h => h.transfer hsame
    · have hlearned := hp.learn (A := fun d => ∀ r ∈ d.roles,
          ¬ (r.isOf tenantId userId roleCode = true ∧ r.validAt request.startedAt = true)) ?_
      · refine ⟨_, hlearned.stable, ⟨hd, ?_⟩, ?_⟩
        · intro r hr hboth
          exact hassigned (List.any_eq_true.mpr ⟨r, hr, decide_eq_true hboth⟩)
        · show (if (d.roles.any fun r =>
            r.isOf tenantId userId roleCode ∧ r.validAt request.startedAt) = true then _ else _ :
              AccessCall Unit).Meets _ _ _ _ _
          rw [if_neg hassigned]
          exact hpost _ rfl hlearned fun d' hd' => .inl fun _ => hd'.2
      · intro d d' hsame hnone r hr hboth
        have hof := hboth.1
        simp only [UserRole.isOf, decide_eq_true_eq] at hof
        exact hnone r ((hsame.roles_iff hof.1).mp hr) hboth
  · next hne => exact hpost p rfl hp fun d _ => .inl fun heq => absurd heq hne

theorem meets_removeRole {roleCode : String}
    {post : Place Identity Lock Statement → AccessResponse → Prop}
    (hchanges : p.changes = []) (hstable : safety.Stable request p.held p.known)
    (hstarted : ∀ d, p.known d → request.startedAt ≤ d.clock)
    (hraises : ∀ q e, q.commits = p.commits → raises q e)
    (hpost : ∀ q response, post q response) :
    (removeRole request tenantId userId roleCode).Meets safety request p post raises := by
  unfold removeRole
  rw [meets_bind]
  refine meets_lockedUser hchanges hstable hstarted hraises fun q user hcommits hq => ?_
  rw [meets_bind]
  refine meets_guardRemoval hq (fun q' e h => hraises q' e (h.trans hcommits))
    fun q' hcommits' hq' hguard => ?_
  rw [meets_bind]
  refine meets_query_result hq'.stable fun _ _ _ => ?_
  rw [meets_bind, meets_write, meets_bind]
  have hsafe : ∀ (d : Identity) actions, q'.known d →
      (∀ other, other ≠ tenantId → SameTenant other d { d with
        roles := d.roles.map (closeAssignment tenantId userId roleCode request.startedAt)
        actions := actions }) ∧
      (KeepsAdministrators tenantId d { d with
          roles := d.roles.map (closeAssignment tenantId userId roleCode request.startedAt)
          actions := actions } ∨
        ∃ excludedUserId, Survivor request.startedAt tenantId excludedUserId d ∧
          KeepsOthers excludedUserId d { d with
            roles := d.roles.map (closeAssignment tenantId userId roleCode request.startedAt)
            actions := actions }) := by
    intro d actions hd
    refine ⟨fun other hne => ⟨rfl, closeAssignment_other hne d.roles⟩, ?_⟩
    rcases hguard d hd with hnone | hsurvivor
    · exact .inl (keepsAdministrators_close hnone)
    · exact .inr ⟨userId, hsurvivor, keepsOthers_close⟩
  unfold recordRemoval
  split
  · rw [meets_write, meets_bind]
    refine meets_commit hq'.lock (fun d hd => ?_) fun q => hpost q _
    rw [hq'.changes]
    exact ⟨hq'.started d hd, rfl, hsafe d _ hd⟩
  · rw [meets_pure, meets_bind]
    refine meets_commit hq'.lock (fun d hd => ?_) fun q => hpost q _
    rw [hq'.changes]
    exact ⟨hq'.started d hd, rfl, hsafe d d.actions hd⟩

/-- A refusal that is recorded changes no user and no role. -/
theorem meets_recordSecurityDenial {eventType resourceType resourceId : String}
    {post : Place Identity Lock Statement → Unit → Prop} (hchanges : p.changes = [])
    (hcommits : ∀ c ∈ p.commits, SameAccess c.1 c.2)
    (hpost : ∀ q, (∀ c ∈ q.commits, SameAccess c.1 c.2) → post q ()) :
    (recordSecurityDenial request eventType resourceType resourceId).Meets safety request p post
      raises := by
  unfold recordSecurityDenial
  rw [meets_bind, meets_write, meets_save]
  intro d _ _
  rw [hchanges]
  refine ⟨⟨rfl, .inl ⟨rfl, rfl⟩⟩, fun _ => True, Contract.stable_true, trivial, hpost _ ?_⟩
  intro c hc
  rcases List.mem_append.mp hc with hold | hnew
  · exact hcommits c hold
  · obtain rfl := List.mem_singleton.mp hnew
    exact ⟨rfl, rfl⟩

/-- What a call that raises has committed. -/
def Unaffected (commits : List (Identity × Identity)) : Prop := ∀ c ∈ commits, SameAccess c.1 c.2

theorem meets_forbidSelfMutation {resourceType : String}
    {post : Place Identity Lock Statement → Unit → Prop} (hchanges : p.changes = [])
    (hcommits : Unaffected p.commits) (hpost : post p ()) :
    (forbidSelfMutation request userId resourceType).Meets safety request p post
      fun q _ => Unaffected q.commits := by
  unfold forbidSelfMutation
  split
  · rw [meets_bind]
    exact meets_recordSecurityDenial hchanges hcommits fun q hq => hq
  · exact hpost

/-- The handler, after a call that committed nothing. -/
theorem meets_recordRefusal {resourceType : String} {error : AppError}
    {post : Place Identity Lock Statement → AccessResponse → Prop}
    (hcommits : Unaffected p.commits) :
    (Procedure.rollback (recordRefusal request resourceType userId error)).Meets safety request p post
      fun q _ => Unaffected q.commits := by
  rw [meets_rollback]
  refine ⟨fun _ => True, Contract.stable_true, fun _ _ => trivial, ?_⟩
  unfold recordRefusal
  split
  · rw [meets_bind]
    exact meets_recordSecurityDenial rfl hcommits fun q hq => hq
  · exact hcommits

end Calls

/-- **The calls meet the contract**; one that raises has changed no user and no role. -/
theorem changeAccess_honours :
    Honours safety changeAccess (fun _ _ _ => True) fun _ commits _ => Unaffected commits := by
  intro request
  have hstable : safety.Stable request [] (safety.starts request) := Contract.stable_starts
  have hnone : Unaffected [] := nofun
  unfold changeAccess
  rw [meets_bind, meets_demand]
  refine ⟨fun tenantId _ => ?_, fun _ => hnone⟩
  split
  · rw [meets_bind]
    refine meets_forbidSelfMutation rfl hnone ?_
    rw [meets_catchError]
    refine meets_setUserStatus rfl hstable (fun _ hd => hd) (fun q e hq => ?_) fun _ _ => trivial
    exact meets_recordRefusal (hq ▸ hnone)
  · rw [meets_bind]
    refine meets_forbidSelfMutation rfl hnone ?_
    rw [meets_catchError]
    refine meets_removeRole rfl hstable (fun _ hd => hd) (fun q e hq => ?_) fun _ _ => trivial
    exact meets_recordRefusal (hq ▸ hnone)

/-! ## 3. The last administrator -/

/-- **A COMMIT in whose time nothing expired leaves an administrator.** -/
theorem Safe.hasAdministrator {request : AccessRequest} {held : List Lock} {tenantId : Uuid}
    {d d' : Identity} (h : Safe request held d d') (hexpires : NothingExpires tenantId request.startedAt d)
    (hbefore : HasAdministrator tenantId d) : HasAdministrator tenantId d' := by
  obtain ⟨hclock, hsame | ⟨changed, -, hstarted, hothers, hkeeps⟩⟩ := h
  · exact hbefore.transfer hclock hsame.sameTenant
  · by_cases heq : tenantId = changed
    · subst heq
      rcases hkeeps with hkeeps | ⟨excludedUserId, hsurvivor, hkeeps⟩
      · exact hbefore.keep hclock hkeeps
      · exact hsurvivor.hasAdministrator hkeeps hclock hstarted hexpires
    · exact hbefore.transfer hclock (hothers tenantId heq)

/-- **The last administrator stays.** In every interleaving, a COMMIT of
    `set_user_status` or `remove_role` in whose time no assignment of the role expired
    leaves the tenant an administrator if it had one; and a call that was refused has
    changed no user and no role. -/
theorem administrator_survives {ι : Type} [DecidableEq ι] {store : Identity}
    {events : List (Transactions.Event Identity AccessRequest ι)}
    {w : Transactions.World Identity Lock Statement AppError AccessResponse AccessRequest ι}
    (hrun : Transactions.Interleaving safety changeAccess store events w) :
    (∀ e ∈ w.history, ∀ i request, e.author = some (i, request) → ∀ tenantId,
      NothingExpires tenantId request.startedAt e.before →
      HasAdministrator tenantId e.before → HasAdministrator tenantId e.after) ∧
    ∀ i request error, w.sessions i = .failed request (some error) →
      Unaffected (commitsOf i w.history) := by
  have hsound := sound_of_run changeAccess_honours trivial hrun
  refine ⟨fun e he i request hauthor tenantId hexpires hbefore => ?_, fun i request error hi => ?_⟩
  · obtain ⟨held, hsafe⟩ := guarantee_of_mem hsound.history he hauthor
    exact hsafe.hasAdministrator hexpires hbefore
  · have hkeeps := hsound.keeps i
    rw [hi] at hkeeps
    exact hkeeps

/-! ## 4. An assignment that ends -/

/-- User 1 administers tenant 7 until time 12, user 2 without an end. -/
def temporaryAdministrator : Identity where
  users := [⟨1, 7, true, 5⟩, ⟨2, 7, true, 5⟩]
  roles := [⟨7, 1, adminRoleCode, 0, some 12, true⟩, ⟨7, 2, adminRoleCode, 0, none, true⟩]
  actions := []
  denials := []
  clock := 10

/-- User 1 deactivates user 2, at time 10. -/
def deactivation : AccessRequest := ⟨some 7, some 1, .setUserStatus 2 false 5, 10⟩

/-- The COMMIT comes at the given time. -/
def deactivatedAt (time : Instant) : List (Transactions.Event Identity AccessRequest Nat) :=
  .begin 0 deactivation :: List.replicate 6 (.statement 0) ++
    [.elsewhere { temporaryAdministrator with clock := time }, .statement 0, .statement 0]

/-- What the contract asks of an event. -/
def admitted (w : Transactions.World Identity Lock Statement AppError AccessResponse AccessRequest Nat) :
    Transactions.Event Identity AccessRequest Nat → Bool
  | .begin _ request => request.startedAt ≤ w.store.clock
  | .elsewhere d => d.users = w.store.users ∧ d.roles = w.store.roles ∧ w.store.clock ≤ d.clock
  | _ => true

theorem admits_of_admitted (w : Transactions.World Identity Lock Statement AppError AccessResponse
    AccessRequest Nat) (event : Transactions.Event Identity AccessRequest Nat)
    (h : admitted w event = true) : safety.Admits w event := by
  cases event with
  | begin i request =>
      have hstarted : request.startedAt ≤ w.store.clock := of_decide_eq_true h
      exact ⟨hstarted, fun _ _ _ _ _ => ⟨not_false, not_false⟩⟩
  | statement i => trivial
  | interrupt i => trivial
  | elsewhere d =>
      obtain ⟨husers, hroles, hclock⟩ := of_decide_eq_true h
      exact ⟨⟨husers, hroles⟩, hclock⟩

instance (tenantId : Uuid) (d : Identity) : Decidable (HasAdministrator tenantId d) :=
  inferInstanceAs (Decidable (∃ u ∈ d.users, _))

instance (tenantId : Uuid) (startedAt : Instant) (d : Identity) :
    Decidable (NothingExpires tenantId startedAt d) :=
  decidable_of_iff (∀ r ∈ d.roles, r.tenantId = tenantId → r.roleCode = adminRoleCode →
      r.activeFlag = true → ∀ t ∈ r.validTo.toList, startedAt < t → d.clock < t)
    (by simp only [NothingExpires, Option.mem_toList])

theorem administrator_survives_deactivation :
    ∃ w : Transactions.World Identity Lock Statement AppError AccessResponse AccessRequest Nat,
      ∃ e ∈ w.history, ∃ request, e.author = some (0, request) ∧
        NothingExpires 7 request.startedAt e.before ∧ HasAdministrator 7 e.before ∧
        HasAdministrator 7 e.after := by
  have hvalue : ((deactivatedAt 11).foldlM (fun w event =>
      if admitted w event = true then perform changeAccess w event else none)
      (.start temporaryAdministrator)).map (fun w => w.history.any fun e =>
        HasAdministrator 7 e.before ∧ e.author.any fun author =>
          author.1 = 0 ∧ NothingExpires 7 author.2.startedAt e.before) = some true := by
    decide +kernel
  obtain ⟨w, hrun, hany⟩ := Option.map_eq_some_iff.mp hvalue
  obtain ⟨e, he, hcond⟩ := List.any_eq_true.mp hany
  obtain ⟨hbefore, hauthor⟩ := of_decide_eq_true hcond
  obtain ⟨⟨i, request⟩, hauthor, hmeets⟩ := (Option.any_eq_true _ _).mp hauthor
  obtain ⟨rfl, hexpires⟩ := of_decide_eq_true hmeets
  exact ⟨w, e, he, request, hauthor, hexpires, hbefore,
    (administrator_survives (interleaving_of_foldlM admits_of_admitted hrun)).1 e he 0 request
      hauthor 7 hexpires hbefore⟩

/-- **The last administrator goes**, when their assignment ends before the COMMIT that
    counted on it. -/
theorem last_administrator_expires :
    ¬ ∀ (store : Identity) (events : List (Transactions.Event Identity AccessRequest Nat))
      (w : Transactions.World Identity Lock Statement AppError AccessResponse AccessRequest Nat),
      Transactions.Interleaving safety changeAccess store events w →
      ∀ e ∈ w.history, ∀ i request, e.author = some (i, request) → ∀ tenantId,
        HasAdministrator tenantId e.before → HasAdministrator tenantId e.after := by
  intro hclaim
  have hvalue : ((deactivatedAt 13).foldlM (fun w event =>
      if admitted w event = true then perform changeAccess w event else none)
      (.start temporaryAdministrator)).map (fun w => w.history.any fun e =>
        e.author.isSome ∧ HasAdministrator 7 e.before ∧ ¬ HasAdministrator 7 e.after) =
        some true := by
    decide +kernel
  obtain ⟨w, hrun, hlost⟩ := Option.map_eq_some_iff.mp hvalue
  obtain ⟨e, he, hcond⟩ := List.any_eq_true.mp hlost
  obtain ⟨hauthor, hbefore, hafter⟩ := of_decide_eq_true hcond
  obtain ⟨⟨i, request⟩, hauthor⟩ := Option.isSome_iff_exists.mp hauthor
  exact hafter (hclaim _ _ w (interleaving_of_foldlM admits_of_admitted hrun) e he i request hauthor
    7 hbefore)

end Helpdesk.Admin
