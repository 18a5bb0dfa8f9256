/-
  File:      Helpdesk/Notifications/Accounting.lean
  Subject:   What becomes of an event whose planning raises.

  The exception undoes the claim with the rest of the transaction, so the event is
  `PENDING` or `FAILED` again when `_fail_event` looks for it under `PROCESSING`.
  Nothing is counted, and the next call claims the same event.

  * `planOne_raises`: a call whose planning raises leaves every table as it was;
  * `failures_never_advance`: no failure is ever accounted for, and while the oldest
    event fails nothing else is claimed.
-/
import Helpdesk.Notifications.Worker

namespace Helpdesk.Notifications

open Helpdesk.Python Helpdesk.Core

variable {settings : WorkerSettings} {env : Env} {store store' : Store} {event : OutboxEvent}
variable {failure : PlanningFailure}

/-! ## 1. The claim and its failure -/

/-- The primary key of the outbox. -/
def Store.Valid (store : Store) : Prop := (store.outbox.map (·.outboxEventId)).Nodup

theorem candidate_ok (h : candidate env store = some event) :
    event ∈ store.outbox ∧ claimable env event = true := by
  have hmem := List.mem_of_head? h
  rw [List.mem_insertionSort] at hmem
  exact List.mem_filter.mp hmem

/-- A claimed event is not being processed. -/
theorem candidate_status (h : candidate env store = some event) :
    event.statusCode = .pending ∨ event.statusCode = .failed := by
  have hclaimable := (candidate_ok h).2
  simp only [claimable, Bool.and_eq_true, Bool.or_eq_true, decide_eq_true_eq] at hclaimable
  exact hclaimable.1.1.1

/-- What a claim answers. -/
theorem claimEvent_ok {result : Option (Uuid × OutboxEvent)}
    (h : (claimEvent env).run store = .ok (result, store')) :
    (result = none ∧ candidate env store = none ∧ store' = store) ∨
    ∃ tenantId event, result = some (tenantId, event) ∧ candidate env store = some event := by
  unfold claimEvent at h
  rw [Transaction.get_bind] at h
  split at h
  · rename_i hnone
    obtain ⟨rfl, rfl⟩ := Transaction.pure_eq_ok.mp h
    exact Or.inl ⟨rfl, hnone, rfl⟩
  · rename_i event hevent
    rw [Transaction.set_bind] at h
    split at h
    · exact (Transaction.throw_ne_ok.mp h).elim
    · obtain ⟨rfl, _⟩ := Transaction.pure_eq_ok.mp h
      exact Or.inr ⟨_, event, rfl, hevent⟩

theorem claimEvent_error {error : NotificationError}
    (h : (claimEvent env).run store = .error error) : ∃ event, candidate env store = some event := by
  unfold claimEvent at h
  rw [Transaction.get_bind] at h
  split at h
  · cases h
  · rename_i event hevent
    exact ⟨event, hevent⟩

/-- A planning that raises has claimed an event, whose id is known unless the event
    has no tenant. -/
theorem planTransaction_error (h : (planTransaction env).run store = .error failure) :
    ∃ event, candidate env store = some event ∧
      (failure.eventId = none ∨ failure.eventId = some event.outboxEventId) := by
  unfold planTransaction at h
  rw [Transaction.bind_eq_error] at h
  rcases h with hclaim | ⟨result, store₁, hclaim, h⟩
  · obtain ⟨error, hraised, rfl⟩ := Transaction.mapError_eq_error.mp hclaim
    obtain ⟨event, hevent⟩ := claimEvent_error hraised
    exact ⟨event, hevent, Or.inl rfl⟩
  · rcases claimEvent_ok (Transaction.mapError_eq_ok.mp hclaim) with
      ⟨rfl, _, _⟩ | ⟨tenantId, event, rfl, hevent⟩
    · cases h
    · dsimp only at h
      rw [Transaction.bind_eq_error] at h
      rcases h with hplan | ⟨_, _, _, h⟩
      · obtain ⟨error, _, rfl⟩ := Transaction.mapError_eq_error.mp hplan
        exact ⟨event, hevent, Or.inr rfl⟩
      · cases h

/-- An update that selects no row. -/
theorem updateEvent_none {eventId : Uuid} {selected : OutboxEvent → Bool}
    {change : OutboxEvent → OutboxEvent}
    (hnone : ∀ e ∈ store.outbox, e.outboxEventId = eventId → selected e = false) :
    store.updateEvent eventId selected change = store := by
  have hsame : store.outbox.map (fun e =>
      if e.outboxEventId = eventId && selected e then change e else e) = store.outbox := by
    have hrow : ∀ e ∈ store.outbox,
        (if e.outboxEventId = eventId && selected e then change e else e) = e := by
      intro e he
      by_cases hid : e.outboxEventId = eventId
      · simp [hnone e he hid]
      · simp [hid]
    exact (List.map_congr_left hrow).trans (List.map_id store.outbox)
  unfold Store.updateEvent
  rw [hsame]

/-- The row of a claimed event is the only one with its id. -/
theorem candidate_unique (hvalid : store.Valid) (h : candidate env store = some event)
    {e : OutboxEvent} (he : e ∈ store.outbox) (hid : e.outboxEventId = event.outboxEventId) :
    e = event :=
  List.inj_on_of_nodup_map hvalid he (candidate_ok h).1 hid

/-- `_fail_event` selects no row: after the rollback the event is not `PROCESSING`. -/
theorem failEvent_none (hvalid : store.Valid) {now : Instant}
    (h : (planTransaction env).run store = .error failure) :
    failEvent settings now failure store = store := by
  obtain ⟨event, hevent, hid | hid⟩ := planTransaction_error h
  · rw [failEvent, hid]
  · rw [failEvent, hid]
    refine updateEvent_none fun e he heq => ?_
    rw [candidate_unique hvalid hevent he heq]
    rcases candidate_status hevent with hstatus | hstatus
    · rw [hstatus]
      rfl
    · rw [hstatus]
      rfl

/-- **A call whose planning raises** changes nothing. -/
theorem planOne_raises (hvalid : store.Valid)
    (h : (planTransaction env).run store = .error failure) :
    processOne settings env store = (true, store) := by
  have hplan : planOne settings env store = (true, store) := by
    unfold planOne
    rw [h]
    exact congrArg (Prod.mk true) (failEvent_none hvalid h)
  unfold processOne
  rw [hplan]

/-! ## 2. Calls one after the other -/

/-- What a call of `process_one` claims. -/
inductive Claim where
  | event (outboxEventId : Uuid)
  | delivery (deliveryId : Uuid)
  deriving DecidableEq, Repr

/-- The claim of one call: a delivery is claimed when there is no event. -/
def claimed (env : Env) (store : Store) : Option Claim :=
  match candidate env store with
  | some event => some (.event event.outboxEventId)
  | none => (deliveryCandidate env store).map fun delivery => .delivery delivery.deliveryId

/-- The store after some calls. -/
def calls (settings : WorkerSettings) (store : Store) (envs : List Env) : Store :=
  envs.foldl (fun store env => (processOne settings env store).2) store

/-- What some calls claim, in their order. -/
def claims (settings : WorkerSettings) : Store → List Env → List (Option Claim)
  | _, [] => []
  | store, env :: rest =>
      claimed env store :: claims settings (processOne settings env store).2 rest

def PlanningRaises (env : Env) (store : Store) : Prop :=
  ∃ failure, (planTransaction env).run store = .error failure

/-- **The failure is accounted for**: a permanent one dead-letters the event, another
    one is counted and dead-letters it at the last attempt. -/
def FailureAccounted (settings : WorkerSettings) (env : Env) (store : Store) : Prop :=
  ∀ failure event, (planTransaction env).run store = .error failure →
    candidate env store = some event →
    ∃ e ∈ (processOne settings env store).2.outbox, e.outboxEventId = event.outboxEventId ∧
      if failure.error.final then e.statusCode = .deadLetter
      else e.retryCount = event.retryCount + 1 ∧
        e.statusCode = if settings.workerMaxAttempts ≤ event.retryCount + 1 then .deadLetter
          else .failed

theorem not_failureAccounted (hvalid : store.Valid) (hraise : PlanningRaises env store) :
    ¬ FailureAccounted settings env store := by
  intro haccounted
  obtain ⟨failure, hfailure⟩ := hraise
  obtain ⟨event, hevent, _⟩ := planTransaction_error hfailure
  obtain ⟨e, he, hid, hwritten⟩ := haccounted failure event hfailure hevent
  rw [planOne_raises hvalid hfailure] at he
  obtain rfl := candidate_unique hvalid hevent he hid
  split at hwritten
  · rcases candidate_status hevent with hstatus | hstatus
    · rw [hstatus] at hwritten
      cases hwritten
    · rw [hstatus] at hwritten
      cases hwritten
  · exact absurd hwritten.1 (Nat.ne_of_lt (Nat.lt_succ_self _))

theorem calls_raise (hvalid : store.Valid) {envs : List Env}
    (hraise : ∀ env ∈ envs, PlanningRaises env store) : calls settings store envs = store := by
  induction envs with
  | nil => rfl
  | cons env rest ih =>
      obtain ⟨failure, hfailure⟩ := hraise env List.mem_cons_self
      have hstep : (processOne settings env store).2 = store := by
        rw [planOne_raises hvalid hfailure]
      rw [calls, List.foldl_cons, hstep]
      exact ih fun env' henv' => hraise env' (List.mem_cons_of_mem _ henv')

theorem claims_raise (hvalid : store.Valid) {envs : List Env}
    (hraise : ∀ env ∈ envs, PlanningRaises env store) :
    claims settings store envs = envs.map fun env => claimed env store := by
  induction envs with
  | nil => rfl
  | cons env rest ih =>
      obtain ⟨failure, hfailure⟩ := hraise env List.mem_cons_self
      have hstep : (processOne settings env store).2 = store := by
        rw [planOne_raises hvalid hfailure]
      have hrest := ih fun env' henv' => hraise env' (List.mem_cons_of_mem _ henv')
      rw [claims, hstep, hrest, List.map_cons]

/-- **No failure is ever accounted for.** While planning raises, no call changes
    anything and none claims a delivery; and an event that is the oldest one at every
    call is claimed by every call, and nothing else is. -/
theorem failures_never_advance (hvalid : store.Valid) {envs : List Env}
    (hraise : ∀ env ∈ envs, PlanningRaises env store) :
    (∀ env ∈ envs, ¬ FailureAccounted settings env store) ∧
    calls settings store envs = store ∧
    (∀ id, some (.delivery id) ∉ claims settings store envs) ∧
    ∀ event, (∀ env ∈ envs, candidate env store = some event) →
      claims settings store envs =
        List.replicate envs.length (some (.event event.outboxEventId)) := by
  have hclaims : claims settings store envs = envs.map fun env => claimed env store :=
    claims_raise hvalid hraise
  refine ⟨fun env henv => not_failureAccounted hvalid (hraise env henv),
    calls_raise hvalid hraise, ?_, ?_⟩
  · intro id hmem
    rw [hclaims] at hmem
    obtain ⟨env, henv, hclaim⟩ := List.mem_map.mp hmem
    obtain ⟨failure, hfailure⟩ := hraise env henv
    obtain ⟨event, hevent, _⟩ := planTransaction_error hfailure
    rw [claimed, hevent] at hclaim
    cases hclaim
  · intro event hevent
    rw [hclaims]
    refine List.eq_replicate_iff.mpr ⟨List.length_map _, fun claim hclaim => ?_⟩
    obtain ⟨env, henv, rfl⟩ := List.mem_map.mp hclaim
    rw [claimed, hevent env henv]

/-- User 5 has assigned a ticket to user 5: nobody is left to be told. -/
def sampleEvent : OutboxEvent where
  outboxEventId := 1
  tenantId := some 1
  aggregateType := "TICKET"
  aggregateId := uuidText 1
  eventType := "NOTIFY_TICKET_ASSIGNED"
  payload := [("actor_user_id", .str (uuidText 5))]
  availableAt := 0
  createdAt := 0

/-- After that event a comment is reported, and a message waits to be sent. -/
def sampleStore : Store where
  outbox :=
    [sampleEvent,
     { outboxEventId := 2
       tenantId := some 1
       aggregateType := "TICKET"
       aggregateId := uuidText 1
       eventType := "NOTIFY_CUSTOMER_COMMENT_ADDED"
       payload := []
       availableAt := 0
       createdAt := 1 }]
  tickets := [⟨1, 1, "T-1", "NEW", "New", 4, none, some 5⟩]
  users := [⟨5, 1, "Analyst", "analyst@example.test", true⟩]
  approvers := []
  templates := []
  deliveries :=
    [{ deliveryId := 1
       tenantId := 1
       versionId := 1
       resourceId := 1
       recipientReference := "analyst@example.test"
       recipientUserId := 5
       outboxEventId := 0
       channelCode := "EMAIL"
       deduplicationKey := "key"
       renderedSubject := "Ticket"
       renderedBody := "Ticket"
       nextAttemptAt := 0
       createdAt := 0 }]
  attempts := []
  inApp := []
  nextId := 2

def sampleSettings : WorkerSettings := ⟨5, by decide⟩

/-- One call a second, with a mail server that takes every message. -/
def sampleEnv (n : Nat) : Env where
  now := n * second
  lockedEvents := []
  lockedDeliveries := []
  fault := none
  send := fun _ _ _ => .sent "provider"

/-- One call more than `worker_max_attempts`. -/
def sampleEnvs : List Env :=
  [sampleEnv 0, sampleEnv 1, sampleEnv 2, sampleEnv 3, sampleEnv 4, sampleEnv 5]

theorem failures_never_advance_sample :
    (∀ env ∈ sampleEnvs, ¬ FailureAccounted sampleSettings env sampleStore) ∧
    claims sampleSettings sampleStore sampleEnvs = List.replicate 6 (some (.event 1)) := by
  have hvalid : sampleStore.Valid := by
    unfold Store.Valid
    decide
  have hraise : ∀ env ∈ sampleEnvs, PlanningRaises env sampleStore := by
    simp only [sampleEnvs, List.forall_mem_cons]
    exact ⟨⟨_, rfl⟩, ⟨_, rfl⟩, ⟨_, rfl⟩, ⟨_, rfl⟩, ⟨_, rfl⟩, ⟨_, rfl⟩,
      fun env henv => absurd henv List.not_mem_nil⟩
  have hcandidate : ∀ env ∈ sampleEnvs, candidate env sampleStore = some sampleEvent := by
    simp only [sampleEnvs, List.forall_mem_cons]
    exact ⟨rfl, rfl, rfl, rfl, rfl, rfl, fun env henv => absurd henv List.not_mem_nil⟩
  obtain ⟨hnever, _, _, hsame⟩ := failures_never_advance hvalid hraise
  exact ⟨hnever, hsame sampleEvent hcandidate⟩

/-- **One event without a recipient** is claimed a sixth time where five attempts are
    allowed, it is neither dead-lettered nor counted, and the message still waits. -/
theorem failure_retried_forever :
    claims sampleSettings sampleStore sampleEnvs = List.replicate 6 (some (.event 1)) ∧
    (calls sampleSettings sampleStore sampleEnvs).outbox.map
      (fun e => (e.statusCode, e.retryCount)) = [(.pending, 0), (.pending, 0)] ∧
    (calls sampleSettings sampleStore sampleEnvs).deliveries = sampleStore.deliveries ∧
    sampleStore.deliveries.map (deliverable (sampleEnv 5)) = [true] ∧
    ¬ FailureAccounted sampleSettings (sampleEnv 0) sampleStore := by
  refine ⟨by decide +kernel, by decide +kernel, by decide +kernel, by decide, ?_⟩
  intro haccounted
  obtain ⟨e, he, _, hwritten⟩ := haccounted _ sampleEvent rfl rfl
  have hpending : ∀ s ∈ (processOne sampleSettings (sampleEnv 0) sampleStore).2.outbox.map
      (·.statusCode), s = .pending := by decide +kernel
  have hdead : e.statusCode = .deadLetter := hwritten
  rw [hpending _ (List.mem_map_of_mem he)] at hdead
  cases hdead

end Helpdesk.Notifications
