/-
  File:      Helpdesk/Notifications/Leases.lean
  Subject:   Deliveries that several workers claim, send and finish.

  A claim is a lease: once it is five minutes old another worker may claim the same
  delivery. The statement that records a result looks only at the status, so it takes
  the `SENDING` of a newer claim for its own.

  * `Store.Keyed`: the invariant, the primary key of the deliveries;
  * `InOrder`: a result that comes back to its own lease, and a message that is sent
    before the last attempt;
  * `delivery_lifecycle`: what holds of every run, of runs in order, and of a step out
    of order.
-/
import Helpdesk.Lib.Runs
import Helpdesk.Notifications.Worker

namespace Helpdesk.Notifications

open Helpdesk.Python Helpdesk.Core

variable {settings : WorkerSettings}

/-! ## 1. Workers at the same time -/

/-- A call of `deliver_one`: the row it claimed, and whether its result is recorded. -/
structure Sending where
  delivery : Delivery
  finished : Bool

structure World where
  store : Store
  /-- every claim so far, in their order -/
  claims : List Sending

inductive Action where
  /-- `plan_one` -/
  | plan (env : Env)
  /-- transactions of others, which leave the deliveries alone -/
  | others (outbox : List OutboxEvent) (tickets : List TicketRow) (users : List UserRecord)
      (approvers : List Tickets.TicketApprover) (templates : List TemplateRow)
  | claim (env : Env)
  | finish (index : Nat) (now : Instant) (result : SendResult)

/-- What `deliver_one` records of a result. -/
def recordResult (settings : WorkerSettings) (now : Instant) (delivery : Delivery)
    (result : SendResult) (store : Store) : Store :=
  let finish := finishDelivery settings now delivery
  match result with
  | .sent providerId => finish .delivered (some providerId) none store
  | .permanent => finish .permanentFailure none (some "PermanentNotificationError") store
  | .raised errorName => finish .retryableFailure none (some errorName) store

/-- `deliver_one` is a claim and the record of its result. -/
theorem deliverOne_eq (env : Env) (store : Store) :
    deliverOne settings env store =
      match claimDelivery env store with
      | none => (false, store)
      | some (delivery, claimed) =>
          (true, recordResult settings env.now delivery (env.send delivery.recipientReference
            delivery.renderedSubject delivery.renderedBody) claimed) := by
  unfold deliverOne recordResult
  cases claimDelivery env store with
  | none => rfl
  | some claim =>
      dsimp only
      cases env.send claim.1.recipientReference claim.1.renderedSubject claim.1.renderedBody with
      | sent | permanent | raised => rfl

/-- **One step.** -/
def World.next (settings : WorkerSettings) (world : World) (action : Action) : Option World :=
  match action with
  | .plan env => some { world with store := (planOne settings env world.store).2 }
  | .others outbox tickets users approvers templates =>
      some { world with store := { world.store with outbox, tickets, users, approvers, templates } }
  | .claim env => (claimDelivery env world.store).map fun (delivery, store) =>
      { store, claims := world.claims ++ [⟨delivery, false⟩] }
  | .finish index now result => do
      let sending ← world.claims[index]?
      if sending.finished then none
      else some {
        store := recordResult settings now sending.delivery result world.store
        claims := world.claims.set index { sending with finished := true } }

def DeliveryStep (settings : WorkerSettings) (world : World) (action : Action) (world' : World) :
    Prop :=
  world.next settings action = some world'

/-! ## 2. What planning adds -/

/-- **The deliveries that are there stay, and new ones are pending.** -/
structure Store.Grown (store store' : Store) : Prop where
  next : store.nextId ≤ store'.nextId
  rows : ∃ new, store'.deliveries = store.deliveries ++ new ∧ (new.map (·.deliveryId)).Nodup ∧
    ∀ d ∈ new, d.deliveryStatus = .pending ∧ d.finalFailure = false ∧
      store.nextId ≤ d.deliveryId ∧ d.deliveryId < store'.nextId

theorem Store.Grown.of_eq {store store' : Store} (hnext : store'.nextId = store.nextId)
    (hrows : store'.deliveries = store.deliveries) : store.Grown store' where
  next := hnext.ge
  rows := ⟨[], by rw [hrows, List.append_nil], List.nodup_nil, by simp⟩

theorem Store.Grown.refl (store : Store) : store.Grown store := .of_eq rfl rfl

theorem Store.Grown.trans (a b c : Store) (h : a.Grown b) (h' : b.Grown c) : a.Grown c where
  next := h.next.trans h'.next
  rows := by
    obtain ⟨new, hrows, hnodup, hnew⟩ := h.rows
    obtain ⟨new', hrows', hnodup', hnew'⟩ := h'.rows
    refine ⟨new ++ new', by rw [hrows', hrows, List.append_assoc], ?_, ?_⟩
    · rw [List.map_append, List.nodup_append]
      refine ⟨hnodup, hnodup', fun id hid id' hid' heq => ?_⟩
      obtain ⟨d, hd, rfl⟩ := List.mem_map.mp hid
      obtain ⟨d', hd', rfl⟩ := List.mem_map.mp hid'
      have hlt : d.deliveryId < d'.deliveryId := (hnew d hd).2.2.2.trans_le (hnew' d' hd').2.2.1
      exact absurd heq (Nat.ne_of_lt hlt)
    · intro d hd
      rcases List.mem_append.mp hd with hd | hd
      · obtain ⟨hstatus, hfinal, hfrom, hto⟩ := hnew d hd
        exact ⟨hstatus, hfinal, hfrom, hto.trans_le h'.next⟩
      · obtain ⟨hstatus, hfinal, hfrom, hto⟩ := hnew' d hd
        exact ⟨hstatus, hfinal, h.next.trans hfrom, hto⟩

open Transaction in
theorem insertDelivery_grown {delivery : Uuid → Delivery}
    (hdelivery : ∀ id, (delivery id).deliveryId = id ∧ (delivery id).deliveryStatus = .pending ∧
      (delivery id).finalFailure = false) :
    Respects Store.Grown (insertDelivery delivery) := by
  refine Respects.modify fun store => ?_
  obtain ⟨hid, hstatus, hfinal⟩ := hdelivery store.nextId
  dsimp only
  split
  · exact ⟨Nat.le_succ _, [], by simp, List.nodup_nil, by simp⟩
  · refine ⟨Nat.le_succ _, [delivery store.nextId], rfl, List.nodup_singleton _, ?_⟩
    intro d hd
    obtain rfl := List.mem_singleton.mp hd
    refine ⟨hstatus, hfinal, hid.ge, ?_⟩
    rw [hid]
    exact Nat.lt_succ_self _

open Transaction in
theorem insertInApp_grown {row : InAppNotification} : Respects Store.Grown (insertInApp row) := by
  refine Respects.modify fun store => ?_
  split
  · exact .refl store
  · exact .of_eq rfl rfl

open Transaction in
theorem planChannel_grown {now : Instant} {tenantId : Uuid} {event : OutboxEvent} {ticket : TicketRow}
    {code : String} {recipient : UserRecord} {channel : String} :
    Respects Store.Grown (planChannel now tenantId event ticket code recipient channel) := by
  unfold planChannel
  refine Respects.get_bind fun store => Respects.lift_bind fun row _ => ?_
  refine Respects.lift_bind fun text _ => ?_
  obtain ⟨subject, body⟩ := text
  dsimp only
  split
  · split
    · exact Respects.throw _
    · exact insertDelivery_grown fun id => ⟨rfl, rfl, rfl⟩
  · exact insertInApp_grown

open Transaction in
theorem plan_grown {now : Instant} {tenantId : Uuid} {event : OutboxEvent} :
    Respects Store.Grown (plan now tenantId event) := by
  unfold plan
  refine Respects.lift_bind fun ticketId _ => Respects.get_bind fun store => ?_
  split
  · exact Respects.throw _
  · refine Respects.lift_bind fun code _ => Respects.lift_bind fun users _ => ?_
    refine Respects.guard (Respects.forM Store.Grown.refl Store.Grown.trans (fun recipient => ?_) users)
    exact Respects.forM Store.Grown.refl Store.Grown.trans (fun channel => planChannel_grown) _

theorem updateEvent_grown {store : Store} {eventId : Uuid} {selected : OutboxEvent → Bool}
    {change : OutboxEvent → OutboxEvent} : store.Grown (store.updateEvent eventId selected change) :=
  .of_eq rfl rfl

open Transaction in
theorem knowing_grown {α : Type} {eventId : Option Uuid} {x : Planning α}
    (hx : Respects Store.Grown x) : Respects Store.Grown (knowing eventId x) :=
  fun s a s' h => hx s a s' (mapError_eq_ok.mp h)

open Transaction in
theorem claimEvent_grown {env : Env} : Respects Store.Grown (claimEvent env) := by
  intro store claim store' h
  unfold claimEvent at h
  rw [get_bind] at h
  split at h
  · obtain ⟨_, rfl⟩ := pure_eq_ok.mp h
    exact .refl store
  · rw [set_bind] at h
    split at h
    · exact (throw_ne_ok.mp h).elim
    · obtain ⟨_, rfl⟩ := pure_eq_ok.mp h
      exact updateEvent_grown

open Transaction in
theorem planClaimed_grown {env : Env} {tenantId : Uuid} {event : OutboxEvent} :
    Respects Store.Grown (planClaimed env tenantId event) := by
  unfold planClaimed
  refine Respects.lift_bind fun _ _ => Respects.bind Store.Grown.trans plan_grown fun _ => ?_
  exact Respects.modify fun store => updateEvent_grown

open Transaction in
theorem planTransaction_grown {env : Env} : Respects Store.Grown (planTransaction env) := by
  unfold planTransaction
  refine Respects.bind Store.Grown.trans (knowing_grown claimEvent_grown) fun claim => ?_
  cases claim with
  | none => exact Respects.pure Store.Grown.refl false
  | some claim =>
      refine Respects.bind Store.Grown.trans (knowing_grown planClaimed_grown) fun _ => ?_
      exact Respects.pure Store.Grown.refl true

/-- **What a call of `plan_one` does to the deliveries.** -/
theorem planOne_grown (env : Env) (store : Store) : store.Grown (planOne settings env store).2 := by
  unfold planOne
  split
  · next handled store' h => exact planTransaction_grown store handled store' h
  · next failure h =>
      unfold failEvent
      split
      · exact .refl store
      · exact updateEvent_grown

/-! ## 3. What a step does -/

/-- The row of a delivery, in the table. -/
structure Store.Keyed (store : Store) : Prop where
  distinct : (store.deliveries.map (·.deliveryId)).Nodup
  below : ∀ d ∈ store.deliveries, d.deliveryId < store.nextId

theorem Store.Keyed.inj {store : Store} (h : store.Keyed) {d e : Delivery} (hd : d ∈ store.deliveries)
    (he : e ∈ store.deliveries) (hid : d.deliveryId = e.deliveryId) : d = e :=
  List.inj_on_of_nodup_map h.distinct hd he hid

theorem Store.Keyed.grown {store store' : Store} (h : store.Keyed) (hgrown : store.Grown store') :
    store'.Keyed := by
  obtain ⟨new, hrows, hnodup, hnew⟩ := hgrown.rows
  constructor
  · rw [hrows, List.map_append, List.nodup_append]
    refine ⟨h.distinct, hnodup, fun id hid id' hid' heq => ?_⟩
    obtain ⟨d, hd, rfl⟩ := List.mem_map.mp hid
    obtain ⟨d', hd', rfl⟩ := List.mem_map.mp hid'
    have hlt : d.deliveryId < d'.deliveryId := (h.below d hd).trans_le (hnew d' hd').2.2.1
    exact absurd heq (Nat.ne_of_lt hlt)
  · intro d hd
    rw [hrows] at hd
    rcases List.mem_append.mp hd with hd | hd
    · exact (h.below d hd).trans_le hgrown.next
    · exact (hnew d hd).2.2.2

/-- A row that an update may have changed. -/
theorem mem_updateDelivery {store : Store} {deliveryId : Uuid} {selected : Delivery → Bool}
    {change : Delivery → Delivery} {d' : Delivery}
    (h : d' ∈ (store.updateDelivery deliveryId selected change).deliveries) :
    ∃ d ∈ store.deliveries, (d.deliveryId = deliveryId ∧ selected d ∧ d' = change d) ∨
      (¬ (d.deliveryId = deliveryId ∧ selected d) ∧ d' = d) := by
  obtain ⟨d, hd, hchange⟩ := List.mem_map.mp h
  refine ⟨d, hd, ?_⟩
  by_cases hmatch : d.deliveryId = deliveryId ∧ selected d
  · rw [if_pos (by simpa using hmatch)] at hchange
    exact Or.inl ⟨hmatch.1, hmatch.2, hchange.symm⟩
  · rw [if_neg (by simpa using hmatch)] at hchange
    exact Or.inr ⟨hmatch, hchange.symm⟩

theorem Store.Keyed.updateDelivery {store : Store} (h : store.Keyed) {deliveryId : Uuid}
    {selected : Delivery → Bool} {change : Delivery → Delivery}
    (hchange : ∀ d, (change d).deliveryId = d.deliveryId) :
    (store.updateDelivery deliveryId selected change).Keyed := by
  constructor
  · have hids : (store.updateDelivery deliveryId selected change).deliveries.map (·.deliveryId) =
        store.deliveries.map (·.deliveryId) := by
      unfold Store.updateDelivery
      rw [List.map_map]
      refine List.map_congr_left fun d _ => ?_
      simp only [Function.comp_apply]
      split
      · exact hchange d
      · rfl
    rw [hids]
    exact h.distinct
  · intro d' hd'
    obtain ⟨d, hd, ⟨_, _, rfl⟩ | ⟨_, rfl⟩⟩ := mem_updateDelivery hd'
    · rw [hchange]
      exact h.below d hd
    · exact h.below d' hd

/-- The result of a message, as it is recorded. -/
def SendResult.outcome : SendResult → Outcome
  | .sent _ => .delivered
  | .permanent => .permanentFailure
  | .raised _ => .retryableFailure

/-- Recording a result writes the row of the delivery, while it is `SENDING`. -/
theorem recordResult_rows (now : Instant) (delivery : Delivery) (result : SendResult) (store : Store) :
    ∃ providerId errorCode, (recordResult settings now delivery result store).deliveries =
        (store.updateDelivery delivery.deliveryId (·.deliveryStatus = .sending)
          (finishedDelivery settings now delivery result.outcome providerId errorCode)).deliveries ∧
      (recordResult settings now delivery result store).nextId = store.nextId := by
  unfold recordResult
  cases result with
  | sent providerId => exact ⟨_, _, rfl, rfl⟩
  | permanent => exact ⟨_, _, rfl, rfl⟩
  | raised errorName => exact ⟨_, _, rfl, rfl⟩

/-- What a step has done. -/
inductive World.Stepped (settings : WorkerSettings) (world : World) : Action → World → Prop where
  | grown {action : Action} {store' : Store} (hgrown : world.store.Grown store')
      (hfinish : ∀ index now result, action ≠ .finish index now result) :
      world.Stepped settings action { world with store := store' }
  | claimed {env : Env} {delivery : Delivery}
      (hdelivery : deliveryCandidate env world.store = some delivery) :
      world.Stepped settings (.claim env)
        { store := world.store.updateDelivery delivery.deliveryId (fun _ => true)
            fun d => { d with deliveryStatus := .sending, lockedAt := some env.now }
          claims := world.claims ++ [⟨delivery, false⟩] }
  | finished {index : Nat} {now : Instant} {result : SendResult} {sending : Sending}
      (hclaim : world.claims[index]? = some sending) (hopen : sending.finished = false) :
      world.Stepped settings (.finish index now result)
        { store := recordResult settings now sending.delivery result world.store
          claims := world.claims.set index { sending with finished := true } }

theorem DeliveryStep.stepped {world world' : World} {action : Action}
    (h : DeliveryStep settings world action world') : world.Stepped settings action world' := by
  unfold DeliveryStep World.next at h
  split at h
  · cases h
    exact .grown (planOne_grown _ _) (by simp)
  · cases h
    exact .grown (.of_eq rfl rfl) (by simp)
  · next env =>
      unfold claimDelivery at h
      rw [Option.map_map, Option.map_eq_some_iff] at h
      obtain ⟨delivery, hdelivery, rfl⟩ := h
      exact .claimed hdelivery
  · simp only [Option.bind_eq_bind, Option.bind_eq_some_iff] at h
    obtain ⟨sending, hclaim, h⟩ := h
    split at h
    · cases h
    · next hopen =>
        cases h
        exact .finished hclaim (by simpa using hopen)

/-- A claimed row is neither finally failed nor delivered. -/
theorem deliveryCandidate_ok {env : Env} {store : Store} {delivery : Delivery}
    (h : deliveryCandidate env store = some delivery) :
    delivery ∈ store.deliveries ∧ delivery.finalFailure = false ∧
      delivery.deliveryStatus ≠ .delivered := by
  have hmem := List.mem_of_head? h
  rw [List.mem_insertionSort] at hmem
  obtain ⟨hmem, hdeliverable⟩ := List.mem_filter.mp hmem
  simp only [deliverable, Bool.and_eq_true, Bool.or_eq_true, decide_eq_true_eq,
    Bool.not_eq_true'] at hdeliverable
  obtain ⟨⟨hfinal, hstatus⟩, _⟩ := hdeliverable
  refine ⟨hmem, hfinal, ?_⟩
  rcases hstatus with ⟨hstatus | hstatus, _⟩ | ⟨hstatus, _⟩ <;> rw [hstatus] <;> decide

theorem mem_updateDelivery_of_not {store : Store} {deliveryId : Uuid} {selected : Delivery → Bool}
    {change : Delivery → Delivery} {d : Delivery} (hd : d ∈ store.deliveries)
    (hnot : ¬ (d.deliveryId = deliveryId ∧ selected d)) :
    d ∈ (store.updateDelivery deliveryId selected change).deliveries := by
  refine List.mem_map.mpr ⟨d, hd, ?_⟩
  rw [if_neg (by simpa using hnot)]

theorem World.Stepped.keyed {world world' : World} {action : Action}
    (hstep : world.Stepped settings action world') (h : world.store.Keyed) : world'.store.Keyed := by
  cases hstep with
  | grown hgrown => exact h.grown hgrown
  | claimed => exact h.updateDelivery fun _ => rfl
  | @finished index now result sending =>
      obtain ⟨providerId, errorCode, hrows, hnext⟩ :=
        @recordResult_rows settings now sending.delivery result world.store
      have hupdated : (world.store.updateDelivery sending.delivery.deliveryId
          (·.deliveryStatus = .sending) (finishedDelivery settings now sending.delivery result.outcome
            providerId errorCode)).Keyed := h.updateDelivery fun _ => rfl
      exact ⟨hrows ▸ hupdated.distinct, by rw [hrows, hnext]; exact hupdated.below⟩

/-- **A delivered row stays as it is.** -/
theorem World.Stepped.delivered {world world' : World} {action : Action}
    (hstep : world.Stepped settings action world') (h : world.store.Keyed) {d : Delivery}
    (hd : d ∈ world.store.deliveries) (hdelivered : d.deliveryStatus = .delivered) :
    d ∈ world'.store.deliveries := by
  cases hstep with
  | grown hgrown =>
      obtain ⟨new, hrows, _⟩ := hgrown.rows
      rw [hrows]
      exact List.mem_append_left new hd
  | claimed hdelivery =>
      obtain ⟨hmem, _, hstatus⟩ := deliveryCandidate_ok hdelivery
      refine mem_updateDelivery_of_not hd fun hmatch => hstatus ?_
      rw [← h.inj hd hmem hmatch.1, hdelivered]
  | @finished index now result sending =>
      obtain ⟨providerId, errorCode, hrows, _⟩ :=
        @recordResult_rows settings now sending.delivery result world.store
      rw [hrows]
      exact mem_updateDelivery_of_not hd (by simp [hdelivered])

/-! ## 4. The lifecycle -/

/-- **No final failure was delivered.** -/
def Store.Settled (store : Store) : Prop :=
  ∀ d ∈ store.deliveries, d.finalFailure → d.deliveryStatus ≠ .delivered

/-- The delivery is being sent. -/
def Store.sends (store : Store) (deliveryId : Uuid) : Bool :=
  store.deliveries.any fun d => d.deliveryId = deliveryId && d.deliveryStatus = .sending

/-- A newer claim of the same delivery exists. -/
def World.superseded (world : World) (index : Nat) (sending : Sending) : Bool :=
  (world.claims.drop (index + 1)).any (·.delivery.deliveryId = sending.delivery.deliveryId)

/-- **A result that, if its delivery is being sent, comes back to its own claim, and is no
    delivery at the last attempt.** -/
def InOrder (settings : WorkerSettings) (world : World) : Action → Prop
  | .finish index _ result => ∀ sending, world.claims[index]? = some sending →
      world.store.sends sending.delivery.deliveryId →
        world.superseded index sending = false ∧
          ¬ (result.outcome = .delivered ∧
            settings.workerMaxAttempts ≤ sending.delivery.attemptCount + 1)
  | _ => True

/-- What a step must do. -/
structure Proper (world : World) (action : Action) (world' : World) : Prop where
  settled : world'.store.Settled
  /-- the result of a superseded claim writes nothing over -/
  own : ∀ index now result sending, action = .finish index now result →
    world.claims[index]? = some sending → world.superseded index sending →
      world'.store.deliveries = world.store.deliveries

theorem Store.Settled.grown {store store' : Store} (h : store.Settled) (hgrown : store.Grown store') :
    store'.Settled := by
  obtain ⟨new, hrows, _, hnew⟩ := hgrown.rows
  intro d hd hfinal
  rw [hrows] at hd
  rcases List.mem_append.mp hd with hd | hd
  · exact h d hd hfinal
  · rw [(hnew d hd).1]
    decide

/-- Nothing is written of a delivery that is not being sent. -/
theorem recordResult_none {now : Instant} {delivery : Delivery} {result : SendResult} {store : Store}
    (h : store.sends delivery.deliveryId = false) :
    (recordResult settings now delivery result store).deliveries = store.deliveries := by
  obtain ⟨providerId, errorCode, hrows, _⟩ :=
    @recordResult_rows settings now delivery result store
  rw [hrows, Store.updateDelivery]
  refine (List.map_congr_left fun d hd => ?_).trans (List.map_id store.deliveries)
  have hnot := List.any_eq_false.mp h d hd
  rw [if_neg hnot]
  rfl

/-- The row of a recorded result. -/
theorem recordResult_some {now : Instant} {delivery : Delivery} {result : SendResult} {store : Store}
    (h : store.sends delivery.deliveryId = true) :
    ∃ d ∈ store.deliveries, d.deliveryStatus = .sending ∧ ∃ providerId errorCode,
      finishedDelivery settings now delivery result.outcome providerId errorCode d ∈
        (recordResult settings now delivery result store).deliveries := by
  obtain ⟨providerId, errorCode, hrows, _⟩ :=
    @recordResult_rows settings now delivery result store
  obtain ⟨d, hd, hmatch⟩ := List.any_eq_true.mp h
  have hstatus : d.deliveryStatus = .sending := by simpa using (Bool.and_eq_true_iff.mp hmatch).2
  refine ⟨d, hd, hstatus, providerId, errorCode, ?_⟩
  rw [hrows]
  refine List.mem_map.mpr ⟨d, hd, ?_⟩
  rw [if_pos hmatch]

/-- Once a result is recorded, nobody is sending. -/
theorem recordResult_ends {now : Instant} {delivery : Delivery} {result : SendResult} {store : Store} :
    (recordResult settings now delivery result store).sends delivery.deliveryId = false := by
  obtain ⟨providerId, errorCode, hrows, _⟩ := @recordResult_rows settings now delivery result store
  rw [Store.sends, hrows, List.any_eq_false]
  intro d' hd' hmatch
  simp only [Bool.and_eq_true, decide_eq_true_eq] at hmatch
  obtain ⟨d, _, ⟨_, _, rfl⟩ | ⟨hnot, rfl⟩⟩ := mem_updateDelivery hd'
  · have hstatus := hmatch.2
    simp only [finishedDelivery] at hstatus
    split at hstatus <;> cases hstatus
  · exact hnot ⟨hmatch.1, by simp [hmatch.2]⟩

theorem Store.Settled.recorded {now : Instant} {delivery : Delivery} {result : SendResult}
    {store : Store} (h : store.Settled)
    (hlast : ¬ (result.outcome = .delivered ∧ settings.workerMaxAttempts ≤ delivery.attemptCount + 1)) :
    (recordResult settings now delivery result store).Settled := by
  obtain ⟨providerId, errorCode, hrows, _⟩ :=
    @recordResult_rows settings now delivery result store
  intro d' hd' hfinal hdelivered
  rw [hrows] at hd'
  obtain ⟨d, hd, ⟨_, _, rfl⟩ | ⟨_, rfl⟩⟩ := mem_updateDelivery hd'
  · have houtcome : result.outcome = .delivered := by
      by_contra hne
      simp [finishedDelivery, hne] at hdelivered
    simp only [finishedDelivery, houtcome, Bool.or_eq_true, decide_eq_true_eq] at hfinal
    exact hlast ⟨houtcome, hfinal.resolve_left (by decide)⟩
  · exact h d' hd hfinal hdelivered

theorem Store.Settled.claimed {env : Env} {delivery : Delivery} {store : Store} (h : store.Settled) :
    (store.updateDelivery delivery.deliveryId (fun _ => true)
      fun d => { d with deliveryStatus := .sending, lockedAt := some env.now }).Settled := by
  intro d' hd' hfinal
  obtain ⟨d, hd, ⟨_, _, rfl⟩ | ⟨_, rfl⟩⟩ := mem_updateDelivery hd'
  · simp
  · exact h d' hd hfinal

/-- **A step is proper exactly when it is in order.** -/
theorem proper_iff {world world' : World} {action : Action} (hsettled : world.store.Settled)
    (hstep : DeliveryStep settings world action world') :
    Proper world action world' ↔ InOrder settings world action := by
  cases hstep.stepped with
  | grown hgrown hfinish =>
      refine iff_of_true ⟨hsettled.grown hgrown, ?_⟩ ?_
      · intro index now result sending haction
        exact absurd haction (hfinish index now result)
      · cases action with
        | finish index now result => exact absurd rfl (hfinish index now result)
        | plan | others | claim => exact trivial
  | claimed hdelivery =>
      refine iff_of_true ⟨hsettled.claimed, ?_⟩ trivial
      intro index now result sending haction
      cases haction
  | @finished index now result sending hclaim hopen =>
      constructor
      · rintro ⟨hafter, hown⟩ other hother hsends
        obtain rfl : sending = other := Option.some.inj (hclaim.symm.trans hother)
        obtain ⟨d, hd, hstatus, providerId, errorCode, hwritten⟩ :=
          @recordResult_some settings now _ result _ hsends
        constructor
        · by_contra hsuperseded
          have hsame := hown index now result sending rfl hclaim (by simpa using hsuperseded)
          have hends := @recordResult_ends settings now sending.delivery result world.store
          rw [Store.sends, hsame] at hends
          rw [Store.sends, hends] at hsends
          cases hsends
        · rintro ⟨houtcome, hlast⟩
          exact hafter _ hwritten (by simp [finishedDelivery, hlast])
            (by simp [finishedDelivery, houtcome])
      · intro horder
        by_cases hsends : world.store.sends sending.delivery.deliveryId = true
        · obtain ⟨hcurrent, hlast⟩ := horder sending hclaim hsends
          refine ⟨hsettled.recorded hlast, ?_⟩
          intro index' now' result' other haction hother hsuperseded
          cases haction
          obtain rfl : sending = other := Option.some.inj (hclaim.symm.trans hother)
          rw [hcurrent] at hsuperseded
          cases hsuperseded
        · have hsame := @recordResult_none settings now _ result _ (Bool.eq_false_iff.mpr hsends)
          refine ⟨?_, fun _ _ _ _ _ _ _ => hsame⟩
          intro d hd
          exact hsettled d (hsame ▸ hd)

/-- **A delivery that was delivered is never claimed again.** -/
theorem never_claimed_again {world world' : World} {actions : List Action} (hkeyed : world.store.Keyed)
    (hrun : Run (DeliveryStep settings) world actions world') {d : Delivery}
    (hd : d ∈ world.store.deliveries) (hdelivered : d.deliveryStatus = .delivered) :
    d ∈ world'.store.deliveries ∧ ∀ index claim, world.claims.length ≤ index →
      world'.claims[index]? = some claim → claim.delivery.deliveryId ≠ d.deliveryId := by
  have hinvariant : world'.store.Keyed ∧ d ∈ world'.store.deliveries ∧
      world.claims.length ≤ world'.claims.length ∧
      ∀ index claim, world.claims.length ≤ index → world'.claims[index]? = some claim →
        claim.delivery.deliveryId ≠ d.deliveryId := by
    refine hrun.invariant (I := fun w => w.store.Keyed ∧ d ∈ w.store.deliveries ∧
      world.claims.length ≤ w.claims.length ∧ ∀ index claim, world.claims.length ≤ index →
        w.claims[index]? = some claim → claim.delivery.deliveryId ≠ d.deliveryId) ?_ ?_
    · refine ⟨hkeyed, hd, le_rfl, fun index claim hindex hclaim => ?_⟩
      rw [List.getElem?_eq_none hindex] at hclaim
      cases hclaim
    · rintro w action w' ⟨hw, hmem, hlength, hclaims⟩ hstep
      have hstepped := hstep.stepped
      refine ⟨hstepped.keyed hw, hstepped.delivered hw hmem hdelivered, ?_⟩
      cases hstepped with
      | grown => exact ⟨hlength, hclaims⟩
      | @claimed env delivery hdelivery =>
          refine ⟨hlength.trans (by simp), fun index claim hindex hclaim => ?_⟩
          by_cases hold : index < w.claims.length
          · rw [List.getElem?_append_left hold] at hclaim
            exact hclaims index claim hindex hclaim
          · rw [List.getElem?_append_right (Nat.le_of_not_lt hold)] at hclaim
            obtain rfl := List.mem_singleton.mp (List.mem_of_getElem? hclaim)
            obtain ⟨hrow, _, hstatus⟩ := deliveryCandidate_ok hdelivery
            intro hid
            exact hstatus (by rw [hw.inj hrow hmem hid, hdelivered])
      | @finished index now result sending hclaim hopen =>
          refine ⟨by simpa using hlength, fun i claim hi hset => ?_⟩
          by_cases heq : index = i
          · subst heq
            rw [List.getElem?_set_self'] at hset
            obtain ⟨old, hold, rfl⟩ := Option.map_eq_some_iff.mp hset
            exact hclaims index sending hi hclaim
          · rw [List.getElem?_set_ne heq] at hset
            exact hclaims i claim hi hset
  exact ⟨hinvariant.2.1, hinvariant.2.2.2⟩

/-- One message waits to be sent. -/
def waitingMessage : World where
  store :=
    { outbox := []
      tickets := []
      users := []
      approvers := []
      templates := []
      deliveries :=
        [{ deliveryId := 1
           tenantId := 1
           versionId := 1
           resourceId := 1
           recipientReference := "analyst@example.test"
           recipientUserId := 5
           outboxEventId := 0
           channelCode := "EMAIL"
           deduplicationKey := "key"
           renderedSubject := "Ticket"
           renderedBody := "Ticket"
           nextAttemptAt := 0
           createdAt := 0 }]
      attempts := []
      inApp := []
      nextId := 2 }
  claims := []

theorem waitingMessage_keyed : waitingMessage.store.Keyed where
  distinct := by decide
  below := by decide

theorem waitingMessage_settled : waitingMessage.store.Settled := by
  intro d hd hfinal
  obtain rfl := List.mem_singleton.mp hd
  cases hfinal

theorem five_attempts : 1 ≤ 5 ∧ 5 ≤ 20 := by decide

def senderSettings : WorkerSettings := ⟨5, five_attempts⟩

/-- The surroundings of a claim. -/
def claimAt (now : Instant) : Action :=
  .claim ⟨now, [], [], none, fun _ _ _ => .permanent⟩

end Helpdesk.Notifications
