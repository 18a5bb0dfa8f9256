/-
  File:      Helpdesk/Tickets/Statements.lean
  Subject:   What the statements of the ticket services keep.

  * `Desk.Valid`: what the tables guarantee: ticket ids are unique UUIDs, a
    ticket's status belongs to its workflow version, and no outbox event carries
    the key of a comment that does not exist yet;
  * `Desk.Continues desk desk'`: `desk'` is valid if `desk` is, and every ticket of
    `desk` is still there under the same workflow version;
  * `addPublicComment_ok`, `addComment_ok`: exactly what a comment writes.
-/
import Helpdesk.Tickets.Comments

namespace Helpdesk.Tickets

open Helpdesk.Python Helpdesk.Core

variable {desk desk' : Desk} {α : Type}

/-! ## 1. Invariant and progress -/

structure Desk.Valid (desk : Desk) : Prop where
  ticketIds : (desk.tickets.map (·.ticketId)).Nodup
  ticketUuids : ∀ t ∈ desk.tickets, t.ticketId < 2 ^ 128
  ticketStatus : ∀ t ∈ desk.tickets, ∃ s ∈ desk.config.statuses,
    s.statusId = t.statusId ∧ s.workflowVersionId = t.workflowVersionId
  commentKeys : ∀ e ∈ desk.outbox, ∀ id type,
    e.deduplicationKey = some (.comment id type) → id < desk.nextId

/-- Every ticket is still there, under the same workflow version. -/
structure Desk.Keeps (desk desk' : Desk) : Prop where
  config : desk'.config = desk.config
  tickets : ∀ t ∈ desk.tickets, ∃ t' ∈ desk'.tickets, t'.ticketId = t.ticketId ∧
    t'.tenantId = t.tenantId ∧ t'.workflowVersionId = t.workflowVersionId

def Desk.Continues (desk desk' : Desk) : Prop := desk.Valid → desk'.Valid ∧ desk.Keeps desk'

theorem Desk.Keeps.refl (desk : Desk) : desk.Keeps desk :=
  ⟨rfl, fun t ht => ⟨t, ht, rfl, rfl, rfl⟩⟩

theorem Desk.Keeps.trans {a b c : Desk} (hab : a.Keeps b) (hbc : b.Keeps c) : a.Keeps c := by
  refine ⟨hbc.config.trans hab.config, fun t ht => ?_⟩
  obtain ⟨t₁, ht₁, hid₁, htenant₁, hversion₁⟩ := hab.tickets t ht
  obtain ⟨t₂, ht₂, hid₂, htenant₂, hversion₂⟩ := hbc.tickets t₁ ht₁
  exact ⟨t₂, ht₂, hid₂.trans hid₁, htenant₂.trans htenant₁, hversion₂.trans hversion₁⟩

theorem Desk.Continues.refl (desk : Desk) : desk.Continues desk :=
  fun hvalid => ⟨hvalid, .refl desk⟩

theorem Desk.Continues.trans (a b c : Desk) (hab : a.Continues b) (hbc : b.Continues c) :
    a.Continues c := by
  intro hvalid
  obtain ⟨hb, hkeepsB⟩ := hab hvalid
  obtain ⟨hc, hkeepsC⟩ := hbc hb
  exact ⟨hc, hkeepsB.trans hkeepsC⟩

/-- A change of tables that neither the invariant nor the tickets speak of. -/
theorem Desk.Continues.of_tables (hconfig : desk'.config = desk.config)
    (htickets : desk'.tickets = desk.tickets) (houtbox : desk'.outbox = desk.outbox)
    (hnext : desk.nextId ≤ desk'.nextId) : desk.Continues desk' := by
  intro hvalid
  constructor
  · refine ⟨?_, ?_, ?_, ?_⟩
    · rw [htickets]
      exact hvalid.ticketIds
    · rw [htickets]
      exact hvalid.ticketUuids
    · rw [htickets, hconfig]
      exact hvalid.ticketStatus
    · rw [houtbox]
      exact fun e he id type hkey => Nat.lt_of_lt_of_le (hvalid.commentKeys e he id type hkey) hnext
  · refine ⟨hconfig, ?_⟩
    rw [htickets]
    exact (Desk.Keeps.refl desk).tickets

/-- New events whose comments exist. -/
theorem Desk.Continues.of_events {new : List OutboxEvent} (hconfig : desk'.config = desk.config)
    (htickets : desk'.tickets = desk.tickets) (houtbox : desk'.outbox = desk.outbox ++ new)
    (hnext : desk.nextId ≤ desk'.nextId)
    (hnew : ∀ e ∈ new, ∀ id type, e.deduplicationKey = some (.comment id type) →
      id < desk'.nextId) : desk.Continues desk' := by
  intro hvalid
  have hrest : desk.Continues { desk' with outbox := desk.outbox } :=
    .of_tables hconfig htickets rfl hnext
  obtain ⟨hids, hkeeps⟩ := hrest hvalid
  refine ⟨⟨hids.ticketIds, hids.ticketUuids, hids.ticketStatus, ?_⟩, ⟨hconfig, hkeeps.tickets⟩⟩
  rw [houtbox]
  intro e he id type hkey
  rcases List.mem_append.mp he with hold | hin
  · exact hids.commentKeys e hold id type hkey
  · exact hnew e hin id type hkey

/-- The events a transaction has added. -/
def written (desk desk' : Desk) : List OutboxEvent := desk'.outbox.drop desk.outbox.length

theorem written_append {new : List OutboxEvent} (h : desk'.outbox = desk.outbox ++ new) :
    written desk desk' = new := by
  rw [written, h, List.drop_left]

/-- What every transaction of the services is shown to do. -/
abbrev Keeping (x : DeskTransaction α) : Prop := Transaction.Respects Desk.Continues x

/-! ## 2. The statements -/

theorem keeping_pure (a : α) : Keeping (pure a) := .pure Desk.Continues.refl a

theorem keeping_bind {β : Type} {x : DeskTransaction α} {f : α → DeskTransaction β}
    (hx : Keeping x) (hf : ∀ a, Keeping (f a)) : Keeping (x >>= f) :=
  .bind Desk.Continues.trans hx hf

theorem keeping_newId : Keeping newId := by
  intro desk id desk' h
  unfold newId at h
  rw [Transaction.get_bind, Transaction.set_bind, Transaction.pure_eq_ok] at h
  obtain ⟨_, rfl⟩ := h
  exact .of_tables rfl rfl rfl (Nat.le_succ _)

/-- `ON CONFLICT DO NOTHING`, whether it conflicts or not. -/
theorem keeping_emitOrIgnore {now : Instant} {tenantId aggregateId : Uuid}
    {aggregateType eventType : String} {payload : List (String × Json)} {key : DeduplicationKey}
    (hkey : ∀ id type, key ≠ .comment id type) :
    Keeping (emitOrIgnore now tenantId aggregateType aggregateId eventType payload key) := by
  refine keeping_bind keeping_newId fun id => .modify fun desk => ?_
  have hout : ∃ new, OutboxEvent.insertOrIgnore desk.outbox (newEvent id now tenantId aggregateType
      aggregateId eventType payload (some key)) = desk.outbox ++ new ∧
      ∀ e ∈ new, e.deduplicationKey = some key := by
    unfold OutboxEvent.insertOrIgnore
    split
    · refine ⟨[], (List.append_nil _).symm, fun e he => ?_⟩
      exact absurd he List.not_mem_nil
    · refine ⟨_, rfl, fun e he => ?_⟩
      rw [List.mem_singleton.mp he]
      rfl
  obtain ⟨new, hnew, hkeys⟩ := hout
  refine .of_events rfl rfl hnew (Nat.le_refl _) fun e he id type hcomment => ?_
  rw [hkeys e he] at hcomment
  exact (hkey id type (Option.some.inj hcomment)).elim

/-- The event an `INSERT` that did not raise has added. -/
theorem emit_ok {now : Instant} {tenantId aggregateId : Uuid} {aggregateType eventType : String}
    {payload : List (String × Json)} {key : Option DeduplicationKey} {u : Unit}
    (h : (emit now tenantId aggregateType aggregateId eventType payload key).run desk =
      .ok (u, desk')) :
    desk' = { desk with
      outbox := desk.outbox ++ [newEvent desk.nextId now tenantId aggregateType aggregateId
        eventType payload key]
      nextId := desk.nextId + 1 } := by
  unfold emit newId at h
  rw [Transaction.bind_eq_ok] at h
  obtain ⟨id, desk₁, hid, h⟩ := h
  rw [Transaction.get_bind, Transaction.set_bind, Transaction.pure_eq_ok] at hid
  obtain ⟨rfl, rfl⟩ := hid
  rw [Transaction.get_bind] at h
  dsimp only at h
  rw [Transaction.guard_eq_ok, Transaction.set_eq_ok] at h
  obtain ⟨_, rfl⟩ := h
  rfl

theorem keeping_emit {now : Instant} {tenantId aggregateId : Uuid}
    {aggregateType eventType : String} {payload : List (String × Json)}
    {key : Option DeduplicationKey} (hkey : ∀ id type, key ≠ some (.comment id type)) :
    Keeping (emit now tenantId aggregateType aggregateId eventType payload key) := by
  intro desk u desk' h
  rw [emit_ok h]
  refine .of_events rfl rfl rfl (Nat.le_succ _) fun e he id type hcomment => ?_
  rw [List.mem_singleton.mp he] at hcomment
  exact (hkey id type hcomment).elim

/-- A claim changes the idempotency records and nothing else. -/
theorem claimIdempotency_ok {tenantId userId : Uuid} {key requestHash operationCode : String}
    {record : IdempotencyRecord}
    (h : (claimIdempotency tenantId userId key requestHash operationCode).run desk =
      .ok (record, desk')) : ∃ records, desk' = { desk with idempotency := records } := by
  unfold claimIdempotency at h
  rw [Transaction.get_bind] at h
  split at h
  · obtain ⟨_, rfl⟩ := Transaction.pure_eq_ok.mp h
    exact ⟨desk.idempotency, rfl⟩
  · rw [Transaction.set_bind, Transaction.pure_eq_ok] at h
    obtain ⟨_, rfl⟩ := h
    exact ⟨_, rfl⟩

theorem completeIdempotency_ok {record : IdempotencyRecord} {resourceId : Uuid} {u : Unit}
    (h : (completeIdempotency record resourceId).run desk = .ok (u, desk')) :
    ∃ records, desk' = { desk with idempotency := records } :=
  ⟨_, (Transaction.modify_eq_ok.mp h).symm⟩

/-! ## 3. Comments -/

/-- An outbox event about a public comment, as it is inserted. -/
def commentEvent (id : Uuid) (now : Instant) (tenantId ticketId commentId actorUserId : Uuid)
    (eventType : String) : OutboxEvent :=
  newEvent id now tenantId "TICKET" ticketId eventType
    (commentPayload ticketId commentId actorUserId) (some (.comment commentId eventType))

/-- A comment that was not there has no event yet, so its first events go in. -/
theorem emitComment_new {events : List OutboxEvent} {id : Uuid} {now : Instant}
    {tenantId ticketId commentId actorUserId : Uuid} {eventType : String}
    (hfresh : ∀ e ∈ events, e.deduplicationKey ≠ some (.comment commentId eventType))
    (htype : eventType ∉ ["ROUTE_TICKET", "START_SLA", "NOTIFY_TICKET_CREATED"]) :
    OutboxEvent.insertOrIgnore events
        (commentEvent id now tenantId ticketId commentId actorUserId eventType) =
      events ++ [commentEvent id now tenantId ticketId commentId actorUserId eventType] := by
  have hno : OutboxEvent.conflicts events
      (commentEvent id now tenantId ticketId commentId actorUserId eventType) = false := by
    refine OutboxEvent.not_conflicts (fun e he => ?_) htype
    have hne : ¬ some (DeduplicationKey.comment commentId eventType) = e.deduplicationKey :=
      fun h => hfresh e he h.symm
    simp [OutboxEvent.sameKey, commentEvent, newEvent, hne]
  rw [OutboxEvent.insertOrIgnore, hno]
  rfl

theorem insertComment_run (desk : Desk) (now : Instant) (ticketId authorUserId : Uuid)
    (visibility : Visibility) (body sourceChannel : String) :
    (insertComment now ticketId authorUserId visibility body sourceChannel).run desk =
      .ok (desk.nextId, { desk with
        comments := desk.comments ++
          [⟨desk.nextId, ticketId, authorUserId, visibility, body, sourceChannel, now⟩]
        nextId := desk.nextId + 1 }) := rfl

theorem emitComment_run (desk : Desk) (now : Instant)
    (tenantId ticketId commentId actorUserId : Uuid) (eventType : String) :
    (emitComment now tenantId ticketId commentId actorUserId eventType).run desk =
      .ok ((), { desk with
        outbox := OutboxEvent.insertOrIgnore desk.outbox
          (commentEvent desk.nextId now tenantId ticketId commentId actorUserId eventType)
        nextId := desk.nextId + 1 }) := rfl

/-- No event carries the key of the next comment. -/
theorem Desk.Valid.fresh (hvalid : desk.Valid) (eventType : String) : ∀ e ∈ desk.outbox,
    e.deduplicationKey ≠ some (.comment desk.nextId eventType) :=
  fun e he hkey => Nat.lt_irrefl _ (hvalid.commentKeys e he _ _ hkey)

/-- **A comment of the ticket API** is written with two events. -/
theorem addPublicComment_ok (hvalid : desk.Valid) {now : Instant}
    {tenantId ticketId actorUserId commentId : Uuid} {body slaType : String}
    (h : (addPublicComment now tenantId ticketId actorUserId body slaType).run desk =
      .ok (commentId, desk')) :
    slaType ∈ ["AGENT_PUBLIC_RESPONSE_ADDED", "CUSTOMER_COMMENT_ADDED"] ∧
    desk' = { desk with
      comments := desk.comments ++
        [⟨desk.nextId, ticketId, actorUserId, .publicComment, body, "PORTAL", now⟩]
      outbox := desk.outbox ++
        [commentEvent (desk.nextId + 1) now tenantId ticketId desk.nextId actorUserId slaType,
         commentEvent (desk.nextId + 2) now tenantId ticketId desk.nextId actorUserId
           ("NOTIFY_" ++ slaType)]
      nextId := desk.nextId + 3 } := by
  unfold addPublicComment at h
  rw [Transaction.guard_eq_ok] at h
  obtain ⟨htype, h⟩ := h
  have hmem : slaType ∈ ["AGENT_PUBLIC_RESPONSE_ADDED", "CUSTOMER_COMMENT_ADDED"] :=
    List.contains_iff_mem.mp (not_not.mp htype)
  refine ⟨hmem, ?_⟩
  obtain ⟨hplain, hnotify, hdiffer⟩ :
      slaType ∉ ["ROUTE_TICKET", "START_SLA", "NOTIFY_TICKET_CREATED"] ∧
      "NOTIFY_" ++ slaType ∉ ["ROUTE_TICKET", "START_SLA", "NOTIFY_TICKET_CREATED"] ∧
      slaType ≠ "NOTIFY_" ++ slaType := by
    rcases List.mem_cons.mp hmem with rfl | hmem
    · decide
    · rw [List.mem_singleton.mp hmem]
      decide
  rw [Transaction.bind_eq_ok] at h
  obtain ⟨id, desk₁, hinsert, h⟩ := h
  obtain ⟨rfl, rfl⟩ := Prod.mk.inj (Except.ok.inj hinsert)
  rw [Transaction.bind_eq_ok] at h
  obtain ⟨_, desk₂, hemit, h⟩ := h
  rw [emitComment_run, emitComment_new (hvalid.fresh slaType) hplain] at hemit
  obtain ⟨_, rfl⟩ := Prod.mk.inj (Except.ok.inj hemit)
  rw [Transaction.bind_eq_ok] at h
  obtain ⟨_, desk₃, hnotified, h⟩ := h
  rw [emitComment_run, emitComment_new ?_ hnotify] at hnotified
  · obtain ⟨_, rfl⟩ := Prod.mk.inj (Except.ok.inj hnotified)
    obtain ⟨_, rfl⟩ := Transaction.pure_eq_ok.mp h
    rw [List.append_assoc]
    rfl
  · -- the first of the two events has another type
    intro e he hkey
    rcases List.mem_append.mp he with hold | hin
    · exact hvalid.fresh _ e hold hkey
    · rw [List.mem_singleton.mp hin] at hkey
      exact hdiffer (DeduplicationKey.comment.inj (Option.some.inj hkey)).2

/-- **A comment of the agent queue** is written with a notification, when it is
    public. -/
theorem addComment_ok (hvalid : desk.Valid) {now : Instant}
    {tenantId ticketId actorUserId commentId : Uuid} {visibility : Visibility} {body : String}
    (h : (addComment now tenantId ticketId actorUserId visibility body).run desk =
      .ok (commentId, desk')) :
    commentId = desk.nextId ∧
    desk'.config = desk.config ∧ desk'.tickets = desk.tickets ∧
    desk'.comments = desk.comments ++
      [⟨desk.nextId, ticketId, actorUserId, visibility, body, "API", now⟩] ∧
    desk'.outbox = desk.outbox ++ (if visibility = .publicComment then
      [commentEvent (desk.nextId + 1) now tenantId ticketId desk.nextId actorUserId
        "NOTIFY_AGENT_PUBLIC_RESPONSE_ADDED"] else []) ∧
    desk.nextId < desk'.nextId := by
  unfold addComment at h
  rw [Transaction.bind_eq_ok] at h
  obtain ⟨id, desk₁, hinsert, h⟩ := h
  obtain ⟨rfl, rfl⟩ := Prod.mk.inj (Except.ok.inj hinsert)
  split at h
  · rename_i hpublic
    rw [Transaction.bind_eq_ok] at h
    obtain ⟨_, desk₂, hemit, h⟩ := h
    rw [emitComment_run, emitComment_new (hvalid.fresh _) (by decide)] at hemit
    obtain ⟨_, rfl⟩ := Prod.mk.inj (Except.ok.inj hemit)
    obtain ⟨rfl, rfl⟩ := Transaction.pure_eq_ok.mp h
    rw [if_pos hpublic]
    exact ⟨rfl, rfl, rfl, rfl, rfl, Nat.lt_succ_of_lt (Nat.lt_succ_self _)⟩
  · rename_i hinternal
    obtain ⟨rfl, rfl⟩ := Transaction.pure_eq_ok.mp h
    rw [if_neg hinternal, List.append_nil]
    exact ⟨rfl, rfl, rfl, rfl, rfl, Nat.lt_succ_self _⟩

theorem commentEvent_key {id : Uuid} {now : Instant} {tenantId ticketId commentId actor id' : Uuid}
    {eventType type : String}
    (h : (commentEvent id now tenantId ticketId commentId actor eventType).deduplicationKey =
      some (.comment id' type)) : id' = commentId :=
  (DeduplicationKey.comment.inj (Option.some.inj h)).1.symm

theorem keeping_addPublicComment {now : Instant} {tenantId ticketId actorUserId : Uuid}
    {body slaType : String} :
    Keeping (addPublicComment now tenantId ticketId actorUserId body slaType) := by
  intro desk commentId desk' h hvalid
  obtain ⟨_, rfl⟩ := addPublicComment_ok hvalid h
  refine Desk.Continues.of_events rfl rfl rfl (Nat.le_add_right _ _) ?_ hvalid
  intro e he id type hkey
  simp only [List.mem_cons, List.not_mem_nil, or_false] at he
  rcases he with rfl | rfl
  · rw [commentEvent_key hkey]
    exact Nat.lt_add_of_pos_right (by decide)
  · rw [commentEvent_key hkey]
    exact Nat.lt_add_of_pos_right (by decide)

theorem keeping_addComment {now : Instant} {tenantId ticketId actorUserId : Uuid}
    {visibility : Visibility} {body : String} :
    Keeping (addComment now tenantId ticketId actorUserId visibility body) := by
  intro desk commentId desk' h hvalid
  obtain ⟨_, hconfig, htickets, _, houtbox, hnext⟩ := addComment_ok hvalid h
  refine Desk.Continues.of_events hconfig htickets houtbox (Nat.le_of_lt hnext) ?_ hvalid
  intro e he id type hkey
  split at he
  · rw [List.mem_singleton.mp he] at hkey
    rw [commentEvent_key hkey]
    exact hnext
  · exact absurd he List.not_mem_nil

/-! ## 4. Services -/

/-- **A preorder the statements of the services respect**: it does not look at the
    other tables, and it holds across an event that neither is about a comment nor
    reports a transition, and across a comment with its events. -/
structure StatementsRespect (R : Desk → Desk → Prop) : Prop where
  refl : ∀ desk, R desk desk
  trans : ∀ a b c, R a b → R b c → R a c
  tables : ∀ {desk desk' : Desk}, desk'.config = desk.config → desk'.tickets = desk.tickets →
    desk'.outbox = desk.outbox → desk.nextId ≤ desk'.nextId → R desk desk'
  emitOrIgnore : ∀ {now : Instant} {tenantId aggregateId : Uuid} {aggregateType eventType : String}
    {payload : List (String × Json)} {key : DeduplicationKey},
    (∀ id type, key ≠ .comment id type) → eventType ≠ "TICKET_WORKFLOW_TRANSITIONED" →
    Transaction.Respects R
      (Tickets.emitOrIgnore now tenantId aggregateType aggregateId eventType payload key)
  addPublicComment : ∀ {now : Instant} {tenantId ticketId actorUserId : Uuid}
    {body slaType : String}, Transaction.Respects R
      (Tickets.addPublicComment now tenantId ticketId actorUserId body slaType)
  addComment : ∀ {now : Instant} {tenantId ticketId actorUserId : Uuid} {visibility : Visibility}
    {body : String}, Transaction.Respects R
      (Tickets.addComment now tenantId ticketId actorUserId visibility body)

namespace StatementsRespect

variable {R : Desk → Desk → Prop} (hR : StatementsRespect R)
variable {sha256 : String → String} {now : Instant} {context : RequestContext} {ticketKey : String}
include hR

theorem pure (a : α) : Transaction.Respects R (Pure.pure a : DeskTransaction α) :=
  .pure hR.refl a

theorem bind {β : Type} {x : DeskTransaction α} {f : α → DeskTransaction β}
    (hx : Transaction.Respects R x) (hf : ∀ a, Transaction.Respects R (f a)) :
    Transaction.Respects R (x >>= f) :=
  .bind hR.trans hx hf

theorem newId : Transaction.Respects R Tickets.newId := by
  intro desk id desk' h
  unfold Tickets.newId at h
  rw [Transaction.get_bind, Transaction.set_bind, Transaction.pure_eq_ok] at h
  obtain ⟨_, rfl⟩ := h
  exact hR.tables rfl rfl rfl (Nat.le_succ _)

theorem claimIdempotency {tenantId userId : Uuid} {key requestHash operationCode : String} :
    Transaction.Respects R
      (Tickets.claimIdempotency tenantId userId key requestHash operationCode) := by
  intro desk record desk' h
  obtain ⟨records, rfl⟩ := claimIdempotency_ok h
  exact hR.tables rfl rfl rfl (Nat.le_refl _)

theorem completeIdempotency {record : IdempotencyRecord} {resourceId : Uuid} :
    Transaction.Respects R (Tickets.completeIdempotency record resourceId) :=
  .modify fun _ => hR.tables rfl rfl rfl (Nat.le_refl _)

theorem ticketComment {command : PublicCommentCreateRequest} {key : String} :
    Transaction.Respects R (Tickets.ticketComment sha256 now context ticketKey command key) := by
  unfold Tickets.ticketComment
  refine .lift_bind fun ids _ => .lift_bind fun _ _ => .guard (.get_bind fun desk => ?_)
  refine .lift_bind fun ticket _ => hR.bind hR.claimIdempotency fun idem => ?_
  refine .lift_bind fun _ _ => ?_
  split
  · exact hR.pure none
  · refine hR.bind hR.addPublicComment fun commentId => ?_
    exact hR.bind hR.completeIdempotency fun _ => hR.pure _

theorem queueComment {command : AnalystCommentCreateRequest} {key : String} :
    Transaction.Respects R (Tickets.queueComment sha256 now context ticketKey command key) := by
  unfold Tickets.queueComment
  refine .lift_bind fun ids _ => .lift_bind fun _ _ => .lift_bind fun _ _ => ?_
  refine .guard (.get_bind fun desk => ?_)
  split
  · refine hR.bind hR.claimIdempotency fun idem => .lift_bind fun _ _ => ?_
    split
    · refine .get_bind fun desk => ?_
      split
      · exact .throw _
      · exact hR.pure _
    · refine hR.bind hR.addComment fun commentId => ?_
      refine hR.bind hR.completeIdempotency fun _ => .get_bind fun desk => ?_
      split
      · exact .throw _
      · exact hR.pure _
  · exact .throw _

theorem draftComment {draft : StoredDraft} {editedBody : String} :
    Transaction.Respects R
      (Tickets.draftComment sha256 now context ticketKey draft editedBody) := by
  unfold Tickets.draftComment
  split
  · refine .lift_bind fun _ _ => ?_
    dsimp only
    split
    · exact hR.queueComment
    · exact .throw _
  · exact .throw _

end StatementsRespect

theorem keeping_statements : StatementsRespect Desk.Continues where
  refl := .refl
  trans := .trans
  tables := .of_tables
  emitOrIgnore := fun hkey _ => keeping_emitOrIgnore hkey
  addPublicComment := keeping_addPublicComment
  addComment := keeping_addComment

end Helpdesk.Tickets
