/-
  File:      Helpdesk/Queues/Listing.lean
  Subject:   The tickets of an agent queue, page by page (apps/api/app/queues/service.py:
             `tickets`, `_scope_hash`, `_encode_cursor`, `_decode_cursor`, and `tickets`
             of apps/api/app/queues/repository.py).

  A cursor holds the hash of the query it belongs to. The queue's published version and
  the tickets are those of the walk; SHA-256 and the text search of the database are
  parameters.

  * `decodeCursor_encodeCursor`: a cursor reads back under its own query;
  * `whereClause_eq`: the statement selects what the queue's filter says;
  * **`walk_queueTickets`**: the pages are the tickets of the queue, each once, the
    newest first.
-/
import Helpdesk.Python.JsonBytes
import Helpdesk.Queues.Faithfulness
import Helpdesk.Tickets.Listing

namespace Helpdesk.Queues

open Helpdesk.Python Helpdesk.Conditions Helpdesk.Keyset Helpdesk.Tickets

/-! ## 1. Cursors -/

def invalidCursor : AppError :=
  .validation "Pagination cursor is invalid for this queue query."
    [("cursor", ["Invalid or mismatched cursor."])]

/-- `_encode_cursor` -/
def encodeCursor (scope : String) (ticket : ListedTicket) : String :=
  let payload := Json.dumps (.dict (Json.stringItems [("created_at", ticket.createdAt.isoformat),
    ("id", uuidText ticket.ticketId), ("scope", scope)]))
  String.ofList (stripPadding (urlsafeB64encode (encodeUtf8 payload)))

/-- `json.loads(base64.urlsafe_b64decode(...))` -/
def cursorPayload? (value : String) : Option Json := do
  let data ← urlsafeB64decode (withPadding value.toList)
  Json.loadsBytes data

/-- `UUID(payload["id"])` -/
def cursorId (items : List (String × Json)) : Except AppError Uuid :=
  match Json.lookup "id" items with
  | some (.str identifier) =>
      match uuid? identifier with
      | some ticketId => .ok ticketId
      | none => .error invalidCursor
  | some .null => .error invalidCursor
  | none => .error invalidCursor
  -- `UUID` calls `replace` on what is no text
  | some _ => .error .attribute

/-- `_decode_cursor` -/
def decodeCursor (cursor : Option String) (scope : String) : Except AppError (Option PageKey) :=
  match cursor with
  | none => .ok none
  | some value =>
      match cursorPayload? value with
      | some (.dict items) =>
          match Json.lookup "scope" items, Json.lookup "created_at" items with
          | some (.str itsScope), some (.str timestamp) =>
              if itsScope ≠ scope then .error invalidCursor
              else match datetime? timestamp with
              | some createdAt =>
                  (cursorId items).map fun ticketId => some (toLex (createdAt.instant, ticketId))
              | none => .error invalidCursor
          | _, _ => .error invalidCursor
      | _ => .error invalidCursor

/-- **A cursor reads back** under the query it was made for. -/
theorem decodeCursor_encodeCursor (scope : String) (ticket : ListedTicket) :
    decodeCursor (some (encodeCursor scope ticket)) scope = .ok (some ticket.pageKey) := by
  have hpayload : cursorPayload? (encodeCursor scope ticket) =
      some (.dict (Json.stringItems [("created_at", ticket.createdAt.isoformat),
        ("id", uuidText ticket.ticketId), ("scope", scope)])) := by
    unfold cursorPayload? encodeCursor
    rw [String.toList_ofList, urlsafeB64decode_stripped, Option.bind_eq_bind, Option.bind_some]
    exact Json.loadsBytes_dumps (by simp)
  have hid : cursorId (Json.stringItems [("created_at", ticket.createdAt.isoformat),
      ("id", uuidText ticket.ticketId), ("scope", scope)]) = .ok ticket.ticketId := by
    simp [cursorId, Json.stringItems, Json.lookup, uuid?_uuidText ticket.ticketId_range]
  rw [decodeCursor]
  simp only [hpayload, hid]
  simp [Json.stringItems, Json.lookup, datetime?_isoformat, Except.map]
  rfl

/-! ## 2. Queues and queries -/

/-- A published version of a queue that is in effect. -/
structure QueueDefinition where
  queueId : Uuid
  tenantId : Uuid
  projectId : Uuid
  filterJson : Json
  sortJson : Json
  visibilityType : String
  ownerGroupId : Option Uuid

structure QueueStore where
  table : TicketTable
  definitions : List QueueDefinition

structure QueueQuery where
  queueId : Uuid
  status : Option String
  priority : Option String
  search : Option String
  assignmentGroupId : Option Uuid
  assignee : Option String

def QueueDefinition.visible (context : RequestContext) (queue : QueueDefinition) : Bool :=
  queue.visibilityType = "ALL_AGENTS" || queue.visibilityType = "PROJECT_AGENTS" ||
    queue.visibilityType = "GROUP" && queue.ownerGroupId.any context.supportGroupIds.contains

/-- `QueueConfigurationError` -/
def configurationError (message : String) : AppError :=
  .conflict "queue_configuration_conflict" message

/-- `_effective`, and the queue that is asked for. -/
def findQueue (store : QueueStore) (context : RequestContext) (tenantId queueId : Uuid) :
    Except AppError QueueDefinition :=
  match store.definitions.filter fun d => d.tenantId = tenantId && d.queueId = queueId with
  | [queue] =>
      if queue.visible context then .ok queue else .error (.notFound "Queue was not found.")
  | [] => .error (.notFound "Queue was not found.")
  | _ => .error (configurationError
      "More than one effective published version exists for a queue.")

/-- `_validate_sort` -/
def validateSort (sort : Json) : Except AppError Unit :=
  if Json.pyEq sort (.list [.dict [("field", .str "created_at"), ("direction", .str "DESC")]]) then
    .ok ()
  else .error (configurationError
    "Published queues must use the supported stable created-at descending sort.")

/-- `normalized_search` -/
def normalizeSearch (search : Option String) : Except AppError (Option String) :=
  match search with
  | none => .ok none
  | some text =>
      if (collapseText text).length < 2 then
        .error (.validation "Search text is too short."
          [("search", ["Enter at least two non-whitespace characters."])])
      else .ok (some (collapseText text))

def checkGroupFilter (context : RequestContext) (query : QueueQuery) : Except AppError Unit :=
  if query.assignmentGroupId.all fun group =>
      context.isAllowed .ticketReadAll || context.supportGroupIds.contains group then .ok ()
  else .error (.authorization "The requested support-group filter is not permitted.")

/-- The predicate of the assignee filter, for the caller. -/
def assigneePredicate (assignee : Option String) (userId : Uuid) :
    Except AppError (ListedTicket → Bool) :=
  match assignee with
  | none => .ok fun _ => true
  | some "me" => .ok fun ticket => ticket.assigneeUserId = some userId
  | some "unassigned" => .ok fun ticket => ticket.assigneeUserId = none
  | some _ => .error (.validation "Assignee filter is invalid."
      [("assignee", ["Use 'me' or 'unassigned'."])])

def textOrNull : Option String → Json
  | some text => .str text
  | none => .null

section Listing

variable (sha256 : String → String) (matchesSearch : String → ListedTicket → Bool)

/-- `_scope_hash` -/
def scopeHash (query : QueueQuery) (search : Option String) : String :=
  sha256 (Json.dumpsSorted (.dict [("queue_id", .str (uuidText query.queueId)),
    ("status", textOrNull query.status), ("priority", textOrNull query.priority),
    ("search", textOrNull search),
    ("assignment_group_id", textOrNull (query.assignmentGroupId.map uuidText)),
    ("assignee", textOrNull query.assignee)]))

def bindText : Option String → Bind
  | some text => .text text
  | none => .none

def bindUuid : Option Uuid → Bind
  | some id => .uuid id
  | none => .none

/-- The dict `parameters` before the filter is compiled. -/
def listingParameters (userId : Uuid) (query : QueueQuery) (search : Option String)
    (before : Option PageKey) : Parameters :=
  [("current_user_id", .uuid userId),
    ("before_at", match before with
      | some key => .timestamp (ofLex key).1
      | none => .none),
    ("before_id", bindUuid (before.map fun key => (ofLex key).2)),
    ("status", bindText query.status), ("priority", bindText query.priority),
    ("search", bindText search), ("filter_group_id", bindUuid query.assignmentGroupId)]

/-- The parameters of the statement. -/
def statementParameters (queue : QueueDefinition) (context : RequestContext)
    (parameters : Parameters) (limit : Nat) : Parameters :=
  dictOf (parameters ++ [("tenant_id", .uuid queue.tenantId), ("project_id", .uuid queue.projectId),
    ("support_group_ids", .uuids context.supportGroupIds),
    ("include_all", .bool (context.isAllowed .ticketReadAll)), ("limit", .int limit)])

/-- What the filters of queues read of a ticket. -/
def queueRow (ticket : ListedTicket) : QueueRow where
  assignmentGroupId := ticket.assignmentGroupId
  assigneeUserId := ticket.assigneeUserId
  priorityCode := ticket.priorityCode
  statusCode := ticket.statusCode
  projectId := ticket.projectId

/-- The tickets that an agent may see of a queue's project, under the query's filters. -/
def selectable (queue : QueueDefinition) (context : RequestContext) (query : QueueQuery)
    (search : Option String) (ticket : ListedTicket) : Bool :=
  ticket.tenantId = queue.tenantId && ticket.projectId = queue.projectId &&
    (context.isAllowed .ticketReadAll ||
      ticket.assignmentGroupId.all context.supportGroupIds.contains) &&
    query.status.all (ticket.statusCode = ·) && query.priority.all (ticket.priorityCode = ·) &&
    query.assignmentGroupId.all (ticket.assignmentGroupId = some ·) &&
    search.all (matchesSearch · ticket)

/-- The conjuncts of the statement that do not depend on the cursor. -/
def whereClause (queue : QueueDefinition) (context : RequestContext) (query : QueueQuery)
    (search : Option String) (assigned : ListedTicket → Bool) (sql : Sql) (binds : Binds)
    (ticket : ListedTicket) : Bool :=
  evaluate (atomTruth (queueRow ticket) binds) sql = some (some true) &&
    selectable matchesSearch queue context query search ticket && assigned ticket

def filterError : FilterError → AppError
  | .configuration message => configurationError message
  | .typeError => .type

/-- `tickets` of the queue service; the pages hold the rows that the responses are
    built from. -/
def queueTickets (store : QueueStore) (context : RequestContext) (query : QueueQuery)
    (limit : Nat) (cursor : Option String) :
    Except AppError (List ListedTicket × Option String) := do
  let (tenantId, userId) ← identity context (.authorization notPermitted)
  authorize context .ticketAnalystRead notPermitted
  let search ← normalizeSearch query.search
  checkGroupFilter context query
  let scope := scopeHash sha256 query search
  let before ← decodeCursor cursor scope
  let queue ← findQueue store context tenantId query.queueId
  validateSort queue.sortJson
  let (sql, parameters) ← (compileFilter queue.filterJson
    (listingParameters userId query search before) 0).mapError filterError
  let assigned ← assigneePredicate query.assignee userId
  let binds := item? (statementParameters queue context parameters (limit + 1))
  let rows := select ListedTicket.pageKey
    (store.table.rows.filter (whereClause matchesSearch queue context query search assigned sql binds))
    before (limit + 1)
  return paginate (encodeCursor scope) limit rows

/-! ## 3. The statement selects what the filter says -/

variable {queue : QueueDefinition} {context : RequestContext} {query : QueueQuery}
  {search : Option String} {before : Option PageKey} {userId : Uuid}

theorem listingParameters_ungenerated (userId : Uuid) (query : QueueQuery) (search : Option String)
    (before : Option PageKey) : Ungenerated (listingParameters userId query search before) := by
  have hnames : ((listingParameters userId query search before).map Prod.fst).all
      fun name => !isGenerated name := by
    show ["current_user_id", "before_at", "before_id", "status", "priority", "search",
      "filter_group_id"].all (fun name => !isGenerated name) = true
    decide +kernel
  intro p hp
  have hname := List.all_eq_true.mp hnames p.1 (List.mem_map_of_mem hp)
  simpa using hname

/-- A name that is not generated is none of the numbered ones. -/
theorem item?_numbered_of_not {name : String} (hname : isGenerated name = false)
    (generated : List Bind) : item? (dictOf (numbered generated)) name = none := by
  rw [item?_eq_none, mem_keys_dictOf]
  intro hmem
  obtain ⟨p, hp, rfl⟩ := List.mem_map.mp hmem
  obtain ⟨i, hi, -⟩ := mem_numbered hp
  rw [hi, isGenerated_parameterName] at hname
  cases hname

/-- What the statement is executed with. -/
theorem statement_supplies (generated : List Bind) (limit : Nat) :
    Supplies (item? (statementParameters queue context
        (listingParameters userId query search before ++ numbered generated) limit))
      ⟨userId, context.supportGroupIds⟩ generated where
  user := by
    have hgenerated : isGenerated "current_user_id" = false := by decide +kernel
    rw [statementParameters, item?_dictOf_append, item?_dictOf_append,
      item?_numbered_of_not hgenerated]
    rfl
  groups := by
    rw [statementParameters, item?_dictOf_append]
    rfl
  generated i b hi := by
    have hlast : ∀ limit, item? (dictOf [("tenant_id", Bind.uuid queue.tenantId),
        ("project_id", .uuid queue.projectId), ("support_group_ids", .uuids context.supportGroupIds),
        ("include_all", .bool (context.isAllowed .ticketReadAll)), ("limit", .int limit)])
        (parameterName i) = none := by
      intro limit
      rw [item?_eq_none, mem_keys_dictOf]
      intro hmem
      have hnames : ["tenant_id", "project_id", "support_group_ids", "include_all", "limit"].all
          (fun name => !isGenerated name) = true := by decide +kernel
      have hname := List.all_eq_true.mp hnames _ hmem
      rw [isGenerated_parameterName] at hname
      cases hname
    have hnodup : ((numbered generated).map Prod.fst).Nodup := by
      have hbase : Ungenerated [] := fun _ h => nomatch h
      simpa using numbered_nodup hbase List.nodup_nil generated
    have hnumbered : item? (dictOf (numbered generated)) (parameterName i) = some b := by
      rw [dictOf_self hnodup]
      exact (mem_iff_item? hnodup).mp (mem_numbered_of_getElem? hi)
    rw [statementParameters, item?_dictOf_append, hlast, Option.none_or, item?_dictOf_append,
      hnumbered]
    rfl

/-- What the queue and the query say of a ticket. -/
def onQueue (queue : QueueDefinition) (context : RequestContext) (userId : Uuid)
    (query : QueueQuery) (search : Option String) (assigned : ListedTicket → Bool)
    (ticket : ListedTicket) : Bool :=
  holds (queueRow ticket) ⟨userId, context.supportGroupIds⟩ queue.filterJson &&
    selectable matchesSearch queue context query search ticket && assigned ticket

/-- **The statement selects what the queue's filter says.** -/
theorem whereClause_eq {assigned : ListedTicket → Bool} {sql : Sql} {parameters : Parameters}
    (hcompile : compileFilter queue.filterJson (listingParameters userId query search before) 0 =
      .ok (sql, parameters)) (limit : Nat) :
    whereClause matchesSearch queue context query search assigned sql
        (item? (statementParameters queue context parameters limit)) =
      onQueue matchesSearch queue context userId query search assigned := by
  have hbase := listingParameters_ungenerated userId query search before
  rw [← List.append_nil (listingParameters userId query search before)] at hcompile
  obtain ⟨more, rfl, hsound⟩ := compile_sound hbase queue.filterJson [] 0 hcompile
  funext ticket
  obtain ⟨t, hdenotes, ht⟩ := hsound.truth (queueRow ticket) ⟨userId, context.supportGroupIds⟩ _
    (statement_supplies _ limit)
  have hfilter : (decide (evaluate (atomTruth (queueRow ticket) (item? (statementParameters queue
      context (listingParameters userId query search before ++ numbered ([] ++ more)) limit))) sql =
        some (some true))) =
      holds (queueRow ticket) ⟨userId, context.supportGroupIds⟩ queue.filterJson := by
    rw [Bool.eq_iff_iff, decide_eq_true_eq, hdenotes.evaluate, Option.some_inj]
    exact ht
  rw [whereClause, onQueue, hfilter]

/-! ## 4. The walk -/

/-- What a query selects, with its scope, when nothing refuses it. -/
structure Selection where
  scope : String
  selects : ListedTicket → Bool

/-- What `tickets` asks before it reads; the cursor apart. -/
def queueSelection (store : QueueStore) (context : RequestContext) (query : QueueQuery) :
    Except AppError Selection := do
  let (tenantId, userId) ← identity context (.authorization notPermitted)
  authorize context .ticketAnalystRead notPermitted
  let search ← normalizeSearch query.search
  checkGroupFilter context query
  let queue ← findQueue store context tenantId query.queueId
  validateSort queue.sortJson
  let _ ← (compileFilter queue.filterJson (listingParameters userId query search none) 0).mapError
    filterError
  let assigned ← assigneePredicate query.assignee userId
  return ⟨scopeHash sha256 query search,
    onQueue matchesSearch queue context userId query search assigned⟩

/-- A page of a query that nothing refuses. -/
theorem queueTickets_of_selection {store : QueueStore} {selection : Selection} {limit : Nat}
    {cursor : Option String}
    (h : queueSelection sha256 matchesSearch store context query = .ok selection)
    (hcursor : decodeCursor cursor selection.scope = .ok before) :
    queueTickets sha256 matchesSearch store context query limit cursor =
      .ok (paginate (encodeCursor selection.scope) limit
        (select ListedTicket.pageKey (store.table.rows.filter selection.selects) before
          (limit + 1))) := by
  unfold queueSelection at h
  obtain ⟨⟨tenantId, userId⟩, hidentity, h⟩ := Helpdesk.bind_eq_ok.mp h
  obtain ⟨u, hauthorize, h⟩ := Helpdesk.bind_eq_ok.mp h
  obtain ⟨search, hsearch, h⟩ := Helpdesk.bind_eq_ok.mp h
  obtain ⟨u, hgroup, h⟩ := Helpdesk.bind_eq_ok.mp h
  obtain ⟨queue, hqueue, h⟩ := Helpdesk.bind_eq_ok.mp h
  obtain ⟨u, hsort, h⟩ := Helpdesk.bind_eq_ok.mp h
  obtain ⟨compiled, hcompiled, h⟩ := Helpdesk.bind_eq_ok.mp h
  obtain ⟨assigned, hassigned, h⟩ := Helpdesk.bind_eq_ok.mp h
  obtain rfl := Except.ok.inj h
  have hsupported : supported queue.filterJson 0 = true := by
    refine (decided_filter queue.filterJson (listingParameters userId query search none) 0).ok.mp ?_
    cases hnone : compileFilter queue.filterJson (listingParameters userId query search none) 0 with
    | ok result => exact ⟨result, rfl⟩
    | error e =>
        rw [hnone] at hcompiled
        cases hcompiled
  obtain ⟨⟨sql, parameters⟩, hcompile⟩ :=
    (decided_filter queue.filterJson (listingParameters userId query search before) 0).ok.mpr hsupported
  unfold queueTickets
  simp only [bind, Except.bind, hidentity, hauthorize, hsearch, hgroup, hqueue, hsort, hassigned,
    hcursor, hcompile, Except.mapError, whereClause_eq matchesSearch hcompile]
  rfl

/-- A query that is refused, is refused at the first page. -/
theorem queueTickets_refused {store : QueueStore} {limit : Nat} {e : AppError}
    (h : queueSelection sha256 matchesSearch store context query = .error e) :
    queueTickets sha256 matchesSearch store context query limit none = .error e := by
  unfold queueSelection at h
  unfold queueTickets
  refine bind_error_mono h fun _ _ h => ?_
  refine bind_error_mono h fun _ _ h => ?_
  refine bind_error_mono h fun _ _ h => ?_
  refine bind_error_mono h fun _ _ h => ?_
  -- the first page has no cursor to refuse
  refine Helpdesk.bind_eq_error.mpr (.inr ⟨none, rfl, ?_⟩)
  refine bind_error_mono h fun _ _ h => ?_
  refine bind_error_mono h fun _ _ h => ?_
  refine bind_error_mono h fun _ _ h => ?_
  exact bind_error_mono h fun _ _ h => nomatch h

/-- **The walk over a queue**: refused as its first page is, or all of the queue's
    tickets that meet the query, in the declared order. -/
theorem walk_queueTickets (store : QueueStore) (context : RequestContext) (query : QueueQuery)
    {limit fuel : Nat} (hlimit : 1 ≤ limit) (hfuel : store.table.rows.length < fuel) :
    Keyset.walk (queueTickets sha256 matchesSearch store context query limit) fuel none =
      some ((queueSelection sha256 matchesSearch store context query).map fun selection =>
        descending ListedTicket.pageKey (store.table.rows.filter selection.selects)) := by
  cases hselection : queueSelection sha256 matchesSearch store context query with
  | error e =>
      exact walk_refused (queueTickets_refused sha256 matchesSearch hselection)
        (Nat.zero_lt_of_lt hfuel)
  | ok selection =>
      exact walk_pages (store.table.pageKey_nodup _) hlimit
        (queueTickets_of_selection sha256 matchesSearch hselection rfl)
        (fun ticket _ => queueTickets_of_selection sha256 matchesSearch hselection
          (decodeCursor_encodeCursor selection.scope ticket))
        (Nat.lt_of_le_of_lt (List.length_filter_le _ _) hfuel)

/-- Every one of the tickets exactly once, the newest first and the greater id first
    where two were created together. -/
structure ListsOnce (tickets items : List ListedTicket) : Prop where
  perm : items.Perm tickets
  ordered : items.Pairwise fun a b => b.pageKey < a.pageKey

theorem listsOnce_descending (table : TicketTable) (p : ListedTicket → Bool) :
    ListsOnce (table.rows.filter p) (descending ListedTicket.pageKey (table.rows.filter p)) where
  perm := List.mergeSort_perm _ _
  ordered := descending_strict (table.pageKey_nodup p)

/-- **Pagination loses and repeats nothing**: the walks end, and hold what the caller's
    list and the queue select. -/
theorem pages_hold_every_ticket_once (store : QueueStore) (context : RequestContext)
    (query : QueueQuery) {limit fuel : Nat} (hlimit : 1 ≤ limit)
    (hfuel : store.table.rows.length < fuel) :
    (∀ caller, listingCaller context = .ok caller → ∃ items,
      Keyset.walk (myTickets store.table context limit) fuel none = some (.ok items) ∧
        ListsOnce (store.table.rows.filter (mine caller.1 caller.2)) items) ∧
      ∀ selection, queueSelection sha256 matchesSearch store context query = .ok selection →
        ∃ items,
          Keyset.walk (queueTickets sha256 matchesSearch store context query limit) fuel none =
            some (.ok items) ∧
            ListsOnce (store.table.rows.filter selection.selects) items := by
  refine ⟨fun caller hcaller => ⟨_, ?_, listsOnce_descending _ _⟩,
    fun selection hselection => ⟨_, ?_, listsOnce_descending _ _⟩⟩
  · rw [walk_myTickets store.table context hlimit hfuel, hcaller]
    rfl
  · rw [walk_queueTickets sha256 matchesSearch store context query hlimit hfuel, hselection]
    rfl

end Listing

theorem noMicroseconds : 0 ≤ 999999 := by decide

/-- A ticket of the caller's that was created at the first instant of 2024. -/
def newYearTicket (ticketId : Uuid) (h : ticketId < 2 ^ 128) : ListedTicket where
  ticketId := ticketId
  tenantId := 1
  projectId := 2
  ticketKey := "HD-1"
  summary := "Printer"
  priorityCode := "P1"
  statusCode := "OPEN"
  reporterUserId := 3
  requestedForUserId := none
  assignmentGroupId := none
  assigneeUserId := none
  createdAt := ⟨⟨2024, 1, 1, by decide, by decide, by decide⟩,
    ⟨0, 0, 0, 0, by decide, by decide, by decide, noMicroseconds⟩, .zero⟩
  ticketId_range := h

/-- Two tickets that were created together, and a queue of the open ones. -/
def newYearStore : QueueStore where
  table := ⟨[newYearTicket 8 (by decide), newYearTicket 9 (by decide)], by decide⟩
  definitions := [⟨5, 1, 2, .dict [("field", .str "status_code"), ("operator", .str "equals"),
    ("value", .str "OPEN")], .list [.dict [("field", .str "created_at"), ("direction", .str "DESC")]],
    "ALL_AGENTS", none⟩]

def newYearContext : RequestContext := ⟨some 1, some 3, [], "", "", fun _ => true⟩

/-- Walks with one ticket on a page. -/
theorem pages_hold_every_ticket_once_tie :
    (∃ items, Keyset.walk (myTickets newYearStore.table newYearContext 1) 3 none = some (.ok items) ∧
      ListsOnce (newYearStore.table.rows.filter (mine 1 3)) items) ∧
      ∃ selection items,
        queueSelection id (fun _ _ => true) newYearStore newYearContext
          ⟨5, none, none, none, none, none⟩ = .ok selection ∧
        Keyset.walk (queueTickets id (fun _ _ => true) newYearStore newYearContext
          ⟨5, none, none, none, none, none⟩ 1) 3 none = some (.ok items) ∧
        ListsOnce (newYearStore.table.rows.filter selection.selects) items :=
  have hpages := pages_hold_every_ticket_once id (fun _ _ => true) newYearStore newYearContext
    ⟨5, none, none, none, none, none⟩ (by decide : 1 ≤ 1)
    (by decide : newYearStore.table.rows.length < 3)
  ⟨hpages.1 (1, 3) rfl, _, _, rfl, (hpages.2 _ rfl).choose_spec⟩

end Helpdesk.Queues
