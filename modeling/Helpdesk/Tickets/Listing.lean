/-
  File:      Helpdesk/Tickets/Listing.lean
  Subject:   The employee's ticket list, page by page (apps/api/app/tickets/service.py:
             `my_tickets`, `_encode_cursor`, `_decode_cursor`, and `tickets` of
             apps/api/app/tickets/repository.py).

  The rows of a list are the tickets with what the queries join to them: every join is
  on a primary key, so a ticket is one row.

  * `decodeCursor_encodeCursor`: a cursor reads back as the key of its row;
  * **`walk_myTickets`**: the pages are the caller's tickets, each once, the newest
    first.
-/
import Helpdesk.Lib.Keyset
import Helpdesk.Python.Base64
import Helpdesk.Python.Isoformat
import Helpdesk.Tickets.Comments
import Mathlib.Data.Prod.Lex
import Mathlib.Order.Nat
import Mathlib.Algebra.Order.Ring.Int

namespace Helpdesk.Tickets

open Helpdesk.Python Helpdesk.Keyset

/-! ## 1. Rows -/

structure ListedTicket where
  ticketId : Uuid
  tenantId : Uuid
  projectId : Uuid
  ticketKey : String
  summary : String
  priorityCode : String
  statusCode : String
  reporterUserId : Uuid
  requestedForUserId : Option Uuid
  assignmentGroupId : Option Uuid
  assigneeUserId : Option Uuid
  /-- in the time zone that the driver returns -/
  createdAt : AwareDatetime
  ticketId_range : ticketId < 2 ^ 128

structure TicketTable where
  rows : List ListedTicket
  /-- the primary key of a ticket -/
  ticketId_key : (rows.map ListedTicket.ticketId).Nodup

/-- `(ticket.created_at,ticket.ticket_id)`, compared as a row. -/
abbrev PageKey := Instant ×ₗ Uuid

def ListedTicket.pageKey (ticket : ListedTicket) : PageKey :=
  toLex (ticket.createdAt.instant, ticket.ticketId)

/-- Different tickets have different keys, also where they were created together. -/
theorem TicketTable.pageKey_nodup (table : TicketTable) (p : ListedTicket → Bool) :
    ((table.rows.filter p).map ListedTicket.pageKey).Nodup := by
  have hids : ((table.rows.filter p).map ListedTicket.ticketId).Nodup :=
    table.ticketId_key.sublist ((List.filter_sublist (p := p)).map _)
  refine List.Nodup.of_map (fun key => (ofLex key).2) ?_
  rw [List.map_map]
  exact hids

/-! ## 2. Cursors -/

/-- `_encode_cursor` -/
def encodeCursor (ticket : ListedTicket) : String :=
  let raw := ticket.createdAt.isoformat ++ "|" ++ uuidText ticket.ticketId
  String.ofList (stripPadding (urlsafeB64encode (encodeUtf8 raw)))

/-- `text.split("|", 1)`, where there is a bar. -/
def splitBar? (text : String) : Option (String × String) :=
  match text.toList.dropWhile (· ≠ '|') with
  | _ :: rest => some (String.ofList (text.toList.takeWhile (· ≠ '|')), String.ofList rest)
  | [] => none

/-- The key of a cursor; `none` is a `ValueError` or a `UnicodeDecodeError`. -/
def cursorKey? (value : String) : Option PageKey := do
  let data ← urlsafeB64decode (withPadding value.toList)
  let decoded ← decodeUtf8? data
  let (timestamp, identifier) ← splitBar? decoded
  let createdAt ← datetime? timestamp
  let ticketId ← uuid? identifier
  return toLex (createdAt.instant, ticketId)

/-- `_decode_cursor` -/
def decodeCursor (cursor : Option String) : Except AppError (Option PageKey) :=
  match cursor with
  | none => .ok none
  | some value =>
      match cursorKey? value with
      | some key => .ok (some key)
      | none => .error (.validation "Pagination cursor is invalid." [("cursor", ["Invalid cursor."])])

/-- No bar stands in a timestamp. -/
theorem bar_not_mem_isoformat (value : AwareDatetime) : '|' ∉ value.isoformat.toList := by
  intro h
  rw [AwareDatetime.isoformat, String.toList_ofList] at h
  have hiso := value.iso_chars (Or.inr (by decide)) h
  rcases hiso with h | h
  · exact absurd h (by decide)
  · exact absurd h (by decide)

/-- A text up to its first bar. -/
theorem splitBar?_append {front : String} (back : String) (h : '|' ∉ front.toList) :
    splitBar? (front ++ "|" ++ back) = some (front, back) := by
  have hne : ∀ c ∈ front.toList, (c ≠ '|' : Bool) = true := by
    intro c hc
    exact decide_eq_true fun heq => h (heq ▸ hc)
  have hchars : (front ++ "|" ++ back).toList = front.toList ++ '|' :: back.toList := by simp
  rw [splitBar?, hchars, List.dropWhile_append_of_pos hne, List.takeWhile_append_of_pos hne]
  simp

/-- **A cursor reads back** as the key of its row. -/
theorem decodeCursor_encodeCursor (ticket : ListedTicket) :
    decodeCursor (some (encodeCursor ticket)) = .ok (some ticket.pageKey) := by
  have hkey : cursorKey? (encodeCursor ticket) = some ticket.pageKey := by
    unfold cursorKey? encodeCursor
    rw [String.toList_ofList, urlsafeB64decode_stripped]
    simp only [Option.bind_eq_bind, Option.bind_some, decodeUtf8?_encodeUtf8,
      splitBar?_append _ (bar_not_mem_isoformat _), datetime?_isoformat,
      uuid?_uuidText ticket.ticketId_range]
    rfl
  rw [decodeCursor, hkey]

/-! ## 3. The list -/

/-- The tickets of a caller: reported by them, or for them. -/
def mine (tenantId userId : Uuid) (ticket : ListedTicket) : Bool :=
  ticket.tenantId = tenantId &&
    (ticket.reporterUserId = userId || ticket.requestedForUserId = some userId)

/-- `tickets` of the tickets repository. -/
def TicketTable.tickets (table : TicketTable) (tenantId userId : Uuid) (limit : Nat)
    (before : Option PageKey) : List ListedTicket :=
  select ListedTicket.pageKey (table.rows.filter (mine tenantId userId)) before limit

/-- `my_tickets`; the pages hold the rows that the responses are built from. -/
def myTickets (table : TicketTable) (context : RequestContext) (limit : Nat)
    (cursor : Option String) : Except AppError (List ListedTicket × Option String) := do
  let (tenantId, userId) ← identity context (.authorization notPermitted)
  authorize context .ticketReadOwn notPermitted
  let before ← decodeCursor cursor
  return paginate encodeCursor limit (table.tickets tenantId userId (limit + 1) before)

/-- What `my_tickets` asks of its caller before it reads. -/
def listingCaller (context : RequestContext) : Except AppError (Uuid × Uuid) := do
  let (tenantId, userId) ← identity context (.authorization notPermitted)
  authorize context .ticketReadOwn notPermitted
  return (tenantId, userId)

theorem myTickets_eq (table : TicketTable) (context : RequestContext) (limit : Nat)
    (cursor : Option String) :
    myTickets table context limit cursor = (do
      let (tenantId, userId) ← listingCaller context
      let before ← decodeCursor cursor
      return paginate encodeCursor limit (table.tickets tenantId userId (limit + 1) before)) := by
  unfold myTickets listingCaller
  cases identity context (.authorization notPermitted) with
  | error e => rfl
  | ok caller =>
      cases hauthorize : authorize context .ticketReadOwn notPermitted with
      | error e => rfl
      | ok u => rfl

/-- **The walk over the employee's list**: refused as its first page is, or all of the
    caller's tickets in the declared order. -/
theorem walk_myTickets (table : TicketTable) (context : RequestContext) {limit fuel : Nat}
    (hlimit : 1 ≤ limit) (hfuel : table.rows.length < fuel) :
    Keyset.walk (myTickets table context limit) fuel none =
      some ((listingCaller context).map fun caller =>
        descending ListedTicket.pageKey (table.rows.filter (mine caller.1 caller.2))) := by
  cases hcaller : listingCaller context with
  | error e =>
      refine walk_refused ?_ (Nat.zero_lt_of_lt hfuel)
      rw [myTickets_eq, hcaller]
      rfl
  | ok caller =>
      have hlist : ∀ cursor before, decodeCursor cursor = .ok before →
          myTickets table context limit cursor = .ok (paginate encodeCursor limit
            (select ListedTicket.pageKey (table.rows.filter (mine caller.1 caller.2)) before
              (limit + 1))) := by
        intro cursor before hbefore
        rw [myTickets_eq, hcaller]
        show (do
          let before ← decodeCursor cursor
          return _) = _
        rw [hbefore]
        rfl
      exact walk_pages (table.pageKey_nodup _) hlimit (hlist none none rfl)
        (fun ticket _ => hlist _ _ (decodeCursor_encodeCursor ticket))
        (Nat.lt_of_le_of_lt (List.length_filter_le _ _) hfuel)

end Helpdesk.Tickets
