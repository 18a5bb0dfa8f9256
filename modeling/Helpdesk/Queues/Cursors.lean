/-
  File:      Helpdesk/Queues/Cursors.lean
  Subject:   What a pagination cursor decodes to (apps/api/app/tickets/service.py,
             apps/api/app/queues/service.py).

  A cursor is a text that any caller may write. Every decoder reads its timestamp with
  `fromisoformat`, which takes one without an offset as well, and the queue's decoder
  passes to `UUID` whatever JSON value stands under `id`.

  * `ticketCursor_safe_iff`, `watchCursor_safe_iff`, `queueCursor_safe_iff`: when a decoder
    returns an aware datetime and a UUID or refuses the cursor;
  * `queueCursor_encode_iff`: a queue's cursor reads back under its own scope only;
  * **`cursors_safe_iff`**: over all texts, and over all cursors that were written.
-/
import Helpdesk.Queues.Listing

namespace Helpdesk.Queues

open Helpdesk.Python Helpdesk.Tickets

/-! ## 1. The decoders -/

/-- What an aware datetime reads back as. -/
def parsed (value : AwareDatetime) : ParsedDatetime := ⟨value.date, value.time, some value.offset⟩

def invalidTicketCursor : AppError :=
  .validation "Pagination cursor is invalid." [("cursor", ["Invalid cursor."])]

/-- The timestamp and the identifier of a ticket list's cursor. -/
def ticketParts? (value : String) : Option (String × String) := do
  let data ← urlsafeB64decode (withPadding value.toList)
  let decoded ← decodeUtf8? data
  splitBar? decoded

/-- Those of a watchlist's cursor. -/
def watchParts? (value : String) : Option (String × String) := do
  let data ← urlsafeB64decode (withPadding value.toList)
  let decoded ← decodeUtf8? data
  let (scope, rest) ← splitBar? decoded
  let parts ← splitBar? rest
  if scope ≠ "watchlist" then none else some parts

/-- `datetime.fromisoformat(timestamp), UUID(identifier)`. -/
def pairOf? (parts : String × String) : Option (ParsedDatetime × Uuid) := do
  let createdAt ← datetime? parts.1
  let id ← uuid? parts.2
  return (createdAt, id)

def orInvalid (pair? : Option (ParsedDatetime × Uuid)) :
    Except AppError (ParsedDatetime × Uuid) :=
  match pair? with
  | some pair => .ok pair
  | none => .error invalidTicketCursor

/-- `_decode_cursor` of the ticket lists, for a text. -/
def ticketCursor (value : String) : Except AppError (ParsedDatetime × Uuid) :=
  orInvalid ((ticketParts? value).bind pairOf?)

/-- `_decode_watch_cursor`, for a text. -/
def watchCursor (value : String) : Except AppError (ParsedDatetime × Uuid) :=
  orInvalid ((watchParts? value).bind pairOf?)

/-- `_decode_cursor` of the queues, for a text. -/
def queueCursor (value scope : String) : Except AppError (ParsedDatetime × Uuid) :=
  match cursorPayload? value with
  | some (.dict items) =>
      match Json.lookup "scope" items, Json.lookup "created_at" items with
      | some (.str itsScope), some (.str timestamp) =>
          if itsScope ≠ scope then .error invalidCursor
          else
            match datetime? timestamp with
            | some createdAt => (cursorId items).map fun id => (createdAt, id)
            | none => .error invalidCursor
      | _, _ => .error invalidCursor
  | _ => .error invalidCursor

/-- What `_encode_watch_cursor` reads of a watched ticket. -/
structure WatchedItem where
  watchedAt : AwareDatetime
  watchlistId : Uuid
  watchlistId_range : watchlistId < 2 ^ 128

/-- `_encode_watch_cursor`. -/
def encodeWatchCursor (item : WatchedItem) : String :=
  let raw := "watchlist|" ++ (item.watchedAt.isoformat ++ "|" ++ uuidText item.watchlistId)
  String.ofList (stripPadding (urlsafeB64encode (encodeUtf8 raw)))

/-- The lists decode a cursor as these do, and take its instant. -/
theorem decodeCursor_eq (value scope : String) :
    Tickets.decodeCursor (some value) =
        (ticketCursor value).map (fun pair => some (toLex (pair.1.instant, pair.2))) ∧
      decodeCursor (some value) scope =
        (queueCursor value scope).map (fun pair => some (toLex (pair.1.instant, pair.2))) := by
  constructor
  · have hkey : cursorKey? value =
        ((ticketParts? value).bind pairOf?).map fun pair => toLex (pair.1.instant, pair.2) := by
      unfold cursorKey? ticketParts? pairOf?
      cases urlsafeB64decode (withPadding value.toList) with
      | none => rfl
      | some data =>
          simp only [Option.bind_eq_bind, Option.bind_some]
          cases decodeUtf8? data with
          | none => rfl
          | some decoded =>
              simp only [Option.bind_some]
              cases splitBar? decoded with
              | none => rfl
              | some parts =>
                  simp only [Option.bind_some]
                  cases datetime? parts.1 with
                  | none => rfl
                  | some createdAt =>
                      simp only [Option.bind_some]
                      cases uuid? parts.2 with
                      | none => rfl
                      | some id => rfl
    rw [Tickets.decodeCursor, hkey, ticketCursor]
    cases (ticketParts? value).bind pairOf? with
    | none => rfl
    | some pair => rfl
  · unfold decodeCursor queueCursor
    dsimp only
    generalize cursorPayload? value = payload?
    rcases payload? with _ | payload
    · rfl
    cases payload
    case dict items =>
      dsimp only
      generalize Json.lookup "scope" items = itsScope?, Json.lookup "created_at" items = timestamp?
      rcases itsScope? with _ | itsScope
      · rfl
      cases itsScope
      case str itsScope =>
        rcases timestamp? with _ | timestamp
        · rfl
        cases timestamp
        case str timestamp =>
          dsimp only
          by_cases hscope : itsScope = scope
          · rw [if_neg (not_not.mpr hscope), if_neg (not_not.mpr hscope)]
            cases datetime? timestamp with
            | none => rfl
            | some createdAt =>
                dsimp only
                cases cursorId items with
                | ok id => rfl
                | error e => rfl
          · rw [if_pos hscope, if_pos hscope]
            rfl
        all_goals rfl
      all_goals rfl
    all_goals rfl

/-! ## 2. Aware or refused -/

/-- **The decoder returns an aware datetime and a UUID, or refuses the cursor.** -/
def Safe (refusal : AppError) (outcome : Except AppError (ParsedDatetime × Uuid)) : Prop :=
  (∃ createdAt id, outcome = .ok (parsed createdAt, id)) ∨ outcome = .error refusal

/-- The parts are a timestamp without an offset and a UUID. -/
def Naive (parts? : Option (String × String)) : Prop :=
  ∃ timestamp identifier createdAt id, parts? = some (timestamp, identifier) ∧
    datetime? timestamp = some createdAt ∧ createdAt.offset = none ∧ uuid? identifier = some id

/-- The payload is one of the scope with a timestamp, and it has no offset, or the
    identifier is a JSON value that is neither a text nor null. -/
def QueueNaive (value scope : String) : Prop :=
  ∃ items timestamp createdAt, cursorPayload? value = some (.dict items) ∧
    Json.lookup "scope" items = some (.str scope) ∧
    Json.lookup "created_at" items = some (.str timestamp) ∧
    datetime? timestamp = some createdAt ∧
    ((∃ identifier id, Json.lookup "id" items = some (.str identifier) ∧
        uuid? identifier = some id ∧ createdAt.offset = none) ∨
      ∃ other, Json.lookup "id" items = some other ∧ other ≠ .null ∧ ∀ text, other ≠ .str text)

theorem safe_ok_iff {refusal : AppError} {createdAt : ParsedDatetime} {id : Uuid} :
    Safe refusal (.ok (createdAt, id)) ↔ createdAt.offset ≠ none := by
  constructor
  · rintro (⟨aware, id', h⟩ | h)
    · cases h
      exact Option.some_ne_none _
    · cases h
  · intro h
    obtain ⟨offset, hoffset⟩ := Option.ne_none_iff_exists'.mp h
    refine .inl ⟨⟨createdAt.date, createdAt.time, offset⟩, id, ?_⟩
    rw [parsed, ← hoffset]

theorem safe_refused {refusal : AppError} : Safe refusal (.error refusal) := .inr rfl

theorem orInvalid_safe_iff (parts? : Option (String × String)) :
    Safe invalidTicketCursor (orInvalid (parts?.bind pairOf?)) ↔ ¬ Naive parts? := by
  have hrefused : (∀ pair, parts?.bind pairOf? ≠ some pair) →
      (Safe invalidTicketCursor (orInvalid (parts?.bind pairOf?)) ↔ ¬ Naive parts?) := by
    intro hnone
    rw [Option.eq_none_iff_forall_not_mem.mpr hnone]
    refine ⟨fun _ => ?_, fun _ => safe_refused⟩
    rintro ⟨timestamp, identifier, createdAt, id, rfl, hdate, -, hid⟩
    refine hnone (createdAt, id) ?_
    simp [pairOf?, hdate, hid]
  match parts? with
  | none => exact hrefused fun _ => by simp
  | some (timestamp, identifier) =>
      cases hdate : datetime? timestamp with
      | none => exact hrefused fun _ => by simp [pairOf?, hdate]
      | some createdAt =>
          cases hid : uuid? identifier with
          | none => exact hrefused fun _ => by simp [pairOf?, hdate, hid]
          | some id =>
              have hpair : (some (timestamp, identifier)).bind pairOf? = some (createdAt, id) := by
                simp [pairOf?, hdate, hid]
              rw [hpair]
              refine safe_ok_iff.trans (not_congr ?_)
              constructor
              · exact fun hnone => ⟨timestamp, identifier, createdAt, id, rfl, hdate, hnone, hid⟩
              · rintro ⟨_, _, createdAt', _, heq, hdate', hnone, -⟩
                cases heq
                cases hdate.symm.trans hdate'
                exact hnone

theorem ticketCursor_safe_iff (value : String) :
    Safe invalidTicketCursor (ticketCursor value) ↔ ¬ Naive (ticketParts? value) :=
  orInvalid_safe_iff _

theorem watchCursor_safe_iff (value : String) :
    Safe invalidTicketCursor (watchCursor value) ↔ ¬ Naive (watchParts? value) :=
  orInvalid_safe_iff _

/-- What `UUID` makes of the value under `id`. -/
theorem cursorId_cases (items : List (String × Json)) :
    (∃ identifier id, Json.lookup "id" items = some (.str identifier) ∧ uuid? identifier = some id ∧
      cursorId items = .ok id) ∨
    (cursorId items = .error invalidCursor ∧
      (∀ identifier id, Json.lookup "id" items = some (.str identifier) →
        uuid? identifier ≠ some id) ∧
      ∀ other, Json.lookup "id" items = some other → other = .null ∨ ∃ text, other = .str text) ∨
    (∃ other, Json.lookup "id" items = some other ∧ other ≠ .null ∧ (∀ text, other ≠ .str text) ∧
      cursorId items = .error .attribute) := by
  unfold cursorId
  split
  · next identifier hlookup =>
      cases hid : uuid? identifier with
      | some id => exact .inl ⟨identifier, id, hlookup, hid, rfl⟩
      | none =>
          refine .inr (.inl ⟨rfl, ?_, ?_⟩)
          · intro identifier' id h
            cases hlookup.symm.trans h
            simp [hid]
          · intro other h
            cases hlookup.symm.trans h
            exact .inr ⟨identifier, rfl⟩
  · next hlookup =>
      refine .inr (.inl ⟨rfl, ?_, ?_⟩)
      · intro identifier id h
        cases hlookup.symm.trans h
      · intro other h
        cases hlookup.symm.trans h
        exact .inl rfl
  · next hlookup =>
      refine .inr (.inl ⟨rfl, ?_, ?_⟩)
      · intro identifier id h
        cases hlookup.symm.trans h
      · intro other h
        cases hlookup.symm.trans h
  · next other hstr hnull hlookup =>
      exact .inr (.inr ⟨other, hlookup, hnull, hstr, rfl⟩)

theorem queueCursor_safe_iff (value scope : String) :
    Safe invalidCursor (queueCursor value scope) ↔ ¬ QueueNaive value scope := by
  by_cases hpayload : ∃ items timestamp createdAt, cursorPayload? value = some (.dict items) ∧
      Json.lookup "scope" items = some (.str scope) ∧
      Json.lookup "created_at" items = some (.str timestamp) ∧ datetime? timestamp = some createdAt
  · obtain ⟨items, timestamp, createdAt, hvalue, hscope, htimestamp, hdate⟩ := hpayload
    have hcursor : queueCursor value scope = (cursorId items).map fun id => (createdAt, id) := by
      simp [queueCursor, hvalue, hscope, htimestamp, hdate]
    have hnaive : QueueNaive value scope ↔
        (∃ identifier id, Json.lookup "id" items = some (.str identifier) ∧
          uuid? identifier = some id ∧ createdAt.offset = none) ∨
        ∃ other, Json.lookup "id" items = some other ∧ other ≠ .null ∧ ∀ text, other ≠ .str text := by
      constructor
      · rintro ⟨items', timestamp', createdAt', hvalue', -, htimestamp', hdate', h⟩
        cases hvalue.symm.trans hvalue'
        cases htimestamp.symm.trans htimestamp'
        cases hdate.symm.trans hdate'
        exact h
      · exact fun h => ⟨items, timestamp, createdAt, hvalue, hscope, htimestamp, hdate, h⟩
    rw [hcursor, hnaive]
    rcases cursorId_cases items with ⟨identifier, id, hlookup, hid, heq⟩ | ⟨heq, htext, hother⟩ |
      ⟨other, hlookup, hnull, htext, heq⟩
    · rw [heq]
      refine safe_ok_iff.trans (not_congr ?_)
      constructor
      · exact fun hnone => .inl ⟨identifier, id, hlookup, hid, hnone⟩
      · rintro (⟨_, _, -, -, hnone⟩ | ⟨other, h, -, htext⟩)
        · exact hnone
        · cases hlookup.symm.trans h
          exact absurd rfl (htext identifier)
    · rw [heq]
      refine ⟨fun _ => ?_, fun _ => safe_refused⟩
      rintro (⟨identifier, id, h, hid, -⟩ | ⟨other, h, hnull, hnot⟩)
      · exact htext identifier id h hid
      · rcases hother other h with rfl | ⟨text, rfl⟩
        · exact hnull rfl
        · exact hnot text rfl
    · rw [heq]
      refine ⟨?_, fun h => absurd (.inr ⟨other, hlookup, hnull, htext⟩) h⟩
      rintro (⟨_, _, h⟩ | h)
      · cases h
      · cases h
  · have hcursor : queueCursor value scope = .error invalidCursor := by
      unfold queueCursor
      split
      · next items hvalue =>
          split
          · next itsScope timestamp hscope htimestamp =>
              split
              · rfl
              · next hsame =>
                  split
                  · next createdAt hdate =>
                      refine absurd ⟨items, timestamp, createdAt, hvalue, ?_, htimestamp, hdate⟩
                        hpayload
                      rw [hscope, not_not.mp hsame]
                  · rfl
          · rfl
      · rfl
    rw [hcursor]
    refine ⟨fun _ => ?_, fun _ => safe_refused⟩
    rintro ⟨items, timestamp, createdAt, hvalue, hscope, htimestamp, hdate, -⟩
    exact hpayload ⟨items, timestamp, createdAt, hvalue, hscope, htimestamp, hdate⟩

/-! ## 3. Cursors that were written -/

theorem ticketCursor_encode (ticket : ListedTicket) :
    ticketCursor (Tickets.encodeCursor ticket) = .ok (parsed ticket.createdAt, ticket.ticketId) := by
  have hparts : ticketParts? (Tickets.encodeCursor ticket) =
      some (ticket.createdAt.isoformat, uuidText ticket.ticketId) := by
    unfold ticketParts? Tickets.encodeCursor
    rw [String.toList_ofList, urlsafeB64decode_stripped]
    simp only [Option.bind_eq_bind, Option.bind_some, decodeUtf8?_encodeUtf8]
    exact splitBar?_append _ (bar_not_mem_isoformat _)
  have hpair : pairOf? (ticket.createdAt.isoformat, uuidText ticket.ticketId) =
      some (parsed ticket.createdAt, ticket.ticketId) := by
    simp [pairOf?, datetime?_isoformat, uuid?_uuidText ticket.ticketId_range, parsed]
  rw [ticketCursor, hparts, Option.bind_some, hpair, orInvalid]

theorem watchCursor_encode (item : WatchedItem) :
    watchCursor (encodeWatchCursor item) = .ok (parsed item.watchedAt, item.watchlistId) := by
  have hscope : splitBar? ("watchlist|" ++ (item.watchedAt.isoformat ++ "|" ++
      uuidText item.watchlistId)) =
      some ("watchlist", item.watchedAt.isoformat ++ "|" ++ uuidText item.watchlistId) := by
    have hbar : '|' ∉ "watchlist".toList := by decide
    have hsplit := splitBar?_append (item.watchedAt.isoformat ++ "|" ++
      uuidText item.watchlistId) hbar
    rwa [show "watchlist" ++ "|" = "watchlist|" from rfl] at hsplit
  have hparts : watchParts? (encodeWatchCursor item) =
      some (item.watchedAt.isoformat, uuidText item.watchlistId) := by
    unfold watchParts? encodeWatchCursor
    rw [String.toList_ofList, urlsafeB64decode_stripped]
    simp only [Option.bind_eq_bind, Option.bind_some, decodeUtf8?_encodeUtf8, hscope,
      splitBar?_append _ (bar_not_mem_isoformat _)]
    rfl
  have hpair : pairOf? (item.watchedAt.isoformat, uuidText item.watchlistId) =
      some (parsed item.watchedAt, item.watchlistId) := by
    simp [pairOf?, datetime?_isoformat, uuid?_uuidText item.watchlistId_range, parsed]
  rw [watchCursor, hparts, Option.bind_some, hpair, orInvalid]

/-- **A queue's cursor reads back under its own scope only.** -/
theorem queueCursor_encode_iff (ticket : ListedTicket) (scope itsScope : String) :
    queueCursor (encodeCursor itsScope ticket) scope =
      if itsScope = scope then .ok (parsed ticket.createdAt, ticket.ticketId)
      else .error invalidCursor := by
  have hpayload : cursorPayload? (encodeCursor itsScope ticket) =
      some (.dict (Json.stringItems [("created_at", ticket.createdAt.isoformat),
        ("id", uuidText ticket.ticketId), ("scope", itsScope)])) := by
    unfold cursorPayload? encodeCursor
    rw [String.toList_ofList, urlsafeB64decode_stripped, Option.bind_eq_bind, Option.bind_some]
    exact Json.loadsBytes_dumps (by simp)
  have hid : cursorId (Json.stringItems [("created_at", ticket.createdAt.isoformat),
      ("id", uuidText ticket.ticketId), ("scope", itsScope)]) = .ok ticket.ticketId := by
    simp [cursorId, Json.stringItems, Json.lookup, uuid?_uuidText ticket.ticketId_range]
  unfold queueCursor
  rw [hpayload]
  dsimp only
  rw [hid]
  by_cases hscope : itsScope = scope
  · simp [Json.stringItems, Json.lookup, datetime?_isoformat, hscope, parsed, Except.map]
  · simp [Json.stringItems, Json.lookup, hscope]

/-- **A decoder returns an aware datetime and a UUID or refuses the cursor exactly where
    the timestamp has an offset**, and in the queues the identifier is a text besides;
    what was written reads back, in the queues under the same scope only. -/
theorem cursors_safe_iff (value scope itsScope ticket listed item) :
    (Safe invalidTicketCursor (ticketCursor value) ↔ ¬ Naive (ticketParts? value)) ∧
    (Safe invalidTicketCursor (watchCursor value) ↔ ¬ Naive (watchParts? value)) ∧
    (Safe invalidCursor (queueCursor value scope) ↔ ¬ QueueNaive value scope) ∧
    ticketCursor (Tickets.encodeCursor listed) = .ok (parsed listed.createdAt, listed.ticketId) ∧
    watchCursor (encodeWatchCursor item) = .ok (parsed item.watchedAt, item.watchlistId) ∧
    queueCursor (encodeCursor itsScope ticket) scope =
      if itsScope = scope then .ok (parsed ticket.createdAt, ticket.ticketId)
      else .error invalidCursor :=
  ⟨ticketCursor_safe_iff value, watchCursor_safe_iff value, queueCursor_safe_iff value scope,
    ticketCursor_encode listed, watchCursor_encode item, queueCursor_encode_iff ticket scope itsScope⟩

/-- A ticket cursor with the timestamp `2024-01-01T00:00:00`. -/
def naiveCursor : String :=
  "MjAyNC0wMS0wMVQwMDowMDowMHwxMjM0NTY3OC0xMjM0LTEyMzQtMTIzNC0xMjM0NTY3ODkwMTI"

/-- A queue cursor of the scope `s` with the identifier `1`. -/
def numberCursor : String :=
  "eyJzY29wZSI6InMiLCJjcmVhdGVkX2F0IjoiMjAyNC0wMS0wMVQwMDowMDowMFoiLCJpZCI6MX0"

/-- The naive cursor is read, and its timestamp has no offset. -/
def readsNaive : Bool :=
  match ticketCursor naiveCursor with
  | .ok (createdAt, _) => createdAt.offset.isNone
  | .error _ => false

/-- The identifier `1` raises `AttributeError`. -/
def numberRaises : Bool :=
  match queueCursor numberCursor "s" with
  | .error .attribute => true
  | _ => false

/-- **A naive timestamp is returned, and a number for an identifier is not refused.** -/
theorem naive_cursor_accepted :
    (¬ ∀ value, Safe invalidTicketCursor (ticketCursor value)) ∧
    ¬ ∀ value scope, Safe invalidCursor (queueCursor value scope) := by
  constructor
  · intro hclaim
    have hnaive : readsNaive = true := by decide +kernel
    unfold readsNaive at hnaive
    rcases hclaim naiveCursor with ⟨createdAt, id, h⟩ | h
    · rw [h] at hnaive
      cases hnaive
    · rw [h] at hnaive
      cases hnaive
  · intro hclaim
    have hraises : numberRaises = true := by decide +kernel
    unfold numberRaises at hraises
    rcases hclaim numberCursor "s" with ⟨createdAt, id, h⟩ | h
    · rw [h] at hraises
      cases hraises
    · rw [h] at hraises
      cases hraises

end Helpdesk.Queues
