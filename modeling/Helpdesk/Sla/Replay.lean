/-
  File:      Helpdesk/Sla/Replay.lean
  Subject:   The second delivery of an input event.

  A key `input:<event>:<action>:<row>` is recorded by the branch that ran, not by
  the event. A second delivery is judged by the state the rows have by then and
  may take a branch whose key is still free.

  * `Settled`: every action the event asks for now does nothing;
  * `redelivery_unchanged`: a second delivery leaves rows, events and messages as
    they are exactly if the event is settled;
  * `redelivery_resumes`: a transition that found the row running resumes it when
    it is delivered again during a later pause.
-/
import Helpdesk.Sla.Runs

namespace Helpdesk.Sla

open Helpdesk.Python

variable {config : SlaConfig} {r r' : SlaRecord} {s s' : Store} {event : SlaInputEvent}
  {ticket : TicketFacts}

/-! ## 1. Every change shows -/

/-- What the tables hold of a record. -/
def SlaRecord.tables (record : SlaRecord) : TicketSla × List SlaEvent × List SlaOutboxMessage :=
  (record.row, record.events, record.outbox)

/-- The versions saved and the events recorded. -/
def SlaRecord.size (record : SlaRecord) : Nat := record.row.rowVersion + record.events.length

theorem size_of_tables (h : r'.tables = r.tables) : r'.size = r.size := by
  have hrow : r'.row = r.row := congrArg (·.1) h
  have hevents : r'.events = r.events := congrArg (·.2.1) h
  unfold SlaRecord.size
  rw [hrow, hevents]

/-- A save under an event that is new. -/
theorem size_put {event : SlaEvent} {sla : TicketSla} :
    r.size + 1 ≤ ((r.addEvent event).put sla).size := by
  have hversion : (SlaRecord.update r.row sla).rowVersion = r.row.rowVersion + 1 := rfl
  simp only [SlaRecord.size, SlaRecord.put_row, SlaRecord.put_events, SlaRecord.addEvent_row,
    SlaRecord.addEvent_events, List.length_append, hversion]
  omega

theorem size_emit {message : SlaOutboxMessage} : (r.emit message).size = r.size := by
  unfold SlaRecord.size
  rw [SlaRecord.emit_row, SlaRecord.emit_events]

theorem size_metIfCompleted {met : SlaEvent} : r.size ≤ (r.metIfCompleted met).size := by
  have hevents : r.events.length ≤ (r.metIfCompleted met).events.length := by
    unfold SlaRecord.metIfCompleted SlaRecord.recordOnce
    split
    · split
      · exact Nat.le_refl _
      · simp
    · exact Nat.le_refl _
  unfold SlaRecord.size
  rw [SlaRecord.metIfCompleted_row]
  omega

theorem Change.size {w : Write} (hc : Change config r w r') : r.size + 1 ≤ r'.size := by
  cases hc with
  | noted =>
      simp only [SlaRecord.size, SlaRecord.addEvent_row, SlaRecord.addEvent_events,
        List.length_append, List.length_singleton]
      omega
  | @advanced at_ current hstate hlast hcurrent hchecks =>
      have hversion : (r.put current).row.rowVersion = r.row.rowVersion + 1 := rfl
      simp only [SlaRecord.size, hversion, SlaRecord.put_events]
      omega
  | warned => rw [size_emit]; exact size_put
  | breached => rw [size_emit]; exact size_put
  | breachedOnReopen => rw [size_emit]; exact size_put
  | paused => exact size_put
  | resumed => exact size_put
  | stopped => exact Nat.le_trans size_put size_metIfCompleted
  | reopened => exact size_put
  | recalculated => exact size_put

/-- **A chain of changes grows the record by its length.** -/
theorem changes_size {ws : List Write} (hrun : Run (Change config) r ws r') :
    r.size + ws.length ≤ r'.size := by
  induction hrun with
  | start => exact Nat.le_refl _
  | next _ hc ih =>
      have hone := hc.size
      rw [List.length_append, List.length_singleton]
      omega

/-- **An operation is invisible exactly if it is idle.** -/
theorem Does.tables_iff {idle : Prop} {P : Write → Prop} (h : Does config idle P r r') :
    r'.tables = r.tables ↔ idle := by
  obtain ⟨ws, hrun, hidle, _⟩ := h
  rw [← hidle]
  constructor
  · intro hsame
    have hsize := changes_size hrun
    rw [size_of_tables hsame] at hsize
    have hlength : ws.length = 0 := by omega
    exact List.length_eq_zero_iff.mp hlength
  · rintro rfl
    generalize hnil : ([] : List Write) = ws at hrun
    cases hrun with
    | start => rfl
    | next => exact absurd hnil.symm (List.append_ne_nil_of_right_ne_nil _ (List.cons_ne_nil _ _))

/-! ## 2. Settled events -/

/-- **The event asks for nothing any more**: a start finds a row for every definition
    in effect, every other event an idle action for each row of its ticket. -/
def Settled (s : Store) (event : SlaInputEvent) (ticket : TicketFacts) : Prop :=
  match event.eventType with
  | .startSla => ∀ d ∈ definitionsOf s ticket,
      s.hasSla ticket.ticketId d.slaDefinitionId = true
  | _ => ∀ r ∈ s.records, Store.ofTicket ticket.tenantId ticket.ticketId r.row = true →
      ∀ action, rowAction s ticket event r.row = .ok action → RowIdle s.config event r action

/-- Rows compared one by one. -/
theorem map_eq_iff_of_forall₂ {α β γ : Type} {R : α → β → Prop} {f : α → γ} {g : β → γ}
    {xs : List α} {ys : List β} (h : List.Forall₂ R xs ys) :
    ys.map g = xs.map f ↔ List.Forall₂ (fun x y => R x y ∧ g y = f x) xs ys := by
  induction h with
  | nil => simp
  | cons hxy _ ih => simp [hxy, ih]

theorem RowOutcome.tables_iff (h : RowOutcome s ticket event r r') :
    r'.tables = r.tables ↔ (Store.ofTicket ticket.tenantId ticket.ticketId r.row = true →
      ∀ action, rowAction s ticket event r.row = .ok action → RowIdle s.config event r action) := by
  rcases h with ⟨hof, action, haction, hdoes⟩ | ⟨hother, rfl⟩
  · rw [hdoes.tables_iff]
    constructor
    · intro hidle _ action' haction'
      rw [haction] at haction'
      cases haction'
      exact hidle
    · intro hall
      exact hall hof action haction
  · constructor
    · intro _ hof
      rw [hother] at hof
      cases hof
    · exact fun _ => rfl

theorem forall₂_and_true {α β : Type} {R Q : α → β → Prop} {P : α → Prop} {xs : List α}
    {ys : List β} (h : List.Forall₂ R xs ys) (hiff : ∀ x y, R x y → (Q x y ↔ P x)) :
    List.Forall₂ (fun x y => R x y ∧ Q x y) xs ys ↔ ∀ x ∈ xs, P x := by
  induction h with
  | nil => simp
  | cons hxy _ ih => simp [hxy, ih, hiff _ _ hxy]

/-- **A committed event is invisible exactly if it is settled.** -/
theorem process_tables_iff {u : Unit} (hkept : ∀ r ∈ s.records, BreachKept r)
    (hticket : s.ticket event.tenantId event.ticketId = some ticket)
    (h : (process event).run s = .ok (u, s')) :
    s'.records.map SlaRecord.tables = s.records.map SlaRecord.tables ↔
      Settled s event ticket := by
  obtain ⟨_, ticket', hticket', hdispatch⟩ := process_dispatch h
  rw [hticket] at hticket'
  cases hticket'
  by_cases hstart : event.eventType = .startSla
  · unfold dispatch at hdispatch
    rw [hstart] at hdispatch
    obtain ⟨_, _, new, hrecords, hnil, _⟩ := start_ok hdispatch
    have hsettled : Settled s event ticket ↔ new = [] := by
      unfold Settled
      rw [hstart]
      exact hnil.symm
    rw [hsettled, hrecords, List.map_append, List.append_right_eq_self]
    exact List.map_eq_nil_iff
  · obtain ⟨_, _, hrows⟩ := dispatch_ok hkept hstart hdispatch
    have hsettled : Settled s event ticket ↔ ∀ r ∈ s.records,
        Store.ofTicket ticket.tenantId ticket.ticketId r.row = true → ∀ action,
          rowAction s ticket event r.row = .ok action → RowIdle s.config event r action := by
      unfold Settled
      split
      · rename_i hno
        exact absurd hno hstart
      · rfl
    rw [hsettled, map_eq_iff_of_forall₂ hrows]
    exact forall₂_and_true hrows fun r r' hr => hr.tables_iff

/-! ## 3. The second delivery -/

/-- **A second delivery leaves the tables as they are exactly if the event is settled**
    by then; one that raises changes nothing. -/
theorem redelivery_unchanged {s₀ s₁ s₂ s : Store} {ls₁ ls₂ : List SlaLabel}
    {event : SlaInputEvent} (hbefore : Run SlaStep s₀ ls₁ s₁) (h0 : s₀.records = [])
    (hfirst : (process event).run s₁ = .ok ((), s₂)) (hafter : Run SlaStep s₂ ls₂ s) :
    (∀ failure, (process event).run s = .error failure → s.next (.input event) = s) ∧
      ∀ s' ticket, (process event).run s = .ok ((), s') →
        s.ticket event.tenantId event.ticketId = some ticket →
        (s'.records.map SlaRecord.tables = s.records.map SlaRecord.tables ↔
          Settled s event ticket) := by
  have hstep : SlaStep s₁ (.input event) s₂ := by
    have hnext : s₁.next (.input event) = s₂ := by
      show s₁.commit ((process event).run s₁) = s₂
      rw [hfirst]
      rfl
    rw [← hnext]
    exact .input event
  have hrun : Run SlaStep s₀ (ls₁ ++ [.input event] ++ ls₂) s :=
    (Run.next hbefore hstep).append hafter
  have hkept : ∀ r ∈ s.records, BreachKept r := records_kept hrun h0
  refine ⟨fun failure hraised => ?_, fun s' ticket hsecond hticket => ?_⟩
  · show s.commit ((process event).run s) = s
    rw [hraised]
    rfl
  · exact process_tables_iff hkept hticket hsecond

/-- A transaction that does not raise is committed. -/
theorem process_commits (s : Store) (event : SlaInputEvent)
    (h : ((process event).run s).toBool = true) :
    (process event).run s = .ok ((), s.next (.input event)) := by
  show _ = Except.ok ((), s.commit ((process event).run s))
  cases hrun : (process event).run s with
  | error failure =>
      rw [hrun] at h
      cases h
  | ok pair => rfl

/-- The start of the sample ticket, and work on it that changes nothing. -/
def workedStore : Store :=
  execute Store.next sampleStore
    [.input (sampleEvent 1 .startSla 0), .input (sampleTransition 2 "OPEN" "WORKING" 10)]

/-- From the twentieth second on the ticket waits. -/
def waitingStore : Store :=
  workedStore.next (.input (sampleTransition 3 "WORKING" "WAITING" 20))

/-- **The second delivery of a transition resumes the row of a ticket that waits.** -/
theorem redelivery_resumes :
    ¬ ∀ (s₀ s₁ s₂ s s' : Store) (ls₁ ls₂ : List SlaLabel) (event : SlaInputEvent),
      Run SlaStep s₀ ls₁ s₁ → s₀.records = [] → (process event).run s₁ = .ok ((), s₂) →
      Run SlaStep s₂ ls₂ s → (process event).run s = .ok ((), s') →
      s'.records.map (·.row.state) = s.records.map (·.row.state) := by
  intro h
  have hfirst := process_commits (sampleStore.next (.input (sampleEvent 1 .startSla 0)))
    (sampleTransition 2 "OPEN" "WORKING" 10) (by decide +kernel)
  have hsecond := process_commits waitingStore (sampleTransition 2 "OPEN" "WORKING" 10)
    (by decide +kernel)
  have hsame := h sampleStore _ _ waitingStore _ [.input (sampleEvent 1 .startSla 0)]
    [.input (sampleTransition 3 "WORKING" "WAITING" 20)] _ (.next .start (.input _)) rfl hfirst
    (.next .start (.input _)) hsecond
  have hpaused : waitingStore.records.map (·.row.state) = [.paused] := by decide +kernel
  have hrunning : (waitingStore.next
      (.input (sampleTransition 2 "OPEN" "WORKING" 10))).records.map (·.row.state) =
      [.running] := by
    decide +kernel
  rw [hpaused, hrunning] at hsame
  cases hsame

/-- The pause of the sample ticket, delivered twice. -/
theorem redelivery_unchanged_sample :
    (waitingStore.next (.input (sampleTransition 3 "WORKING" "WAITING" 20))).records.map
      SlaRecord.tables = waitingStore.records.map SlaRecord.tables := by
  have hworked : Run SlaStep sampleStore [.input (sampleEvent 1 .startSla 0),
      .input (sampleTransition 2 "OPEN" "WORKING" 10)] workedStore :=
    sampleRun (by simp)
  have hfirst := process_commits workedStore (sampleTransition 3 "WORKING" "WAITING" 20)
    (by decide +kernel)
  have hsecond := process_commits waitingStore (sampleTransition 3 "WORKING" "WAITING" 20)
    (by decide +kernel)
  have hticket : waitingStore.ticket 5 9 =
      some ⟨9, 5, 6, none, "INCIDENT", "HIGH", "OPEN", "ACTIVE", 0, none, none⟩ := by
    decide +kernel
  refine ((redelivery_unchanged hworked rfl hfirst .start).2 _ _ hsecond hticket).mpr ?_
  have hidle : ∀ r ∈ waitingStore.records, r.row.state ≠ .running ∧
      rowAction waitingStore ⟨9, 5, 6, none, "INCIDENT", "HIGH", "OPEN", "ACTIVE", 0, none, none⟩
        (sampleTransition 3 "WORKING" "WAITING" 20) r.row = .ok .pause := by
    decide +kernel
  intro r hr _ action haction
  have hpause := (hidle r hr).2.symm.trans haction
  cases hpause
  exact Or.inl (hidle r hr).1

end Helpdesk.Sla
