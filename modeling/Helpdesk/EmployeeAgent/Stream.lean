/-
  File:      Helpdesk/EmployeeAgent/Stream.lean
  Subject:   The generator `stream_message`, from one suspension to the next
             (apps/api/app/employee_agent/service.py).

  A `Point` is where the generator is suspended: at a `yield`, or at an `await` of a
  transaction or of the answer. What it does between two points is one step. At each of
  them it may be resumed, an exception may come out of what it awaits, its task may be
  cancelled; at a `yield` its consumer may close it.
-/
import Helpdesk.EmployeeAgent.Repository
import Helpdesk.Python.Text
import Mathlib.Data.Rat.Defs

namespace Helpdesk.EmployeeAgent

open Helpdesk.Python

/-! ## 1. Answers -/

structure Settings where
  minimumEvidenceScore : Rat
  streamChunkCharacters : Nat
  /-- the regular expressions of safety.py -/
  containsPromptInjection : String → Bool
  requiresImmediateEscalation : String → Bool

structure Evidence where
  score : Rat
  contentText : String
  documentTitle : String
  sourceType : String
  canonicalUri : Option String
  sectionTitle : Option String
  sectionAnchor : Option String
  pageNumber : Option Nat

/-- What comes of `generate_with_run`. -/
inductive Generation where
  | unavailable
  | result (text : String) (toolRequests : Bool) (agentRunId : Uuid)

/-- What comes of `retrieval.evidence`, and of the generation that it leads to. -/
inductive Retrieved where
  | unavailable
  | evidence (items : List Evidence) (configurationVersionId : Uuid) (generation : Generation)

def escalationAnswer (text : String) : AgentAnswer where
  text
  state := .collectingTicketFields
  outcome := .escalationRecommended
  citations := []
  retrievalConfigurationVersionId := none
  agentRunId := none

def unavailableAnswer (retrievalConfigurationVersionId : Option Uuid) : AgentAnswer where
  text := "The assistant is unavailable right now. Ticketing remains available through the " ++
    "service catalogue. No ticket has been created or submitted."
  state := .collectingTicketFields
  outcome := .aiUnavailable
  citations := []
  retrievalConfigurationVersionId
  agentRunId := none

/-- `_citation`. -/
def citation (index : Nat) (item : Evidence) : Citation where
  label := "[" ++ toString index ++ "]"
  documentTitle := item.documentTitle
  sourceType := item.sourceType
  canonicalUri := item.canonicalUri
  sectionTitle := item.sectionTitle
  sectionAnchor := item.sectionAnchor
  pageNumber := item.pageNumber

/-- What follows a match of `\[\d{1,3}\]` that begins with a bracket before the text. -/
def afterMarker? : List Char → Option (List Char)
  | a :: ']' :: rest => if (decimalDigit? a).isSome then some rest else none
  | a :: b :: ']' :: rest =>
      if (decimalDigit? a).isSome && (decimalDigit? b).isSome then some rest else none
  | a :: b :: c :: ']' :: rest =>
      if (decimalDigit? a).isSome && (decimalDigit? b).isSome && (decimalDigit? c).isSome then
        some rest
      else none
  | _ => none

/-- What a match consists of. -/
theorem afterMarker?_reads {s rest : List Char} : afterMarker? s = some rest ↔
    ∃ ds, ds ≠ [] ∧ (∀ d ∈ ds, (decimalDigit? d).isSome = true) ∧ ds.length ≤ 3 ∧
      s = ds ++ ']' :: rest := by
  constructor
  · intro h
    unfold afterMarker? at h
    split at h
    case h_1 a after =>
      split at h
      case isFalse => cases h
      case isTrue ha =>
        obtain rfl := Option.some.inj h
        exact ⟨[a], by simp, by simpa using ha, by simp, rfl⟩
    case h_2 a b after hb =>
      split at h
      case isFalse => cases h
      case isTrue hab =>
        obtain rfl := Option.some.inj h
        exact ⟨[a, b], by simp, by simpa using hab, by simp, rfl⟩
    case h_3 a b c after hb hc =>
      split at h
      case isFalse => cases h
      case isTrue habc =>
        obtain rfl := Option.some.inj h
        exact ⟨[a, b, c], by simp, by simpa [and_assoc] using habc, by simp, rfl⟩
    case h_4 => cases h
  · intro ⟨ds, hne, hall, hlength, hs⟩
    subst hs
    -- a digit is no closing bracket, so a match ends at the first one
    have hclose : ∀ d ∈ ds, d ≠ ']' := by
      intro d hd hbracket
      subst hbracket
      exact absurd (hall ']' hd) (by decide)
    match ds, hne, hlength with
    | [a], _, _ => simp [afterMarker?, hall a]
    | [a, b], _, _ =>
      have hb := hclose b (by simp)
      simp [afterMarker?, hall a, hall b]
    | [a, b, c], _, _ =>
      have hb := hclose b (by simp)
      have hc := hclose c (by simp)
      simp [afterMarker?, hall a, hall b, hall c]

/-- `_CITATION_MARKER.sub("", text)`; the fuel is the length. -/
def withoutMarkers : Nat → List Char → List Char
  | 0, text => text
  | _, [] => []
  | fuel + 1, c :: cs =>
      match if c = '[' then afterMarker? cs else none with
      | some rest => withoutMarkers fuel rest
      | none => c :: withoutMarkers fuel cs

/-- `_CITATION_MARKER.sub("", text).strip()`. -/
def providerText (text : String) : String :=
  stripText (String.ofList (withoutMarkers text.length text.toList))

/-- The machine goes to the ticket workflow with an answer that says so. -/
def escalated (machine : AgentState) (answer : AgentAnswer) : Option (AgentState × AgentAnswer) :=
  (advance machine .collectingTicketFields).map (·, answer)

/-- `_answer`: the state of the machine and the answer; `none` is the
    `InvalidAgentTransition` of the machine. -/
def answer (settings : Settings) (machine : AgentState) (retrieved : Retrieved) :
    Option (AgentState × AgentAnswer) :=
  match retrieved with
  | .unavailable => escalated machine (unavailableAnswer none)
  | .evidence items version generation =>
      let evidence := items.filter fun item =>
        settings.minimumEvidenceScore ≤ item.score &&
          !settings.containsPromptInjection item.contentText
      if evidence = [] then
        escalated machine
          { escalationAnswer ("I couldn’t find sufficient approved employee evidence for a safe " ++
              "answer. Please continue with the deterministic service-catalogue ticket workflow. " ++
              "No ticket has been created or submitted.") with
            retrievalConfigurationVersionId := some version }
      else
        match generation with
        | .unavailable => escalated machine (unavailableAnswer (some version))
        | .result text toolRequests agentRunId =>
            if toolRequests then
              escalated machine
                { text := "I couldn’t validate the requested tool result safely. Please use the " ++
                    "deterministic ticket workflow. No ticket has been created or submitted."
                  state := .collectingTicketFields
                  outcome := .safeRefusal
                  citations := []
                  retrievalConfigurationVersionId := some version
                  agentRunId := some agentRunId }
            else if providerText text = "" then
              escalated machine
                { escalationAnswer ("The approved provider returned no usable answer. Please " ++
                    "continue with the deterministic ticket workflow. No ticket has been created " ++
                    "or submitted.") with
                  retrievalConfigurationVersionId := some version
                  agentRunId := some agentRunId }
            else do
              let citations := evidence.mapIdx fun index item => citation (index + 1) item
              let machine ← advance machine .solutionProposed
              let machine ← advance machine .awaitingResolutionConfirmation
              return (machine,
                { text := "Based on approved employee evidence " ++
                    String.intercalate ", " (citations.map (·.label)) ++ ": " ++
                    providerText text ++ "\n\nDid this resolve the issue?"
                  state := .awaitingResolutionConfirmation
                  outcome := .resolutionProposed
                  citations
                  retrievalConfigurationVersionId := some version
                  agentRunId := some agentRunId })

/-! ## 2. Points -/

/-- What is yielded; each event carries its turn as well. -/
inductive StreamEvent where
  | state (state : AgentState)
  | citation (citation : Citation)
  | delta (text : String)
  | done (state : AgentState) (outcome : TurnOutcome)
  | cancelled
  deriving DecidableEq, Repr

/-- Where the generator is suspended after `start_turn` is committed. -/
inductive Point where
  /-- not yet in the `try`: the session is closed, the turn is registered for cancellation -/
  | opened (machine : AgentState)
  /-- at the `yield` of COLLECTING_INFORMATION, then of the next two states -/
  | collecting (machine : AgentState)
  | classified (machine : AgentState)
  | searching (machine : AgentState)
  /-- awaits `_answer_with_cancellation` -/
  | answering (machine : AgentState)
  /-- at the `yield` of a citation or a chunk, with those that follow -/
  | streaming (answer : AgentAnswer) (events : List StreamEvent)
  /-- awaits the transaction of `finish_turn` -/
  | finishing (answer : AgentAnswer)
  /-- at the `yield` of `done` -/
  | done
  /-- `except _TurnCancelled`: at its `yield` -/
  | cancelled
  /-- `except asyncio.CancelledError`: awaits `_cancel` -/
  | cancelling
  /-- `except Exception`: awaits `_fail` -/
  | failing
  | ended
  deriving DecidableEq, Repr

/-- The points inside the `try`. -/
def Point.inTry : Point → Bool
  | .collecting _ | .classified _ | .searching _ | .answering _ | .streaming _ _ | .finishing _
  | .done => true
  | .opened _ | .cancelled | .cancelling | .failing | .ended => false

/-- The points at a `yield`. -/
def Point.yields : Point → Bool
  | .collecting _ | .classified _ | .searching _ | .streaming _ _ | .done | .cancelled => true
  | .opened _ | .answering _ | .finishing _ | .cancelling | .failing | .ended => false

/-- `_chunks`. -/
def chunks (value : String) (size : Nat) : List String :=
  (value.toList.toChunks size).map String.ofList

/-- The first event of an answer, or the transaction after the last. -/
@[irreducible] def stream (settings : Settings) (answer : AgentAnswer) : Point :=
  match answer.citations.map .citation ++
      (chunks answer.text settings.streamChunkCharacters).map .delta with
  | [] => .finishing answer
  | _ :: events => .streaming answer events

/-- The generator after a transition of the machine; it fails if there is none. -/
def advanced (machine target : AgentState) (next : AgentState → Point) : Point :=
  match advance machine target with
  | some machine => next machine
  | none => .failing

/-- What the generator does when it is resumed. -/
def resume (settings : Settings) (content : String) : Point → Option Point
  | .opened machine =>
      if machine = .new ∨ machine = .awaitingResolutionConfirmation then
        some (advanced machine .collectingInformation .collecting)
      else some (.collecting machine)
  | .collecting machine =>
      if machine = .collectingTicketFields then
        some (stream settings (escalationAnswer ("Continue with the deterministic " ++
          "service-catalogue ticket workflow. No ticket has been created or submitted.")))
      else some (advanced machine .classified .classified)
  | .classified machine =>
      if settings.containsPromptInjection content then
        some (advanced machine .collectingTicketFields fun _ => stream settings
          { escalationAnswer ("I can’t follow instructions that attempt to change my security " ++
              "rules. Please restate the helpdesk issue without system, secret, or tool " ++
              "instructions. No ticket has been created or submitted.") with
            outcome := .safeRefusal })
      else if settings.requiresImmediateEscalation content then
        some (advanced machine .collectingTicketFields fun _ => stream settings
          (escalationAnswer ("This issue needs human helpdesk review because it may be " ++
            "security-sensitive, privileged, financially significant, or broadly disruptive. " ++
            "No ticket has been created or submitted.")))
      else some (advanced machine .searchingKnowledge .searching)
  | .searching machine => some (.answering machine)
  | .streaming answer [] => some (.finishing answer)
  | .streaming answer (_ :: events) => some (.streaming answer events)
  | .done | .cancelled => some .ended
  | .answering _ | .finishing _ | .cancelling | .failing | .ended => none

/-- What happens to a suspended generator. -/
inductive StreamStep where
  | resume
  /-- `_answer` returns -/
  | answered (retrieved : Retrieved)
  /-- the time of the turn is over -/
  | timeout
  /-- `_TurnCancelled`: a cancellation was requested, or the watcher saw that the turn is not
      active any more -/
  | turnCancelled
  /-- the transaction of `finish_turn` -/
  | finish
  /-- an `Exception` comes out of what is awaited, or is thrown in -/
  | fail
  /-- the task is cancelled -/
  | cancel
  /-- the consumer closes the generator -/
  | close
  /-- the transaction of the handler -/
  | handle

/-- What a step does: where the generator is then, and the rows. -/
def streamStep (settings : Settings) (content : String) (turnId : Uuid) (point : Point) (store : Store) :
    StreamStep → Option (Point × Store)
  | .resume => (resume settings content point).map (·, store)
  | .answered retrieved =>
      match point with
      | .answering machine =>
          match answer settings machine retrieved with
          | some (_, answer) => some (stream settings answer, store)
          | none => some (.failing, store)
      | _ => none
  | .timeout =>
      match point with
      | .answering machine =>
          some (advanced machine .collectingTicketFields
            fun _ => stream settings (unavailableAnswer none), store)
      | _ => none
  | .turnCancelled =>
      match point with
      | .answering _ => if store.turnActive turnId then none else some (.cancelled, store)
      | _ => none
  | .finish =>
      match point with
      | .finishing answer =>
          match finishTurn turnId answer store with
          | some store => some (.done, store)
          | none => some (.failing, store)
      | _ => none
  | .fail =>
      if point.inTry then some (.failing, store)
      else match point with
        | .opened _ | .cancelled => some (.ended, store)
        | _ => none
  | .cancel =>
      if point.inTry then some (.cancelling, store)
      else match point with
        | .opened _ | .cancelled => some (.ended, store)
        | _ => none
  | .close => if point.yields then some (.ended, store) else none
  | .handle =>
      match point with
      | .cancelling => some (.ended, (cancelTurn turnId store).getD store)
      | .failing => some (.ended, failTurn turnId "TURN_FAILED" store)
      | _ => none

/-! ## 3. What a step can do -/

variable {settings : Settings} {content : String} {turnId : Uuid} {point point' : Point}
  {store store' : Store}

/-- **What a step of a generator has done.** -/
inductive StreamStepped (settings : Settings) (content : String) (turnId : Uuid) (point : Point)
    (store : Store) : StreamStep → Point → Store → Prop where
  | resumed {point' : Point} (hresume : resume settings content point = some point') :
      StreamStepped settings content turnId point store .resume point' store
  | answered {machine machine' : AgentState} {retrieved : Retrieved} {a : AgentAnswer}
      (hpoint : point = .answering machine)
      (hanswer : answer settings machine retrieved = some (machine', a)) :
      StreamStepped settings content turnId point store (.answered retrieved) (stream settings a) store
  | unanswered {machine : AgentState} {retrieved : Retrieved} (hpoint : point = .answering machine) :
      StreamStepped settings content turnId point store (.answered retrieved) .failing store
  | timedOut {machine : AgentState} (hpoint : point = .answering machine) :
      StreamStepped settings content turnId point store .timeout
        (advanced machine .collectingTicketFields
          fun _ => stream settings (unavailableAnswer none)) store
  | turnCancelled {machine : AgentState} (hpoint : point = .answering machine)
      (hactive : store.turnActive turnId = false) :
      StreamStepped settings content turnId point store .turnCancelled .cancelled store
  | finished {a : AgentAnswer} {store' : Store} (hpoint : point = .finishing a)
      (hfinish : finishTurn turnId a store = some store') :
      StreamStepped settings content turnId point store .finish .done store'
  | unfinished {a : AgentAnswer} (hpoint : point = .finishing a) :
      StreamStepped settings content turnId point store .finish .failing store
  | failed (htry : point.inTry = true) :
      StreamStepped settings content turnId point store .fail .failing store
  | cancelled (htry : point.inTry = true) :
      StreamStepped settings content turnId point store .cancel .cancelling store
  | left {step : StreamStep} (hstep : step = .fail ∨ step = .cancel)
      (hpoint : (∃ machine, point = .opened machine) ∨ point = .cancelled) :
      StreamStepped settings content turnId point store step .ended store
  | closed (hyields : point.yields = true) :
      StreamStepped settings content turnId point store .close .ended store
  | handledCancel (hpoint : point = .cancelling) :
      StreamStepped settings content turnId point store .handle .ended
        ((cancelTurn turnId store).getD store)
  | handledFail (hpoint : point = .failing) :
      StreamStepped settings content turnId point store .handle .ended
        (failTurn turnId "TURN_FAILED" store)

theorem streamStep_stepped {step : StreamStep}
    (h : streamStep settings content turnId point store step = some (point', store')) :
    StreamStepped settings content turnId point store step point' store' := by
  cases step with
  | resume =>
      obtain ⟨_, hresume, h⟩ := Option.map_eq_some_iff.mp h
      cases h
      exact .resumed hresume
  | answered retrieved =>
      simp only [streamStep] at h
      split at h
      · split at h
        · next hanswer =>
            cases h
            exact .answered rfl hanswer
        · cases h
          exact .unanswered rfl
      · cases h
  | timeout =>
      simp only [streamStep] at h
      split at h
      · cases h
        exact .timedOut rfl
      · cases h
  | turnCancelled =>
      simp only [streamStep] at h
      split at h
      · split at h
        · cases h
        · next hactive =>
            cases h
            exact .turnCancelled rfl (by simpa using hactive)
      · cases h
  | finish =>
      simp only [streamStep] at h
      split at h
      · split at h
        · next hfinish =>
            cases h
            exact .finished rfl hfinish
        · cases h
          exact .unfinished rfl
      · cases h
  | fail =>
      simp only [streamStep] at h
      split at h
      · next htry =>
          cases h
          exact .failed htry
      · split at h
        · cases h
          exact .left (.inl rfl) (.inl ⟨_, rfl⟩)
        · cases h
          exact .left (.inl rfl) (.inr rfl)
        · cases h
  | cancel =>
      simp only [streamStep] at h
      split at h
      · next htry =>
          cases h
          exact .cancelled htry
      · split at h
        · cases h
          exact .left (.inr rfl) (.inl ⟨_, rfl⟩)
        · cases h
          exact .left (.inr rfl) (.inr rfl)
        · cases h
  | close =>
      simp only [streamStep] at h
      split at h
      · next hyields =>
          cases h
          exact .closed hyields
      · cases h
  | handle =>
      simp only [streamStep] at h
      split at h
      · cases h
        exact .handledCancel rfl
      · cases h
        exact .handledFail rfl
      · cases h

/-! ## 4. Answers are final -/

/-- The states a turn may end in. -/
def AgentAnswer.Final (a : AgentAnswer) : Prop :=
  a.state = .collectingTicketFields ∨ a.state = .awaitingResolutionConfirmation

theorem escalated_final {machine machine' : AgentState} {a a' : AgentAnswer}
    (h : escalated machine a' = some (machine', a)) (ha : a'.state = .collectingTicketFields) :
    a.Final := by
  obtain ⟨_, _, h⟩ := Option.map_eq_some_iff.mp h
  cases h
  exact .inl ha

theorem answer_final {machine machine' : AgentState} {retrieved : Retrieved} {a : AgentAnswer}
    (h : answer settings machine retrieved = some (machine', a)) : a.Final := by
  unfold answer at h
  split at h
  · exact escalated_final h rfl
  · dsimp only at h
    split at h
    · exact escalated_final h rfl
    · split at h
      · exact escalated_final h rfl
      · split at h
        · exact escalated_final h rfl
        · split at h
          · exact escalated_final h rfl
          · simp only [Option.bind_eq_bind, Option.bind_eq_some_iff] at h
            obtain ⟨_, _, _, _, h⟩ := h
            cases h
            exact .inr rfl

/-- The answer that a point goes on with is final. -/
def Point.Sound : Point → Prop
  | .streaming a _ | .finishing a => a.Final
  | .opened _ | .collecting _ | .classified _ | .searching _ | .answering _ | .done | .cancelled
  | .cancelling | .failing | .ended => True

theorem stream_sound {a : AgentAnswer} (h : a.Final) : (stream settings a).Sound := by
  unfold stream
  split
  · exact h
  · exact h

theorem advanced_sound {machine target : AgentState} {next : AgentState → Point}
    (hnext : ∀ machine, (next machine).Sound) : (advanced machine target next).Sound := by
  unfold advanced
  split
  · exact hnext _
  · trivial

theorem escalationAnswer_final (text : String) : (escalationAnswer text).Final := .inl rfl

theorem unavailableAnswer_final (version : Option Uuid) : (unavailableAnswer version).Final := .inl rfl

theorem resume_sound (hpoint : point.Sound) (h : resume settings content point = some point') :
    point'.Sound := by
  unfold resume at h
  split at h
  · split at h
    · obtain rfl := Option.some.inj h
      exact advanced_sound fun _ => trivial
    · obtain rfl := Option.some.inj h
      trivial
  · split at h
    · obtain rfl := Option.some.inj h
      exact stream_sound (escalationAnswer_final _)
    · obtain rfl := Option.some.inj h
      exact advanced_sound fun _ => trivial
  · split at h
    · obtain rfl := Option.some.inj h
      exact advanced_sound fun _ => stream_sound (.inl rfl)
    · split at h
      · obtain rfl := Option.some.inj h
        exact advanced_sound fun _ => stream_sound (escalationAnswer_final _)
      · obtain rfl := Option.some.inj h
        exact advanced_sound fun _ => trivial
  · obtain rfl := Option.some.inj h
    trivial
  · obtain rfl := Option.some.inj h
    exact hpoint
  · obtain rfl := Option.some.inj h
    exact hpoint
  · obtain rfl := Option.some.inj h
    trivial
  · obtain rfl := Option.some.inj h
    trivial
  all_goals cases h

theorem StreamStepped.sound {step : StreamStep} (hpoint : point.Sound)
    (h : StreamStepped settings content turnId point store step point' store') : point'.Sound := by
  cases h with
  | resumed hresume => exact resume_sound hpoint hresume
  | answered _ hanswer => exact stream_sound (answer_final hanswer)
  | timedOut => exact advanced_sound fun _ => stream_sound (unavailableAnswer_final none)
  | unanswered | turnCancelled | finished | unfinished | failed | cancelled | left | closed
  | handledCancel | handledFail => trivial

end Helpdesk.EmployeeAgent
