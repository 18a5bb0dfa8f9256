/-
  File:      Helpdesk/EmployeeAgent/Context.lean
  Subject:   What the provider is given of a conversation
             (apps/api/app/employee_agent/service.py, `_answer`, `_bounded_context`;
             repository.py, `start_turn`).

  `start_turn` records the message and reads the newest messages of the conversation,
  that one among them. What is safe of them is gone through from the newest on, and a
  message that does not fit any more is skipped, the current one like any other: nothing
  else brings it to the provider.

  * `keep_sublist`, `keep_total`, `mem_keep_fits`: what the window keeps;
  * `answering_safe`: a generator that awaits its answer has a message without a forbidden
    phrase, over every run;
  * `provider_messages_law`: what is retained, and when the current message is;
    `long_message_left_out` is a message that is not.
-/
import Helpdesk.EmployeeAgent.CitationMarkers
import Helpdesk.EmployeeAgent.EvidenceBlocks
import Helpdesk.Lib.Runs
import Mathlib.Algebra.GroupWithZero.Nat

namespace Helpdesk.EmployeeAgent

open Helpdesk.Python

/-! ## 1. Messages -/

/-- A row of `ai.message`. -/
structure MessageRow where
  roleCode : String
  contentText : Option String
  deriving DecidableEq, Repr

/-- A message as the provider sees it. -/
structure Message where
  role : String
  content : String
  deriving DecidableEq, Repr

/-- `ai_conversation_max_messages` and `ai_conversation_max_context_characters`. -/
structure ConversationLimits where
  maxMessages : Nat
  maxContextCharacters : Nat
  messages_bounds : 2 ≤ maxMessages ∧ maxMessages ≤ 100
  characters_bounds : 1000 ≤ maxContextCharacters ∧ maxContextCharacters ≤ 100000

/-- `_role`. -/
def role (code : String) : String :=
  if code = "USER" then "user" else if code = "ASSISTANT" then "assistant" else "system"

def MessageRow.message? (row : MessageRow) : Option Message :=
  row.contentText.map fun content => ⟨role row.roleCode, content⟩

/-- The message of the employee. -/
def currentMessage (content : String) : Message := ⟨"user", content⟩

/-- The history of `start_turn`: `content` is inserted, and the newest messages with a text
    are read. `later` are the rows that count as newer than the inserted one: there are none,
    unless a transaction of the conversation began after this one and was committed before
    this one took its lock. -/
def history (limits : ConversationLimits) (earlier : List MessageRow) (content : String)
    (later : List MessageRow) : List Message :=
  let rows := earlier ++ [⟨"USER", some content⟩] ++ later
  ((rows.filterMap MessageRow.message?).reverse.take limits.maxMessages).reverse

/-- `safe_context`. -/
def safeContext (settings : Settings) (messages : List Message) : List Message :=
  messages.filter fun message =>
    message.role ≠ "user" || !settings.containsPromptInjection message.content

/-- One step of `_bounded_context`: what is selected, and how much is used. -/
def boundedStep (maximum : Nat) (state : List Message × Nat) (message : Message) :
    List Message × Nat :=
  if state.2 + message.content.length > maximum then state
  else (state.1 ++ [message], state.2 + message.content.length)

/-- `_bounded_context`. -/
def boundedContext (messages : List Message) (maximum : Nat) : List Message :=
  (messages.reverse.foldl (boundedStep maximum) ([], 0)).1.reverse

/-- The evidence of `_answer`. -/
def usableEvidence (settings : Settings) (items : List Evidence) : List Evidence :=
  items.filter fun item =>
    settings.minimumEvidenceScore ≤ item.score &&
      !settings.containsPromptInjection item.contentText

/-- The messages `_answer` calls the provider with; `none` is the answer without a call. -/
def providerMessages (settings : Settings) (limits : ConversationLimits)
    (history : List Message) (items : List Evidence) : Option (List Message) :=
  let evidence := usableEvidence settings items
  if evidence = [] then none
  else
    some (boundedContext (safeContext settings history) limits.maxContextCharacters ++
      [⟨"user", evidencePrompt evidence⟩])

/-! ## 2. The window -/

variable {settings : Settings} {limits : ConversationLimits} {message : Message}
  {messages : List Message} {maximum used : Nat}

/-- What is kept of messages from the newest on, when so much is used already. -/
def keep (maximum : Nat) : Nat → List Message → List Message
  | _, [] => []
  | used, message :: messages =>
      if used + message.content.length > maximum then keep maximum used messages
      else message :: keep maximum (used + message.content.length) messages

/-- The length of all contents. -/
def totalLength (messages : List Message) : Nat := (messages.map (·.content.length)).sum

theorem foldl_boundedStep (maximum : Nat) (messages selected : List Message) (used : Nat) :
    (messages.foldl (boundedStep maximum) (selected, used)).1 =
      selected ++ keep maximum used messages := by
  induction messages generalizing selected used with
  | nil => rw [keep, List.append_nil]; rfl
  | cons message messages ih =>
    rw [List.foldl_cons, keep, boundedStep]
    split
    · exact ih selected used
    · rw [ih, List.append_assoc]; rfl

theorem boundedContext_eq : boundedContext messages maximum = (keep maximum 0 messages.reverse).reverse := by
  rw [boundedContext, foldl_boundedStep, List.nil_append]

/-- What is kept is in its order. -/
theorem keep_sublist (maximum : Nat) (messages : List Message) :
    ∀ used, (keep maximum used messages).Sublist messages := by
  induction messages with
  | nil => exact fun _ => .slnil
  | cons message messages ih =>
    intro used
    rw [keep]
    split
    · exact (ih used).cons _
    · exact (ih _).cons_cons _

/-- What is kept fits with what is used. -/
theorem keep_total (messages : List Message) :
    ∀ used ≤ maximum, used + totalLength (keep maximum used messages) ≤ maximum := by
  induction messages with
  | nil => exact fun used h => h
  | cons message messages ih =>
    intro used hused
    rw [keep]
    split
    · exact ih used hused
    · next hfits =>
      have hrest := ih (used + message.content.length) (by omega)
      simp only [totalLength, List.map_cons, List.sum_cons] at hrest ⊢
      omega

/-- No message is kept that is too long by itself. -/
theorem mem_keep_fits : ∀ {messages : List Message} {used : Nat},
    message ∈ keep maximum used messages → message.content.length ≤ maximum
  | [], _, h => nomatch h
  | newest :: messages, used, h => by
    rw [keep] at h
    split at h
    · exact mem_keep_fits h
    · next hfits =>
      rcases List.mem_cons.mp h with rfl | hmem
      · omega
      · exact mem_keep_fits hmem

/-- A message is kept if it fits with everything newer. -/
theorem mem_keep (newer older : List Message) :
    ∀ used, used + totalLength newer + message.content.length ≤ maximum →
      message ∈ keep maximum used (newer ++ message :: older) := by
  induction newer with
  | nil =>
    intro used hfits
    rw [totalLength, List.map_nil, List.sum_nil, Nat.add_zero] at hfits
    rw [List.nil_append, keep, if_neg (by omega)]
    exact List.mem_cons_self
  | cons newest newer ih =>
    intro used hfits
    rw [totalLength, List.map_cons, List.sum_cons] at hfits
    rw [List.cons_append, keep, if_neg (by omega)]
    exact List.mem_cons_of_mem _ (ih _ (by rw [totalLength]; omega))

theorem boundedContext_sublist : (boundedContext messages maximum).Sublist messages := by
  rw [boundedContext_eq]
  simpa using (keep_sublist maximum messages.reverse 0).reverse

theorem boundedContext_total : totalLength (boundedContext messages maximum) ≤ maximum := by
  have htotal := keep_total messages.reverse 0 (Nat.zero_le maximum)
  rw [boundedContext_eq, totalLength, List.map_reverse, List.sum_reverse]
  rwa [Nat.zero_add] at htotal

theorem totalLength_safeContext (settings : Settings) (messages : List Message) :
    totalLength (safeContext settings messages) ≤ totalLength messages := by
  induction messages with
  | nil => exact Nat.le_refl _
  | cons message messages ih =>
    rw [safeContext, List.filter_cons]
    rw [safeContext] at ih
    split
    · simp only [totalLength, List.map_cons, List.sum_cons] at ih ⊢
      omega
    · simp only [totalLength, List.map_cons, List.sum_cons] at ih ⊢
      omega

/-! ## 3. The generator that awaits its answer -/

variable {content : String} {turnId : Uuid} {point point' : Point} {store store' : Store}

/-- A generator on its way to the answer has a message without a forbidden phrase. -/
def Point.Asks (settings : Settings) (content : String) : Point → Prop
  | .searching _ | .answering _ => settings.containsPromptInjection content = false
  | .opened _ | .collecting _ | .classified _ | .streaming _ _ | .finishing _ | .done | .cancelled
  | .cancelling | .failing | .ended => True

theorem stream_asks (settings : Settings) (content : String) (a : AgentAnswer) :
    (stream settings a).Asks settings content := by
  unfold stream
  split
  · trivial
  · trivial

theorem advanced_asks {machine target : AgentState} {next : AgentState → Point}
    (hnext : ∀ machine, (next machine).Asks settings content) :
    (advanced machine target next).Asks settings content := by
  unfold advanced
  split
  · exact hnext _
  · trivial

theorem resume_asks (hpoint : point.Asks settings content)
    (h : resume settings content point = some point') : point'.Asks settings content := by
  unfold resume at h
  split at h
  · split at h
    · obtain rfl := Option.some.inj h
      exact advanced_asks fun _ => trivial
    · obtain rfl := Option.some.inj h
      trivial
  · split at h
    · obtain rfl := Option.some.inj h
      exact stream_asks _ _ _
    · obtain rfl := Option.some.inj h
      exact advanced_asks fun _ => trivial
  · split at h
    · obtain rfl := Option.some.inj h
      exact advanced_asks fun _ => stream_asks _ _ _
    · next hsafe =>
      rw [Bool.not_eq_true] at hsafe
      split at h
      · obtain rfl := Option.some.inj h
        exact advanced_asks fun _ => stream_asks _ _ _
      · obtain rfl := Option.some.inj h
        exact advanced_asks fun _ => hsafe
  · obtain rfl := Option.some.inj h
    exact hpoint
  · obtain rfl := Option.some.inj h
    trivial
  · obtain rfl := Option.some.inj h
    trivial
  · obtain rfl := Option.some.inj h
    trivial
  · obtain rfl := Option.some.inj h
    trivial
  all_goals cases h

theorem stepped_asks {step : StreamStep} (hpoint : point.Asks settings content)
    (h : StreamStepped settings content turnId point store step point' store') :
    point'.Asks settings content := by
  cases h with
  | resumed hresume => exact resume_asks hpoint hresume
  | answered => exact stream_asks _ _ _
  | timedOut => exact advanced_asks fun _ => stream_asks _ _ _
  | _ => trivial

/-- The steps of one generator. -/
def generatorStep (settings : Settings) (content : String) (turnId : Uuid) (s : Point × Store)
    (step : StreamStep) : Option (Point × Store) :=
  streamStep settings content turnId s.1 s.2 step

/-- **Over every run** the answer is awaited for a message without a forbidden phrase only. -/
theorem answering_safe {machine machine' : AgentState} {steps : List StreamStep}
    (h : Run (fun s step s' => generatorStep settings content turnId s step = some s')
      (.opened machine, store) steps (.answering machine', store')) :
    settings.containsPromptInjection content = false := by
  have hasks : Point.Asks settings content (.answering machine') :=
    h.invariant (I := fun s => s.1.Asks settings content) trivial fun _ _ _ hs hstep =>
      stepped_asks hs (streamStep_stepped hstep)
  exact hasks

/-! ## 4. The law -/

/-- The messages that count as newer than the current one. -/
def laterMessages (later : List MessageRow) : List Message := later.filterMap MessageRow.message?

/-- The history has the newer messages at its end, and the current one before them if they
    leave room for it. -/
theorem history_split (limits : ConversationLimits) (earlier : List MessageRow) (content : String)
    (later : List MessageRow) (hroom : (laterMessages later).length < limits.maxMessages) :
    ∃ older, history limits earlier content later =
      older ++ currentMessage content :: laterMessages later := by
  have hmessages : (earlier ++ [(⟨"USER", some content⟩ : MessageRow)] ++ later).filterMap
      MessageRow.message? =
      earlier.filterMap MessageRow.message? ++ currentMessage content :: laterMessages later := by
    rw [List.filterMap_append, List.filterMap_append, List.append_assoc]
    rfl
  have htake : ∀ (older newer : List Message) (n : Nat), newer.length < n →
      ∃ front, ((older ++ currentMessage content :: newer).reverse.take n).reverse =
        front ++ currentMessage content :: newer := by
    intro older newer n hn
    refine ⟨(older.reverse.take (n - (newer.length + 1))).reverse, ?_⟩
    rw [List.reverse_append, List.reverse_cons, List.take_append, List.take_of_length_le
      (by simp; omega), List.reverse_append]
    simp
  obtain ⟨older, holder⟩ := htake (earlier.filterMap MessageRow.message?) (laterMessages later)
    limits.maxMessages hroom
  exact ⟨older, by rw [history, hmessages]; exact holder⟩

/-- **The law.** The messages of a call are the retained ones and the evidence prompt. The
    retained ones are safe messages of the history in their order, and are no longer than the
    limit. The current message is one of them if it fits with the newer ones, and, where
    there are none, exactly if it is no longer than the limit itself. -/
theorem provider_messages_law {machine machine' : AgentState} {steps : List StreamStep}
    {earlier later : List MessageRow} {items : List Evidence} {messages : List Message}
    (hrun : Run (fun s step s' => generatorStep settings content turnId s step = some s')
      (.opened machine, store) steps (.answering machine', store'))
    (hcall : providerMessages settings limits (history limits earlier content later) items =
      some messages) :
    ∃ retained, messages = retained ++ [⟨"user", evidencePrompt (usableEvidence settings items)⟩] ∧
      retained.Sublist (safeContext settings (history limits earlier content later)) ∧
      totalLength retained ≤ limits.maxContextCharacters ∧
      ((laterMessages later).length < limits.maxMessages →
        totalLength (laterMessages later) + content.length ≤ limits.maxContextCharacters →
          currentMessage content ∈ retained) ∧
      (later = [] →
        (currentMessage content ∈ retained ↔ content.length ≤ limits.maxContextCharacters)) := by
  have hsafe := answering_safe hrun
  simp only [providerMessages] at hcall
  split at hcall
  case isTrue => cases hcall
  case isFalse =>
    obtain rfl := Option.some.inj hcall
    have hfits : (laterMessages later).length < limits.maxMessages →
        totalLength (laterMessages later) + content.length ≤ limits.maxContextCharacters →
          currentMessage content ∈ boundedContext (safeContext settings
            (history limits earlier content later)) limits.maxContextCharacters := by
      intro hroom hlength
      obtain ⟨older, hhistory⟩ := history_split limits earlier content later hroom
      have hcurrent : safeContext settings (history limits earlier content later) =
          safeContext settings older ++ currentMessage content ::
            safeContext settings (laterMessages later) := by
        rw [hhistory, safeContext, List.filter_append, List.filter_cons_of_pos]
        · rfl
        · simp [currentMessage, hsafe]
      have hnewer : totalLength (safeContext settings (laterMessages later)) ≤
          totalLength (laterMessages later) :=
        totalLength_safeContext _ _
      rw [hcurrent, boundedContext_eq, List.mem_reverse, List.reverse_append, List.reverse_cons,
        List.append_assoc, List.singleton_append]
      refine mem_keep _ _ 0 ?_
      rw [totalLength, List.map_reverse, List.sum_reverse, Nat.zero_add]
      exact Nat.le_trans (Nat.add_le_add_right hnewer _) hlength
    refine ⟨_, rfl, boundedContext_sublist, boundedContext_total, hfits, ?_⟩
    rintro rfl
    constructor
    · intro hmem
      rw [boundedContext_eq, List.mem_reverse] at hmem
      exact mem_keep_fits hmem
    · intro hlength
      refine hfits ?_ ?_
      · have := limits.messages_bounds.1
        exact Nat.lt_of_lt_of_le (by decide) this
      · simpa [laterMessages, totalLength] using hlength

/-- The narrowest limits, a store without turns, and the way to the answer. -/
def narrowLimits : ConversationLimits := ⟨2, 1000, by decide, by decide⟩

def emptyStore : Store := ⟨.new, [], none, none, none, none, 1⟩

def wayToAnswer : List StreamStep := [.resume, .resume, .resume, .resume]

def printerEvidence : List Evidence := [policy "Restart the printer."]

theorem run_to_answer (content : String) :
    Run (fun s step s' => generatorStep plainSettings content 1 s step = some s')
      (.opened .new, emptyStore) wayToAnswer (.answering .searchingKnowledge, emptyStore) :=
  run_of_foldlM rfl

theorem provider_messages_law_printer : ∃ messages,
    providerMessages plainSettings narrowLimits
      (history narrowLimits [] "My printer is jammed." []) printerEvidence = some messages ∧
      currentMessage "My printer is jammed." ∈ messages := by
  have hcall : (providerMessages plainSettings narrowLimits
      (history narrowLimits [] "My printer is jammed." []) printerEvidence).isSome := by
    decide +kernel
  obtain ⟨messages, hmessages⟩ := Option.isSome_iff_exists.mp hcall
  obtain ⟨retained, rfl, -, -, -, hcurrent⟩ :=
    provider_messages_law (run_to_answer "My printer is jammed.") hmessages
  exact ⟨_, hmessages, List.mem_append_left _ ((hcurrent rfl).mpr (by decide))⟩

/-- A message that is longer than the limit is not among the messages, unless it is the
    evidence prompt itself. -/
theorem absent_of_long (hlong : 1000 < content.length)
    (hother : content ≠ evidencePrompt printerEvidence) :
    ∃ messages, providerMessages plainSettings narrowLimits (history narrowLimits [] content [])
        printerEvidence = some messages ∧ currentMessage content ∉ messages := by
  have hwindow : boundedContext (safeContext plainSettings (history narrowLimits [] content []))
      1000 = [] := by
    have honly : safeContext plainSettings (history narrowLimits [] content []) =
        [currentMessage content] := rfl
    rw [honly, boundedContext_eq, List.reverse_singleton, keep, if_pos]
    · rfl
    · rw [currentMessage, Nat.zero_add]
      exact hlong
  have husable : usableEvidence plainSettings printerEvidence = printerEvidence := by
    refine List.filter_eq_self.mpr fun item hitem => ?_
    obtain rfl := List.mem_singleton.mp hitem
    decide +kernel
  have hne : printerEvidence ≠ [] := List.cons_ne_nil _ _
  refine ⟨[⟨"user", evidencePrompt printerEvidence⟩], ?_, ?_⟩
  · simp only [providerMessages, husable]
    rw [if_neg hne]
    exact congrArg (fun window => some (window ++ [_])) hwindow
  · rw [List.mem_singleton, currentMessage]
    exact fun heq => hother (Message.mk.inj heq).2

/-- A message of 1001 characters, which the API accepts, and the limit of 1000. -/
theorem long_message_left_out : ∃ content : String,
    content.length ≤ 4000 ∧
      Run (fun s step s' => generatorStep plainSettings content 1 s step = some s')
        (.opened .new, emptyStore) wayToAnswer (.answering .searchingKnowledge, emptyStore) ∧
      ∃ messages, providerMessages plainSettings narrowLimits
          (history narrowLimits [] content []) printerEvidence = some messages ∧
        currentMessage content ∉ messages := by
  have hlength : (String.ofList ('a' :: List.replicate 1000 'a')).length = 1001 := by
    rw [String.length_ofList, List.length_cons, List.length_replicate]
  have hother : String.ofList ('a' :: List.replicate 1000 'a') ≠ evidencePrompt printerEvidence := by
    intro heq
    have hhead := congrArg (fun s => s.toList.head?) heq
    rw [String.toList_ofList, evidencePrompt, String.toList_ofList] at hhead
    exact absurd (Option.some.inj hhead) (by decide)
  refine ⟨_, ?_, run_to_answer _, absent_of_long ?_ hother⟩
  · rw [hlength]
    decide
  · rw [hlength]
    decide

end Helpdesk.EmployeeAgent
