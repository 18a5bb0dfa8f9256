/-
  File:      Helpdesk/Ai/Gateway.lean
  Subject:   Calls of an AI provider under the effective policy (apps/api/app/ai:
             generate_with_run of service.py, with effective_policy, start_run,
             complete_run, fail_run and cancel_run of repository.py).

  A call is a transaction that reads the policy and what was used so far and then
  records a run, the provider's work, and a transaction that records its outcome. A
  table is the list of its rows; `now()` is when a transaction began.
-/
import Helpdesk.Lib.Runs
import Helpdesk.Python.Datetime
import Helpdesk.Python.Uuid
import Mathlib.Data.List.Sort
import Mathlib.Data.Rat.Defs
import Mathlib.Algebra.GroupWithZero.Nat
import Mathlib.Algebra.Ring.Rat

namespace Helpdesk.Ai

open Helpdesk.Python

/-! ## 1. Tables -/

inductive ScopeType where
  | global | tenant | environment | agent | useCase
  deriving DecidableEq, Repr

inductive PolicyApproval where
  | draft | underReview | approved | retired
  deriving DecidableEq, Repr

/-- A row of `ai.feature_policy`. -/
structure FeaturePolicy where
  featurePolicyId : Uuid
  tenantId : Option Uuid
  applicationEnvironmentId : Option Uuid
  agentConfigurationId : Option Uuid
  useCaseCode : Option String
  scopeType : ScopeType
  enabledFlag : Bool
  dailyBudget : Option ℚ
  monthlyBudget : Option ℚ
  hardStopThresholdPercent : Option ℚ
  maximumInputTokens : Option Nat
  maximumOutputTokens : Option Nat
  maximumToolCalls : Option Nat
  perUserRequestsPerMinute : Option Nat
  approvalStatus : PolicyApproval
  effectiveFrom : Option Instant
  effectiveTo : Option Instant
  createdAt : Instant

/-- A version of an agent's configuration with its prompt and its model policy. -/
structure Configuration where
  agentConfigurationId : Uuid
  tenantId : Option Uuid
  agentCode : String
  activeFlag : Bool
  versionNumber : Nat
  versionPublished : Bool
  modelPolicyPublished : Bool
  promptPublished : Bool
  effectiveFrom : Option Instant
  effectiveTo : Option Instant
  promptEffectiveFrom : Option Instant
  promptEffectiveTo : Option Instant
  promptText : String
  providerAlias : String
  modelAlias : String
  fallbackProviderAlias : Option String
  fallbackModelAlias : Option String

inductive RunStatus where
  | running | completed | failed | cancelled
  deriving DecidableEq, Repr

/-- A row of `ai.agent_run`. -/
structure AgentRun where
  runId : Uuid
  tenantId : Uuid
  conversationId : Uuid
  providerName : String
  modelName : String
  runStatus : RunStatus
  startedAt : Instant
  completedAt : Option Instant
  inputTokens : Option Nat
  outputTokens : Option Nat
  latencyMs : Option Nat
  estimatedCost : Option ℚ
  errorCode : Option String

/-- A row of `ai.usage_ledger`. -/
structure LedgerRow where
  tenantId : Uuid
  agentRunId : Uuid
  agentConfigurationId : Uuid
  userId : Uuid
  providerAlias : String
  modelAlias : String
  inputTokens : Nat
  outputTokens : Nat
  cachedTokens : Nat
  toolCallCount : Nat
  estimatedCost : ℚ
  occurredAt : Instant

/-! ## 2. The effective policy -/

/-- `generate_with_run` and the context it is called in. -/
structure Request where
  tenantId : Uuid
  userId : Uuid
  conversationId : Uuid
  agentCode : String
  useCaseCode : String
  environmentId : Option Uuid
  instructions : String
  /-- the values of the messages, as text -/
  messages : List (List String)
  toolCount : Nat

/-- `COALESCE(from, '-infinity') <= now() AND COALESCE(to, 'infinity') > now()`. -/
def inEffect (now : Instant) (effectiveFrom effectiveTo : Option Instant) : Bool :=
  effectiveFrom.all (· ≤ now) && effectiveTo.all (now < ·)

/-- The `WHERE` of `configuration`. -/
def Configuration.selectable (now : Instant) (request : Request) (c : Configuration) : Bool :=
  c.agentCode = request.agentCode && c.activeFlag &&
    (c.tenantId = none || c.tenantId = some request.tenantId) && c.versionPublished &&
    c.modelPolicyPublished && c.promptPublished && inEffect now c.effectiveFrom c.effectiveTo &&
    inEffect now c.promptEffectiveFrom c.promptEffectiveTo

/-- `ORDER BY (tenant_id IS NOT NULL) DESC, version_number DESC`. -/
def configurationOrder (a b : Configuration) : Prop :=
  (a.tenantId.isSome ∧ b.tenantId.isNone) ∨
    a.tenantId.isSome = b.tenantId.isSome ∧ b.versionNumber ≤ a.versionNumber

instance : DecidableRel configurationOrder := fun _ _ => inferInstanceAs (Decidable (_ ∨ _))

/-- The `WHERE` of `applicable`. -/
def FeaturePolicy.applicable (now : Instant) (request : Request) (c : Configuration)
    (p : FeaturePolicy) : Bool :=
  p.approvalStatus = .approved && inEffect now p.effectiveFrom p.effectiveTo &&
    match p.scopeType with
    | .global => true
    | .tenant => p.tenantId = some request.tenantId
    | .agent => p.agentConfigurationId = some c.agentConfigurationId
    | .useCase => p.useCaseCode = some request.useCaseCode &&
        (p.tenantId = none || p.tenantId = some request.tenantId)
    | .environment => p.applicationEnvironmentId.any (some · = request.environmentId)

def ScopeType.precedence : ScopeType → Nat
  | .agent => 4
  | .useCase => 3
  | .environment => 2
  | .tenant => 1
  | .global => 0

/-- `ORDER BY precedence DESC, created_at DESC`. -/
def policyOrder (a b : FeaturePolicy) : Prop :=
  b.scopeType.precedence < a.scopeType.precedence ∨
    a.scopeType.precedence = b.scopeType.precedence ∧ b.createdAt ≤ a.createdAt

instance : DecidableRel policyOrder := fun _ _ => inferInstanceAs (Decidable (_ ∨ _))

/-- `min(column)`, which ignores nulls. -/
def leastOf (column : FeaturePolicy → Option Nat) (policies : List FeaturePolicy) : Option Nat :=
  (policies.filterMap column).min?

/-- The row of `_EFFECTIVE_POLICY`. -/
structure PolicyRow where
  configuration : Configuration
  selected : FeaturePolicy
  enabled : Bool
  maximumInputTokens : Option Nat
  maximumOutputTokens : Option Nat
  maximumToolCalls : Nat
  perUserRequestsPerMinute : Option Nat

/-- `_EFFECTIVE_POLICY`. -/
def policyRow (policies : List FeaturePolicy) (configurations : List Configuration) (now : Instant)
    (request : Request) : Option PolicyRow := do
  let c ← ((configurations.filter (·.selectable now request)).insertionSort configurationOrder).head?
  let applicable := policies.filter (·.applicable now request c)
  let selected ← (applicable.insertionSort policyOrder).head?
  return {
    configuration := c
    selected
    enabled := applicable.all (·.enabledFlag)
    maximumInputTokens := leastOf (·.maximumInputTokens) applicable
    maximumOutputTokens := leastOf (·.maximumOutputTokens) applicable
    maximumToolCalls := (leastOf (·.maximumToolCalls) applicable).getD 0
    perUserRequestsPerMinute := leastOf (·.perUserRequestsPerMinute) applicable }

/-- `interval '1 minute'`. -/
def minute : Int := 60 * second

/-- `recent_requests` of `_BUDGET_AND_RATE`. -/
def recentRequests (ledger : List LedgerRow) (now : Instant) (tenantId userId : Uuid) : Nat :=
  ledger.countP fun row =>
    row.tenantId = tenantId && row.userId = userId && now - minute ≤ row.occurredAt

/-- The cost of a tenant since an instant. -/
def costSince (ledger : List LedgerRow) (tenantId : Uuid) (start : Instant) : ℚ :=
  ((ledger.filter fun row => row.tenantId = tenantId && start ≤ row.occurredAt).map
    (·.estimatedCost)).sum

/-- `date_trunc('day', now())` and `date_trunc('month', now())`. -/
structure Periods where
  day : Instant
  month : Instant

/-- `budget_remaining` of `_BUDGET_AND_RATE`, for the policy that was selected. -/
def budgetRemaining (ledger : List LedgerRow) (periods : Periods) (tenantId : Uuid)
    (policy : FeaturePolicy) : Bool :=
  let share := policy.hardStopThresholdPercent.getD 100 / 100
  !(policy.dailyBudget.any (· * share ≤ costSince ledger tenantId periods.day) ||
    policy.monthlyBudget.any (· * share ≤ costSince ledger tenantId periods.month))

/-- Why a call does not reach a provider: `AIDisabledError` with its message. -/
inductive Refusal where
  | disabled
  | unavailablePolicy
  | providerNotDeployed
  deriving DecidableEq, Repr

def Refusal.message : Refusal → String
  | .disabled => "AI is disabled; use the deterministic ticketing workflow."
  | .unavailablePolicy => "AI is unavailable under the effective policy."
  | .providerNotDeployed => "AI provider policy is not deployed."

structure Settings where
  aiGloballyEnabled : Bool
  /-- the provider and model aliases that `ProviderRegistry.resolve` finds -/
  deployed : String → String → Bool

/-- `_conservative_input_units` of the governed request. -/
def conservativeInputUnits (promptText : String) (request : Request) : Nat :=
  (promptText ++ "\n\n" ++ request.instructions).length +
    ((request.messages.map fun message => (message.map String.length).sum).sum)

/-- A text that is there and not empty. -/
def named (text : Option String) : Bool := text.any (· ≠ "")

/-- `policy.fallback_provider_alias and policy.fallback_model_alias`. -/
def PolicyRow.hasFallback (row : PolicyRow) : Bool :=
  named row.configuration.fallbackProviderAlias && named row.configuration.fallbackModelAlias

/-- What `effective_policy` and `generate_with_run` check before a run is started. -/
def checkPolicy (settings : Settings) (ledger : List LedgerRow) (now : Instant) (periods : Periods)
    (request : Request) (row : PolicyRow) : Except Refusal Unit := do
  if !row.enabled then throw .unavailablePolicy
  if row.perUserRequestsPerMinute.any
      (· ≤ recentRequests ledger now request.tenantId request.userId) then
    throw .unavailablePolicy
  if !budgetRemaining ledger periods request.tenantId row.selected then throw .unavailablePolicy
  if row.maximumInputTokens.any
      (· < conservativeInputUnits row.configuration.promptText request) then
    throw .unavailablePolicy
  if row.maximumToolCalls < request.toolCount then throw .unavailablePolicy
  let c := row.configuration
  if !settings.deployed c.providerAlias c.modelAlias then throw .providerNotDeployed
  if row.hasFallback &&
      !settings.deployed (c.fallbackProviderAlias.getD "") (c.fallbackModelAlias.getD "") then
    throw .providerNotDeployed

/-! ## 3. Calls -/

/-- How far a call has come. -/
inductive Phase where
  /-- its transaction has read the policy -/
  | selected (row : PolicyRow)
  /-- and the budget and the rate, and everything is within limits -/
  | admitted (row : PolicyRow)
  /-- its run is recorded, and the provider works -/
  | running (row : PolicyRow) (runId : Uuid)
  | over

structure Call where
  request : Request
  /-- `now()` of its first transaction -/
  begunAt : Instant
  phase : Phase

/-- A run that was started, for whom and under which limit. -/
structure Started where
  runId : Uuid
  tenantId : Uuid
  userId : Uuid
  startedAt : Instant
  limit : Option Nat
  deriving DecidableEq, Repr

structure World where
  policies : List FeaturePolicy
  configurations : List Configuration
  runs : List AgentRun
  ledger : List LedgerRow
  calls : List Call
  /-- every run so far, in the order they were recorded -/
  started : List Started
  nextId : Uuid

/-- `LLMResult`, as far as it is checked and recorded. -/
structure LLMResult where
  provider : String
  model : String
  toolRequests : Nat
  inputTokens : Nat
  outputTokens : Nat
  cachedTokens : Nat
  costEstimate : ℚ

/-- The code of the `ProviderError` for a result that is not of the policy's providers, or
    that asks for more tools than the policy allows. -/
def LLMResult.errorCode (result : LLMResult) (row : PolicyRow) : Option String :=
  let c := row.configuration
  let allowed := result.provider = c.providerAlias && result.model = c.modelAlias ||
    row.hasFallback && some result.provider = c.fallbackProviderAlias &&
      some result.model = c.fallbackModelAlias
  if !allowed then some "UNEXPECTED_PROVIDER_RESULT"
  else if row.maximumToolCalls < result.toolRequests then some "PROVIDER_TOOL_LIMIT_EXCEEDED"
  else none

/-- The row that `start_run` inserts. -/
def newRun (runId : Uuid) (call : Call) (row : PolicyRow) : AgentRun where
  runId
  tenantId := call.request.tenantId
  conversationId := call.request.conversationId
  providerName := row.configuration.providerAlias
  modelName := row.configuration.modelAlias
  runStatus := .running
  startedAt := call.begunAt
  completedAt := none
  inputTokens := none
  outputTokens := none
  latencyMs := none
  estimatedCost := none
  errorCode := none

/-- `UPDATE ai.agent_run ... WHERE agent_run_id = :run_id`. -/
def World.updateRun (world : World) (runId : Uuid) (change : AgentRun → AgentRun) : World :=
  { world with runs := world.runs.map fun run => if run.runId = runId then change run else run }

/-- `complete_run`: the only statement that writes the ledger. -/
def completeRun (now : Instant) (request : Request) (row : PolicyRow) (runId : Uuid)
    (result : LLMResult) (latencyMs : Nat) (world : World) : World :=
  let world := world.updateRun runId fun run =>
    { run with
      runStatus := .completed
      completedAt := some now
      providerName := result.provider
      modelName := result.model
      inputTokens := some result.inputTokens
      outputTokens := some result.outputTokens
      latencyMs := some latencyMs
      estimatedCost := some result.costEstimate }
  { world with
    ledger := world.ledger ++
      [{ tenantId := request.tenantId
         agentRunId := runId
         agentConfigurationId := row.configuration.agentConfigurationId
         userId := request.userId
         providerAlias := result.provider
         modelAlias := result.model
         inputTokens := result.inputTokens
         outputTokens := result.outputTokens
         cachedTokens := result.cachedTokens
         toolCallCount := result.toolRequests
         estimatedCost := result.costEstimate
         occurredAt := now }] }

/-- `fail_run`. -/
def failRun (now : Instant) (runId : Uuid) (code : String) (world : World) : World :=
  world.updateRun runId fun run =>
    { run with
      runStatus := .failed
      completedAt := some now
      errorCode := some (String.ofList (code.toList.take 100)) }

/-- `cancel_run`. -/
def cancelRun (now : Instant) (runId : Uuid) (world : World) : World :=
  world.updateRun runId fun run =>
    { run with runStatus := .cancelled, completedAt := some now, errorCode := some "CANCELLED" }

/-- How the provider's work ends. -/
inductive Outcome where
  | result (value : LLMResult) (latencyMs : Nat)
  /-- `ProviderError` or `TimeoutError` -/
  | failure (code : String)
  | cancelled

/-- The second transaction of `generate_with_run`. -/
def recordOutcome (now : Instant) (request : Request) (row : PolicyRow) (runId : Uuid)
    (outcome : Outcome) (world : World) : World :=
  match outcome with
  | .result value latencyMs =>
      match value.errorCode row with
      | none => completeRun now request row runId value latencyMs world
      | some code => failRun now runId code world
  | .failure code => failRun now runId code world
  | .cancelled => cancelRun now runId world

inductive Action where
  /-- policies and configurations are administered -/
  | govern (policies : List FeaturePolicy) (configurations : List Configuration)
  | begin (now : Instant) (request : Request)
  | readLimits (index : Nat) (periods : Periods)
  | startRun (index : Nat)
  | finish (index : Nat) (now : Instant) (outcome : Outcome)
  /-- a call is refused, raises or crashes without another trace -/
  | leave (index : Nat)

def World.setPhase (world : World) (index : Nat) (call : Call) (phase : Phase) : World :=
  { world with calls := world.calls.set index { call with phase } }

/-- **One step.** -/
def World.next (settings : Settings) (world : World) (action : Action) : Option World :=
  match action with
  | .govern policies configurations => some { world with policies, configurations }
  | .begin now request => do
      let row ← policyRow world.policies world.configurations now request
      if settings.aiGloballyEnabled then
        some { world with calls := world.calls ++ [⟨request, now, .selected row⟩] }
      else none
  | .readLimits index periods => do
      let call ← world.calls[index]?
      match call.phase with
      | .selected row =>
          match checkPolicy settings world.ledger call.begunAt periods call.request row with
          | .ok _ => some (world.setPhase index call (.admitted row))
          | .error _ => none
      | _ => none
  | .startRun index => do
      let call ← world.calls[index]?
      match call.phase with
      | .admitted row =>
          let world' := world.setPhase index call (.running row world.nextId)
          some { world' with
            runs := world.runs ++ [newRun world.nextId call row]
            started := world.started ++
              [⟨world.nextId, call.request.tenantId, call.request.userId, call.begunAt,
                row.perUserRequestsPerMinute⟩]
            nextId := world.nextId + 1 }
      | _ => none
  | .finish index now outcome => do
      let call ← world.calls[index]?
      match call.phase with
      | .running row runId =>
          some ((recordOutcome now call.request row runId outcome world).setPhase index call .over)
      | _ => none
  | .leave index => do
      let call ← world.calls[index]?
      some (world.setPhase index call .over)

def GatewayStep (settings : Settings) (world : World) (action : Action) (world' : World) : Prop :=
  world.next settings action = some world'

end Helpdesk.Ai
