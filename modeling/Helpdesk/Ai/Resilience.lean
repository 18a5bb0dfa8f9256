/-
  File:      Helpdesk/Ai/Resilience.lean
  Subject:   Provider calls with retries, a fallback and a circuit breaker
             (apps/api/app/ai/resilience.py).

  A provider is anything with two aliases, a request and a result are any values. What a
  provider does with a request is its answer: a result or an exception, `TimeoutError`
  where `asyncio.wait_for` gave up on it. `wait_for` starts the provider's work in the same
  turn in which `permit` gave its lock back. The clock is exact.
-/
import Helpdesk.Lib.Coroutines
import Helpdesk.Python.Dict
import Mathlib.Data.List.Sort

namespace Helpdesk.Ai

open Helpdesk.Python Helpdesk.Coroutines

/-! ## 1. Providers -/

/-- What the executor and the breaker read of a provider. -/
class LLMProvider (π : Type) where
  providerAlias : π → String
  modelAlias : π → String

abbrev ProviderKey := String × String

/-- `_key` -/
def key {π : Type} [LLMProvider π] (provider : π) : ProviderKey :=
  (LLMProvider.providerAlias provider, LLMProvider.modelAlias provider)

/-- The least a provider can be: its aliases. -/
instance : LLMProvider ProviderKey := ⟨Prod.fst, Prod.snd⟩

/-- The exceptions that may leave a call. -/
inductive Failure where
  /-- `ProviderError` -/
  | provider (code : String) (retryable : Bool)
  | timeout
  | assertion
  | other
  deriving DecidableEq, Repr

/-- `except (ProviderError, TimeoutError)` -/
def Failure.isProviderFailure : Failure → Bool
  | .provider _ _ => true
  | .timeout => true
  | _ => false

/-- `CircuitOpenError` -/
def circuitOpenError : Failure := .provider "PROVIDER_CIRCUIT_OPEN" false

/-- Whether a provider is called as the primary one or as the fallback. -/
inductive Leg where
  | primary | fallback
  deriving DecidableEq, Repr

structure ProviderCall (π Q : Type) where
  leg : Leg
  provider : π
  request : Q
  deriving DecidableEq

/-- What the breaker leaves in the log. -/
inductive CircuitNote where
  | opened (key : ProviderKey) (openedAt : Time)
  | succeeded (key : ProviderKey)
  deriving DecidableEq

/-! ## 2. The circuit breaker -/

/-- `_CircuitState` -/
structure CircuitState where
  failures : Nat
  openedAt : Option Time
  deriving DecidableEq

def CircuitState.fresh : CircuitState := ⟨0, none⟩

/-- `self._states` -/
abbrev CircuitStates := List (ProviderKey × CircuitState)

structure CircuitBreaker where
  failureThreshold : Int
  recoverySeconds : Time

inductive CircuitStatus where
  | notObserved | opened | closed
  deriving DecidableEq, Repr

structure CircuitObservation where
  providerAlias : String
  modelAlias : String
  state : CircuitStatus
  recentFailures : Nat
  recoverySecondsRemaining : Option Time
  deriving DecidableEq

/-- A coroutine on the states of one breaker. -/
abbrev CircuitTask (π Q R α : Type) :=
  Coroutine CircuitStates Unit (ProviderCall π Q) (Except Failure R) CircuitNote Failure α

/-- `self._states.setdefault(key, _CircuitState())` -/
def setDefault (states : CircuitStates) (k : ProviderKey) : CircuitStates :=
  match item? states k with
  | some _ => states
  | none => assign states k .fresh

/-- The state that `setdefault` returns. -/
def stateOf (states : CircuitStates) (k : ProviderKey) : CircuitState :=
  (item? states k).getD .fresh

namespace CircuitBreaker

variable {π Q R : Type} [LLMProvider π] (breaker : CircuitBreaker)

def permit (provider : π) : CircuitTask π Q R Unit :=
  .withLock () do
    Coroutine.modify fun states => setDefault states (key provider)
    let states ← Coroutine.get
    match (stateOf states (key provider)).openedAt with
    | none => pure ()
    | some openedAt => do
        let now ← Coroutine.readClock
        if now - openedAt < breaker.recoverySeconds then
          .fail circuitOpenError
        else
          Coroutine.modify fun states => assign states (key provider) ⟨0, none⟩

def success (provider : π) : CircuitTask π Q R Unit :=
  .withLock () do
    Coroutine.modify fun states => assign states (key provider) .fresh
    Coroutine.record (.succeeded (key provider))

def failure (provider : π) : CircuitTask π Q R Unit :=
  .withLock () do
    Coroutine.modify fun states => setDefault states (key provider)
    Coroutine.modify fun states =>
      let state := stateOf states (key provider)
      assign states (key provider) { state with failures := state.failures + 1 }
    let states ← Coroutine.get
    if breaker.failureThreshold ≤ (stateOf states (key provider)).failures then do
      let now ← Coroutine.readClock
      Coroutine.modify fun states =>
        assign states (key provider) { stateOf states (key provider) with openedAt := some now }
      Coroutine.record (.opened (key provider) now)
    else pure ()

/-- The seconds of recovery that remain. -/
def remaining (now : Time) (state : CircuitState) : Option Time :=
  state.openedAt.map fun openedAt => max 0 (breaker.recoverySeconds - (now - openedAt))

/-- One entry of `observations`. -/
def observe (states : CircuitStates) (now : Time) (k : ProviderKey) : CircuitObservation :=
  match item? states k with
  | none => ⟨k.1, k.2, .notObserved, 0, none⟩
  | some state =>
      match breaker.remaining now state with
      | none => ⟨k.1, k.2, .closed, state.failures, none⟩
      | some remaining =>
          if 0 < remaining then ⟨k.1, k.2, .opened, state.failures, some remaining⟩
          else ⟨k.1, k.2, .closed, 0, none⟩

/-- `sorted` of pairs of texts. -/
def keyLe (a b : ProviderKey) : Bool := a.1 < b.1 || (a.1 = b.1 && a.2 ≤ b.2)

def snapshot (known : List ProviderKey) : CircuitTask π Q R (List CircuitObservation) :=
  .withLock () do
    let now ← Coroutine.readClock
    let states ← Coroutine.get
    let keys := (known ++ states.map Prod.fst).dedup.mergeSort keyLe
    pure (keys.map (breaker.observe states now))

end CircuitBreaker

/-! ## 3. The executor -/

structure ResilientProviderExecutor where
  maximumAttempts : Nat
  circuit : CircuitBreaker

namespace ResilientProviderExecutor

variable {π Q R : Type} [LLMProvider π] (executor : ResilientProviderExecutor)

/-- The sleep after a failed attempt, when there is a next one. -/
def backOff (attempt : Nat) : CircuitTask π Q R Unit :=
  if attempt + 1 < executor.maximumAttempts then
    Coroutine.pause (min ((1 / 10) * 2 ^ attempt) 2)
  else pure ()

/-- The loop of `_attempt`, with so many attempts left. -/
def attempts (leg : Leg) (provider : π) (request : Q) :
    Nat → Nat → Option Failure → CircuitTask π Q R R
  | 0, _, none => .fail .assertion
  | 0, _, some lastError => .fail lastError
  | left + 1, attempt, _ => do
      executor.circuit.permit provider
      let answer ← Coroutine.ask ⟨leg, provider, request⟩
      match answer with
      | .error .timeout => do
          executor.circuit.failure provider
          executor.backOff attempt
          attempts leg provider request left (attempt + 1) (some .timeout)
      | .error (.provider code retryable) => do
          executor.circuit.failure provider
          if retryable then do
            executor.backOff attempt
            attempts leg provider request left (attempt + 1) (some (.provider code retryable))
          else .fail (.provider code retryable)
      | .error error => .fail error
      | .ok result => do
          CircuitBreaker.success provider
          pure result

/-- `_attempt` -/
def attempt (leg : Leg) (provider : π) (request : Q) : CircuitTask π Q R R :=
  executor.attempts leg provider request executor.maximumAttempts 0 none

def generate (primary : π) (request : Q) (fallback : Option π) : CircuitTask π Q R R :=
  (executor.attempt .primary primary request).catchError fun error =>
    if error.isProviderFailure then
      match fallback with
      | none => .fail error
      | some fallback => executor.attempt .fallback fallback request
    else .fail error

end ResilientProviderExecutor

/-! ## 4. The calls of one process -/

inductive ResilienceCall (π Q : Type) where
  | generate (primary : π) (request : Q) (fallback : Option π)
  | snapshot (known : List ProviderKey)

inductive ResilienceOutcome (R : Type) where
  | result (result : R)
  | observations (observations : List CircuitObservation)

variable {π Q R : Type} [LLMProvider π] (executor : ResilientProviderExecutor)

def ResilienceCall.coroutine : ResilienceCall π Q → CircuitTask π Q R (ResilienceOutcome R)
  | .generate primary request fallback => do
      let result ← executor.generate primary request fallback
      pure (.result result)
  | .snapshot known => do
      let observations ← executor.circuit.snapshot known
      pure (.observations observations)

end Helpdesk.Ai
