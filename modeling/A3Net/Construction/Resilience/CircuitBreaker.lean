/-
Each call holds the lock to its end, so that calls of different callers follow one another. Times
are nanoseconds, and a call is given what it reads from the clock. A counter stays below its
threshold or reaches it, so no addition wraps.
-/

import A3Net.Machine.Run
import Mathlib.Algebra.GroupWithZero.Nat

namespace A3Net.Resilience

inductive CircuitState where
  | closed
  | opened
  | halfOpen
deriving DecidableEq

structure CircuitBreakerConfig where
  failureThreshold : Nat := 5
  timeout : Nat := 60 * 10 ^ 9
  successThreshold : Nat := 2
  windowDuration : Nat := 30 * 10 ^ 9

/-- The part of the breaker under its lock. -/
structure Inner where
  state : CircuitState := .closed
  failures : Nat := 0
  successes : Nat := 0
  windowStart : Nat
  openedAt : Option Nat := none

namespace CircuitBreaker

variable (config : CircuitBreakerConfig)

/-- An opening without a time counts as one of this instant. -/
def elapsed (inner : Inner) (now : Nat) : Nat :=
  (inner.openedAt.map (now - ·)).getD 0

def allowRequest (now : Nat) (inner : Inner) : Bool × Inner :=
  match inner.state with
  | .closed => (true, inner)
  | .opened =>
    if config.timeout ≤ elapsed inner now then
      (true, {inner with state := .halfOpen, successes := 0})
    else (false, inner)
  | .halfOpen => (inner.successes == 0, inner)

def recordSuccess (now : Nat) (inner : Inner) : Inner :=
  match inner.state with
  | .halfOpen =>
    if config.successThreshold ≤ inner.successes + 1 then
      {inner with
        state := .closed, failures := 0, successes := inner.successes + 1, openedAt := none}
    else {inner with successes := inner.successes + 1}
  | .closed => {inner with failures := 0, windowStart := now}
  | .opened => inner

/-- The clock is read for the age of the window, for a new window and for the opening. -/
def recordFailure (measured restarted opening : Nat) (inner : Inner) : Inner :=
  match inner.state with
  | .closed =>
    let windowed := if config.windowDuration < measured - inner.windowStart then
      {inner with failures := 0, windowStart := restarted} else inner
    let counted := {windowed with failures := windowed.failures + 1}
    if config.failureThreshold ≤ counted.failures then
      {counted with state := .opened, openedAt := some opening}
    else counted
  | .halfOpen => {inner with state := .opened, openedAt := some opening}
  | .opened => inner

end CircuitBreaker

inductive BreakerCall where
  | allowRequest (caller now : Nat)
  | recordSuccess (caller now : Nat)
  | recordFailure (caller measured restarted opening : Nat)

/-- A caller is listed once for each request that was allowed and that it has not recorded. -/
structure BreakerCalls where
  inner : Inner
  outstanding : List Nat := []

def BreakerCalls.new (created : Nat) : BreakerCalls :=
  ⟨{windowStart := created}, []⟩

def BreakerCalls.step (config : CircuitBreakerConfig) (calls : BreakerCalls) :
    BreakerCall → BreakerCalls
  | .allowRequest caller now =>
    let (allowed, inner) := CircuitBreaker.allowRequest config now calls.inner
    ⟨inner, if allowed then caller :: calls.outstanding else calls.outstanding⟩
  | .recordSuccess caller now =>
    ⟨CircuitBreaker.recordSuccess config now calls.inner, calls.outstanding.erase caller⟩
  | .recordFailure caller measured restarted opening =>
    ⟨CircuitBreaker.recordFailure config measured restarted opening calls.inner,
      calls.outstanding.erase caller⟩

end A3Net.Resilience
