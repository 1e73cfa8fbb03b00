/-
Each lock of the counter is one step, and the tasks take their steps in any order.
-/

import Mathlib.Algebra.Group.Nat.Defs
import Mathlib.Data.Fin.Basic

namespace A3Net.WalletEvm

/-- Where a task is. The flag says whether `next_nonce` asked the chain. -/
inductive Phase where
  | idle
  | cached (nonce : Nat)
  | probing (assign : Bool)
  | probed (assign : Bool) (pending : Nat)
  | synced (nonce : Nat)

/-- The pool belongs to one account on one chain. `returned` has what the calls of `next_nonce`
returned, the last first. -/
structure NoncePool (tasks : Nat) where
  next : Option Nat
  phase : Fin tasks → Phase
  returned : List Nat

namespace NoncePool

inductive Event (tasks : Nat) where
  | nextNonce (task : Fin tasks)
  | syncFromChain (task : Fin tasks)
  | peek (task : Fin tasks)
  | answer (task : Fin tasks) (pending : Nat)
  | refuse (task : Fin tasks)
  | lock (task : Fin tasks)
  | invalidate

variable {tasks : Nat}

def withStart (next : Option Nat) : NoncePool tasks where
  next := next
  phase := fun _ => .idle
  returned := []

def new : NoncePool tasks := withStart none

/-- The counter has 64 bits. -/
def increment (nonce : Nat) : Nat := (nonce + 1) % 2 ^ 64

variable (pool : NoncePool tasks) (task : Fin tasks)

def goto (phase : Phase) : NoncePool tasks :=
  {pool with phase := Function.update pool.phase task phase}

/-- The second lock of a call stores the successor, and the call returns. -/
def assign (nonce : Nat) : NoncePool tasks :=
  {(pool.goto task .idle) with
    next := some (increment nonce)
    returned := nonce :: pool.returned}

def step : Event tasks → NoncePool tasks
  | .nextNonce task =>
    match pool.phase task, pool.next with
    | .idle, some cached => pool.goto task (.cached cached)
    | .idle, none => pool.goto task (.probing true)
    | _, _ => pool
  | .syncFromChain task =>
    match pool.phase task with
    | .idle => pool.goto task (.probing false)
    | _ => pool
  | .peek task =>
    match pool.phase task, pool.next with
    | .idle, none => pool.goto task (.probing false)
    | _, _ => pool
  | .answer task pending =>
    match pool.phase task with
    | .probing assign => pool.goto task (.probed assign (pending % 2 ^ 64))
    | _ => pool
  | .refuse task =>
    match pool.phase task with
    | .probing _ => pool.goto task .idle
    | _ => pool
  | .lock task =>
    match pool.phase task with
    | .cached nonce => pool.assign task nonce
    | .probed true pending => {(pool.goto task (.synced pending)) with next := some pending}
    | .probed false pending => {(pool.goto task .idle) with next := some pending}
    | .synced nonce => pool.assign task nonce
    | _ => pool
  | .invalidate => {pool with next := none}

end NoncePool
end A3Net.WalletEvm
