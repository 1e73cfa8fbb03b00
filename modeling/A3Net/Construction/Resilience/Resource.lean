/-
Each attempt at a permit is a task of its own, and the steps of different tasks may alternate. A
semaphore grants a permit whenever one is free.
-/

import Mathlib.Data.Option.Basic

namespace A3Net.Resilience

open Function

/-- A key limit of zero stands for no key limit. -/
structure ResourceConfig where
  globalLimit : Nat := 256
  perKeyLimit : Nat := 16

/-- The number of a key's semaphore is missing when there is no key limit. A call of `acquire` waits
for its permits, and a call of `try_acquire` does not. -/
inductive Phase (Key : Type) where
  | idle
  | found (key : Key) (sem : Nat) (waits : Bool)
  | keyed (key : Key) (sem : Option Nat) (waits : Bool)
  | granted (key : Key) (sem : Option Nat)
  | holding (key : Key) (sem : Option Nat)
  | dropping

structure ResourceLimiter (Key Task : Type) where
  config : ResourceConfig
  global : Nat
  keys : Key → Option Nat
  created : Nat
  available : Nat → Nat
  phase : Task → Phase Key

inductive Event (Key Task : Type) where
  | tryAcquire (task : Task) (key : Key)
  | acquire (task : Task) (key : Key)
  | takeKey (task : Task)
  | takeGlobal (task : Task)
  | giveUp (task : Task)
  | finish (task : Task)
  | dropPermit (task : Task)
  | releaseGlobal (task : Task)
  | reapKey (key : Key)

namespace ResourceLimiter

variable {Key Task : Type} [DecidableEq Key] [DecidableEq Task]

def new (config : ResourceConfig) : ResourceLimiter Key Task where
  config := config
  global := config.globalLimit
  keys _ := none
  created := 0
  available _ := 0
  phase _ := .idle

variable (limiter : ResourceLimiter Key Task) (task : Task)

def goto (phase : Phase Key) : ResourceLimiter Key Task :=
  {limiter with phase := update limiter.phase task phase}

variable (key : Key)

/-- A key without a semaphore gets a new one. -/
def keySemaphore : ResourceLimiter Key Task × Nat :=
  match limiter.keys key with
  | some sem => (limiter, sem)
  | none =>
    ({limiter with
      keys := update limiter.keys key (some limiter.created)
      created := limiter.created + 1
      available :=
        update limiter.available limiter.created limiter.config.perKeyLimit},
      limiter.created)

def setAvailable (sem count : Nat) : ResourceLimiter Key Task :=
  {limiter with available := update limiter.available sem count}

def releaseKey : Option Nat → ResourceLimiter Key Task
  | none => limiter
  | some sem => limiter.setAvailable sem (limiter.available sem + 1)

/-- Both ways to a permit first look for the semaphore of the key. -/
def begin (waits : Bool) : ResourceLimiter Key Task :=
  match limiter.phase task with
  | .idle =>
    if limiter.config.perKeyLimit = 0 then limiter.goto task (.keyed key none waits)
    else
      let (found, sem) := limiter.keySemaphore key
      found.goto task (.found key sem waits)
  | _ => limiter

def takeKey : ResourceLimiter Key Task :=
  match limiter.phase task with
  | .found key sem waits =>
    if 0 < limiter.available sem then
      (limiter.setAvailable sem (limiter.available sem - 1)).goto task
        (.keyed key (some sem) waits)
    else if waits then limiter
    else limiter.goto task .idle
  | _ => limiter

/-- A call of `acquire` has still to look at its token when it has both permits. -/
def takeGlobal : ResourceLimiter Key Task :=
  match limiter.phase task with
  | .keyed key sem waits =>
    if 0 < limiter.global then
      {limiter with global := limiter.global - 1}.goto task
        (if waits then .granted key sem else .holding key sem)
    else if waits then limiter
    else (limiter.releaseKey sem).goto task .idle
  | _ => limiter

/-- The time is over, or the token has fired. -/
def giveUp : ResourceLimiter Key Task :=
  match limiter.phase task with
  | .found _ _ true => limiter.goto task .idle
  | .keyed _ sem true => (limiter.releaseKey sem).goto task .idle
  | .granted _ sem => (limiter.releaseKey sem).goto task .dropping
  | _ => limiter

def finish : ResourceLimiter Key Task :=
  match limiter.phase task with
  | .granted key sem => limiter.goto task (.holding key sem)
  | _ => limiter

/-- The permit of the key is released before the global one. -/
def dropPermit : ResourceLimiter Key Task :=
  match limiter.phase task with
  | .holding _ sem => (limiter.releaseKey sem).goto task .dropping
  | _ => limiter

def releaseGlobal : ResourceLimiter Key Task :=
  match limiter.phase task with
  | .dropping => {limiter with global := limiter.global + 1}.goto task .idle
  | _ => limiter

/-- A semaphore with all its permits is forgotten. -/
def reapKey : ResourceLimiter Key Task :=
  if limiter.config.perKeyLimit = 0 then limiter
  else
    match limiter.keys key with
    | some sem =>
      if limiter.available sem = limiter.config.perKeyLimit then
        {limiter with keys := update limiter.keys key none}
      else limiter
    | none => limiter

def step : Event Key Task → ResourceLimiter Key Task
  | .tryAcquire task key => limiter.begin task key false
  | .acquire task key => limiter.begin task key true
  | .takeKey task => limiter.takeKey task
  | .takeGlobal task => limiter.takeGlobal task
  | .giveUp task => limiter.giveUp task
  | .finish task => limiter.finish task
  | .dropPermit task => limiter.dropPermit task
  | .releaseGlobal task => limiter.releaseGlobal task
  | .reapKey key => limiter.reapKey key

end ResourceLimiter
end A3Net.Resilience
