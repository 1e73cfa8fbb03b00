import A3Net.Construction.WalletEvm.NoncePool
import A3Net.Machine.Ledger
import A3Net.Machine.Run

namespace A3Net.WalletEvm

open Machine NoncePool Function

/-- The nonce that the call of a task will return. -/
def Phase.owed : Phase → Option Nat
  | .cached nonce | .synced nonce => some nonce
  | _ => none

namespace NoncePool

variable {tasks : Nat} (pool : NoncePool tasks)

def Unique : Prop := pool.returned.Nodup

/-- No other task is about to return the nonce. -/
def Free (task : Fin tasks) (nonce : Nat) : Prop :=
  ∀ other, other ≠ task → Phase.owed (pool.phase other) ≠ some nonce

/-- A nonce is taken by one call at a time, and the counter is set above every returned nonce. -/
def Exclusive : Event tasks → Prop
  | .nextNonce task => ∀ nonce ∈ pool.next, pool.Free task nonce
  | .lock task =>
    match pool.phase task with
    | .cached nonce | .synced nonce =>
      (∀ earlier ∈ pool.returned, earlier ≤ nonce) ∧ nonce + 1 < 2 ^ 64
    | .probed true pending =>
      (∀ earlier ∈ pool.returned, earlier < pending) ∧ pool.Free task pending
    | .probed false pending => ∀ earlier ∈ pool.returned, earlier < pending
    | _ => True
  | _ => True

/-- The calls hold what they will return. -/
def ledger : Ledger (Fin tasks) Nat where
  held := Phase.owed ∘ pool.phase
  issued := pool.returned

/-- Nobody has two nonces or an old one, and the counter is ahead of the returned nonces. -/
structure Orderly (pool : NoncePool tasks) : Prop where
  distinct : pool.ledger.Distinct
  ahead : ∀ nonce ∈ pool.next, ∀ earlier ∈ pool.returned, earlier < nonce

theorem ledger_goto (task : Fin tasks) (phase : Phase) :
    (pool.goto task phase).ledger =
      {pool.ledger with held := update pool.ledger.held task phase.owed} := by
  unfold ledger goto
  rw [comp_update]

variable {pool} {task : Fin tasks} {phase : Phase}

section

variable (orderly : pool.Orderly)
include orderly

theorem Orderly.goto_none (task : Fin tasks) (nothing : phase.owed = none) :
    (pool.goto task phase).Orderly := by
  constructor
  · rw [ledger_goto, nothing]
    exact orderly.distinct.release task
  · exact orderly.ahead

theorem Orderly.goto_some {nonce : Nat} (owes : phase.owed = some nonce)
    (free : pool.Free task nonce) (unissued : nonce ∉ pool.returned) :
    (pool.goto task phase).ledger.Distinct := by
  rw [ledger_goto, owes]
  exact orderly.distinct.claim ⟨unissued, free⟩

theorem Orderly.assign {nonce : Nat} (owes : (pool.phase task).owed = some nonce)
    (above : ∀ earlier ∈ pool.returned, earlier ≤ nonce) (small : nonce + 1 < 2 ^ 64) :
    (pool.assign task nonce).Orderly := by
  constructor
  · have handed : (pool.assign task nonce).ledger = pool.ledger.hand task nonce := by
      show (⟨_, _⟩ : Ledger (Fin tasks) Nat) = ⟨_, _⟩
      congr 1
      exact comp_update Phase.owed pool.phase task .idle
    rw [handed]
    exact orderly.distinct.hand owes
  · intro next set earlier member
    have value : next = nonce + 1 := by
      cases set
      exact Nat.mod_eq_of_lt small
    rcases List.mem_cons.mp member with rfl | before
    · omega
    · have bound := above earlier before
      omega

omit orderly in
/-- The answer of the chain becomes the counter. -/
theorem Orderly.sync {pending : Nat} (distinct : (pool.goto task phase).ledger.Distinct)
    (above : ∀ earlier ∈ pool.returned, earlier < pending) :
    Orderly {(pool.goto task phase) with next := some pending} := by
  refine ⟨distinct, ?_⟩
  intro nonce set earlier member
  cases set
  exact above earlier member

theorem Orderly.nextNonce (exclusive : pool.Exclusive (.nextNonce task)) :
    (pool.step (.nextNonce task)).Orderly := by
  cases phase : pool.phase task with
  | idle =>
    cases next : pool.next with
    | none =>
      simp only [step, phase, next]
      exact orderly.goto_none task rfl
    | some cached =>
      simp only [step, phase, next]
      refine ⟨orderly.goto_some rfl (exclusive cached next) ?_, orderly.ahead⟩
      intro member
      exact Nat.lt_irrefl _ (orderly.ahead cached next cached member)
  | cached | probing | probed | synced => simpa [step, phase] using orderly

theorem Orderly.lock (exclusive : pool.Exclusive (.lock task)) :
    (pool.step (.lock task)).Orderly := by
  cases phase : pool.phase task with
  | idle | probing => simpa [step, phase] using orderly
  | cached | synced =>
    simp only [Exclusive, phase] at exclusive
    simp only [step, phase]
    exact orderly.assign (by rw [phase]; rfl) exclusive.1 exclusive.2
  | probed assign pending =>
    cases assign with
    | false =>
      simp only [Exclusive, phase] at exclusive
      simp only [step, phase]
      exact Orderly.sync (orderly.goto_none task rfl).distinct exclusive
    | true =>
      simp only [Exclusive, phase] at exclusive
      simp only [step, phase]
      have unissued : pending ∉ pool.returned := fun member =>
        Nat.lt_irrefl _ (exclusive.1 pending member)
      exact Orderly.sync (orderly.goto_some rfl exclusive.2 unissued) exclusive.1

/-- What one step preserves. -/
theorem Orderly.step {event : Event tasks}
    (exclusive : pool.Exclusive event) : (pool.step event).Orderly := by
  cases event with
  | nextNonce task => exact orderly.nextNonce exclusive
  | lock task => exact orderly.lock exclusive
  | syncFromChain task | peek task | answer task | refuse task =>
    simp only [NoncePool.step]
    split
    · exact orderly.goto_none task rfl
    · exact orderly
  | invalidate =>
    refine ⟨orderly.distinct, ?_⟩
    intro nonce set
    cases set

end

theorem withStart_orderly {start : Option Nat} : (withStart start : NoncePool tasks).Orderly := by
  constructor
  · constructor
    · exact List.nodup_nil
    · intro task nonce owes
      cases owes
    · intro first second nonce owes
      cases owes
  · intro nonce _ earlier member
    exact absurd member List.not_mem_nil

/-- Every nonce is returned once in a run whose steps are exclusive. -/
theorem nextNonce_unique (start : Option Nat) (events : List (Event tasks))
    (exclusive : Guarded step Exclusive (withStart start) events) :
    Always step Unique (withStart start) events := by
  have orderly := Guarded.always step (fun _ _ orderly meets => orderly.step meets)
    (withStart_orderly) exclusive
  intro past short
  exact (orderly past short).distinct.nodup

def firstTask : Fin 2 := ⟨0, Nat.zero_lt_two⟩

def secondTask : Fin 2 := ⟨1, Nat.one_lt_two⟩

/-- One task asks the chain and the next one finds the counter. -/
def sampleEvents : List (Event 2) :=
  [.nextNonce firstTask, .answer firstTask 7, .lock firstTask, .lock firstTask,
    .nextNonce secondTask, .lock secondTask]

theorem sampleEvents_exclusive : Guarded step Exclusive new sampleEvents := by
  simp [sampleEvents, firstTask, secondTask, Guarded, Exclusive, step, new, withStart, goto,
    assign, increment, Free, Phase.owed, update]

theorem nextNonce_unique_sample :
    Guarded step Exclusive new sampleEvents ∧ Always step Unique new sampleEvents :=
  ⟨sampleEvents_exclusive, nextNonce_unique none sampleEvents sampleEvents_exclusive⟩

/-- The chain counts every nonce that was returned before. -/
def NotBehind (pool : NoncePool tasks) : Event tasks → Prop
  | .answer _ pending => ∀ nonce ∈ pool.returned, nonce < pending
  | _ => True

/-- Both tasks read the counter before one of them stores its successor. -/
def racingEvents : List (Event 2) :=
  [.nextNonce firstTask, .answer firstTask 7, .lock firstTask, .lock firstTask,
    .nextNonce firstTask, .nextNonce secondTask, .lock firstTask, .lock secondTask]

theorem racingEvents_notBehind : Guarded step NotBehind new racingEvents := by
  simp [racingEvents, firstTask, secondTask, Guarded, NotBehind, step, new, withStart, goto]

theorem nextNonce_repeated :
    ¬ ∀ (tasks : Nat) (events : List (Event tasks)), Guarded step NotBehind new events →
      Always step Unique new events := by
  intro unique
  have last := (unique 2 racingEvents racingEvents_notBehind).final
  have returned : (run step new racingEvents).returned = [8, 8, 7] := by rfl
  rw [Unique, returned] at last
  simp at last

end NoncePool
end A3Net.WalletEvm
