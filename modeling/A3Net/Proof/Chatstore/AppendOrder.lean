import A3Net.Construction.Chatstore.DocsBridge
import A3Net.Machine.Ledger
import A3Net.Machine.Run

namespace A3Net.Chatstore

open Cryptography Machine Function

theorem msgKey_injective (sender : String) : Function.Injective (msgKey sender) := by
  intro first second equal
  have digits := List.append_cancel_left equal
  exact padded_injective 8 (List.tail_eq_of_cons_eq digits)

theorem msgKey_ne_seqKey {sender : String} {seq : Nat} : msgKey sender seq ≠ seqKey sender := by
  intro equal
  cases equal

theorem decodeSeq_encodeSeq {value : Nat} (fits : value < 2 ^ 32) :
    decodeSeq (encodeSeq value) = some value := by
  have small : value < 256 ^ seqLen := fits
  rw [decodeSeq, encodeSeq, littleEndian_length, ofLittleEndian_littleEndian _ small]
  rfl

/-- The number that a call has taken. -/
def Phase.number : Phase → Option Nat
  | .writing _ next _ | .pointing _ next | .checking _ next | .returned (.ok next) => some next
  | _ => none

/-- The call is between its read and its write of the pointer. -/
def Phase.InFlight : Phase → Prop
  | .writing .. | .pointing .. => True
  | _ => False

def Phase.Reading : Phase → Prop
  | .reading _ => True
  | _ => False

instance decidableInFlight (phase : Phase) : Decidable phase.InFlight := by
  cases phase <;> dsimp only [Phase.InFlight] <;> infer_instance

instance decidableReading (phase : Phase) : Decidable phase.Reading := by
  cases phase <;> dsimp only [Phase.Reading] <;> infer_instance

namespace Appends

variable {calls : Nat} (appends : Appends calls) (bridge : Bridge calls) (call : Fin calls)

/-- The entry holds the message of the call. -/
def Holds (seq : Nat) : Prop :=
  ∃ payload, appends.encodeMessage (appends.stamp call seq) = some payload ∧
    bridge.doc (msgKey appends.sender seq) = some payload

/-- Calls that succeeded have different numbers, and each one has its own message in its entry. -/
def Kept : Prop :=
  (∀ first second seq, bridge.phase first = .returned (.ok seq) →
    bridge.phase second = .returned (.ok seq) → first = second) ∧
  ∀ call seq, bridge.phase call = .returned (.ok seq) → appends.Holds bridge call seq

/-- A call reads the pointer when no other call is about to write it, and the next number fits. -/
def Serial : Event calls → Prop
  | .advance call =>
    (bridge.phase call).Reading →
      (∀ other, other ≠ call → ¬ (bridge.phase other).InFlight) ∧
        bridge.readSenderSeq appends.sender + 1 < 2 ^ 32
  | .start .. | .refuse .. => True

instance decidableSerial (bridge : Bridge calls) :
    (event : Event calls) → Decidable (appends.Serial bridge event)
  | .advance _ => inferInstanceAs (Decidable (_ → _ ∧ _))
  | .start .. | .refuse .. => isTrue trivial

/-- What the phase of a call says about the document. -/
def Fits : Phase → Prop
  | .writing _ next payload =>
    next = bridge.readSenderSeq appends.sender + 1 ∧ next < 2 ^ 32 ∧
      appends.encodeMessage (appends.stamp call next) = some payload
  | .pointing _ next =>
    next = bridge.readSenderSeq appends.sender + 1 ∧ next < 2 ^ 32 ∧ appends.Holds bridge call next
  | .checking _ next | .returned (.ok next) =>
    next ≤ bridge.readSenderSeq appends.sender ∧ appends.Holds bridge call next
  | _ => True

structure Orderly (bridge : Bridge calls) : Prop where
  fits : ∀ call, appends.Fits bridge call (bridge.phase call)
  distinct : ∀ first second seq, (bridge.phase first).number = some seq →
    (bridge.phase second).number = some seq → first = second

variable {appends}

theorem doc_setHash_self {bridge : Bridge calls} (key : List Char) {bytes : Bytes} :
    (bridge.setHash key bytes).doc key = some bytes :=
  update_self ..

theorem doc_setHash_of_ne {bridge : Bridge calls} {key other : List Char} (ne : other ≠ key)
    (bytes : Bytes) : (bridge.setHash key bytes).doc other = bridge.doc other :=
  update_of_ne ne _ _

theorem readSenderSeq_setHash_msgKey (bridge : Bridge calls) (sender : String) (seq : Nat)
    (bytes : Bytes) :
    (bridge.setHash (msgKey sender seq) bytes).readSenderSeq sender =
      bridge.readSenderSeq sender := by
  unfold Bridge.readSenderSeq
  rw [doc_setHash_of_ne (msgKey_ne_seqKey).symm]

variable {bridge} {call : Fin calls} {phase : Phase} {seq : Nat}

theorem readSenderSeq_setHash_seqKey (bridge : Bridge calls) (sender : String)
    (fits : seq < 2 ^ 32) :
    (bridge.setHash (seqKey sender) (encodeSeq seq)).readSenderSeq sender = seq := by
  unfold Bridge.readSenderSeq
  rw [doc_setHash_self, Option.bind_some, decodeSeq_encodeSeq fits, Option.getD_some]

/-- A write leaves the other entries. -/
theorem Holds.setHash (holds : appends.Holds bridge call seq) {key : List Char}
    (ne : msgKey appends.sender seq ≠ key) (bytes : Bytes) :
    appends.Holds (bridge.setHash key bytes) call seq := by
  obtain ⟨payload, encoded, entry⟩ := holds
  refine ⟨payload, encoded, ?_⟩
  rw [doc_setHash_of_ne ne]
  exact entry

section

variable (orderly : appends.Orderly bridge)
include orderly

/-- One call goes to a new phase while the document changes or not. -/
theorem Orderly.update {next : Bridge calls} (phases : next.phase = update bridge.phase call phase)
    (others : ∀ other, other ≠ call → appends.Fits next other (bridge.phase other))
    (own : appends.Fits next call phase)
    (free : ∀ other seq, other ≠ call → phase.number = some seq →
      (bridge.phase other).number ≠ some seq) : appends.Orderly next := by
  constructor
  · rw [phases]
    exact (forall_update_iff _ fun other => appends.Fits next other).mpr ⟨own, others⟩
  · have numbers : ∀ other, (next.phase other).number =
        Function.update (Phase.number ∘ bridge.phase) call phase.number other := by
      rw [phases, ← comp_update]
      exact fun _ => rfl
    simp only [numbers]
    exact single_update orderly.distinct free

theorem Orderly.goto (own : appends.Fits bridge call phase)
    (free : ∀ other seq, other ≠ call → phase.number = some seq →
      (bridge.phase other).number ≠ some seq) : appends.Orderly (bridge.goto call phase) :=
  orderly.update rfl (fun other _ => orderly.fits other) own free

/-- A call without a number is no obstacle. -/
theorem Orderly.goto_none (call : Fin calls) (own : appends.Fits bridge call phase)
    (nothing : phase.number = none) : appends.Orderly (bridge.goto call phase) := by
  apply orderly.goto own
  intro other seq _ taken
  rw [nothing] at taken
  cases taken

/-- A number that the call keeps stays its own. -/
theorem Orderly.free_of_number {number : Nat} (taken : (bridge.phase call).number = some number) :
    ∀ other, other ≠ call → (bridge.phase other).number ≠ some number := by
  intro other ne same
  exact ne (orderly.distinct other call number same taken)

theorem Orderly.free_of_kept (kept : (bridge.phase call).number = phase.number) :
    ∀ other seq, other ≠ call → phase.number = some seq →
      (bridge.phase other).number ≠ some seq := by
  intro other seq ne taken
  exact orderly.free_of_number (kept.trans taken) other ne

end

section

variable (fits : appends.Fits bridge call phase)
include fits

/-- The entry of a free number changes nothing for the others. -/
theorem Fits.setHash_msgKey (ne : phase.number ≠ some seq) {bytes : Bytes} :
    appends.Fits (bridge.setHash (msgKey appends.sender seq) bytes) call phase := by
  have holds : ∀ {number}, phase.number = some number → appends.Holds bridge call number →
      appends.Holds (bridge.setHash (msgKey appends.sender seq) bytes) call number := by
    intro number taken before
    apply before.setHash
    intro same
    exact ne (msgKey_injective _ same ▸ taken)
  cases phase with
  | waiting | reading => trivial
  | writing attempt next payload =>
    exact fits
  | pointing attempt next =>
    exact ⟨fits.1, fits.2.1, holds rfl fits.2.2⟩
  | checking attempt next =>
    exact ⟨fits.1, holds rfl fits.2⟩
  | returned result =>
    cases result with
    | error error => trivial
    | ok next =>
      exact ⟨fits.1, holds rfl fits.2⟩

/-- A higher pointer changes nothing for calls that are not about to write it. -/
theorem Fits.setHash_seqKey (settled : ¬ phase.InFlight) (small : seq < 2 ^ 32)
    (higher : bridge.readSenderSeq appends.sender ≤ seq) :
    appends.Fits (bridge.setHash (seqKey appends.sender) (encodeSeq seq)) call phase := by
  have pointer := readSenderSeq_setHash_seqKey bridge appends.sender small
  cases phase with
  | waiting | reading => trivial
  | writing | pointing => exact absurd trivial settled
  | checking attempt next =>
    rw [Fits, pointer]
    exact ⟨Nat.le_trans fits.1 higher, fits.2.setHash (msgKey_ne_seqKey) _⟩
  | returned result =>
    cases result with
    | error error => trivial
    | ok next =>
      rw [Fits, pointer]
      exact ⟨Nat.le_trans fits.1 higher, fits.2.setHash (msgKey_ne_seqKey) _⟩

/-- A call in flight has the number after the pointer. -/
theorem Fits.number_of_inFlight (flying : phase.InFlight) :
    phase.number = some (bridge.readSenderSeq appends.sender + 1) := by
  cases phase with
  | writing | pointing => exact congrArg some fits.1
  | waiting | reading | checking | returned => cases flying

theorem Fits.number_le (settled : ¬ phase.InFlight) {number : Nat}
    (taken : phase.number = some number) : number ≤ bridge.readSenderSeq appends.sender := by
  cases phase with
  | writing | pointing => exact absurd trivial settled
  | waiting | reading => cases taken
  | checking attempt next =>
    cases taken
    exact fits.1
  | returned result =>
    cases result with
    | error error => cases taken
    | ok next =>
      cases taken
      exact fits.1

end

/-- What one operation of a call preserves. -/
theorem Orderly.advance (orderly : appends.Orderly bridge)
    (serial : appends.Serial bridge (.advance call)) :
    appends.Orderly (appends.advance bridge call) := by
  have own := orderly.fits call
  cases phase : bridge.phase call with
  | waiting | returned => simpa only [Appends.advance, phase] using orderly
  | reading attempt =>
    obtain ⟨alone, small⟩ := serial (by rw [phase]; trivial)
    have next : saturatingSucc (bridge.readSenderSeq appends.sender) =
        bridge.readSenderSeq appends.sender + 1 := by
      unfold saturatingSucc
      omega
    simp only [Appends.advance, phase, next]
    cases encoded : appends.encodeMessage (appends.stamp call _) with
    | none => exact orderly.goto_none call trivial rfl
    | some payload =>
      have written : appends.Fits bridge call (.writing attempt _ payload) :=
        ⟨rfl, small, encoded⟩
      apply orderly.goto written
      intro other seq ne taken same
      cases taken
      have bound := (orderly.fits other).number_le (alone other ne) same
      omega
  | writing attempt next payload =>
    rw [phase] at own
    obtain ⟨position, small, encoded⟩ := own
    have taken : (bridge.phase call).number = some next := by rw [phase]; rfl
    have free := orderly.free_of_number taken
    simp only [Appends.advance, phase]
    apply orderly.update rfl
    · intro other ne
      exact (orderly.fits other).setHash_msgKey (free other ne)
    · have pointer := readSenderSeq_setHash_msgKey bridge appends.sender next payload
      exact ⟨position.trans (congrArg (· + 1) pointer.symm), small, payload, encoded,
        doc_setHash_self _⟩
    · exact orderly.free_of_kept taken
  | pointing attempt next =>
    rw [phase] at own
    obtain ⟨position, small, holds⟩ := own
    have taken : (bridge.phase call).number = some next := by rw [phase]; rfl
    have free := orderly.free_of_number taken
    simp only [Appends.advance, phase]
    apply orderly.update rfl
    · intro other ne
      have settled : ¬ (bridge.phase other).InFlight := by
        intro flying
        apply free other ne
        rw [(orderly.fits other).number_of_inFlight flying, position]
      exact (orderly.fits other).setHash_seqKey settled small (by omega)
    · have pointer := readSenderSeq_setHash_seqKey bridge appends.sender small
      exact ⟨Nat.le_of_eq pointer.symm, holds.setHash (msgKey_ne_seqKey) (encodeSeq next)⟩
    · exact orderly.free_of_kept taken
  | checking attempt next =>
    rw [phase] at own
    have taken : (bridge.phase call).number = some next := by rw [phase]; rfl
    have finished : appends.Fits bridge call (.returned (.ok next)) := own
    simp only [Appends.advance, phase, if_pos own.1]
    exact orderly.goto finished (orderly.free_of_kept taken)

theorem Orderly.step (orderly : appends.Orderly bridge) {event : Event calls}
    (serial : appends.Serial bridge event) : appends.Orderly (appends.step bridge event) := by
  cases event with
  | start call opened =>
    simp only [Appends.step]
    split
    · split
      · exact orderly.goto_none call trivial rfl
      · exact orderly.goto_none call trivial rfl
    · exact orderly
  | advance call => exact orderly.advance serial
  | refuse call text =>
    simp only [Appends.step]
    split
    · exact orderly
    · exact orderly
    · exact orderly.goto_none call trivial rfl

theorem initial_orderly {doc : List Char → Option Bytes} :
    appends.Orderly (Bridge.initial doc) := by
  constructor
  · intro call
    trivial
  · intro first second seq taken
    cases taken

theorem Orderly.kept (orderly : appends.Orderly bridge) : appends.Kept bridge := by
  constructor
  · intro first second seq firstOk secondOk
    apply orderly.distinct first second seq
    · rw [firstOk]
      rfl
    · rw [secondOk]
      rfl
  · intro call seq ok
    have fits := orderly.fits call
    rw [ok] at fits
    exact fits.2

/-- Appended messages keep their numbers and entries in a run whose reads are serial. -/
theorem append_kept (doc : List Char → Option Bytes) (events : List (Event calls))
    (serial : Guarded appends.step appends.Serial (Bridge.initial doc) events) :
    Always appends.step appends.Kept (Bridge.initial doc) events := by
  have orderly := Guarded.always appends.step (fun _ _ orderly meets => orderly.step meets)
    (initial_orderly) serial
  intro past short
  exact (orderly past short).kept

/-- Two messages of one sender. -/
def sampleAppends : Appends 2 where
  conversation := "room"
  sender := "alice"
  message call :=
    { id := "m", conversationId := "", senderId := "alice", receiverId := none,
      content := if call = 0 then "first" else "second", timestamp := 0, sequence := none,
      replyTo := none, integrityHash := none, isEdited := false, editedAt := none }
  sameSender := fun _ => rfl
  encodeMessage message := some (utf8 message.content)

/-- One call ends before the other one reads. -/
def serialEvents : List (Event 2) :=
  [.start 0 true, .start 1 true, .advance 0, .advance 0, .advance 0, .advance 0,
    .advance 1, .advance 1, .advance 1, .advance 1]

theorem serialEvents_serial : Guarded sampleAppends.step sampleAppends.Serial
    (Bridge.initial fun _ => none) serialEvents := by
  decide

theorem append_kept_serial :
    Guarded sampleAppends.step sampleAppends.Serial (Bridge.initial fun _ => none) serialEvents ∧
      Always sampleAppends.step sampleAppends.Kept (Bridge.initial fun _ => none) serialEvents :=
  ⟨serialEvents_serial, append_kept _ serialEvents serialEvents_serial⟩

/-- Both calls read the pointer before one of them writes it. -/
def racingAppends : List (Event 2) :=
  [.start 0 true, .start 1 true, .advance 0, .advance 1, .advance 0, .advance 0, .advance 0,
    .advance 1, .advance 1, .advance 1]

theorem append_lost :
    ¬ ∀ (calls : Nat) (appends : Appends calls) (doc : List Char → Option Bytes)
      (events : List (Event calls)),
        Always appends.step appends.Kept (Bridge.initial doc) events := by
  intro kept
  have last := (kept 2 sampleAppends (fun _ => none) racingAppends).final
  have first : (run sampleAppends.step (Bridge.initial fun _ => none) racingAppends).phase 0 =
      .returned (.ok 1) := by rfl
  have second : (run sampleAppends.step (Bridge.initial fun _ => none) racingAppends).phase 1 =
      .returned (.ok 1) := by rfl
  exact absurd (last.1 0 1 1 first second) (by decide)

end Appends
end A3Net.Chatstore
