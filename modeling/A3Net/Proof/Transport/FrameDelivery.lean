import A3Net.Construction.Transport.Frame
import A3Net.Machine.Fallible

namespace A3Net.Transport

open Machine FrameCodec List

variable {Error : Type} {reports : Reports Error} {pieces : List Bytes} {failure : Option IoError}

theorem ofLengthBytes_lengthBytes {length : Nat} (fits : length < 2 ^ 32) :
    ofLengthBytes (lengthBytes length) = length := by
  simp only [ofLengthBytes, lengthBytes, foldl_cons, foldl_nil, UInt8.toNat_ofNat']
  omega

variable {bytes : Bytes}

/-- Fewer bytes than a length field are treated as no bytes. -/
theorem readWith_short (splits : Splits pieces bytes) (short : bytes.length < 4) :
    (readWith reports ⟨pieces, failure⟩).1 =
      if reports.isEnd (failure.getD earlyEof) then .ok none
      else .error (reports.lengthError (failure.getD earlyEof)) := by
  unfold readWith Connection.readExact
  simp only [readExact_short splits short]
  split <;> rfl

section Field

variable {field body : Bytes} (splits : Splits pieces (field ++ body)) (four : field.length = 4)

include splits four

/-- Once the length field is read, the reader goes on with the bytes behind it. -/
theorem readWith_field :
    ∃ left, Splits left body ∧
      readWith reports ⟨pieces, failure⟩ =
        if maxFrameSize < ofLengthBytes field then
          (.error (reports.tooLarge (ofLengthBytes field)), ⟨left, failure⟩)
        else readBody reports (ofLengthBytes field) ⟨left, failure⟩ := by
  obtain ⟨left, read, later⟩ := @readExact_enough _ _ earlyEof (failure.getD earlyEof) _ _ 4 splits
    (by rw [length_append]; omega)
  rw [take_left' four] at read
  rw [drop_left' four] at later
  refine ⟨left, later, ?_⟩
  unfold readWith Connection.readExact
  simp only [read]

theorem readWith_cut (small : ofLengthBytes field ≤ maxFrameSize)
    (cut : body.length < ofLengthBytes field) :
    (readWith reports ⟨pieces, failure⟩).1 =
      .error (reports.bodyError (failure.getD earlyEof)) := by
  obtain ⟨left, later, read⟩ := @readWith_field _ reports _ failure _ _ splits four
  rw [read, if_neg (Nat.not_lt.mpr small)]
  unfold readBody Connection.readExact
  simp only [readExact_short later cut]

theorem readWith_whole (small : ofLengthBytes field ≤ maxFrameSize)
    (whole : ofLengthBytes field ≤ body.length) :
    ∃ left, Splits left (body.drop (ofLengthBytes field)) ∧
      readWith reports ⟨pieces, failure⟩ =
        (.ok (some ⟨body.take (ofLengthBytes field)⟩), ⟨left, failure⟩) := by
  obtain ⟨left, later, read⟩ := @readWith_field _ reports _ failure _ _ splits four
  obtain ⟨rest, taken, last⟩ :=
    @readExact_enough _ _ earlyEof (failure.getD earlyEof) _ _ _ later whole
  refine ⟨rest, last, ?_⟩
  rw [read, if_neg (Nat.not_lt.mpr small)]
  unfold readBody Connection.readExact
  simp only [taken]

end Field

def encodeAll (frames : List Frame) : Bytes := (frames.map encode).flatten

def Fits (frame : Frame) : Prop := frame.bytes.length ≤ maxFrameSize

@[simp] theorem encodeAll_cons (frame : Frame) (rest : List Frame) :
    encodeAll (frame :: rest) = encode frame ++ encodeAll rest := rfl

@[simp] theorem encodeAll_append (first second : List Frame) :
    encodeAll (first ++ second) = encodeAll first ++ encodeAll second := by
  simp [encodeAll]

theorem Fits.length {frame : Frame} (fits : Fits frame) :
    ofLengthBytes (lengthBytes frame.bytes.length) = frame.bytes.length :=
  ofLengthBytes_lengthBytes (Nat.lt_of_le_of_lt fits (by decide))

/-- The writer puts the encodings of its frames one behind the other. -/
theorem write_all {frames : List Frame} (fits : ∀ frame ∈ frames, Fits frame) (written : Bytes) :
    frames.foldlM write written = .ok (written ++ encodeAll frames) := by
  induction frames generalizing written with
  | nil => exact congrArg Except.ok (append_nil written).symm
  | cons frame rest ih =>
    have one : write written frame = .ok (written ++ encode frame) := by
      unfold write encode
      rw [if_neg (Nat.not_lt.mpr (fits frame mem_cons_self)), append_assoc]
    rw [foldlM_cons, one, ok_bind, ih fun other member => fits other (.tail _ member),
      encodeAll_cons, append_assoc]

section Delivery

/-- These are the results of so many calls of a reader, each on what the call before left. -/
def reads (reader : Connection → Except Error (Option Frame) × Connection) :
    Nat → Connection → List (Except Error (Option Frame))
  | 0, _ => []
  | count + 1, connection =>
    (reader connection).1 :: reads reader count (reader connection).2

/-- The reader returns these frames, and the call after them has the last result. -/
def Returns (reader : Connection → Except Error (Option Frame) × Connection)
    (connection : Connection) (frames : List Frame) (last : Except Error (Option Frame)) : Prop :=
  reads reader (frames.length + 1) connection = frames.map (fun frame => .ok (some frame)) ++ [last]

/-- The bytes end after some whole frames and a part of the next one. -/
def EndsInside (frames whole : List Frame) (part bytes : Bytes) : Prop :=
  ∃ frame later, frames = whole ++ frame :: later ∧ part <+: encode frame ∧ part ≠ [] ∧
    part ≠ encode frame ∧ bytes = encodeAll whole ++ part

variable {frames : List Frame}

/-- The frames in front of a stream are read, whatever stands behind them. -/
theorem reads_whole {rest : Bytes} (fits : ∀ frame ∈ frames, Fits frame)
    (splits : Splits pieces (encodeAll frames ++ rest)) :
    ∃ left, Splits left rest ∧ ∀ last, (readWith reports ⟨left, failure⟩).1 = last →
      Returns (readWith reports) ⟨pieces, failure⟩ frames last := by
  induction frames generalizing pieces with
  | nil => exact ⟨pieces, splits, fun last result => congrArg (fun head => [head]) result⟩
  | cons frame others ih =>
    have small := fits frame mem_cons_self
    rw [encodeAll_cons, encode, append_assoc, append_assoc] at splits
    obtain ⟨left, later, read⟩ := @readWith_whole _ reports _ failure _ _ splits rfl
      (by rw [small.length]; exact small) (by rw [small.length, length_append]; omega)
    rw [small.length, take_left] at read
    rw [small.length, drop_left] at later
    obtain ⟨last, behind, returned⟩ :=
      ih (fun other member => fits other (.tail _ member)) later
    refine ⟨last, behind, fun result equal => ?_⟩
    have tail := returned result equal
    unfold Returns at tail ⊢
    rw [length_cons, reads, read, map_cons, cons_append, tail]

variable (ends : reports.isEnd earlyEof = true)

include ends

theorem returns_written (fits : ∀ frame ∈ frames, Fits frame)
    (splits : Splits pieces (encodeAll frames)) :
    Returns (readWith reports) ⟨pieces, none⟩ frames (.ok none) := by
  rw [← append_nil (encodeAll frames)] at splits
  obtain ⟨left, later, returned⟩ := @reads_whole _ reports _ none _ _ fits splits
  apply returned
  rw [readWith_short later (by decide)]
  exact if_pos ends

section

variable {whole : List Frame} {part : Bytes} (fits : ∀ frame ∈ frames, Fits frame)
  (inside : EndsInside frames whole part bytes) (splits : Splits pieces bytes)
include fits inside splits

/-- Inside the body the reader fails. Inside the length field it takes the end for a clean one. -/
theorem returns_cut :
    Returns (readWith reports) ⟨pieces, none⟩ whole
      (if 4 ≤ part.length then .error (reports.bodyError earlyEof) else .ok none) := by
  obtain ⟨frame, later, rfl, begins, -, proper, rfl⟩ := inside
  have small : Fits frame := fits frame (by simp)
  obtain ⟨left, rest, returned⟩ := @reads_whole _ reports _ none _ _
    (fun other member => fits other (mem_append_left _ member)) splits
  apply returned
  split
  · next field =>
    obtain ⟨body, rfl⟩ : ∃ body, part = lengthBytes frame.bytes.length ++ body := by
      obtain ⟨body, equal⟩ := prefix_of_prefix_length_le
        (prefix_append (lengthBytes frame.bytes.length) frame.bytes) begins field
      exact ⟨body, equal.symm⟩
    have shorter : body.length < frame.bytes.length := by
      have bound := begins.length_le
      have ne : _ ≠ (encode frame).length := fun equal => proper (begins.eq_of_length equal)
      rw [encode, length_append, length_append] at bound ne
      omega
    apply readWith_cut rest rfl
    · rw [small.length]
      exact small
    · rw [small.length]
      exact shorter
  · next field =>
    rw [readWith_short rest (Nat.not_le.mp field)]
    exact if_pos ends

theorem returns_error_iff :
    (∃ error, Returns (readWith reports) ⟨pieces, none⟩ whole (.error error)) ↔
      4 ≤ part.length := by
  have result := returns_cut ends fits inside splits
  constructor
  · rintro ⟨error, failed⟩
    by_contra short
    rw [if_neg short] at result
    cases head_eq_of_cons_eq (append_cancel_left (failed.symm.trans result))
  · intro field
    rw [if_pos field] at result
    exact ⟨_, result⟩

end

end Delivery

variable {stream : Stream}

/-- A stream that is known as a whole agrees with each way of handing it out. -/
theorem readFrom_read (splits : Splits pieces stream.bytes)
    (same : stream.failure = failure.map IoError.text)
    (kind : ∀ e ∈ failure, e.kind ≠ .unexpectedEof) :
    (readFrom ⟨pieces, failure⟩).1 = (FrameCodec.read stream).map (Option.map Prod.fst) := by
  obtain ⟨bytes, ending⟩ := stream
  subst same
  match bytes, splits with
  | first :: second :: third :: fourth :: body, splits =>
    have value : first.toNat * 2 ^ 24 + second.toNat * 2 ^ 16 + third.toNat * 2 ^ 8 +
        fourth.toNat = ofLengthBytes [first, second, third, fourth] := by
      simp only [ofLengthBytes, foldl_cons, foldl_nil]
      omega
    have field : Splits pieces ([first, second, third, fourth] ++ body) := splits
    unfold FrameCodec.read
    simp only [value]
    split_ifs with large cut
    · obtain ⟨left, later, result⟩ := @readWith_field _ readReports _ failure _ _ field rfl
      rw [readFrom, result, if_pos large]
      rfl
    · rw [readFrom, readWith_cut field rfl (Nat.not_lt.mp large) cut]
      cases failure <;> rfl
    · obtain ⟨left, later, result⟩ := @readWith_whole _ readReports _ failure _ _ field rfl
        (Nat.not_lt.mp large) (Nat.not_lt.mp cut)
      rw [readFrom, result]
      rfl
  | [], splits | [_], splits | [_, _], splits | [_, _, _], splits =>
    rw [readFrom, readWith_short splits (by simp)]
    cases failure with
    | none => rfl
    | some e =>
      have other : readReports.isEnd e = false := by simpa [readReports] using kind e rfl
      rw [Option.getD_some, if_neg (by simp [other])]
      rfl

theorem readFrom_byte : (readFrom ⟨[[0], [0, 0, 1], [7]], none⟩).1 = .ok (some ⟨[7]⟩) := by
  have stream : Splits [[0], [0, 0, 1], [7]] (Stream.mk [0, 0, 0, 1, 7] none).bytes :=
    ⟨rfl, by simp⟩
  exact (readFrom_read stream rfl (by simp)).trans (by decide +kernel)

/-- Both readers give back what was written, however the bytes are handed out. A stream that ends
inside a frame gives an error exactly when the length field of that frame is complete. -/
theorem frames_delivered (frames : List Frame) (fits : ∀ frame ∈ frames, Fits frame) :
    ∃ stream, frames.foldlM write [] = .ok stream ∧
      (∀ pieces, Splits pieces stream →
        Returns readFrom ⟨pieces, none⟩ frames (.ok none) ∧
          Returns decodeStream ⟨pieces, none⟩ frames (.ok none)) ∧
      ∀ whole part bytes, EndsInside frames whole part bytes →
        bytes <+: stream ∧ bytes ≠ stream ∧ ∀ pieces, Splits pieces bytes →
          ((∃ error, Returns readFrom ⟨pieces, none⟩ whole (.error error)) ↔ 4 ≤ part.length) ∧
            ((∃ error, Returns decodeStream ⟨pieces, none⟩ whole (.error error)) ↔
              4 ≤ part.length) := by
  refine ⟨encodeAll frames, write_all fits [], ?_, ?_⟩
  · intro pieces splits
    exact ⟨returns_written rfl fits splits, returns_written rfl fits splits⟩
  · intro whole part bytes inside
    refine ⟨?_, ?_, fun pieces splits =>
      ⟨returns_error_iff rfl fits inside splits, returns_error_iff rfl fits inside splits⟩⟩
    all_goals obtain ⟨frame, later, rfl, begins, -, proper, rfl⟩ := inside
    · rw [encodeAll_append, encodeAll_cons]
      exact (prefix_append_right_inj _).mpr (begins.trans (prefix_append _ _))
    · intro same
      rw [encodeAll_append, encodeAll_cons] at same
      have lengths := congrArg List.length (append_cancel_left same)
      have bound := begins.length_le
      have ne : part.length ≠ (encode frame).length :=
        fun equal => proper (begins.eq_of_length equal)
      rw [length_append] at lengths
      omega

theorem frames_delivered_byte :
    (∀ frame ∈ [Frame.mk [7]], Fits frame) ∧
      Returns readFrom ⟨[[0], [0, 0, 1], [7]], none⟩ [⟨[7]⟩] (.ok none) := by
  have fits : ∀ frame ∈ [Frame.mk [7]], Fits frame := by simp [Fits, maxFrameSize]
  obtain ⟨stream, written, delivered, -⟩ := frames_delivered [⟨[7]⟩] fits
  obtain rfl : [0, 0, 0, 1, 7] = stream := Except.ok.inj written
  exact ⟨fits, (delivered _ ⟨rfl, by simp⟩).1⟩

/-- Two bytes of a length field are followed by a clean end. -/
theorem cut_length_not_error :
    ¬ ∀ frames, (∀ frame ∈ frames, Fits frame) → ∀ whole part bytes,
      EndsInside frames whole part bytes → ∀ pieces, Splits pieces bytes →
        ∃ error, Returns readFrom ⟨pieces, none⟩ whole (.error error) := by
  intro all
  have fits : ∀ frame ∈ [Frame.mk [7]], Fits frame := by simp [Fits, maxFrameSize]
  have inside : EndsInside [⟨[7]⟩] [] [0, 0] [0, 0] :=
    ⟨⟨[7]⟩, [], rfl, ⟨[0, 1, 7], rfl⟩, by simp, by decide, rfl⟩
  have splits : Splits [[0, 0]] ([0, 0] : Bytes) := ⟨rfl, by simp⟩
  have failed := all _ fits _ _ _ inside _ splits
  exact absurd ((returns_error_iff rfl fits inside splits).mp failed) (by decide)

end A3Net.Transport
