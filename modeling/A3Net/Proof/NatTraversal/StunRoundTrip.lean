import A3Net.Construction.NatTraversal.StunCodec

namespace A3Net.NatTraversal

open Cryptography List

theorem pad_length (value : Bytes) : (pad value).length % 4 = 0 := by
  fun_induction pad value with
  | case1 value aligned => exact aligned
  | case2 value _ ih => exact ih

namespace Message

theorem numberAt_append {front rest : Bytes} {offset count value : Nat}
    (here : front.length = offset) (fits : value < 256 ^ count) :
    numberAt (front ++ (bigEndian count value ++ rest)) offset count = value := by
  rw [numberAt, drop_left' here, take_left' (bigEndian_length count),
    ofBigEndian_bigEndian count fits]

theorem encodeAttr_length (attr : Attribute) : (encodeAttr attr).length = 4 + attr.value.length := by
  simp [encodeAttr, ← Nat.add_assoc]

/-- Attributes of whole words that fit are read one after another from their place. -/
theorem decodeAttributes_flatMap {attributes : List Attribute}
    (aligned : ∀ attr ∈ attributes, attr.value.length % 4 = 0)
    (fits : (attributes.flatMap encodeAttr).length < 2 ^ 16) (front : Bytes) :
    decodeAttributes (front ++ attributes.flatMap encodeAttr) front.length = some attributes := by
  induction attributes generalizing front with
  | nil => rw [decodeAttributes, if_neg (by simp)]
  | cons attr rest ih =>
    rw [flatMap_cons, length_append, encodeAttr_length] at fits
    have whole : 4 + (attr.value.length + 3) / 4 * 4 = (encodeAttr attr).length := by
      have := aligned attr mem_cons_self
      rw [encodeAttr_length]
      omega
    have later := ih (forall_mem_cons.mp aligned).2 (by omega) (front ++ encodeAttr attr)
    have typeAt := @numberAt_append front (bigEndian 2 attr.value.length ++ (attr.value ++
      rest.flatMap encodeAttr)) _ 2 _ rfl attr.attrType.toNat_lt
    have lengthAt := @numberAt_append (front ++ bigEndian 2 attr.attrType.toNat)
      (attr.value ++ rest.flatMap encodeAttr) (front.length + 2) 2 attr.value.length (by simp)
      (by omega)
    rw [length_append, append_assoc] at later
    rw [append_assoc] at lengthAt
    rw [decodeAttributes, flatMap_cons]
    simp only [encodeAttr, append_assoc] at *
    simp only [lengthAt, typeAt, whole, later]
    rw [if_pos (by simp; omega), if_neg (by simp; omega)]
    simp [drop_append, drop_of_length_le]

/-- The attributes that were pushed stand behind each other. -/
theorem foldl_pushAttr (msg : Message) (attrs : List (UInt16 × Bytes)) :
    attrs.foldl pushAttr msg =
      {msg with attributes := msg.attributes ++ attrs.map fun attr => ⟨attr.1, pad attr.2⟩} := by
  induction attrs generalizing msg with
  | nil => simp
  | cons attr rest ih => simp [ih, pushAttr]

/-- Everything but the type comes back in any case. -/
theorem decode_encode_of_aligned {msg : Message}
    (aligned : ∀ attr ∈ msg.attributes, attr.value.length % 4 = 0)
    (fits : msg.bodyLength < 2 ^ 16) :
    decode msg.encode = some {msg with kind := .fromU16 msg.kind.toU16} := by
  have size : (msg.attributes.flatMap encodeAttr).length = msg.bodyLength := by
    simp [bodyLength, encodeAttr_length, length_flatMap]
  have body : decodeAttributes (msg.attributes.flatMap encodeAttr) 0 = some msg.attributes :=
    decodeAttributes_flatMap aligned (size ▸ fits) []
  have word : ∀ {value : Nat}, value < 2 ^ 16 → ofBigEndian (bigEndian 2 value) = value :=
    ofBigEndian_bigEndian 2
  have cookie : ofBigEndian (bigEndian 4 magicCookie) = magicCookie := by decide
  have length : msg.encode.length = 20 + msg.bodyLength := by
    rw [← size]
    simp [encode, ← Nat.add_assoc]
  have bodyAt : (msg.encode.drop 20).take msg.bodyLength = msg.attributes.flatMap encodeAttr := by
    rw [encode, drop_left' (by simp), take_of_length_le (Nat.le_of_eq size)]
  have id : (msg.encode.drop 8).take 12 = msg.transactionId.toList := by
    simp [encode, drop_append, drop_of_length_le]
  have kindAt : numberAt msg.encode 0 2 = msg.kind.toU16.toNat := by
    simp [encode, numberAt, word msg.kind.toU16.toNat_lt]
  have lengthAt : numberAt msg.encode 2 2 = msg.bodyLength := by
    simp [encode, numberAt, word fits]
  have cookieAt : numberAt msg.encode 4 4 = magicCookie := by
    simp [encode, numberAt, drop_append, drop_of_length_le, cookie]
  unfold decode
  rw [dif_neg (by omega)]
  simp only [kindAt, lengthAt, cookieAt, bodyAt, id]
  rw [if_neg (by simp), if_neg (by omega), body, UInt16.ofNat_toNat]
  rfl

/-- What was built with `push_attr` is read back. -/
theorem decode_encode {kind : MessageType} {transactionId : TransactionId}
    (unnamed : ∀ code, kind = .other code → MessageType.fromU16 code = .other code)
    {attrs : List (UInt16 × Bytes)}
    (fits : (attrs.foldl pushAttr ⟨kind, transactionId, []⟩).bodyLength < 2 ^ 16) :
    decode (attrs.foldl pushAttr ⟨kind, transactionId, []⟩).encode =
      some (attrs.foldl pushAttr ⟨kind, transactionId, []⟩) := by
  have named : MessageType.fromU16 kind.toU16 = kind := by
    cases kind with
    | other code => exact unnamed code rfl
    | _ => rfl
  rw [foldl_pushAttr] at *
  rw [decode_encode_of_aligned (forall_mem_map.mpr fun attr _ => pad_length attr.2) fits, named]

/-- An attribute of one byte is filled up with zeros. -/
theorem decode_encode_padded :
    decode (pushAttr ⟨.bindingRequest, .replicate 12 0, []⟩ (6, [1])).encode =
      some ⟨.bindingRequest, .replicate 12 0, [⟨6, [1, 0, 0, 0]⟩]⟩ := by
  have padded : pad [1] = [1, 0, 0, 0] := by simp [pad]
  have back := @decode_encode .bindingRequest (.replicate 12 0) nofun [(6, [1])]
    (by simp [pushAttr, padded, bodyLength])
  simpa [pushAttr, padded] using back

/-- A type without a name that has the number of a named one comes back as that one. -/
theorem decode_encode_renamed :
    ¬ ∀ (kind : MessageType) (transactionId : TransactionId) (attrs : List (UInt16 × Bytes)),
      (attrs.foldl pushAttr ⟨kind, transactionId, []⟩).bodyLength < 2 ^ 16 →
        decode (attrs.foldl pushAttr ⟨kind, transactionId, []⟩).encode =
          some (attrs.foldl pushAttr ⟨kind, transactionId, []⟩) := by
  intro always
  have same := always (.other 1) (.replicate 12 0) [] (by decide)
  cases (decode_encode_of_aligned (forall_mem_nil _) (by decide)).symm.trans same

end Message

end A3Net.NatTraversal
