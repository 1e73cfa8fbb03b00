import Mathlib.Data.List.DropRight
import A3Net.Cryptography.Bytes

namespace A3Net.Machine

open Cryptography List

/-- These are the characters with the Unicode property `White_Space`. -/
def isWhiteSpace (char : Char) : Bool :=
  let code := char.toNat
  (9 ≤ code && code ≤ 13) || code = 0x20 || code = 0x85 || code = 0xa0 || code = 0x1680 ||
    (0x2000 ≤ code && code ≤ 0x200a) || code = 0x2028 || code = 0x2029 || code = 0x202f ||
    code = 0x205f || code = 0x3000

def trimMatches (test : Char → Bool) (text : List Char) : List Char :=
  ((text.dropWhile test).reverse.dropWhile test).reverse

def trim (text : List Char) : List Char := trimMatches isWhiteSpace text

variable {test : Char → Bool} {text : List Char}

theorem trimMatches_eq : trimMatches test text = (text.dropWhile test).rdropWhile test :=
  rfl

theorem trimMatches_trimMatches :
    trimMatches test (trimMatches test text) = trimMatches test text := by
  have start : (trimMatches test text).dropWhile test = trimMatches test text := by
    rw [dropWhile_eq_self_iff]
    intro some
    have shorter : trimMatches test text <+: text.dropWhile test := rdropWhile_prefix _ _
    have first := dropWhile_get_zero_not test text (some.trans_le shorter.length_le)
    have same := shorter.getElem some
    rw [get_eq_getElem] at first
    rw [same]
    exact first
  rw [trimMatches_eq, start, trimMatches_eq, rdropWhile_idempotent]

/-- A text that does not start with a space is only cut at its end. -/
theorem trim_prefix_of_head {first : Char} (head : text.head? = some first)
    (visible : isWhiteSpace first = false) : trim text <+: text := by
  obtain ⟨rest, rfl⟩ := head?_eq_some_iff.mp head
  have start : (first :: rest).dropWhile isWhiteSpace = first :: rest := by
    rw [dropWhile_cons, if_neg (by simp [visible])]
  rw [trim, trimMatches_eq, start]
  exact rdropWhile_prefix _ _

def stripPrefix (start text : List Char) : Option (List Char) := start.isPrefixOf? text

def asciiLower (text : List Char) : List Char :=
  text.map fun char =>
    if 65 ≤ char.toNat ∧ char.toNat ≤ 90 then Char.ofNat (char.toNat + 32)
    else char

theorem toLower_toLower (char : Char) : char.toLower.toLower = char.toLower := by
  unfold Char.toLower
  split_ifs with upper again
  · exfalso
    have least := UInt32.le_iff_toNat_le.mp upper.1
    have most := UInt32.le_iff_toNat_le.mp upper.2
    have below := UInt32.le_iff_toNat_le.mp again.2
    simp at least most below
    omega
  · rfl
  · rfl

/-- The first different characters decide, and a shorter text comes first. -/
def textLe : List Char → List Char → Bool
  | [], _ => true
  | _ :: _, [] => false
  | first :: firsts, second :: seconds =>
    first.toNat < second.toNat || (first == second && textLe firsts seconds)

/-- These are the parts between the separators, with the empty parts left out. -/
def parts (separator : Char) (text : List Char) : List (List Char) :=
  (text.splitOn separator).filter fun part => !part.isEmpty

theorem parts_append_cons (separator : Char) (first second : List Char) :
    parts separator (first ++ separator :: second) =
      parts separator first ++ parts separator second := by
  have split := splitOnP_append_cons (p := (· == separator)) first second
    (beq_self_eq_true separator)
  unfold parts List.splitOn
  rw [split, filter_append]

variable {separator : Char} {part : List Char}

theorem parts_self (inside : separator ∉ part) (visible : part ≠ []) :
    parts separator part = [part] := by
  have single : ([separator].intercalate [part]).splitOn separator = [part] :=
    splitOn_intercalate separator (by simpa using inside) (cons_ne_nil _ _)
  rw [intercalate_singleton] at single
  rw [parts, single]
  simp [visible]

variable {pieces : List (List Char)}

theorem parts_intercalate (plain : ∀ piece ∈ pieces, separator ∉ piece ∧ piece ≠ []) :
    parts separator ([separator].intercalate pieces) = pieces := by
  induction pieces with
  | nil => rfl
  | cons piece rest ih =>
    have first := plain piece mem_cons_self
    have later := ih (forall_mem_cons.mp plain).2
    cases rest with
    | nil =>
      rw [intercalate_singleton]
      exact parts_self first.1 first.2
    | cons next others =>
      rw [intercalate_cons_cons, append_assoc, singleton_append,
        parts_append_cons, parts_self first.1 first.2, later]
      rfl

/-- A character that trimming removes passes the test. -/
theorem mem_trimMatches {test : Char → Bool} {text : List Char} {char : Char}
    (member : char ∈ text) : test char ∨ char ∈ trimMatches test text := by
  have split : ∀ text : List Char, char ∈ text → test char ∨ char ∈ text.dropWhile test := by
    intro text member
    rw [← @takeWhile_append_dropWhile _ test text, mem_append] at member
    exact member.imp_left mem_takeWhile_imp
  rcases split text member with trimmed | kept
  · exact .inl trimmed
  · rcases split _ (mem_reverse.mpr kept) with trimmed | kept
    · exact .inl trimmed
    · exact .inr (mem_reverse.mpr kept)

theorem mem_intercalate {char : Char} (member : char ∈ [separator].intercalate pieces) :
    char = separator ∨ ∃ piece ∈ pieces, char ∈ piece := by
  induction pieces with
  | nil => cases member
  | cons piece rest ih =>
    cases rest with
    | nil =>
      rw [intercalate_singleton] at member
      exact .inr ⟨piece, mem_cons_self, member⟩
    | cons next others =>
      rw [intercalate_cons_cons, mem_append, mem_append, mem_singleton] at member
      rcases member with (inside | same) | later
      · exact .inr ⟨piece, mem_cons_self, inside⟩
      · exact .inl same
      · exact (ih later).imp_right fun ⟨other, there, inside⟩ =>
          ⟨other, mem_cons_of_mem _ there, inside⟩

theorem mem_splitOn (member : part ∈ text.splitOn separator) : separator ∉ part ∧ part ⊆ text := by
  unfold List.splitOn at member
  induction text generalizing part with
  | nil =>
    rw [splitOnP_nil, mem_singleton] at member
    simp [member]
  | cons char rest ih =>
    rw [splitOnP_cons_eq_if_modifyHead] at member
    split_ifs at member with same
    · rcases mem_cons.mp member with rfl | later
      · exact ⟨not_mem_nil, nil_subset _⟩
      · exact ⟨(ih later).1, subset_cons_of_subset _ (ih later).2⟩
    · cases pieces : rest.splitOnP (· == separator) with
      | nil => exact absurd pieces (splitOnP_ne_nil _ _)
      | cons head tail =>
        simp only [pieces, modifyHead_cons, mem_cons] at member ih
        rcases member with rfl | later
        · have first := ih (Or.inl rfl)
          rw [mem_cons, not_or]
          exact ⟨⟨fun equal => same (by simp [equal]), first.1⟩, cons_subset_cons _ first.2⟩
        · have other := ih (Or.inr later)
          exact ⟨other.1, subset_cons_of_subset _ other.2⟩

theorem mem_parts (member : part ∈ parts separator text) :
    (separator ∉ part ∧ part ≠ []) ∧ part ⊆ text := by
  obtain ⟨split, visible⟩ := mem_filter.mp member
  have between := mem_splitOn split
  exact ⟨⟨between.1, by simpa using visible⟩, between.2⟩

/-- An empty list of digits is no number. -/
def parseDigits (digits : List Char) : Option Nat :=
  if digits.isEmpty || !digits.all Char.isDigit then none
  else some (digits.foldl (fun value digit => 10 * value + (digit.toNat - 48)) 0)

/-- A plus sign may stand before a number. -/
def parseUnsigned : List Char → Option Nat
  | '+' :: digits => parseDigits digits
  | digits => parseDigits digits

/-- The number lies between the negated bound and the bound. -/
def parseSigned (bound : Nat) : List Char → Option Int
  | '-' :: digits =>
    (parseDigits digits).bind fun value => if value ≤ bound then some (-(value : Int)) else none
  | text => (parseUnsigned text).bind fun value => if value < bound then some value else none

def decimal (value : Nat) : List Char := Nat.toDigits 10 value

def decimalInt : Int → List Char
  | .ofNat value => decimal value
  | .negSucc value => '-' :: decimal (value + 1)

/-- Zeros fill a short number up to the width. -/
def padded (width value : Nat) : List Char :=
  List.replicate (width - (decimal value).length) '0' ++ decimal value

theorem padded_injective (width : Nat) : Function.Injective (padded width) := by
  have zeros : ∀ count, Nat.ofDigitChars 10 (List.replicate count '0') 0 = 0 := by
    intro count
    induction count with
    | zero => rfl
    | succ count ih => exact ih
  have reads : ∀ value, Nat.ofDigitChars 10 (padded width value) 0 = value := by
    intro value
    rw [padded, Nat.ofDigitChars_append, zeros]
    exact Nat.ofDigitChars_toDigits (by decide) (by decide)
  intro first second equal
  rw [← reads first, equal, reads second]

/-- The second byte that may follow the first byte of a character of three or four bytes. -/
def mayFollow (first second : UInt8) : Bool :=
  let between (low high : UInt8) : Bool := low ≤ second && second ≤ high
  if first = 0xe0 then between 0xa0 0xbf
  else if first = 0xed then between 0x80 0x9f
  else if first = 0xf0 then between 0x90 0xbf
  else if first = 0xf4 then between 0x80 0x8f
  else (0xe1 ≤ first && first ≤ 0xf3) && between 0x80 0xbf

/-- The bytes up to the first one that cannot belong to a character are replaced together. -/
def brokenLength : Bytes → Nat
  | first :: second :: rest =>
    if mayFollow first second then
      match rest with
      | third :: _ => if 0xf0 ≤ first && (0x80 ≤ third && third ≤ 0xbf) then 3 else 2
      | [] => 2
    else 1
  | _ => 1

def decodeLossy : Nat → Bytes → List Char
  | 0, _ => []
  | _, [] => []
  | fuel + 1, bytes =>
    match bytes.toByteArray.utf8DecodeChar? 0 with
    | some char => char :: decodeLossy fuel (bytes.drop char.utf8Size)
    | none => Char.ofNat 0xfffd :: decodeLossy fuel (bytes.drop (brokenLength bytes))

/-- This is the text of `String::from_utf8_lossy`. -/
def fromUtf8Lossy (bytes : Bytes) : List Char := decodeLossy bytes.length bytes

theorem decodeLossy_utf8Chars {fuel : Nat} (enough : (utf8Chars text).length ≤ fuel) :
    decodeLossy fuel (utf8Chars text) = text := by
  induction text generalizing fuel with
  | nil =>
    cases fuel <;> rfl
  | cons char rest ih =>
    have split : utf8Chars (char :: rest) = String.utf8EncodeChar char ++ utf8Chars rest := rfl
    have size : (String.utf8EncodeChar char).length = char.utf8Size :=
      String.length_utf8EncodeChar char
    have positive := char.utf8Size_pos
    rw [split, length_append, size] at enough
    obtain ⟨more, rfl⟩ : ∃ more, fuel = more + 1 := ⟨fuel - 1, by omega⟩
    have visible : utf8Chars (char :: rest) ≠ [] := by
      intro empty
      have short := congrArg List.length empty
      rw [split, length_append, size, length_nil] at short
      omega
    have first : (utf8Chars (char :: rest)).toByteArray.utf8DecodeChar? 0 =
        some char := utf8DecodeChar?_utf8Encode_cons
    have later : (utf8Chars (char :: rest)).drop char.utf8Size = utf8Chars rest := by
      rw [split, ← size, drop_left]
    rw [decodeLossy, first]
    · dsimp only
      rw [later, ih (by omega)]
    · exact visible

/-- A text is read back from its bytes. -/
theorem fromUtf8Lossy_utf8Chars (text : List Char) : fromUtf8Lossy (utf8Chars text) = text :=
  decodeLossy_utf8Chars le_rfl

/-- A control character without a short form is escaped by its code. -/
def jsonEscape (char : Char) : List Char :=
  match char.toNat with
  | 34 => ['\\', '"']
  | 92 => ['\\', '\\']
  | 8 => ['\\', 'b']
  | 12 => ['\\', 'f']
  | 10 => ['\\', 'n']
  | 13 => ['\\', 'r']
  | 9 => ['\\', 't']
  | code =>
    if code < 32 then ['\\', 'u', '0', '0', hexDigit (code / 16), hexDigit (code % 16)]
    else [char]

def jsonString (text : List Char) : List Char := '"' :: text.flatMap jsonEscape ++ ['"']

/-- The fields keep their order, and no space stands between them. -/
def jsonObject (fields : List (String × List Char)) : List Char :=
  let field (pair : String × List Char) : List Char := jsonString pair.1.toList ++ ':' :: pair.2
  '\x7b' :: [','].intercalate (fields.map field) ++ ['\x7d']

end A3Net.Machine
