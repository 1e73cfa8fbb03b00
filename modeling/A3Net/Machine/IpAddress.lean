import A3Net.Machine.Text

namespace A3Net.Machine

open Cryptography Option

inductive IpAddr where
  | v4 (octets : Vector UInt8 4)
  | v6 (segments : Vector UInt16 8)

namespace IpAddr

/-- Too many digits or a number that is too large are refused, and so are zeros in front unless they
are allowed. -/
def readNumber (radix maxDigits bound : Nat) (zeroPrefix : Bool) (text : List Char) :
    Option (Nat × List Char) :=
  let isDigit (digit : Char) : Bool := ((hexValue digit).any (· < radix))
  let digits := text.takeWhile isDigit
  let value := digits.foldl (fun value digit => radix * value + (hexValue digit).getD 0) 0
  if digits = [] ∨ maxDigits < digits.length ∨ bound < value then none
  else if !zeroPrefix && digits.head? = some '0' && 1 < digits.length then none
  else some (value, text.dropWhile isDigit)

def readChar (expected : Char) : List Char → Option (List Char)
  | [] => none
  | char :: rest => if char = expected then some rest else none

/-- A separator stands before all parts but the first. -/
def readSeparated {Value : Type} (separator : Char) (index : Nat)
    (read : List Char → Option (Value × List Char)) (text : List Char) :
    Option (Value × List Char) :=
  if index = 0 then read text else (readChar separator text).bind read

def readOctet (index : Nat) : List Char → Option (Nat × List Char) :=
  readSeparated '.' index (readNumber 10 3 255 false)

variable (text : List Char)

def readIpv4 : Option (Vector UInt8 4 × List Char) := do
  let (first, text) ← readOctet 0 text
  let (second, text) ← readOctet 1 text
  let (third, text) ← readOctet 2 text
  let (fourth, text) ← readOctet 3 text
  return (#v[first.toUInt8, second.toUInt8, third.toUInt8, fourth.toUInt8], text)

def joinOctets (high low : UInt8) : UInt16 := (high.toUInt16 <<< 8) ||| low.toUInt16

/-- Two groups may be written as an address of the fourth version, which then is the last part. -/
def readGroups : Nat → Nat → List Char → List UInt16 × Bool × List Char
  | 0, _, text => ([], false, text)
  | left + 1, index, text =>
    match if left = 0 then none else readSeparated ':' index readIpv4 text with
    | some (octets, rest) =>
      ([joinOctets octets[0] octets[1], joinOctets octets[2] octets[3]], true, rest)
    | none =>
      match readSeparated ':' index (readNumber 16 4 65535 true) text with
      | none => ([], false, text)
      | some (group, rest) =>
        let (groups, embedded, rest) := readGroups left (index + 1) rest
        (group.toUInt16 :: groups, embedded, rest)

def ofGroups (groups : List UInt16) : Vector UInt16 8 :=
  Vector.ofFn fun index => groups.getD index 0

/-- Two colons stand for at least one group of zeros. -/
def readIpv6 : Option (Vector UInt16 8 × List Char) :=
  match readGroups 8 0 text with
  | (head, embedded, rest) =>
    if head.length = 8 then some (ofGroups head, rest)
    else if embedded then none
    else
      match (readChar ':' rest).bind (readChar ':') with
      | none => none
      | some rest =>
        match readGroups (8 - (head.length + 1)) 0 rest with
        | (tail, _, rest) =>
          let zeros := List.replicate (8 - head.length - tail.length) 0
          some (ofGroups (head ++ zeros ++ tail), rest)

/-- The whole text is one address. -/
def parse : Option IpAddr :=
  match readIpv4 text with
  | some (octets, rest) => if rest = [] then some (.v4 octets) else none
  | none =>
    match readIpv6 text with
    | some (segments, rest) => if rest = [] then some (.v6 segments) else none
    | none => none

def isAddressChar (char : Char) : Bool :=
  (hexValue char).isSome || char = '.' || char = ':'

/-- What was read in front of the rest is made of the characters of addresses. -/
def Uses (text rest : List Char) : Prop :=
  ∃ used, text = used ++ rest ∧ ∀ char ∈ used, isAddressChar char

theorem Uses.refl (text : List Char) : Uses text text :=
  ⟨[], rfl, List.forall_mem_nil _⟩

theorem Uses.trans {first second third : List Char} (one : Uses first second)
    (other : Uses second third) : Uses first third := by
  obtain ⟨used, rfl, plain⟩ := one
  obtain ⟨more, rfl, later⟩ := other
  refine ⟨used ++ more, (List.append_assoc _ _ _).symm, fun char member => ?_⟩
  rcases List.mem_append.mp member with early | late
  · exact plain char early
  · exact later char late

variable {rest : List Char} {text}

theorem readNumber_uses {radix maxDigits bound value : Nat} {zeroPrefix : Bool}
    (read : readNumber radix maxDigits bound zeroPrefix text = some (value, rest)) :
    Uses text rest := by
  unfold readNumber at read
  dsimp only at read
  split_ifs at read
  cases read
  refine ⟨_, (List.takeWhile_append_dropWhile).symm, fun char member => ?_⟩
  have digit := List.mem_takeWhile_imp member
  obtain ⟨found, value, _⟩ := (any_eq_true _ _).mp digit
  simp [isAddressChar, value]

theorem readChar_uses {expected : Char} (plain : isAddressChar expected)
    (read : readChar expected text = some rest) : Uses text rest := by
  cases text with
  | nil => cases read
  | cons char later =>
    rw [readChar] at read
    split_ifs at read with same
    cases read
    refine ⟨[char], rfl, fun other member => ?_⟩
    rw [List.mem_singleton.mp member, same]
    exact plain

theorem readSeparated_uses {Value : Type} {separator : Char} (plain : isAddressChar separator)
    {index : Nat} {read : List Char → Option (Value × List Char)}
    (uses : ∀ {text value rest}, read text = some (value, rest) → Uses text rest) {value : Value}
    (done : readSeparated separator index read text = some (value, rest)) : Uses text rest := by
  unfold readSeparated at done
  split_ifs at done
  · exact uses done
  · obtain ⟨middle, first, second⟩ := bind_eq_some_iff.mp done
    exact (readChar_uses plain first).trans (uses second)

theorem readOctet_uses {index value : Nat} (read : readOctet index text = some (value, rest)) :
    Uses text rest :=
  readSeparated_uses (by decide) readNumber_uses read

theorem readIpv4_uses {octets : Vector UInt8 4} (read : readIpv4 text = some (octets, rest)) :
    Uses text rest := by
  obtain ⟨⟨_, text1⟩, first, read⟩ := bind_eq_some_iff.mp read
  obtain ⟨⟨_, text2⟩, second, read⟩ := bind_eq_some_iff.mp read
  obtain ⟨⟨_, text3⟩, third, read⟩ := bind_eq_some_iff.mp read
  obtain ⟨⟨_, text4⟩, fourth, read⟩ := bind_eq_some_iff.mp read
  cases read
  exact (((readOctet_uses first).trans (readOctet_uses second)).trans (readOctet_uses third)).trans
    (readOctet_uses fourth)

theorem readGroups_uses (left index : Nat) (text : List Char) :
    Uses text (readGroups left index text).2.2 := by
  induction left generalizing index text with
  | zero => exact Uses.refl text
  | succ left ih =>
    unfold readGroups
    split
    · next octets rest read =>
      split_ifs at read
      exact readSeparated_uses (by decide) readIpv4_uses read
    · split
      · exact Uses.refl text
      · next group rest read =>
        exact (readSeparated_uses (by decide) readNumber_uses read).trans (ih _ _)

theorem readIpv6_uses {segments : Vector UInt16 8} (read : readIpv6 text = some (segments, rest)) :
    Uses text rest := by
  have head := readGroups_uses 8 0 text
  unfold readIpv6 at read
  split at read
  next groups embedded middle found =>
    rw [found] at head
    split_ifs at read
    · cases read
      exact head
    · split at read
      · cases read
      · next later colons =>
        obtain ⟨one, first, second⟩ := bind_eq_some_iff.mp colons
        have between := (readChar_uses (by decide) first).trans (readChar_uses (by decide) second)
        have tail := readGroups_uses (8 - (groups.length + 1)) 0 later
        split at read
        next others _ final ended =>
          rw [ended] at tail
          cases read
          exact (head.trans between).trans tail

/-- An address is written with hexadecimal digits, dots and colons. -/
theorem parse_characters {address : IpAddr} (parsed : parse text = some address) :
    ∀ char ∈ text, isAddressChar char := by
  have whole : Uses text [] := by
    unfold parse at parsed
    split at parsed
    · next octets rest read =>
      split_ifs at parsed with ended
      rw [← ended]
      exact readIpv4_uses read
    · split at parsed
      · next segments rest read =>
        split_ifs at parsed with ended
        rw [← ended]
        exact readIpv6_uses read
      · cases parsed
  obtain ⟨used, rfl, plain⟩ := whole
  rw [List.append_nil]
  exact plain

variable (octets : Vector UInt8 4) (segments : Vector UInt16 8)

def isLoopbackV4 : Bool := octets[0] = 127

def isPrivate : Bool :=
  octets[0] = 10 || (octets[0] = 172 && (16 : UInt8) ≤ octets[1] && octets[1] ≤ (31 : UInt8)) ||
    (octets[0] = 192 && octets[1] = 168)

def isLinkLocal : Bool := octets[0] = 169 && octets[1] = 254

def isMulticastV4 : Bool := (224 : UInt8) ≤ octets[0] && octets[0] ≤ (239 : UInt8)

def isUnspecifiedV4 : Bool := octets = #v[0, 0, 0, 0]

def isBroadcast : Bool := octets = #v[255, 255, 255, 255]

def isLoopbackV6 : Bool := segments = #v[0, 0, 0, 0, 0, 0, 0, 1]

def isUnspecifiedV6 : Bool := segments = #v[0, 0, 0, 0, 0, 0, 0, 0]

def isMulticastV6 : Bool := segments[0] &&& 0xff00 = 0xff00

/-- The last two segments hold an address of the fourth version. -/
def embedded : Vector UInt8 4 :=
  #v[(segments[6] >>> 8).toUInt8, segments[6].toUInt8, (segments[7] >>> 8).toUInt8,
    segments[7].toUInt8]

def toIpv4Mapped : Option (Vector UInt8 4) :=
  if segments.toList.take 6 = [0, 0, 0, 0, 0, 0xffff] then some (embedded segments) else none

def toIpv4 : Option (Vector UInt8 4) :=
  if segments.toList.take 6 = [0, 0, 0, 0, 0, 0] then some (embedded segments)
  else toIpv4Mapped segments

def printV4 (octets : Vector UInt8 4) : List Char :=
  ['.'].intercalate (octets.toList.map fun octet => decimal octet.toNat)

def printGroups (groups : List UInt16) : List Char :=
  [':'].intercalate (groups.map fun group => Nat.toDigits 16 group.toNat)

/-- The first of the longest runs of zeros, with its start and its length. -/
def zeroRun : Nat → Nat × Nat → Nat × Nat → List UInt16 → Nat × Nat
  | _, _, longest, [] => longest
  | index, (start, length), longest, group :: rest =>
    let current := if group = 0 then (if length = 0 then index else start, length + 1) else (0, 0)
    zeroRun (index + 1) current (if longest.2 < current.2 then current else longest) rest

def printV6 (segments : Vector UInt16 8) : List Char :=
  match toIpv4Mapped segments with
  | some octets => "::ffff:".toList ++ printV4 octets
  | none =>
    let groups := segments.toList
    let (start, length) := zeroRun 0 (0, 0) (0, 0) groups
    if 1 < length then
      printGroups (groups.take start) ++ "::".toList ++ printGroups (groups.drop (start + length))
    else printGroups groups

def print : IpAddr → List Char
  | .v4 octets => printV4 octets
  | .v6 segments => printV6 segments

end IpAddr
end A3Net.Machine
