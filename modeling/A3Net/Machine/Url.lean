import A3Net.Machine.Text

namespace A3Net.Machine

open Cryptography List

/-- A dot may be written with its code. -/
def isSingleDot (segment : List Char) : Bool :=
  asciiLower segment = ['.'] ∨ asciiLower segment = ['%', '2', 'e']

def isDoubleDot (segment : List Char) : Bool :=
  asciiLower segment = ['.', '.'] ∨ asciiLower segment = ['.', '%', '2', 'e'] ∨
    asciiLower segment = ['%', '2', 'e', '.'] ∨ asciiLower segment = ['%', '2', 'e', '%', '2', 'e']

/-- The characters of the set are written with the codes of their bytes. -/
def percentEncode (encodeSet : Char → Bool) (segment : List Char) : List Char :=
  segment.flatMap fun char =>
    if encodeSet char then
      (String.utf8EncodeChar char).flatMap fun byte =>
        ['%', (hexDigit (byte.toNat / 16)).toUpper, (hexDigit (byte.toNat % 16)).toUpper]
    else [char]

/-- A double dot takes the last segment away. A dot segment at the end leaves an empty segment. -/
def resolveSegments (encodeSet : Char → Bool) (done : List (List Char)) :
    List (List Char) → List (List Char)
  | [] => done
  | [last] =>
    if isDoubleDot last then done.dropLast ++ [[]]
    else if isSingleDot last then done ++ [[]]
    else done ++ [percentEncode encodeSet last]
  | segment :: rest =>
    if isDoubleDot segment then resolveSegments encodeSet done.dropLast rest
    else if isSingleDot segment then resolveSegments encodeSet done rest
    else resolveSegments encodeSet (done ++ [percentEncode encodeSet segment]) rest

/-- The path ends before a question mark or a hash, and a backslash counts as a slash. -/
def resolvePath (encodeSet : Char → Bool) (text : List Char) : List Char :=
  let path := text.takeWhile fun char => char ≠ '?' && char ≠ '#'
  let slashes := path.map fun char => if char = '\\' then '/' else char
  (resolveSegments encodeSet [] ((slashes.drop 1).splitOn '/')).flatMap ('/' :: ·)

/-- This is what an address names: a host, a port and a path. -/
structure HttpAddress where
  host : List Char
  port : Nat
  path : List Char
deriving DecidableEq

/-- Spaces and controls at the end and all tabs and line breaks are left out. -/
def cleanAddress (text : List Char) : List Char :=
  (text.reverse.dropWhile fun char => char.toNat ≤ 0x20).reverse.filter
    fun char => char ≠ '\t' && char ≠ '\n' && char ≠ '\r'

def endsAuthority (char : Char) : Bool :=
  char = '/' || char = '\\' || char = '?' || char = '#'

/-- The port follows the first colon outside brackets. -/
def splitPort : Bool → List Char → List Char × List Char
  | _, [] => ([], [])
  | inside, char :: rest =>
    if char = ':' && !inside then ([], rest)
    else
      let bracket := if char = '[' then true else if char = ']' then false else inside
      let (host, port) := splitPort bracket rest
      (char :: host, port)

/-- An empty port is the port of the scheme. -/
def readPort (text : List Char) : Option Nat :=
  if text = [] then some 80
  else (parseDigits text).filter (· < 65536)

variable (parseHost : List Char → Option (List Char))

/-- Credentials stand before the last at sign. -/
def readAuthority (text : List Char) :
    Option (List Char × Nat) :=
  let (hostText, portText) := splitPort false ((text.splitOn '@').getLastD [])
  if hostText = [] then none
  else do
    let host ← parseHost hostText
    let port ← readPort portText
    return (host, port)

/-- This reads what follows the two slashes of an address with the scheme `http`. -/
def readAddress (encodeSet : Char → Bool)
    (text : List Char) : Option HttpAddress :=
  let text := (cleanAddress text).dropWhile fun char => char = '/' || char = '\\'
  (readAuthority parseHost (text.takeWhile fun char => !endsAuthority char)).map
    fun (host, port) =>
      ⟨host, port, resolvePath encodeSet (text.dropWhile fun char => !endsAuthority char)⟩

variable {path : List Char}

/-- A visible character stays. -/
theorem rdropWhile_ne_nil {first : Char} (head : path.head? = some first)
    (visible : 0x20 < first.toNat) :
    (path.reverse.dropWhile fun char => char.toNat ≤ 0x20) ≠ [] := by
  intro empty
  have member : first ∈ path.reverse := mem_reverse.mpr (mem_of_head? head)
  have small := dropWhile_eq_nil_iff.mp empty first member
  rw [decide_eq_true_iff] at small
  omega

theorem cleanAddress_append {front : List Char} (head : path.head? = some '/')
    (plain : ∀ char ∈ front, 0x20 < char.toNat) :
    cleanAddress (front ++ path) = front ++ cleanAddress path := by
  have kept : (front.filter fun char =>
      char ≠ '\t' && char ≠ '\n' && char ≠ '\r') = front := by
    rw [filter_eq_self]
    intro char member
    have visible := plain char member
    have tab : char ≠ '\t' := fun same => by simp [same] at visible
    have line : char ≠ '\n' := fun same => by simp [same] at visible
    have feed : char ≠ '\r' := fun same => by simp [same] at visible
    simp [tab, line, feed]
  have ends := rdropWhile_ne_nil head (by decide)
  unfold cleanAddress
  rw [reverse_append, dropWhile_append, if_neg (by simpa using ends),
    reverse_append, reverse_reverse, filter_append, kept]

theorem cleanAddress_head (head : path.head? = some '/') :
    (cleanAddress path).head? = some '/' := by
  have shorter :
      (path.reverse.dropWhile fun char => char.toNat ≤ 0x20).reverse <+: path :=
    List.rdropWhile_prefix _ path
  have ends := rdropWhile_ne_nil head (by decide)
  unfold cleanAddress
  cases kept : (path.reverse.dropWhile fun char => char.toNat ≤ 0x20).reverse with
  | nil => exact absurd (reverse_eq_nil_iff.mp kept) ends
  | cons first rest =>
    rw [kept] at shorter
    obtain ⟨more, rfl⟩ := shorter
    obtain rfl : first = '/' := Option.some_inj.mp head
    rfl

/-- An authority without separators ends where the path starts. -/
theorem readAddress_split (parseHost : List Char → Option (List Char)) (encodeSet : Char → Bool)
    {authority : List Char} (nonempty : authority ≠ [])
    (plain : ∀ char ∈ authority, endsAuthority char = false ∧ 0x20 < char.toNat)
    (head : path.head? = some '/') :
    readAddress parseHost encodeSet (authority ++ path) =
      (readAuthority parseHost authority).map fun (host, port) =>
        ⟨host, port, resolvePath encodeSet (cleanAddress path)⟩ := by
  have unended : ∀ char ∈ authority, (!endsAuthority char) = true := by
    intro char member
    rw [(plain char member).1]
    rfl
  obtain ⟨rest, cleaned⟩ := head?_eq_some_iff.mp (cleanAddress_head head)
  have whole : (cleanAddress (authority ++ path)).dropWhile
      (fun char => char = '/' || char = '\\') = authority ++ '/' :: rest := by
    rw [cleanAddress_append head fun char member => (plain char member).2, cleaned]
    obtain ⟨first, later, rfl⟩ := exists_cons_of_ne_nil nonempty
    have other := (plain first mem_cons_self).1
    unfold endsAuthority at other
    simp only [Bool.or_eq_false_iff] at other
    simp [other.1.1.1, other.1.1.2]
  unfold readAddress
  dsimp only
  rw [whole, takeWhile_append_of_pos unended, dropWhile_append_of_pos unended, cleaned]
  rw [takeWhile_cons, dropWhile_cons, if_neg (by decide), if_neg (by decide), append_nil]

/-- The library made this URL. With a host its path is empty or starts with a slash, and its dot
segments are resolved. -/
structure Url where
  host : Option (List Char)
  port : Option Nat
  path : List Char
  rooted : host.isSome → path = [] ∨ path.head? = some '/'
  resolved : host.isSome → ∀ segment ∈ path.splitOn '/',
    isSingleDot segment = false ∧ isDoubleDot segment = false
deriving DecidableEq

def Reads : Except (List Char) Url → Option HttpAddress → Prop
  | .ok url, some address =>
    url.host = some address.host ∧ url.port = some address.port ∧ url.path = address.path
  | .error _, none => True
  | _, _ => False

/-- The library reads an address with the scheme `http` as the standard says. Hosts are parsed and
characters of paths are encoded in some way of its own. -/
structure UrlLibrary where
  parse : List Char → Except (List Char) Url
  join : Url → List Char → Except (List Char) Url
  parseHost : List Char → Option (List Char)
  encodeSet : Char → Bool
  parse_http : ∀ text,
    Reads (parse ("http://".toList ++ text)) (readAddress parseHost encodeSet text)

end A3Net.Machine
