import A3Net.Construction.Blobstore.Namespace
import A3Net.Machine.Text

namespace A3Net.Blobstore.Namespace

open Cryptography Machine

/-- The limit counts bytes before the decoding. -/
def maxPathRawLen : Nat := 4096

def hexNibble (byte : UInt8) : Option UInt8 :=
  if 48 ≤ byte ∧ byte ≤ 57 then some (byte - 48)
  else if 97 ≤ byte ∧ byte ≤ 102 then some (byte - 97 + 10)
  else if 65 ≤ byte ∧ byte ≤ 70 then some (byte - 65 + 10)
  else none

/-- The position of the byte is told when it is no digit. -/
def nibbleAt (position : Nat) (byte : UInt8) : Except String UInt8 :=
  match hexNibble byte with
  | some nibble => .ok nibble
  | none => .error s!"invalid hex at byte {position}: 0x{toHex [byte]}"

/-- The position counts the bytes that are already read. -/
def percentDecodeBytes (position : Nat) : Bytes → Except String Bytes
  | [] => .ok []
  | byte :: rest =>
    if byte = 37 then
      match rest with
      | high :: low :: rest => do
          let highNibble ← nibbleAt (position + 1) high
          let lowNibble ← nibbleAt (position + 2) low
          let value := highNibble <<< 4 ||| lowNibble
          if value = 0 then .error "null byte produced by percent-decode"
          else return value :: (← percentDecodeBytes (position + 3) rest)
      | _ => .error s!"truncated percent-escape at byte {position}"
    else if byte = 0 then .error "null byte in path"
    else return byte :: (← percentDecodeBytes (position + 1) rest)

def percentDecodeStrict (raw : String) : Except String (List Char) := do
  let out ← percentDecodeBytes 0 (utf8 raw)
  match fromUtf8 out with
  | some decoded => .ok decoded
  | none => .error "non-UTF-8 after percent-decode"

def withoutTrailingSlash (text : List Char) : List Char :=
  if text.getLast? = some '/' then text.dropLast else text

/-- One slash is taken off at each end, and no part between the others is empty. -/
def tokenise : List Char → Except String (List (List Char))
  | [] => .ok []
  | '/' :: rest =>
    let inner := withoutTrailingSlash rest
    if inner.isEmpty then .ok []
    else if (inner.splitOn '/').any List.isEmpty then .error "empty path segment (//) inside path"
    else .ok (inner.splitOn '/')
  | _ => .error "path must start with '/'"

-- The refusal shows the path in the debug form of its text.
variable (debug : List Char → String)

/-- The stack holds the segments that are kept so far. -/
def resolveDots (text : List Char) (stack : List (List Char)) :
    List (List Char) → Except String (List (List Char))
  | [] => .ok stack
  | seg :: segs =>
    if seg = ['.'] then resolveDots text stack segs
    else if seg = ['.', '.'] then
      if stack.isEmpty then .error s!"path traversal escapes root: {debug text}"
      else resolveDots text stack.dropLast segs
    else resolveDots text (stack ++ [seg]) segs

def render (leading trailing : Bool) (stack : List (List Char)) : List Char :=
  let out := (if leading then ['/'] else []) ++ ['/'].intercalate stack
  let out := if trailing ∧ out.getLast? ≠ some '/' then out ++ ['/'] else out
  if out.isEmpty ∧ leading then out ++ ['/'] else out

def canonicalizePathString (text : List Char) : Except String (List Char) := do
  let segs ← tokenise text
  let stack ← resolveDots debug text [] segs
  return render (text.head? = some '/') (text.head? = some '/' ∧ text.getLast? = some '/') stack

def decodeHttp (raw : String) : Except NamespaceError PathSegments :=
  let rawLength := (utf8 raw).length
  if maxPathRawLen < rawLength then .error (.pathTooLong maxPathRawLen rawLength)
  else
    match percentDecodeStrict raw with
    | .error text => .error (.traversal text)
    | .ok decoded =>
      match canonicalizePathString debug decoded with
      | .error text => .error (.traversal text)
      | .ok canonical =>
        let segs := parts '/' canonical
        if maxDepth < segs.length then .error (.depthExceeded maxDepth segs.length)
        else .ok (segs.map String.ofList)

end A3Net.Blobstore.Namespace
