import Mathlib.Init

namespace A3Net.Machine

/-- A parsed number is an unsigned word, a negative word or a floating-point text. -/
inductive JsonNumber where
  | unsigned (value : UInt64)
  | negative (value : Int64)
  | float (text : String)

/-- An object lists each of its keys once. -/
inductive Json where
  | null
  | bool (value : Bool)
  | number (value : JsonNumber)
  | string (value : String)
  | array (values : List Json)
  | object (fields : List (String × Json))

namespace Json

/-- Only an object has fields. -/
def get (json : Json) (key : String) : Option Json :=
  match json with
  | object fields => fields.lookup key
  | _ => none

def asU64 : Json → Option UInt64
  | number (.unsigned value) => some value
  | _ => none

def asStr : Json → Option String
  | string value => some value
  | _ => none

end Json

/-- The text of a value that the library can read is read as what the text keeps of the value. -/
structure Serialiser (Outcome : Type → Type) [Pure Outcome] (Value Text : Type)
    (Readable : Value → Prop) (kept : Value → Value) where
  encode : Value → Text
  decode : Text → Outcome Value
  decode_encode : ∀ value, Readable value → decode (encode value) = pure (kept value)

/-- Each value has a line of its own, which is not blank. -/
structure LineFormat (Value Line : Type) extends
    Serialiser (Except String) Value Line (fun _ => True) id where
  blank : Line → Bool
  visible : ∀ value, blank (encode value) = false

/-- Here a line is the value itself. -/
def LineFormat.plain (Value : Type) : LineFormat Value Value where
  encode value := value
  decode line := .ok line
  decode_encode _ _ := rfl
  blank _ := false
  visible _ := rfl

end A3Net.Machine
