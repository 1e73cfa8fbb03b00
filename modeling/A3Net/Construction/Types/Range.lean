import Mathlib.Init

namespace A3Net

/-- The range contains its start and not its end. -/
structure ByteRange where
  start : UInt64
  stop : UInt64

inductive RangeSpec where
  | all
  | single (range : ByteRange)
  | multi (ranges : List ByteRange)

/-- An empty range is refused with the text of the error. -/
def ByteRange.new (start stop : UInt64) : Except String ByteRange :=
  if stop ≤ start then
    .error s!"invalid ticket: range start {start} must be strictly less than end {stop}"
  else .ok ⟨start, stop⟩

/-- Subtraction stops at zero. -/
def ByteRange.saturatingSub (first second : UInt64) : UInt64 :=
  if first < second then 0 else first - second

namespace RangeSpec

/-- The header names the last byte of each range. -/
def headerPart (range : ByteRange) : String :=
  let start := range.start
  let last := ByteRange.saturatingSub range.stop 1
  s!"{start}-{last}"

def toHttpHeader : RangeSpec → Option String
  | .all => none
  | .single range => some ("bytes=" ++ headerPart range)
  | .multi ranges => some ("bytes=" ++ ",".intercalate (ranges.map headerPart))

end RangeSpec
end A3Net
