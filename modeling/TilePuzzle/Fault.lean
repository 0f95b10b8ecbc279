import TilePuzzle.Text.Utf8

/-! What can go wrong while a level is read or played. -/
namespace TilePuzzle

/-- The cause of a failure, apart from requests that are refused for a stated reason. -/
inductive Fault
  | notIterable (kind : String)
  | unhashable (kind : String)
  | indexPastEnd
  | notADirection (shown : String)
  | levelOutOfRange (index : Int) (count : Nat)
  | negativeCapacity
  | undecodable (failure : Text.Utf8.Failure)
  /-- A path holds halves of pairs that no bytes stand for. -/
  | unencodable (failure : Text.Utf8.Unencodable)
  | tooManyDigits (digits : Nat)
  | wholeOfNan
  | wholeOfInfinity
  /-- A periodic function was asked of an infinity. -/
  | outsideDomain
  | intTooLarge
  | quotientTooLarge
  | powerTooLarge
  | divisionByZero
  | remainderByZero
  | nullInPath
  /-- An infinity or no number was to be written where only numbers can stand. -/
  | unwritableFloat
  deriving DecidableEq

namespace Fault

inductive Family
  | badValue
  | undecodable
  | badType
  | overflow
  | zeroDivision
  | badIndex
  deriving DecidableEq

def family : Fault → Family
  | notIterable _ | unhashable _ => .badType
  | indexPastEnd => .badIndex
  | undecodable _ => .undecodable
  | wholeOfInfinity | intTooLarge | quotientTooLarge | powerTooLarge => .overflow
  | divisionByZero | remainderByZero => .zeroDivision
  | notADirection _ | levelOutOfRange .. | negativeCapacity | unencodable _ | tooManyDigits _
  | wholeOfNan | outsideDomain | nullInPath | unwritableFloat => .badValue

/-- Faults that blame a value; undecodable text is one of them. -/
def isBadValue (f : Fault) : Bool := f.family == .badValue || f.family == .undecodable

def message : Fault → String
  | notIterable kind => "'" ++ kind ++ "' object is not iterable"
  | unhashable kind => "unhashable type: '" ++ kind ++ "'"
  | indexPastEnd => "list index out of range"
  | notADirection shown => shown ++ " is not a valid Direction"
  | levelOutOfRange index count =>
    "Level index " ++ toString index ++ " out of range (0.." ++ toString ((count : Int) - 1) ++ ")"
  | negativeCapacity => "maxlen must be non-negative"
  | undecodable failure => failure.message
  | unencodable failure => failure.message
  | tooManyDigits digits =>
    "Exceeds the limit (4300 digits) for integer string conversion: value has " ++
      toString digits ++ " digits; use sys.set_int_max_str_digits() to increase the limit"
  | wholeOfNan => "cannot convert float NaN to integer"
  | wholeOfInfinity => "cannot convert float infinity to integer"
  | outsideDomain => "math domain error"
  | intTooLarge => "int too large to convert to float"
  | quotientTooLarge => "integer division result too large for a float"
  | powerTooLarge => "(34, 'Numerical result out of range')"
  | divisionByZero => "division by zero"
  | remainderByZero => "integer modulo by zero"
  | nullInPath => "embedded null byte"
  | unwritableFloat => "Out of range float values are not JSON compliant"

end Fault
end TilePuzzle
