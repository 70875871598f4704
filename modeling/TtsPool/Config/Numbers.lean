/-
# Python's numbers, as settings are read into them

`float(value)` and `int(value)` of a parsed JSON value, with the exceptions they
raise, and `max` and `min` of floats, which a `NaN` goes through as the comparison
`>` lets it.  A string is read as CPython reads it: other white space and other
decimal digits are first made ASCII ones, white space around the number is dropped,
and an underscore is taken between two digits.  A decimal is rounded once, to the
nearest double or to an infinity.
-/

import Mathlib.Data.Rat.Floor
import TtsPool.Common
import TtsPool.Config.Json
import TtsPool.Support.Rounding

namespace TtsPool

/-- The exceptions that reading a setting raises, with their texts. -/
inductive SettingsError where
  | valueError (message : String)
  | typeError (message : String)
  | overflowError (message : String)
deriving DecidableEq

/-- A `ValueError`. -/
def SettingsError.IsValueError (error : SettingsError) : Prop := ∃ message, error = .valueError message

namespace PyFloat

/-- The double nearest to a number, an infinity past the largest. -/
@[irreducible] def nearest (x : ℚ) : PyFloat :=
  if |binary64.round x| < 2 ^ 1024 then .finite (binary64.round x) else .infinity (decide (x < 0))

/-- `a < b`. -/
def lt : PyFloat → PyFloat → Bool
  | .nan, _ | _, .nan => false
  | .finite x, .finite y => decide (x < y)
  | .infinity negative, .finite _ => negative
  | .finite _, .infinity negative => !negative
  | .infinity negative, .infinity negative' => negative && !negative'

/-- `max(a, b)`. -/
def max (a b : PyFloat) : PyFloat := if a.lt b then b else a

/-- `min(a, b)`. -/
def min (a b : PyFloat) : PyFloat := if b.lt a then b else a

/-- `math.isfinite`. -/
def isFinite : PyFloat → Bool
  | .finite _ => true
  | _ => false

end PyFloat

/-! ### Numbers in strings -/

/-- The zeros of the decimal digits of Unicode. -/
def decimalZeros : List ℕ :=
  [0x30, 0x660, 0x6F0, 0x7C0, 0x966, 0x9E6, 0xA66, 0xAE6, 0xB66, 0xBE6, 0xC66, 0xCE6, 0xD66, 0xDE6, 0xE50, 0xED0,
    0xF20, 0x1040, 0x1090, 0x17E0, 0x1810, 0x1946, 0x19D0, 0x1A80, 0x1A90, 0x1B50, 0x1BB0, 0x1C40, 0x1C50, 0xA620,
    0xA8D0, 0xA900, 0xA9D0, 0xA9F0, 0xAA50, 0xABF0, 0xFF10, 0x104A0, 0x10D30, 0x11066, 0x110F0, 0x11136, 0x111D0,
    0x112F0, 0x11450, 0x114D0, 0x11650, 0x116C0, 0x11730, 0x118E0, 0x11950, 0x11C50, 0x11D50, 0x11DA0, 0x16A60,
    0x16AC0, 0x16B50, 0x1D7CE, 0x1D7D8, 0x1D7E2, 0x1D7EC, 0x1D7F6, 0x1E140, 0x1E2F0, 0x1E950, 0x1FBF0]

/-- The ASCII character that stands for one in a number. -/
def asciiOf (c : Char) : Option Char :=
  if c.toNat < 127 then some c
  else if isPySpace c then some ' '
  else (decimalZeros.find? fun first => first ≤ c.toNat ∧ c.toNat < first + 10).map fun first =>
      Nat.digitChar (c.toNat - first)

/-- The white space that is dropped around a number. -/
def isAsciiSpace (c : Char) : Bool := (9 ≤ c.toNat && c.toNat ≤ 13) || c.toNat = 32

/-- The characters of a number without the underscores, each of which has to stand
between two digits. -/
def dropUnderscores (afterDigit : Bool) : List Char → Option (List Char)
  | [] => some []
  | c :: rest =>
    if c = '_' then
      if afterDigit && (rest.head?.map Char.isDigit).getD false then dropUnderscores false rest else none
    else (dropUnderscores c.isDigit rest).map (c :: ·)

/-- The characters of a string that are read as a number. -/
def numeral (s : String) : Option (List Char) := do
  let chars ← s.toList.mapM asciiOf
  dropUnderscores false ((chars.dropWhile isAsciiSpace).reverse.dropWhile isAsciiSpace).reverse

/-- The sign in front, `true` for a minus. -/
def splitSign : List Char → Bool × List Char
  | '-' :: rest => (true, rest)
  | '+' :: rest => (false, rest)
  | chars => (false, chars)

/-- The number that decimal digits write. -/
def digitsValue (digits : List Char) : ℕ := digits.foldl (fun n c => 10 * n + (c.toNat - 48)) 0

/-- `int` of a string; a number of more than 4300 digits is refused. -/
def parseInt (s : String) : Option ℤ := do
  let (negative, digits) := splitSign (← numeral s)
  guard (digits ≠ [] ∧ digits.all Char.isDigit ∧ digits.length ≤ 4300)
  return if negative then -(digitsValue digits : ℤ) else digitsValue digits

/-- An exponent, to the end of the number. -/
def parseExponent : List Char → Option ℤ
  | [] => some 0
  | e :: rest => do
    let (negative, digits) := splitSign rest
    guard ((e = 'e' ∨ e = 'E') ∧ digits ≠ [] ∧ digits.all Char.isDigit)
    return if negative then -(digitsValue digits : ℤ) else digitsValue digits

/-- The digits after a decimal point, and what follows them. -/
def splitFraction : List Char → List Char × List Char
  | '.' :: rest => rest.span Char.isDigit
  | rest => ([], rest)

/-- `float` of a string. -/
def parseFloat (s : String) : Option PyFloat := do
  let (negative, chars) := splitSign (← numeral s)
  let word := String.ofList (chars.map Char.toLower)
  if word = "inf" ∨ word = "infinity" then return .infinity negative
  if word = "nan" then return .nan
  let (whole, rest) := chars.span Char.isDigit
  let (fraction, rest) := splitFraction rest
  guard (whole ≠ [] ∨ fraction ≠ [])
  let exponent ← parseExponent rest
  let magnitude : ℚ := digitsValue (whole ++ fraction) * 10 ^ (exponent - fraction.length)
  return .nearest (if negative then -magnitude else magnitude)

/-! ### `int` and `float` -/

/-- `type(value).__name__`. -/
def Json.typeName : Json → String
  | .null => "NoneType"
  | .bool _ => "bool"
  | .int _ => "int"
  | .float _ => "float"
  | .str _ => "str"
  | .list _ => "list"
  | .object _ => "dict"

/-- `int(value)`. -/
def Json.toInt : Json → Except SettingsError ℤ
  | .bool value => .ok (if value then 1 else 0)
  | .int value => .ok value
  | .float (.finite value) => .ok (if 0 ≤ value then ⌊value⌋ else ⌈value⌉)
  | .float (.infinity _) => .error (.overflowError "cannot convert float infinity to integer")
  | .float .nan => .error (.valueError "cannot convert float NaN to integer")
  | .str value =>
    match parseInt value with
    | some n => .ok n
    | none => .error (.valueError ("invalid literal for int() with base 10: " ++ pyRepr value))
  | value => .error (.typeError
      ("int() argument must be a string, a bytes-like object or a real number, not '" ++ value.typeName ++ "'"))

/-- `float(value)`. -/
def Json.toFloat : Json → Except SettingsError PyFloat
  | .bool value => .ok (.finite (if value then 1 else 0))
  | .int value =>
    match PyFloat.nearest value with
    | .finite x => .ok (.finite x)
    | _ => .error (.overflowError "int too large to convert to float")
  | .float value => .ok value
  | .str value =>
    match parseFloat value with
    | some x => .ok x
    | none => .error (.valueError ("could not convert string to float: " ++ pyRepr value))
  | value => .error (.typeError ("float() argument must be a string or a real number, not '" ++ value.typeName ++ "'"))

/-- `bool(value)`. -/
def Json.truthy : Json → Bool
  | .null => false
  | .bool value => value
  | .int value => value ≠ 0
  | .float (.finite value) => value ≠ 0
  | .float _ => true
  | .str value => value ≠ ""
  | .list items => !items.isEmpty
  | .object entries => !entries.isEmpty

end TtsPool
