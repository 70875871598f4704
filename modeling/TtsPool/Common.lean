/-
# Requests, keys and errors

The values that travel between the layers: the two fields of `ResponseRequest`
(`app/schemas.py`) that the engine reads, and the exceptions of
`app/engine/common.py` and `app/engine/streaming.py`, with Python's own
`ValueError`, `RuntimeError` and any other `Exception` beside them.  An exception of
other people's code may have a `__str__` that raises.

Texts of error messages are the source's.  Where the source formats a value
with `!r`, `pyRepr` quotes it as CPython does for text whose non-ASCII
characters are all printable.
-/

import Mathlib.Data.Rat.Defs
import Mathlib.Data.Nat.Notation

namespace TtsPool

/-- `str | None`: the scheduling identity of a request, `none` for the
anonymous bucket. -/
abbrev FairnessKey := Option String

/-- A `SynthesisHandle` by reference. -/
abbrev HandleId := ℕ

/-- The fields of `ResponseRequest` that the engine itself reads; the others go
to the backend untouched. -/
structure ResponseRequest where
  model : String
  fairnessKey : FairnessKey
deriving DecidableEq

/-- The exceptions the engine raises or passes on. -/
inductive EngineError where
  | unknownModel (modelName : String)
  | modelState (modelName code : String)
  | requestAdmission (statusCode : ℕ) (code message : String)
  | synthesisCancelled (message : String)
  | streamConsumerStalled (message : String)
  | valueError (message : String)
  | runtimeError (message : String)
  | other (className message : String)
  /-- An exception of that class whose `__str__` raises, and the class and the text of
  what it raises. -/
  | unprintable (className raisedClassName raisedMessage : String)
deriving DecidableEq

/-- `str` of an exception, or what it raises. -/
def EngineError.str : EngineError → Except EngineError String
  | .unknownModel modelName => .ok modelName
  | .modelState modelName code => .ok (modelName ++ ": " ++ code)
  | .requestAdmission _ _ message | .synthesisCancelled message | .streamConsumerStalled message
  | .valueError message | .runtimeError message | .other _ message => .ok message
  | .unprintable _ raisedClassName raisedMessage => .error (.other raisedClassName raisedMessage)

/-- An exception that has a text. -/
def EngineError.Printable (error : EngineError) : Prop := error.str.isOk = true

instance (error : EngineError) : Decidable error.Printable := inferInstanceAs (Decidable (_ = true))

theorem EngineError.Printable.str {error : EngineError} (h : error.Printable) : ∃ text, error.str = .ok text := by
  cases hstr : error.str with
  | ok text => exact ⟨text, rfl⟩
  | error raised => simp [Printable, hstr, Except.isOk, Except.toBool] at h

/-- The name of an exception's class. -/
def EngineError.className : EngineError → String
  | .unknownModel _ => "UnknownModelError"
  | .modelState _ _ => "ModelStateError"
  | .requestAdmission _ _ _ => "RequestAdmissionError"
  | .synthesisCancelled _ => "SynthesisCancelled"
  | .streamConsumerStalled _ => "StreamConsumerStalled"
  | .valueError _ => "ValueError"
  | .runtimeError _ => "RuntimeError"
  | .other className _ | .unprintable className _ _ => className

/-- The characters `str.strip` takes off. -/
def isPySpace (c : Char) : Bool :=
  let n := c.toNat
  (9 ≤ n && n ≤ 13) || (28 ≤ n && n ≤ 32) || n = 0x85 || n = 0xA0 || n = 0x1680 ||
    (0x2000 ≤ n && n ≤ 0x200A) || n = 0x2028 || n = 0x2029 || n = 0x202F || n = 0x205F || n = 0x3000

/-- `str.strip`. -/
def pyStrip (s : String) : String :=
  String.ofList (((s.toList.dropWhile isPySpace).reverse.dropWhile isPySpace).reverse)

/-- `exception_message`: the text of an exception, the name of its class when
there is none; it raises what `str` raises. -/
def exceptionMessage (error : EngineError) : Except EngineError String :=
  error.str.map fun text =>
    let message := pyStrip text
    if message = "" then error.className else message

/-- The quote `repr` puts around a string: double when the text holds a single
one and no double one. -/
def reprQuote (s : String) : Char :=
  if s.toList.contains (Char.ofNat 39) && !s.toList.contains (Char.ofNat 34) then Char.ofNat 34
  else Char.ofNat 39

/-- One character of a `repr`, between quotes `q`. -/
def reprChar (q c : Char) : List Char :=
  if c = q ∨ c = '\\' then ['\\', c]
  else if c = '\n' then ['\\', 'n']
  else if c = '\r' then ['\\', 'r']
  else if c = '\t' then ['\\', 't']
  else if c.toNat < 32 ∨ c.toNat = 127 then
    ['\\', 'x', Nat.digitChar (c.toNat / 16), Nat.digitChar (c.toNat % 16)]
  else [c]

/-- `repr` of a string. -/
def pyRepr (s : String) : String :=
  let q := reprQuote s
  String.ofList (q :: s.toList.flatMap (reprChar q) ++ [q])

end TtsPool
