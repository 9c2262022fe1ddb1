import SecretMirror.Value.Display
import SecretMirror.Text.Letter

/-!
# Faults

Everything that can go wrong while the operator works, by cause.  `Fault.message` is the text that a
fault is reported with and `Fault.typeName` the class it is counted and logged under.

Two questions decide what happens after a fault: whether a write met a newer version of its object
(`Fault.isConflict`) and whether the API asked for fewer calls (`Fault.isRateLimited`).
-/

namespace SecretMirror

/-- Where a further field of a log line has the name of something that is given already: the call
itself is refused then, before anything is logged. -/
inductive Clash where
  /-- Among what a line that informs is made from. -/
  | inform
  /-- Among what a line about a fault is made from. -/
  | report
  /-- Among what identifies the object that the line is about and ranks the line. -/
  | identity
  /-- What writes the line. -/
  | writer
  deriving DecidableEq, Repr

/-- How a clash is reported, up to the name of the field. -/
def Clash.describe : Clash → String
  | .inform => "BaseHandler.log_info() got multiple values for argument"
  | .report => "BaseHandler.log_error() got multiple values for argument"
  | .identity =>
    "oauth_encryption_operator.logging.log_resource_event() got multiple values for " ++
      "keyword argument"
  | .writer => "log_resource_event() got multiple values for argument"

/-- Why a value could not be used in the way it was meant to be.  Each reason holds just what its
message needs. -/
inductive Malformed where
  /-- A value of this shape cannot be asked for its fields by this operation. -/
  | noFields (kind : Value.Kind) (operation : String)
  /-- A value of this shape has no items. -/
  | notIterable (kind : Value.Kind)
  /-- A value of this shape is not encoded data. -/
  | notEncoded (kind : Value.Kind)
  /-- Encoded data holds a character outside ASCII. -/
  | notAscii
  /-- Encoded data ends one character after a full group. -/
  | danglingCharacter (count : Nat)
  /-- Encoded data ends inside a group. -/
  | incompletePadding
  /-- An item that should be a name and its value has another number of parts. -/
  | notAPair (index length : Nat)
  /-- An item that should be a name and its value has no parts. -/
  | noParts (index : Nat)
  /-- A value of this shape has no fields that could be set. -/
  | notSettable (kind : Value.Kind)
  /-- A value of this shape has no end to add an item to. -/
  | notExtendable (kind : Value.Kind)
  /-- A value of this shape cannot be part of a key. -/
  | notAKey (kind : Value.Kind)
  /-- A value of this shape has no written form in a log line. -/
  | notWritable (kind : Value.Kind)
  /-- A whole number has more digits than are written. -/
  | tooManyDigits
  /-- The level of a log line is not a whole number. -/
  | levelNotWhole
  /-- The name of a further field of a log line is no text. -/
  | nameNotText
  /-- A further field of a log line has the name of something that is given already. -/
  | givenTwice (place : Clash) (name : String)
  /-- A value of this shape is no text that could be searched. -/
  | notSearchable (kind : Value.Kind)
  deriving DecidableEq, Repr

namespace Malformed

/-- The class under which a malformed value is reported. -/
def typeName : Malformed → String
  | .noFields .. => "AttributeError"
  | .notExtendable _ => "AttributeError"
  | .notAscii => "ValueError"
  | .notAPair .. => "ValueError"
  | .tooManyDigits => "ValueError"
  | .danglingCharacter _ => "Error"
  | .incompletePadding => "Error"
  | .notIterable _ => "TypeError"
  | .notEncoded _ => "TypeError"
  | .noParts _ => "TypeError"
  | .notSettable _ => "TypeError"
  | .notAKey _ => "TypeError"
  | .notWritable _ => "TypeError"
  | .levelNotWhole => "TypeError"
  | .nameNotText => "TypeError"
  | .givenTwice .. => "TypeError"
  | .notSearchable _ => "TypeError"

/-- The text with which a malformed value is reported. -/
def message : Malformed → String
  | .noFields kind operation => s!"'{kind.name}' object has no attribute '{operation}'"
  | .notExtendable kind => s!"'{kind.name}' object has no attribute 'append'"
  | .notIterable kind => s!"'{kind.name}' object is not iterable"
  | .notEncoded kind =>
    s!"argument should be a bytes-like object or ASCII string, not '{kind.name}'"
  | .notAscii => "string argument should contain only ASCII characters"
  | .danglingCharacter count =>
    s!"Invalid base64-encoded string: number of data characters ({count}) " ++
      "cannot be 1 more than a multiple of 4"
  | .incompletePadding => "Incorrect padding"
  | .notAPair index length =>
    s!"dictionary update sequence element #{index} has length {length}; 2 is required"
  | .noParts index =>
    s!"cannot convert dictionary update sequence element #{index} to a sequence"
  | .notSettable .list => "list indices must be integers or slices, not str"
  | .notSettable kind => s!"'{kind.name}' object does not support item assignment"
  | .notAKey kind => s!"unhashable type: '{kind.name}'"
  | .notWritable kind => s!"Object of type {kind.name} is not JSON serializable"
  | .tooManyDigits =>
    s!"Exceeds the limit ({Text.digitLimit} digits) for integer string conversion; " ++
      "use sys.set_int_max_str_digits() to increase the limit"
  | .levelNotWhole => "level must be an integer"
  | .nameNotText => "keywords must be strings"
  | .givenTwice place name => s!"{place.describe} '{name}'"
  | .notSearchable .bytes => "cannot use a string pattern on a bytes-like object"
  | .notSearchable kind => s!"expected string or bytes-like object, got '{kind.name}'"

end Malformed

/-- The class of a failure that carries nothing but a text.  Any class can be meant, since the
operator catches whatever is raised; all that it makes of the class is its name. -/
structure Failure where
  /-- The name of the class, without that of its module. -/
  typeName : String
  deriving DecidableEq, Repr

namespace Failure

def runtime : Failure := ⟨"RuntimeError"⟩

def value : Failure := ⟨"ValueError"⟩

def connection : Failure := ⟨"ConnectionError"⟩

def timeout : Failure := ⟨"TimeoutError"⟩

/-- A failure after which the framework tries nothing again (`kopf.PermanentError`). -/
def permanent : Failure := ⟨"PermanentError"⟩

/-- A configuration of the API client that is not there.  This is the one class that is told from
the others, for then the next configuration is tried. -/
def config : Failure := ⟨"ConfigException"⟩

end Failure

/-- What can go wrong while the operator works.  Only what the operator tells apart is told apart
here. -/
inductive Fault (τ : Type) where
  /-- The API answered with an error. -/
  | api (status reason body : Value)
  /-- The work should be tried again, after `delay` seconds if a delay is given. -/
  | temporary (message : String) (delay : Option τ) (cause : Option (Fault τ))
  /-- A failure with a status that did not come from the API. -/
  | carrying (message : String) (status : Value)
  /-- A failure of any other class, which carries nothing but a text. -/
  | plain (failure : Failure) (message : String)
  /-- A key that was looked up and is not there. -/
  | missingKey (key : Value)
  /-- A value that could not be used in the way it was meant to be. -/
  | malformed (reason : Malformed)
  /-- The permitted rate of API calls is zero, so no spacing between calls is long enough. -/
  | rateIsZero

namespace Fault

variable {τ : Type}

/-- The class that a fault is counted and logged under, which is the name of its class alone. -/
def typeName : Fault τ → String
  | .api .. => "ApiException"
  | .temporary .. => "TemporaryError"
  | .carrying .. => "StatusError"
  | .plain failure _ => failure.typeName
  | .missingKey _ => "KeyError"
  | .malformed reason => reason.typeName
  | .rateIsZero => "ZeroDivisionError"

/-- The text that a fault is reported with.  That of an API error is made by the client library; it
is written down here as the library makes it of the status, the reason and the body, without the
headers of the answer, which it adds where there are any. -/
def message : Fault τ → String
  | .api status reason body =>
    s!"({status.display})\nReason: {reason.display}\n" ++
      (if body.isVoid then "" else s!"HTTP response body: {body.display}\n")
  | .temporary message _ _ => message
  | .carrying message _ => message
  | .plain _ message => message
  | .missingKey key => String.ofList key.nested
  | .malformed reason => reason.message
  | .rateIsZero => "float division by zero"

/-- The text of an API error is its status and its reason on a line each, and then its body, unless
that is void. -/
theorem message_api (status reason body : Value) :
    (api status reason body : Fault τ).message =
      "(" ++ status.display ++ ")\nReason: " ++ reason.display ++ "\n" ++
        if body.isVoid then "" else "HTTP response body: " ++ body.display ++ "\n" :=
  rfl

/-- The status that a fault carries; null if it carries none. -/
def statusOf : Fault τ → Value
  | .api status .. => status
  | .carrying _ status => status
  | _ => .null

/-- Whether the API refused a write because the object had changed or existed already
(`is_conflict`). -/
def isConflict (f : Fault τ) : Bool := f.statusOf.isNumber 409

/-- Whether the API asked for fewer calls (`is_rate_limited`): by its own status, or by being
unavailable and saying so.  The phrase is sought in any mixture of ASCII cases.  That is enough for
all scripts, since no letter outside ASCII has one of the letters of the phrase as its whole small
form. -/
def isRateLimited (f : Fault τ) : Bool :=
  f.statusOf.isNumber 429 ||
    (f.statusOf.isNumber 503 &&
      Text.occursIn "rate limit".toList (f.message.toList.map Text.asciiSmall))

def isApi : Fault τ → Bool
  | .api .. => true
  | _ => false

end Fault

end SecretMirror
