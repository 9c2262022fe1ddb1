import SecretMirror.Fault
import SecretMirror.Text.Blank
import SecretMirror.Text.Letter

/-!
# Redaction

Texts of faults may quote secrets, so they are redacted before they are logged.  Redaction is a row
of sweeps over the text, each of which looks for one form from left to right and replaces every
occurrence it meets, going on behind it:

* key material: a word for a cipher or a secret, then colons and white space, then a run of base64
  characters.  The whole is replaced by the mark.
* an assignment: the name of a sensitive field, possibly between two equal quotes, then a colon or
  an equals sign, white space, and a value up to the next white space, comma, semicolon, closing
  parenthesis or closing brace.  It is replaced by the name and the mark.

Words are recognised in any case.  The order of the fields is a parameter of `redactWith`.
-/

namespace SecretMirror.Redaction

/-- What stands in the place of what was redacted. -/
def mark : List Char := "[REDACTED]".toList

/-- Replaces, from left to right, each stretch that `stretch?` finds at its beginning by
`replacement`, and goes on behind it.  `stretch?` gives the length of a stretch; `skip` characters
are still to be passed over. -/
def sweep (stretch? : List Char → Option Nat) (replacement : List Char) :
    Nat → List Char → List Char
  | _, [] => []
  | skip + 1, _ :: rest => sweep stretch? replacement skip rest
  | 0, c :: rest =>
    match stretch? (c :: rest) with
    | some (n + 1) => replacement ++ sweep stretch? replacement n rest
    | _ => c :: sweep stretch? replacement 0 rest

/-! ## Key material -/

/-- A word that key material may follow, and the least length at which a run counts as such. -/
structure KeyWord where
  word : List Char
  least : Nat

/-- The words that key material may follow, in the order in which they are swept for.  They are
those of `SENSITIVE_PATTERNS`; a plain `secret` stands before much that is harmless, so only a long
run counts behind it. -/
def keyWords : List KeyWord :=
  [⟨"secret".toList, 16⟩, ⟨"aescbc".toList, 1⟩, ⟨"aesgcm".toList, 1⟩, ⟨"secretbox".toList, 1⟩]

def isKeyGap (c : Char) : Bool := c == ':' || Text.isBlank c

/-- What key material consists of: letters in any case, digits, and the other base64 signs. -/
def isKeyChar (c : Char) : Bool :=
  Text.isLetter c || ('0' ≤ c && c ≤ '9') || c == '/' || c == '+' || c == '='

/-- The length of a key word at the beginning of a text with the gap and the key material behind it.
There is none if the gap is empty or the run too short. -/
def keyStretch? (k : KeyWord) (text : List Char) : Option Nat :=
  (Text.afterWord? k.word text).bind fun rest =>
    let gap := rest.takeWhile isKeyGap
    let run := (rest.dropWhile isKeyGap).takeWhile isKeyChar
    if gap.isEmpty || run.length < k.least then none
    else some (k.word.length + gap.length + run.length)

/-- Redacts the key material behind one word, together with the word. -/
def redactKey (text : List Char) (k : KeyWord) : List Char := sweep (keyStretch? k) mark 0 text

/-! ## Assignments to sensitive fields -/

/-- The names of the sensitive fields, `SENSITIVE_FIELDS`, in alphabetical order.  They are kept as
a set, so any order may be taken when a program runs; theorems about `redactWith` are for every
order. -/
def fields : List (List Char) :=
  ["data".toList, "encryption-config".toList, "key".toList, "password".toList,
    "secret".toList, "token".toList]

def isQuote (c : Char) : Bool := c == '\x27' || c == '\x22'

/-- What a value consists of: anything but what may end it.  Quotes belong to a value, so a quoted
value is redacted together with them. -/
def isValueChar (c : Char) : Bool :=
  !(Text.isBlank c || c == ',' || c == ';' || c == ')' || c == '\x7d')

/-- The length of an assignment sign, the white space behind it and a value that is not empty.  The
white space may be missing. -/
def valueStretch? : List Char → Option Nat
  | [] => none
  | c :: rest =>
    if c = ':' ∨ c = '=' then
      let gap := rest.takeWhile Text.isBlank
      let value := (rest.dropWhile Text.isBlank).takeWhile isValueChar
      if value.isEmpty then none else some (1 + gap.length + value.length)
    else none

/-- The length of an assignment to a field at the beginning of a text.  A quote before the name has
to be matched by the same quote behind it. -/
def assignmentStretch? (field : List Char) : List Char → Option Nat
  | [] => none
  | c :: rest =>
    if isQuote c then
      match Text.afterWord? field rest with
      | some (d :: rest) =>
        if d = c then (valueStretch? rest).map (field.length + 2 + ·) else none
      | _ => none
    else
      ((Text.afterWord? field (c :: rest)).bind valueStretch?).map (field.length + ·)

/-- Redacts the assignments to one field.  The name is written as the field has it, without quotes
and in small letters. -/
def redactField (text field : List Char) : List Char :=
  sweep (assignmentStretch? field) (field ++ ':' :: ' ' :: mark) 0 text

/-! ## The whole -/

/-- Redacts the assignments to the fields one after another, each in what the one before has
left. -/
def redactFields (order : List (List Char)) (text : List Char) : List Char :=
  order.foldl redactField text

/-- Redacts a text, sweeping for key material first and then for the fields in a given order
(`sanitize_error_message`). -/
def redactWith (order : List (List Char)) (text : List Char) : List Char :=
  redactFields order (keyWords.foldl redactKey text)

/-- Redacts a text, as it is done with what a fault says of itself (`sanitize_exception`). -/
def redact (text : String) : String := String.ofList (redactWith fields text.toList)

/-- Redacts a value, which has to be a text to be searched.  Anything else is a type error. -/
def redactValue (v : Value) : Except Malformed String :=
  match v with
  | .text s => .ok (redact s)
  | other => .error (.notSearchable other.kind)

end SecretMirror.Redaction
