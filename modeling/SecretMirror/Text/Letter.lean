/-!
# Letters without regard to case

Sensitive words are recognised in any mixture of cases.  Besides the ASCII capitals, four letters
outside ASCII count as forms of an ASCII letter: the long s, the Kelvin sign, and the dotted capital
and dotless small i.
-/

namespace SecretMirror.Text

/-- The small ASCII letter that a character is a form of; any other character stays as it is.
Outside ASCII these are the long s, the Kelvin sign, and the dotted and the dotless i. -/
def small (c : Char) : Char :=
  if 'A' ≤ c ∧ c ≤ 'Z' then Char.ofNat (c.toNat + 32)
  else if c = '\u017f' then 's'
  else if c = '\u212a' then 'k'
  else if c = '\u0130' ∨ c = '\u0131' then 'i'
  else c

/-- Whether a character is a letter from a to z in some form. -/
def isLetter (c : Char) : Bool := 'a' ≤ small c && small c ≤ 'z'

/-- What follows `word` at the front of a text, if the text starts with it in some case. -/
def afterWord? : List Char → List Char → Option (List Char)
  | [], text => some text
  | _ :: _, [] => none
  | w :: word, c :: text => if small c = w then afterWord? word text else none

/-- An ASCII capital becomes small; any other character stays as it is. -/
def asciiSmall (c : Char) : Char :=
  if 'A' ≤ c ∧ c ≤ 'Z' then Char.ofNat (c.toNat + 32) else c

/-- Whether `needle` stands somewhere in a text, letter by letter. -/
def occursIn (needle : List Char) : List Char → Bool
  | [] => needle.isEmpty
  | c :: text => needle.isPrefixOf (c :: text) || occursIn needle text

end SecretMirror.Text
