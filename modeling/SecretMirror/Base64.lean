import SecretMirror.Fault

/-!
# Base64

Secret data travels as base64 text.  Writing is canonical: groups of three bytes become four
characters of the standard alphabet, and a last short group is padded.  Reading is lenient:
characters outside the alphabet are passed over, padding before the third character of a group means
nothing, and the padding that completes a group ends the text, whatever follows.
-/

namespace SecretMirror.Base64

/-- The character of the standard alphabet for a value below 64. -/
def charOf (n : Nat) : Char :=
  if n < 26 then Char.ofNat (65 + n)
  else if n < 52 then Char.ofNat (71 + n)
  else if n < 62 then Char.ofNat (n - 4)
  else if n = 62 then '+'
  else '/'

/-- The value of a character of the standard alphabet.  Padding has none, nor has any character that
reading passes over. -/
def valueOf? (c : Char) : Option Nat :=
  if 'A' ≤ c ∧ c ≤ 'Z' then some (c.toNat - 65)
  else if 'a' ≤ c ∧ c ≤ 'z' then some (c.toNat - 71)
  else if '0' ≤ c ∧ c ≤ '9' then some (c.toNat + 4)
  else if c = '+' then some 62
  else if c = '/' then some 63
  else none

/-- The canonical text of a byte string.  Three bytes make four characters, and a shorter group at
the end is filled up by padding. -/
def encode : Bytes → List Char
  | [] => []
  | [a] => [charOf (a.toNat / 4), charOf (a.toNat % 4 * 16), '=', '=']
  | [a, b] =>
    [charOf (a.toNat / 4), charOf (a.toNat % 4 * 16 + b.toNat / 16),
      charOf (b.toNat % 16 * 4), '=']
  | a :: b :: c :: rest =>
    charOf (a.toNat / 4) :: charOf (a.toNat % 4 * 16 + b.toNat / 16) ::
      charOf (b.toNat % 16 * 4 + c.toNat / 64) :: charOf (c.toNat % 64) :: encode rest

/-- How far a group of four characters has been read, with the bits that wait for the next
character. -/
inductive Group where
  | empty
  | one (bits : Nat)
  | two (bits : Nat)
  | three (bits : Nat)
  deriving DecidableEq, Repr

/-- Adds a value to a group: the group then, and the byte that the value completes, if any.  Every
character but the first of a group completes one. -/
def Group.add (value : Nat) : Group → Group × Option UInt8
  | .empty => (.one value, none)
  | .one bits => (.two (value % 16), some (UInt8.ofNat (bits * 4 + value / 16)))
  | .two bits => (.three (value % 4), some (UInt8.ofNat (bits * 16 + value / 4)))
  | .three bits => (.empty, some (UInt8.ofNat (bits * 64 + value)))

/-- Whether one more padding character completes a group that `pads` of them have followed before.
Then the text ends there, whatever stands behind. -/
def Group.completedBy (pads : Nat) : Group → Bool
  | .empty => false
  | .one _ => false
  | .two _ => 1 ≤ pads
  | .three _ => true

/-- Whether padding after a group counts at all.  Padding before the third character is passed over
like a character outside the alphabet. -/
def Group.takesPadding : Group → Bool
  | .empty => false
  | .one _ => false
  | .two _ => true
  | .three _ => true

/-- What the end of the text means inside a group, after `count` characters of data: a group that
was begun and not completed is a fault, and which one depends on how much of it was read. -/
def Group.finish (count : Nat) : Group → Except Malformed Bytes
  | .empty => .ok []
  | .one _ => .error (.danglingCharacter count)
  | .two _ => .error .incompletePadding
  | .three _ => .error .incompletePadding

/-- Reads on from a group, `pads` padding characters since the last data and `count` characters of
data so far. -/
def decodeFrom : Group → Nat → Nat → List Char → Except Malformed Bytes
  | group, _, count, [] => group.finish count
  | group, pads, count, c :: rest =>
    if c = '=' then
      if group.completedBy pads then .ok []
      else decodeFrom group (if group.takesPadding then pads + 1 else pads) count rest
    else
      match valueOf? c with
      | none => decodeFrom group pads count rest
      | some value =>
        let (next, byte?) := group.add value
        let tail := decodeFrom next 0 (count + 1) rest
        match byte? with
        | none => tail
        | some byte => tail.map (byte :: ·)

/-- The byte string that a text stands for, read leniently: what is no character of the alphabet is
skipped, and only the padding has to come out even. -/
def decode (text : List Char) : Except Malformed Bytes := decodeFrom .empty 0 0 text

end SecretMirror.Base64
