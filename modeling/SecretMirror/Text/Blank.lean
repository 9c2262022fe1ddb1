/-!
# White space

The white space of all scripts.  It ends a value in free text and may stand around a number.
-/

namespace SecretMirror.Text

/-- White space: the ASCII blanks and separators, the next-line control, and the space separators,
line separator and paragraph separator of Unicode.  The zero-width space and the byte-order mark are
not white space. -/
def isBlank (c : Char) : Bool :=
  let n := c.toNat
  (9 ≤ n && n ≤ 13) || (28 ≤ n && n ≤ 32) || n == 0x85 || n == 0xa0 || n == 0x1680 ||
    (0x2000 ≤ n && n ≤ 0x200a) || n == 0x2028 || n == 0x2029 || n == 0x202f || n == 0x205f ||
    n == 0x3000

/-- White space that may stand before and after a number.  The four ASCII separators, which count as
white space in running text, may not. -/
def isNumberMargin (c : Char) : Bool :=
  isBlank c && !(28 ≤ c.toNat && c.toNat ≤ 31)

end SecretMirror.Text
