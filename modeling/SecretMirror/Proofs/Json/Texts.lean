import SecretMirror.Json.Reader
import SecretMirror.Json.Writer
import Mathlib.Data.List.Basic
import Mathlib.Data.List.Induction
import Mathlib.Tactic.IntervalCases
import Mathlib.Tactic.SplitIfs

/-!
# Reading written texts and whole numbers

A text that was written as JSON reads back to the same characters (`readChars_flatMap`), whatever
they are: quotes and backslashes, control characters, and characters beyond the basic plane, which
are written as a pair of units.  A whole number reads back too if what follows it is no part of a
number (`readMagnitude_digits`).

What is written is printable ASCII (`IsPlain`), so a character that could end a line is never
written as itself.
-/

namespace SecretMirror.Json

/-! ## Hexadecimal digits -/

theorem hexValue?_hexDigit {d : Nat} (h : d < 16) : hexValue? (Text.hexDigit d) = some d := by
  have hall : ∀ d < 16, hexValue? (Text.hexDigit d) = some d := by decide
  exact hall d h

theorem hexDigits_four (n : Nat) : Text.hexDigits 4 n =
    [Text.hexDigit (n / 16 / 16 / 16 % 16), Text.hexDigit (n / 16 / 16 % 16),
      Text.hexDigit (n / 16 % 16), Text.hexDigit (n % 16)] := rfl

/-- A unit is read back from its digits. -/
theorem unit?_hexDigits {n : Nat} (h : n < 0x10000) :
    unit? (Text.hexDigit (n / 16 / 16 / 16 % 16)) (Text.hexDigit (n / 16 / 16 % 16))
      (Text.hexDigit (n / 16 % 16)) (Text.hexDigit (n % 16)) = some n := by
  have hsum : 4096 * (n / 16 / 16 / 16 % 16) + 256 * (n / 16 / 16 % 16) + 16 * (n / 16 % 16) +
      n % 16 = n := by omega
  have hvalue : ∀ m, hexValue? (Text.hexDigit (m % 16)) = some (m % 16) := fun m =>
    hexValue?_hexDigit (Nat.mod_lt m (by decide))
  simp only [unit?, hvalue]
  exact congrArg some hsum

/-! ## Characters -/

def withChar (c : Char) (r : Option (List Char × List Char)) : Option (List Char × List Char) :=
  r.map fun (cs, rest) => (c :: cs, rest)

theorem readChars_unitEscape {n : Nat} (hn : n < 0x10000) (hhigh : n < 0xd800 ∨ 0xe000 ≤ n)
    (rest : List Char) :
    readChars (unitEscape n ++ rest) = withChar (Char.ofNat n) (readChars rest) := by
  have hnot : ¬ (0xd800 ≤ n ∧ n < 0xdc00) := by omega
  have hnot' : ¬ (0xdc00 ≤ n ∧ n < 0xe000) := by omega
  simp only [unitEscape, hexDigits_four, List.cons_append, List.nil_append, readChars,
    unit?_hexDigits hn, Option.bind_some, if_neg hnot, if_neg hnot']
  rfl

/-- Two escaped units that form a surrogate pair are one character. -/
theorem readChars_pair {high low : Nat} (hhigh : 0xd800 ≤ high ∧ high < 0xdc00)
    (hlow : 0xdc00 ≤ low ∧ low < 0xe000) (rest : List Char) :
    readChars (unitEscape high ++ (unitEscape low ++ rest)) =
      withChar (Char.ofNat (0x10000 + (high - 0xd800) * 0x400 + (low - 0xdc00)))
        (readChars rest) := by
  have hhigh' : high < 0x10000 := by omega
  have hlow' : low < 0x10000 := by omega
  simp only [unitEscape, hexDigits_four, List.cons_append, List.nil_append, readChars,
    unit?_hexDigits hhigh', unit?_hexDigits hlow', Option.bind_some, if_pos hhigh, if_pos hlow]
  rfl

theorem readChars_cons {c : Char} (hquote : c ≠ '\x22') (hslash : c ≠ '\\') (h : 32 ≤ c.toNat)
    (rest : List Char) : readChars (c :: rest) = withChar c (readChars rest) := by
  have hnot : ¬ (c.toNat < 32 ∨ c = '\\') := by
    rintro (hlt | heq)
    · omega
    · exact hslash heq
  rw [readChars]
  · rw [if_neg hquote, if_neg hnot]
    rfl
  · rintro a b c' d rest' rfl
    exact absurd rfl hslash
  · rintro c' rest' rfl
    exact absurd rfl hslash

/-- Every character reads back, however it is written: as itself, by an escape of its own, as one
unit, or as a pair. -/
theorem readChars_writeChar (c : Char) (rest : List Char) :
    readChars (writeChar c ++ rest) = withChar c (readChars rest) := by
  have hvalid : c.toNat < 0xd800 ∨ 0xdfff < c.toNat ∧ c.toNat < 0x110000 := c.valid
  unfold writeChar
  split_ifs with hquote hslash hfeed hreturn htab hback hform hplain hbasic
  · subst hquote; rfl
  · subst hslash; rfl
  · subst hfeed; rfl
  · subst hreturn; rfl
  · subst htab; rfl
  · subst hback; rfl
  · subst hform; rfl
  · exact readChars_cons hquote hslash hplain.1 rest
  · rw [readChars_unitEscape hbasic (by omega), Char.ofNat_toNat]
  · have hpair : 0x10000 + (0xd800 + (c.toNat - 0x10000) / 0x400 - 0xd800) * 0x400 +
        (0xdc00 + (c.toNat - 0x10000) % 0x400 - 0xdc00) = c.toNat := by omega
    rw [List.append_assoc, readChars_pair (by omega) (by omega), hpair, Char.ofNat_toNat]

/-- A text reads back up to its closing quote. -/
theorem readChars_flatMap (cs rest : List Char) :
    readChars (cs.flatMap writeChar ++ '\x22' :: rest) = some (cs, rest) := by
  induction cs with
  | nil => rfl
  | cons c cs ih =>
    rw [List.flatMap_cons, List.append_assoc, readChars_writeChar, ih]
    rfl

/-! ## Whole numbers -/

/-- What follows a value: nothing, or what ends it in a list, an object or a line. -/
def IsBoundary : List Char → Prop
  | [] => True
  | c :: _ => c = ',' ∨ c = ']' ∨ c = '\x7d' ∨ c = '\n'

theorem isBoundary_nil : IsBoundary [] := trivial

theorem isBoundary_comma (rest : List Char) : IsBoundary (',' :: rest) := .inl rfl

theorem isBoundary_bracket (rest : List Char) : IsBoundary (']' :: rest) := .inr (.inl rfl)

theorem isBoundary_brace (rest : List Char) : IsBoundary ('\x7d' :: rest) :=
  .inr (.inr (.inl rfl))

theorem isBoundary_feed (rest : List Char) : IsBoundary ('\n' :: rest) :=
  .inr (.inr (.inr rfl))

theorem digitsValue_append (ds : List Nat) (d : Nat) :
    Text.digitsValue (ds ++ [d]) = 10 * Text.digitsValue ds + d := by
  simp [Text.digitsValue]

/-- The digits that stand for a number, without leading zeros. -/
structure IsNumeral (ds : List Nat) (n : Nat) : Prop where
  lt_ten : ∀ d ∈ ds, d < 10
  value : Text.digitsValue ds = n
  leading : ∃ d more, ds = d :: more ∧ (d = 0 → more = [])

theorem isNumeral_singleton {n : Nat} (h : n < 10) : IsNumeral [n] n := by
  refine ⟨by simpa using h, by simp [Text.digitsValue], n, [], rfl, fun _ => rfl⟩

theorem IsNumeral.append {ds : List Nat} {n d : Nat} (h : IsNumeral ds n) (hn : n ≠ 0)
    (hd : d < 10) : IsNumeral (ds ++ [d]) (10 * n + d) := by
  obtain ⟨first, more, rfl, hzero⟩ := h.leading
  refine ⟨?_, by rw [digitsValue_append, h.value], first, more ++ [d], rfl, fun hfirst => ?_⟩
  · intro d' hd'
    rcases List.mem_append.1 hd' with hd' | hd'
    · exact h.lt_ten d' hd'
    · rw [List.mem_singleton.1 hd']
      exact hd
  · have hvalue := h.value
    rw [hzero hfirst, hfirst] at hvalue
    exact absurd hvalue.symm hn

theorem digitsBefore_eq {fuel n : Nat} (h : n < fuel) (rest : List Char) :
    ∃ ds, Text.digitsBefore fuel n rest = ds.map Text.digitChar ++ rest ∧ IsNumeral ds n := by
  induction fuel generalizing n rest with
  | zero => exact absurd h (Nat.not_lt_zero n)
  | succ fuel ih =>
    by_cases hsmall : n < 10
    · exact ⟨[n], by simp [Text.digitsBefore, hsmall], isNumeral_singleton hsmall⟩
    · obtain ⟨ds, hds, hnumeral⟩ :=
        ih (show n / 10 < fuel by omega) (Text.digitChar (n % 10) :: rest)
      have hlonger : IsNumeral (ds ++ [n % 10]) (10 * (n / 10) + n % 10) :=
        hnumeral.append (by omega) (Nat.mod_lt n (by decide))
      rw [Nat.div_add_mod] at hlonger
      refine ⟨ds ++ [n % 10], ?_, hlonger⟩
      simp [Text.digitsBefore, hsmall, hds]

theorem digits_eq (n : Nat) :
    ∃ ds, Text.digits n = ds.map Text.digitChar ∧ IsNumeral ds n := by
  obtain ⟨ds, hds, hnumeral⟩ := digitsBefore_eq (Nat.lt_succ_self n) []
  exact ⟨ds, by rw [Text.digits, hds, List.append_nil], hnumeral⟩

theorem digitsValue_ne_zero {d : Nat} (hd : d ≠ 0) (more : List Nat) :
    Text.digitsValue (d :: more) ≠ 0 := by
  induction more using List.reverseRecOn with
  | nil => simpa [Text.digitsValue] using hd
  | append_singleton more z ih =>
    rw [← List.cons_append, digitsValue_append]
    omega

/-- The last digit of a number and the digits before it, which are those of the tenth part.  The
writer of digits recurses in the same way. -/
theorem IsNumeral.cases_last {ds : List Nat} {n : Nat} (h : IsNumeral ds n) :
    ds = [n] ∨ ∃ init, ds = init ++ [n % 10] ∧ IsNumeral init (n / 10) ∧ n / 10 ≠ 0 := by
  obtain ⟨first, more, rfl, hzero⟩ := h.leading
  rcases List.eq_nil_or_concat' more with rfl | ⟨more, z, rfl⟩
  · left
    rw [← h.value]
    simp [Text.digitsValue]
  · right
    have hfirst : first ≠ 0 := fun heq => by simpa using hzero heq
    have hz : z < 10 := h.lt_ten z (by simp)
    have hvalue : 10 * Text.digitsValue (first :: more) + z = n := by
      rw [← digitsValue_append, List.cons_append]
      exact h.value
    have hne := digitsValue_ne_zero hfirst more
    obtain rfl : z = n % 10 := by omega
    have htenth : Text.digitsValue (first :: more) = n / 10 := by omega
    refine ⟨first :: more, rfl, ⟨fun d hd => ?_, htenth, first, more, rfl, ?_⟩, htenth ▸ hne⟩
    · exact h.lt_ten d (List.mem_append_left [n % 10] hd)
    · exact fun heq => absurd heq hfirst

/-- A number has one numeral, so to read back its digits it is enough that they stand for it. -/
theorem IsNumeral.unique {ds es : List Nat} {n : Nat} (h : IsNumeral ds n) (h' : IsNumeral es n) :
    ds = es := by
  induction n using Nat.strong_induction_on generalizing ds es with
  | _ n ih =>
    rcases h.cases_last with rfl | ⟨init, rfl, hinit, hne⟩
    · rcases h'.cases_last with rfl | ⟨init', rfl, -, hne'⟩
      · rfl
      · have hlt := h.lt_ten n (List.mem_singleton_self n)
        omega
    · rcases h'.cases_last with rfl | ⟨init', rfl, hinit', -⟩
      · have hlt := h'.lt_ten n (List.mem_singleton_self n)
        omega
      · rw [ih (n / 10) (by omega) hinit hinit']

/-- A number has as many digits as any numeral of it. -/
theorem IsNumeral.length_digits {ds : List Nat} {n : Nat} (h : IsNumeral ds n) :
    (Text.digits n).length = ds.length := by
  obtain ⟨es, hes, hnumeral⟩ := digits_eq n
  rw [hes, List.length_map, h.unique hnumeral]

theorem asciiDigit?_digitChar {d : Nat} (h : d < 10) :
    Text.asciiDigit? (Text.digitChar d) = some d := by
  have hall : ∀ d < 10, Text.asciiDigit? (Text.digitChar d) = some d := by decide
  exact hall d h

theorem IsBoundary.spanDigits_eq {rest : List Char} (h : IsBoundary rest) :
    spanDigits rest = ([], rest) := by
  cases rest with
  | nil => rfl
  | cons c rest => rcases h with rfl | rfl | rfl | rfl <;> rfl

theorem spanDigits_map {ds : List Nat} (hds : ∀ d ∈ ds, d < 10) {rest : List Char}
    (hrest : IsBoundary rest) : spanDigits (ds.map Text.digitChar ++ rest) = (ds, rest) := by
  induction ds with
  | nil => exact hrest.spanDigits_eq
  | cons d ds ih =>
    have hd : d < 10 := hds d List.mem_cons_self
    have htail := ih fun d' hd' => hds d' (List.mem_cons_of_mem _ hd')
    simp only [List.map_cons, List.cons_append, spanDigits, asciiDigit?_digitChar hd, htail]

theorem IsBoundary.readFraction_eq {rest : List Char} (h : IsBoundary rest) :
    readFraction rest = some ([], rest) := by
  cases rest with
  | nil => rfl
  | cons c rest => rcases h with rfl | rfl | rfl | rfl <;> rfl

theorem IsBoundary.readExponent_eq {rest : List Char} (h : IsBoundary rest) :
    readExponent rest = some (none, rest) := by
  cases rest with
  | nil => rfl
  | cons c rest => rcases h with rfl | rfl | rfl | rfl <;> rfl

/-- A number without a sign reads back, unless it has too many digits, which the reader refuses. -/
theorem readMagnitude_digits (negative : Bool) {n : Nat} (hlength : Text.isTooLong n = false)
    {rest : List Char} (hrest : IsBoundary rest) :
    readMagnitude negative (Text.digits n ++ rest) =
      some (.int (if negative then -n else n), rest) := by
  obtain ⟨ds, hds, hnumeral⟩ := digits_eq n
  obtain ⟨d, more, rfl, hzero⟩ := hnumeral.leading
  have hfits : ¬ Text.digitLimit < (d :: more).length := by
    simpa [Text.isTooLong, hds] using hlength
  have hwhole : readMagnitude negative ((d :: more).map Text.digitChar ++ rest) =
      some (.int (if negative then -Text.digitsValue (d :: more)
        else Text.digitsValue (d :: more)), rest) := by
    rw [readMagnitude, spanDigits_map hnumeral.lt_ten hrest]
    cases d with
    | zero =>
      rw [hzero rfl] at hfits ⊢
      simp only [hrest.readFraction_eq, hrest.readExponent_eq, Option.bind_some, if_neg hfits]
    | succ d =>
      simp only [hrest.readFraction_eq, hrest.readExponent_eq, Option.bind_some, if_neg hfits]
  rw [hds, hwhole, hnumeral.value]

/-! ## What is written is plain -/

/-- All characters are printable ASCII. -/
def IsPlain (text : List Char) : Prop := ∀ c ∈ text, 32 ≤ c.toNat ∧ c.toNat < 127

theorem IsPlain.append {a b : List Char} (ha : IsPlain a) (hb : IsPlain b) : IsPlain (a ++ b) :=
  fun c hc => (List.mem_append.1 hc).elim (ha c) (hb c)

/-- Whether a text is plain can be computed. -/
theorem isPlain_of_all {text : List Char}
    (h : text.all (fun c => 32 ≤ c.toNat && c.toNat < 127) = true) : IsPlain text := by
  intro c hc
  simpa using List.all_eq_true.1 h c hc

theorem isPlain_hexDigit {d : Nat} (h : d < 16) : IsPlain [Text.hexDigit d] := by
  interval_cases d <;> exact isPlain_of_all rfl

theorem isPlain_digitChar {d : Nat} (h : d < 10) : IsPlain [Text.digitChar d] := by
  interval_cases d <;> exact isPlain_of_all rfl

theorem isPlain_unitEscape (n : Nat) : IsPlain (unitEscape n) := by
  have hdigit : ∀ m, IsPlain [Text.hexDigit (m % 16)] := fun m =>
    isPlain_hexDigit (Nat.mod_lt m (by decide))
  have hmarker : IsPlain ['\\', 'u'] := isPlain_of_all rfl
  rw [unitEscape, hexDigits_four]
  exact hmarker.append ((hdigit _).append ((hdigit _).append ((hdigit _).append (hdigit _))))

theorem isPlain_writeChar (c : Char) : IsPlain (writeChar c) := by
  unfold writeChar
  split_ifs with hquote hslash hfeed hreturn htab hback hform hplain hbasic
  iterate 7 · exact isPlain_of_all rfl
  · simpa [IsPlain] using hplain
  · exact isPlain_unitEscape _
  · exact (isPlain_unitEscape _).append (isPlain_unitEscape _)

theorem isPlain_writeText (s : String) : IsPlain (writeText s) := by
  have hquote : IsPlain ['\x22'] := isPlain_of_all rfl
  refine (hquote.append ?_).append hquote
  intro c hc
  obtain ⟨c', -, hc'⟩ := List.mem_flatMap.1 hc
  exact isPlain_writeChar c' c hc'

theorem isPlain_digits (n : Nat) : IsPlain (Text.digits n) := by
  obtain ⟨ds, hds, hnumeral⟩ := digits_eq n
  intro c hc
  rw [hds] at hc
  obtain ⟨d, hd, rfl⟩ := List.mem_map.1 hc
  exact isPlain_digitChar (hnumeral.lt_ten d hd) _ List.mem_cons_self

theorem isPlain_integerDigits (n : Int) : IsPlain (Text.integerDigits n) := by
  cases n with
  | ofNat n => exact isPlain_digits n
  | negSucc n =>
    have hsign : IsPlain ['-'] := isPlain_of_all rfl
    exact hsign.append (isPlain_digits (n + 1))

end SecretMirror.Json
