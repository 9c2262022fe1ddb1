import Mathlib.Data.List.Infix
import SecretMirror.Redaction

/-!
# Words, borders and values

Every form of redaction begins with a word, possibly behind a quote.  Words consist of letters and
the hyphen, so they neither contain nor cross a border: white space, a sign of assignment, or a
character that ends a value (`afterWord?_append`).  A value (`IsValue`) contains neither borders nor
words.
-/

namespace SecretMirror.Redaction

/-- The words that a form may begin with, those before key material and the names of the fields. -/
def words : List (List Char) := keyWords.map KeyWord.word ++ fields

/-- Characters that no word contains in any case. -/
def isBorder (c : Char) : Bool := Text.isBlank c || c ∈ [':', '=', ',', ';', ')', '\x7d']

/-- The text is empty or begins with a character that ends a value. -/
def EndsValue (s : List Char) : Prop := ∀ c ∈ s.head?, isValueChar c = false

/-- A value that is not empty, of base64 characters, in which no word begins. -/
structure IsValue (v : List Char) : Prop where
  nonempty : v ≠ []
  chars : ∀ c ∈ v, isKeyChar c
  wordless : ∀ word ∈ words, ∀ u ∈ v.tails, Text.afterWord? word u = none

theorem endsValue_nil : EndsValue [] := by
  intro c hc
  cases hc

/-! ## Characters -/

theorem toNat_of_isBlank {c : Char} (h : Text.isBlank c = true) :
    c.toNat ≤ 32 ∨ 133 ≤ c.toNat ∧ c.toNat ≤ 160 ∨ 5760 ≤ c.toNat ∧ c.toNat ≤ 12288 := by
  simp only [Text.isBlank, Bool.or_eq_true, Bool.and_eq_true, decide_eq_true_eq,
    beq_iff_eq] at h
  omega

theorem small_of_isBlank {c : Char} (h : Text.isBlank c = true) : Text.small c = c := by
  have hrange := toNat_of_isBlank h
  have hcapital : ¬ ('A' ≤ c ∧ c ≤ 'Z') := by
    rintro ⟨hlow, hhigh⟩
    have hlow' : 65 ≤ c.toNat := hlow
    have hhigh' : c.toNat ≤ 90 := hhigh
    omega
  have hother : ∀ d : Char, Text.isBlank d = false → c ≠ d := by
    rintro d hd rfl
    rw [h] at hd
    cases hd
  unfold Text.small
  rw [if_neg hcapital, if_neg (hother _ (by decide)), if_neg (hother _ (by decide)), if_neg]
  rintro (hc | hc)
  · exact hother _ (by decide) hc
  · exact hother _ (by decide) hc

theorem isLetter_of_isBlank {c : Char} (h : Text.isBlank c = true) : Text.isLetter c = false := by
  have hrange := toNat_of_isBlank h
  rw [Text.isLetter, small_of_isBlank h, Bool.and_eq_false_iff, decide_eq_false_iff_not,
    decide_eq_false_iff_not]
  by_cases hlow : 'a' ≤ c
  · right
    intro hhigh
    have hlow' : 97 ≤ c.toNat := hlow
    have hhigh' : c.toNat ≤ 122 := hhigh
    omega
  · exact .inl hlow

theorem isBorder_of_isBlank {c : Char} (h : Text.isBlank c = true) : isBorder c = true := by
  rw [isBorder, h, Bool.true_or]

theorem isBorder_of_endsValue {c : Char} (h : isValueChar c = false) : isBorder c = true := by
  simp only [isValueChar, Bool.not_eq_false', Bool.or_eq_true, beq_iff_eq] at h
  rcases h with (((hblank | rfl) | rfl) | rfl) | rfl
  · exact isBorder_of_isBlank hblank
  · rfl
  · rfl
  · rfl
  · rfl

theorem isBorder_of_sign {sep : Char} (hsep : sep = ':' ∨ sep = '=') : isBorder sep = true := by
  rcases hsep with rfl | rfl
  · rfl
  · rfl

theorem small_of_isBorder {c : Char} (h : isBorder c = true) : isBorder (Text.small c) = true := by
  simp only [isBorder, Bool.or_eq_true, decide_eq_true_eq] at h
  rcases h with hblank | hsign
  · rw [small_of_isBlank hblank]
    exact isBorder_of_isBlank hblank
  · have hsigns : [':', '=', ',', ';', ')', '\x7d'].all (fun c => isBorder (Text.small c)) := by
      decide
    exact List.all_eq_true.1 hsigns c hsign

theorem not_isQuote_of_isBorder {c : Char} (h : isBorder c = true) : isQuote c = false := by
  by_contra hquote
  simp only [isQuote, Bool.not_eq_false, Bool.or_eq_true, beq_iff_eq] at hquote
  rcases hquote with rfl | rfl
  · exact absurd h (by decide)
  · exact absurd h (by decide)

theorem not_isBlank_of_isKeyChar {c : Char} (h : isKeyChar c = true) : Text.isBlank c = false := by
  by_contra hblank
  rw [Bool.not_eq_false] at hblank
  have hrange := toNat_of_isBlank hblank
  simp only [isKeyChar, isLetter_of_isBlank hblank, Bool.false_or, Bool.or_eq_true,
    Bool.and_eq_true, decide_eq_true_eq, beq_iff_eq] at h
  rcases h with ((⟨hlow, hhigh⟩ | rfl) | rfl) | rfl
  · have hlow' : 48 ≤ c.toNat := hlow
    have hhigh' : c.toNat ≤ 57 := hhigh
    omega
  · exact absurd hblank (by decide)
  · exact absurd hblank (by decide)
  · exact absurd hblank (by decide)

theorem ne_of_isKeyChar {c d : Char} (h : isKeyChar c = true) (hd : isKeyChar d = false) :
    c ≠ d := by
  rintro rfl
  rw [h] at hd
  cases hd

theorem not_isKeyGap_of_isKeyChar {c : Char} (h : isKeyChar c = true) : isKeyGap c = false := by
  rw [isKeyGap, not_isBlank_of_isKeyChar h, Bool.or_false, beq_eq_false_iff_ne]
  exact ne_of_isKeyChar h (by decide)

theorem isValueChar_of_isKeyChar {c : Char} (h : isKeyChar c = true) : isValueChar c = true := by
  have hne : ∀ d, isKeyChar d = false → (c == d) = false := fun d hd =>
    beq_eq_false_iff_ne.2 (ne_of_isKeyChar h hd)
  rw [isValueChar, not_isBlank_of_isKeyChar h, hne ',' (by decide), hne ';' (by decide),
    hne ')' (by decide), hne '\x7d' (by decide)]
  rfl

theorem not_isQuote_of_isKeyChar {c : Char} (h : isKeyChar c = true) : isQuote c = false := by
  rw [isQuote, Bool.or_eq_false_iff, beq_eq_false_iff_ne, beq_eq_false_iff_ne]
  exact ⟨ne_of_isKeyChar h (by decide), ne_of_isKeyChar h (by decide)⟩

theorem not_isKeyChar_of_endsValue {c : Char} (h : isValueChar c = false) :
    isKeyChar c = false := by
  by_contra hkey
  rw [Bool.not_eq_false] at hkey
  rw [isValueChar_of_isKeyChar hkey] at h
  cases h

/-! ## Words -/

theorem KeyWord.word_mem_words {k : KeyWord} (hk : k ∈ keyWords) : k.word ∈ words :=
  List.mem_append_left _ (List.mem_map_of_mem hk)

theorem field_mem_words {field : List Char} (hfield : field ∈ fields) : field ∈ words :=
  List.mem_append_right _ hfield

theorem word_ne_nil {word : List Char} (h : word ∈ words) : word ≠ [] := by
  revert word
  decide

theorem small_not_mem_word {word : List Char} (h : word ∈ words) {z : Char}
    (hz : isBorder z = true) : Text.small z ∉ word := by
  have hletters : ∀ word ∈ words, word.all fun c => !isBorder c := by decide
  intro hmem
  have hnot := List.all_eq_true.1 (hletters word h) _ hmem
  rw [small_of_isBorder hz] at hnot
  cases hnot

theorem afterWord?_of_isBorder {word : List Char} (h : word ∈ words) {z : Char}
    (hz : isBorder z = true) (x : List Char) : Text.afterWord? word (z :: x) = none := by
  have hnot := small_not_mem_word h hz
  cases word with
  | nil => exact absurd rfl (word_ne_nil h)
  | cons w word => exact if_neg (List.ne_of_not_mem_cons hnot)

/-- A word does not cross a border. -/
theorem afterWord?_append {word : List Char} {z : Char} (hz : Text.small z ∉ word)
    (l x : List Char) :
    Text.afterWord? word (l ++ z :: x) = (Text.afterWord? word l).map (· ++ z :: x) := by
  induction word generalizing l with
  | nil => rfl
  | cons w word ih =>
    obtain ⟨hne, hword⟩ : Text.small z ≠ w ∧ Text.small z ∉ word := by simpa using hz
    cases l with
    | nil => exact if_neg hne
    | cons c l =>
      rw [List.cons_append, Text.afterWord?, Text.afterWord?]
      by_cases hc : Text.small c = w
      · rw [if_pos hc, if_pos hc]
        exact ih hword l
      · rw [if_neg hc, if_neg hc]
        rfl

/-- A word at the beginning of a text does not depend on what follows it. -/
theorem exists_of_afterWord? {word text rest : List Char}
    (h : Text.afterWord? word text = some rest) :
    ∃ u, text = u ++ rest ∧ u.length = word.length ∧
      ∀ y, Text.afterWord? word (u ++ y) = some y := by
  induction word generalizing text with
  | nil =>
    cases h
    exact ⟨[], rfl, rfl, fun y => rfl⟩
  | cons w word ih =>
    cases text with
    | nil => cases h
    | cons c text =>
      rw [Text.afterWord?] at h
      by_cases hc : Text.small c = w
      · rw [if_pos hc] at h
        obtain ⟨u, rfl, hlen, hafter⟩ := ih h
        refine ⟨c :: u, rfl, congrArg (· + 1) hlen, fun y => ?_⟩
        rw [List.cons_append, Text.afterWord?, if_pos hc]
        exact hafter y
      · rw [if_neg hc] at h
        cases h

/-- A word that does not begin in a text does not begin there when a border follows, or nothing. -/
theorem afterWord?_of_endsValue {word : List Char} (hword : word ∈ words) {u s : List Char}
    (hu : Text.afterWord? word u = none) (hs : EndsValue s) :
    Text.afterWord? word (u ++ s) = none := by
  cases s with
  | nil => rwa [List.append_nil]
  | cons c s =>
    have hc : isBorder c = true := isBorder_of_endsValue (hs c rfl)
    rw [afterWord?_append (small_not_mem_word hword hc), hu]
    rfl

theorem afterWord?_self {field : List Char} (hfield : field ∈ fields) :
    Text.afterWord? field field = some [] := by
  revert field
  decide

theorem not_isQuote_of_mem {field : List Char} (hfield : field ∈ fields) {c : Char}
    (hc : c ∈ field) : isQuote c = false := by
  have hplain : ∀ field ∈ fields, field.all fun c => !isQuote c := by decide
  have hnot := List.all_eq_true.1 (hplain field hfield) c hc
  rwa [Bool.not_eq_true'] at hnot

/-- No word but the whole name begins in the name of a field. -/
theorem afterWord?_of_tails {word : List Char} (hword : word ∈ words) {field : List Char}
    (hfield : field ∈ fields) {u : List Char} (hu : u ∈ field.tails)
    (hne : word ≠ field ∨ u ≠ field) : Text.afterWord? word u = none := by
  have hall : ∀ word ∈ words, ∀ field ∈ fields, ∀ u ∈ field.tails,
      word ≠ field ∨ u ≠ field → Text.afterWord? word u = none := by decide +kernel
  exact hall word hword field hfield u hu hne

theorem isValue_replicate {n : Nat} (hn : n ≠ 0) : IsValue (List.replicate n 'x') := by
  refine ⟨?_, ?_, ?_⟩
  · rwa [Ne, List.replicate_eq_nil_iff]
  · intro c hc
    rw [List.eq_of_mem_replicate hc]
    decide
  · intro word hword u hu
    have hfirst : ∀ word ∈ words, word.head? ≠ some (Text.small 'x') := by decide
    obtain ⟨-, hu⟩ := List.suffix_replicate_iff.1 ((List.mem_tails u _).1 hu)
    rw [hu]
    cases word with
    | nil => exact absurd rfl (word_ne_nil hword)
    | cons w word =>
      cases u.length with
      | zero => rfl
      | succ m => exact if_neg fun hw => hfirst _ hword (congrArg some hw.symm)

end SecretMirror.Redaction
