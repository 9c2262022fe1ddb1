import SecretMirror.Base64

/-!
# Reading written base64

Written base64 reads back to the same bytes (`decode_encode`) and is ASCII (`isAscii_encode`), for
byte strings of every length.  The reader goes character by character and the writer group by group,
so the proof reads one group of four characters at a time from between two groups; padding that was
counted before makes no difference there, which is why `decodeFrom_encode` leaves it open.
-/

namespace SecretMirror.Base64

/-! ## The alphabet -/

theorem valueOf?_charOf {n : Nat} (h : n < 64) : valueOf? (charOf n) = some n := by
  have hall : ∀ m < 64, valueOf? (charOf m) = some m := by decide
  exact hall n h

theorem charOf_ne_pad {n : Nat} (h : n < 64) : charOf n ≠ '=' := by
  have hall : ∀ m < 64, charOf m ≠ '=' := by decide
  exact hall n h

theorem toNat_charOf {n : Nat} (h : n < 64) : (charOf n).toNat < 128 := by
  have hall : ∀ m < 64, (charOf m).toNat < 128 := by decide
  exact hall n h

/-! ## One character at a time -/

theorem decodeFrom_empty {n : Nat} (h : n < 64) (pads count : Nat) (rest : List Char) :
    decodeFrom .empty pads count (charOf n :: rest) = decodeFrom (.one n) 0 (count + 1) rest := by
  simp [decodeFrom, charOf_ne_pad h, valueOf?_charOf h, Group.add]

theorem decodeFrom_completes {n : Nat} (h : n < 64) {g g' : Group} {byte : UInt8}
    (hadd : g.add n = (g', some byte)) (pads count : Nat) (rest : List Char) :
    decodeFrom g pads count (charOf n :: rest) =
      (decodeFrom g' 0 (count + 1) rest).map (byte :: ·) := by
  simp [decodeFrom, charOf_ne_pad h, valueOf?_charOf h, hadd]

/-! ## The bytes of a group -/

theorem byte_first (a b : UInt8) :
    UInt8.ofNat (a.toNat / 4 * 4 + (a.toNat % 4 * 16 + b.toNat / 16) / 16) = a := by
  have hb := b.toNat_lt
  have hsum : a.toNat / 4 * 4 + (a.toNat % 4 * 16 + b.toNat / 16) / 16 = a.toNat := by omega
  rw [hsum, UInt8.ofNat_toNat]

theorem byte_second (a b c : UInt8) :
    UInt8.ofNat ((a.toNat % 4 * 16 + b.toNat / 16) % 16 * 16 +
      (b.toNat % 16 * 4 + c.toNat / 64) / 4) = b := by
  have hb := b.toNat_lt
  have hc := c.toNat_lt
  have hsum : (a.toNat % 4 * 16 + b.toNat / 16) % 16 * 16 +
      (b.toNat % 16 * 4 + c.toNat / 64) / 4 = b.toNat := by omega
  rw [hsum, UInt8.ofNat_toNat]

theorem byte_third (b c : UInt8) :
    UInt8.ofNat ((b.toNat % 16 * 4 + c.toNat / 64) % 4 * 64 + c.toNat % 64) = c := by
  have hc := c.toNat_lt
  have hsum : (b.toNat % 16 * 4 + c.toNat / 64) % 4 * 64 + c.toNat % 64 = c.toNat := by omega
  rw [hsum, UInt8.ofNat_toNat]

/-! ## Whole texts -/

/-- Between two groups the reader gives back what was written, by induction on the groups. -/
theorem decodeFrom_encode (bytes : Bytes) (pads count : Nat) :
    decodeFrom .empty pads count (encode bytes) = .ok bytes := by
  -- The cases are those of the writer: nothing left, one or two bytes left, or a whole group.
  induction bytes using encode.induct generalizing pads count with
  | case1 => rfl
  | case2 a =>
    have ha := a.toNat_lt
    have hbyte := byte_first a 0
    simp only [UInt8.toNat_zero, Nat.zero_div, Nat.add_zero] at hbyte
    rw [encode, decodeFrom_empty (by omega), decodeFrom_completes (by omega) rfl, hbyte]
    simp [decodeFrom, Group.completedBy, Group.takesPadding, Except.map]
  | case3 a b =>
    have ha := a.toNat_lt
    have hb := b.toNat_lt
    have hbyte := byte_second a b 0
    simp only [UInt8.toNat_zero, Nat.zero_div, Nat.add_zero] at hbyte
    rw [encode, decodeFrom_empty (by omega), decodeFrom_completes (by omega) rfl,
      decodeFrom_completes (by omega) rfl, byte_first, hbyte]
    simp [decodeFrom, Group.completedBy, Except.map]
  | case4 a b c rest ih =>
    have ha := a.toNat_lt
    have hb := b.toNat_lt
    have hc := c.toNat_lt
    rw [encode, decodeFrom_empty (by omega), decodeFrom_completes (by omega) rfl,
      decodeFrom_completes (by omega) rfl, decodeFrom_completes (by omega) rfl, ih, byte_first,
      byte_second, byte_third]
    rfl

theorem decode_encode (bytes : Bytes) : decode (encode bytes) = .ok bytes :=
  decodeFrom_encode bytes 0 0

theorem isAscii_encode (bytes : Bytes) : ∀ c ∈ encode bytes, c.toNat < 128 := by
  induction bytes using encode.induct with
  | case1 => simp [encode]
  | case2 a =>
    have ha := a.toNat_lt
    have h₁ := toNat_charOf (n := a.toNat / 4) (by omega)
    have h₂ := toNat_charOf (n := a.toNat % 4 * 16) (by omega)
    simp [encode, h₁, h₂]
  | case3 a b =>
    have ha := a.toNat_lt
    have hb := b.toNat_lt
    have h₁ := toNat_charOf (n := a.toNat / 4) (by omega)
    have h₂ := toNat_charOf (n := a.toNat % 4 * 16 + b.toNat / 16) (by omega)
    have h₃ := toNat_charOf (n := b.toNat % 16 * 4) (by omega)
    simp [encode, h₁, h₂, h₃]
  | case4 a b c rest ih =>
    have ha := a.toNat_lt
    have hb := b.toNat_lt
    have hc := c.toNat_lt
    have h₁ := toNat_charOf (n := a.toNat / 4) (by omega)
    have h₂ := toNat_charOf (n := a.toNat % 4 * 16 + b.toNat / 16) (by omega)
    have h₃ := toNat_charOf (n := b.toNat % 16 * 4 + c.toNat / 64) (by omega)
    have h₄ := toNat_charOf (n := c.toNat % 64) (by omega)
    simp only [encode, List.mem_cons]
    rintro x (rfl | rfl | rfl | rfl | hx)
    · exact h₁
    · exact h₂
    · exact h₃
    · exact h₄
    · exact ih x hx

end SecretMirror.Base64
