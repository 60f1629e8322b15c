import Annealing.Text.Utf8

/-!
# Text — UTF-8, read again

The octets of a character are one first octet and up to three following ones.  The reader takes each
following octet where it stands: the range is narrower behind some first octets, but no character
lies outside of it.  So every text is read as it was written (`Utf8.decode_encode`).

An octet of ASCII is a character of its own and part of no other one (`Utf8.eq_of_mem_encode`).
-/

namespace Annealing.Text.Utf8

/-! ### The octets of a character -/

theorem toNat_ofNat {n : Nat} (small : n < 0x100) : (UInt8.ofNat n).toNat = n := by
  rw [UInt8.toNat_ofNat']
  exact Nat.mod_eq_of_lt small

theorem toNat_following (code : Nat) : (following code).toNat = 0x80 + code % 0x40 :=
  toNat_ofNat (by omega)

/-- A code is below the last one, and not that of a half of a surrogate pair. -/
theorem code_valid (c : Char) : c.toNat < 0xD800 ∨ 0xDFFF < c.toNat ∧ c.toNat < 0x110000 := c.valid

/-- A following octet that may stand where it stands adds its six bits. -/
theorem decodeFrom_following {p : Pending} {code : Nat} (low : p.low.toNat ≤ 0x80 + code % 0x40)
    (high : 0x80 + code % 0x40 ≤ p.high.toNat) (place : Nat) (before : List Char)
    (rest : List UInt8) :
    decodeFrom place before (some p) (following code :: rest) =
      if p.owed ≤ 1 then decodeFrom (place + 1)
        (Char.ofNat (p.bits * 0x40 + code % 0x40) :: before) none rest
      else decodeFrom (place + 1) before
        (some { p with bits := p.bits * 0x40 + code % 0x40, owed := p.owed - 1, low := 0x80,
                       high := 0xBF }) rest := by
  have inside : p.low ≤ following code ∧ following code ≤ p.high := by
    rw [UInt8.le_iff_toNat_le, UInt8.le_iff_toNat_le, toNat_following]
    exact ⟨low, high⟩
  have bits : (following code).toNat % 0x40 = code % 0x40 := by
    rw [toNat_following]
    omega
  rw [decodeFrom, if_pos inside, bits]

/-- A first octet that says that others follow. -/
theorem decodeFrom_first {o : UInt8} {p : Pending} {place : Nat} (many : 0x80 ≤ o.toNat)
    (begins : pending? place o = some p) (before : List Char) (rest : List UInt8) :
    decodeFrom place before none (o :: rest) = decodeFrom (place + 1) before (some p) rest := by
  have notSingle : ¬ o < 0x80 := by
    rw [UInt8.lt_iff_toNat_lt]
    exact Nat.not_lt.mpr many
  rw [decodeFrom, if_neg notSingle, begins]

section

variable {o : UInt8} (place : Nat)

theorem pending_two (least : 0xC2 ≤ o.toNat) (most : o.toNat < 0xE0) :
    pending? place o = some ⟨o, place, o.toNat - 0xC0, 1, 0x80, 0xBF⟩ := by
  have low : ¬ o < 0xC2 := Nat.not_lt.mpr least
  have high : o < 0xE0 := UInt8.lt_iff_toNat_lt.mpr most
  rw [pending?, if_neg low, if_pos high]

theorem pending_three (least : 0xE0 ≤ o.toNat) (most : o.toNat < 0xF0) :
    pending? place o = some ⟨o, place, o.toNat - 0xE0, 2, if o.toNat = 0xE0 then 0xA0 else 0x80,
      if o.toNat = 0xED then 0x9F else 0xBF⟩ := by
  have low : ¬ o < 0xC2 ∧ ¬ o < 0xE0 :=
    ⟨Nat.not_lt.mpr (Nat.le_trans (by decide) least), Nat.not_lt.mpr least⟩
  have high : o < 0xF0 := UInt8.lt_iff_toNat_lt.mpr most
  rw [pending?, if_neg low.1, if_neg low.2, if_pos high]
  simp only [← UInt8.toNat_inj]
  rfl

theorem pending_four (least : 0xF0 ≤ o.toNat) (most : o.toNat < 0xF5) :
    pending? place o = some ⟨o, place, o.toNat - 0xF0, 3, if o.toNat = 0xF0 then 0x90 else 0x80,
      if o.toNat = 0xF4 then 0x8F else 0xBF⟩ := by
  have low : ¬ o < 0xC2 ∧ ¬ o < 0xE0 ∧ ¬ o < 0xF0 :=
    ⟨Nat.not_lt.mpr (Nat.le_trans (by decide) least),
      Nat.not_lt.mpr (Nat.le_trans (by decide) least), Nat.not_lt.mpr least⟩
  have high : o < 0xF5 := UInt8.lt_iff_toNat_lt.mpr most
  rw [pending?, if_neg low.1, if_neg low.2.1, if_neg low.2.2, if_pos high]
  simp only [← UInt8.toNat_inj]
  rfl

end

section

variable (c : Char) (place : Nat) (before : List Char) (rest : List UInt8)

theorem decodeFrom_one (one : c.toNat < 0x80) :
    decodeFrom place before none (UInt8.ofNat c.toNat :: rest) =
      decodeFrom (place + 1) (c :: before) none rest := by
  have octet := toNat_ofNat (n := c.toNat) (by omega)
  have single : UInt8.ofNat c.toNat < 0x80 := by
    rw [UInt8.lt_iff_toNat_lt, octet]
    exact one
  rw [decodeFrom, if_pos single, octet, Char.ofNat_toNat]

theorem decodeFrom_two (many : 0x80 ≤ c.toNat) (two : c.toNat < 0x800) :
    decodeFrom place before none
        (UInt8.ofNat (0xC0 + c.toNat / 0x40) :: following c.toNat :: rest) =
      decodeFrom (place + 2) (c :: before) none rest := by
  have octet := toNat_ofNat (n := 0xC0 + c.toNat / 0x40) (by omega)
  have code : (0xC0 + c.toNat / 0x40 - 0xC0) * 0x40 + c.toNat % 0x40 = c.toNat := by omega
  rw [decodeFrom_first (by omega) (pending_two place (by omega) (by omega)),
    decodeFrom_following (by simp) (by simp; omega), if_pos (Nat.le_refl 1), octet, code,
    Char.ofNat_toNat]

theorem decodeFrom_three (many : 0x800 ≤ c.toNat) (three : c.toNat < 0x10000) :
    decodeFrom place before none (UInt8.ofNat (0xE0 + c.toNat / 0x1000) ::
        following (c.toNat / 0x40) :: following c.toNat :: rest) =
      decodeFrom (place + 3) (c :: before) none rest := by
  have valid := code_valid c
  have octet := toNat_ofNat (n := 0xE0 + c.toNat / 0x1000) (by omega)
  have code : ((0xE0 + c.toNat / 0x1000 - 0xE0) * 0x40 + c.toNat / 0x40 % 0x40) * 0x40 +
      c.toNat % 0x40 = c.toNat := by omega
  rw [decodeFrom_first (by omega) (pending_three place (by omega) (by omega)),
    decodeFrom_following ?_ ?_, if_neg (by simp),
    decodeFrom_following (by simp) (by simp; omega), if_pos (by simp), octet, code,
    Char.ofNat_toNat]
  -- the second octet is inside the range that the first one leaves to it
  · rw [octet]
    simp only
    split <;> simp
    omega
  · rw [octet]
    simp only
    split <;> simp <;> omega

theorem decodeFrom_four (many : 0x10000 ≤ c.toNat) :
    decodeFrom place before none (UInt8.ofNat (0xF0 + c.toNat / 0x40000) ::
        following (c.toNat / 0x1000) :: following (c.toNat / 0x40) :: following c.toNat :: rest) =
      decodeFrom (place + 4) (c :: before) none rest := by
  have valid := code_valid c
  have octet := toNat_ofNat (n := 0xF0 + c.toNat / 0x40000) (by omega)
  have code : (((0xF0 + c.toNat / 0x40000 - 0xF0) * 0x40 + c.toNat / 0x1000 % 0x40) * 0x40 +
      c.toNat / 0x40 % 0x40) * 0x40 + c.toNat % 0x40 = c.toNat := by omega
  rw [decodeFrom_first (by omega) (pending_four place (by omega) (by omega)),
    decodeFrom_following ?_ ?_, if_neg (by simp),
    decodeFrom_following (by simp) (by simp; omega), if_neg (by simp),
    decodeFrom_following (by simp) (by simp; omega), if_pos (by simp), octet, code,
    Char.ofNat_toNat]
  · rw [octet]
    simp only
    split <;> simp
    omega
  · rw [octet]
    simp only
    split <;> simp <;> omega

/-- The octets of a character are read as the character. -/
theorem decodeFrom_encodeChar :
    ∃ place', decodeFrom place before none (encodeChar c ++ rest) =
      decodeFrom place' (c :: before) none rest := by
  unfold encodeChar
  simp only
  split
  · next one => exact ⟨_, decodeFrom_one c place before rest one⟩
  split
  · next many two => exact ⟨_, decodeFrom_two c place before rest (Nat.le_of_not_lt many) two⟩
  split
  · next more three => exact ⟨_, decodeFrom_three c place before rest (Nat.le_of_not_lt more) three⟩
  · next most => exact ⟨_, decodeFrom_four c place before rest (Nat.le_of_not_lt most)⟩

end

/-! ### Texts -/

theorem decodeFrom_encode (cs : List Char) : ∀ (place : Nat) (before : List Char),
    decodeFrom place before none (encode cs) = .ok (before.reverse ++ cs) := by
  induction cs with
  | nil =>
      intro place before
      rw [List.append_nil]
      rfl
  | cons c rest ih =>
      intro place before
      obtain ⟨place', read⟩ := decodeFrom_encodeChar c place before (encode rest)
      rw [encode, List.flatMap_cons]
      rw [encode] at read
      rw [read, ← encode, ih, List.reverse_cons, List.append_assoc]
      rfl

/-- **A text is read as it was written.** -/
theorem decode_encode (cs : List Char) : decode (encode cs) = .ok cs := decodeFrom_encode cs 0 []

theorem encode_append (a b : List Char) : encode (a ++ b) = encode a ++ encode b :=
  List.flatMap_append

/-- An octet of ASCII stands for itself. -/
theorem eq_of_mem_encodeChar {c : Char} {o : UInt8} (h : o ∈ encodeChar c)
    (ascii : o.toNat < 0x80) :
    o.toNat = c.toNat := by
  have valid := code_valid c
  have later : ∀ code, o = following code → o.toNat = c.toNat := by
    rintro code rfl
    rw [toNat_following] at ascii
    omega
  have first : ∀ n, 0x80 ≤ n → n < 0x100 → o = UInt8.ofNat n → o.toNat = c.toNat := by
    rintro n many small rfl
    rw [toNat_ofNat small] at ascii
    omega
  unfold encodeChar at h
  simp only at h
  split at h
  · rw [List.mem_singleton.mp h, toNat_ofNat (by omega)]
  split at h
  · simp only [List.mem_cons, List.not_mem_nil, or_false] at h
    rcases h with h | h
    · exact first _ (by omega) (by omega) h
    · exact later _ h
  split at h
  · simp only [List.mem_cons, List.not_mem_nil, or_false] at h
    rcases h with h | h | h
    · exact first _ (by omega) (by omega) h
    · exact later _ h
    · exact later _ h
  · simp only [List.mem_cons, List.not_mem_nil, or_false] at h
    rcases h with h | h | h | h
    · exact first _ (by omega) (by omega) h
    · exact later _ h
    · exact later _ h
    · exact later _ h

/-- An octet of ASCII in a text is one of its characters. -/
theorem mem_of_mem_encode {cs : List Char} {o : UInt8} (h : o ∈ encode cs)
    (ascii : o.toNat < 0x80) :
    Char.ofNat o.toNat ∈ cs := by
  obtain ⟨c, hc, ho⟩ := List.mem_flatMap.mp h
  rw [eq_of_mem_encodeChar ho ascii, Char.ofNat_toNat]
  exact hc

end Annealing.Text.Utf8
