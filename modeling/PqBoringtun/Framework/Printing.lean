import PqBoringtun.Framework.Str

/-! # Numbers and byte strings as text

    Printing, in the two ways the parsers of `Framework.Str` and
    `Framework.TextEncoding` read: unsigned integers in decimal notation
    (`Nat.repr`) and byte strings as pairs of hexadecimal digits
    (`Hex.encode`).

    * `Str.parse_unsigned_repr`: what is printed is read as the same number,
      by the parser of every type it fits in.
    * `Hex.encodes_encode`: the printed digits spell the bytes.
    * `Str.Alnum`: texts of letters and digits, which need no escapes.
-/

namespace Str

/-! ## Section 1: The bytes of a text -/

theorem bytes_ofList (cs : List Char) :
    bytes (String.ofList cs) = cs.flatMap String.utf8EncodeChar := by
  simp [bytes, List.utf8Encode]

/-- Only a line break has this byte. -/
theorem newline_mem_utf8EncodeChar {c : Char} (h : 10 ∈ String.utf8EncodeChar c) : c = '\n' := by
  have hfar : ∀ n : Nat, 128 ≤ n → n < 256 → (10 : UInt8) ≠ UInt8.ofNat n := by
    intro n hle hlt heq
    have hval := congrArg UInt8.toNat heq
    rw [UInt8.toNat_ofNat', Nat.mod_eq_of_lt hlt] at hval
    have hten : (10 : UInt8).toNat = 10 := rfl
    omega
  unfold String.utf8EncodeChar at h
  by_cases h₁ : c.val.toNat ≤ 127
  · simp only [h₁, if_true, List.mem_singleton] at h
    have hval : 10 = c.val.toNat % 256 := by simpa using congrArg UInt8.toNat h
    exact Char.ext (UInt32.toNat_inj.mp (show c.val.toNat = 10 by omega))
  -- every byte of a longer character has its highest bit set
  exfalso
  by_cases h₂ : c.val.toNat ≤ 2047
  · simp only [h₁, h₂, if_true, if_false, List.mem_cons, List.not_mem_nil, or_false] at h
    rcases h with h | h <;> exact hfar _ (by omega) (by omega) h
  by_cases h₃ : c.val.toNat ≤ 65535
  · simp only [h₁, h₂, h₃, if_true, if_false, List.mem_cons, List.not_mem_nil, or_false] at h
    rcases h with h | h | h <;> exact hfar _ (by omega) (by omega) h
  · simp only [h₁, h₂, h₃, if_false, List.mem_cons, List.not_mem_nil, or_false] at h
    rcases h with h | h | h | h <;> exact hfar _ (by omega) (by omega) h

theorem newline_not_mem_bytes {s : String} (h : '\n' ∉ s.toList) : 10 ∉ bytes s := by
  intro hmem
  rw [← String.ofList_toList (s := s), bytes_ofList] at hmem
  obtain ⟨c, hc, hbyte⟩ := List.mem_flatMap.mp hmem
  exact h (newline_mem_utf8EncodeChar hbyte ▸ hc)

/-! ## Section 2: Decimal numbers -/

theorem digits_append (max radix result : Nat) (xs ys : Bytes) :
    digits max radix result (xs ++ ys) =
      (digits max radix result xs).bind fun r => digits max radix r ys := by
  induction xs generalizing result with
  | nil => rfl
  | cons c xs ih =>
    simp only [List.cons_append, digits]
    cases to_digit radix c with
    | none => rfl
    | some x =>
      by_cases hfits : result * radix + x ≤ max
      · simp only [hfits, if_true]
        exact ih _
      · simp [hfits]

private theorem digitChar_code : ∀ n < 10,
    String.utf8EncodeChar n.digitChar = [UInt8.ofNat (48 + n)] ∧
      to_digit 10 (UInt8.ofNat (48 + n)) = some n ∧ UInt8.ofNat (48 + n) ≠ 43 ∧
      UInt8.ofNat (48 + n) ≠ 45 := by
  decide

/-- A decimal digit is one byte, which is read as its value and is no sign. -/
theorem digitChar_decimal {n : Nat} (hn : n < 10) : ∃ c, String.utf8EncodeChar n.digitChar = [c] ∧
    to_digit 10 c = some n ∧ c ≠ 43 ∧ c ≠ 45 :=
  ⟨_, digitChar_code n hn⟩

/-- The bytes of a number. -/
def decimal (n : Nat) : Bytes := (Nat.toDigits 10 n).flatMap String.utf8EncodeChar

theorem bytes_repr (n : Nat) : bytes n.repr = decimal n := by
  rw [Nat.repr_eq_ofList_toDigits, bytes_ofList]
  rfl

/-- The last digit is read behind the others. -/
theorem digits_decimal {max n : Nat} (h : n ≤ max) : digits max 10 0 (decimal n) = some n := by
  induction n using Nat.strong_induction_on with
  | _ n ih =>
    by_cases hn : n < 10
    · obtain ⟨c, hc, hdigit, _⟩ := digitChar_decimal hn
      simp [decimal, Nat.toDigits_of_lt_base hn, hc, digits, hdigit, h]
    · obtain ⟨c, hc, hdigit, _⟩ := digitChar_decimal (Nat.mod_lt n (show 0 < 10 by decide))
      have hsplit : decimal n = decimal (n / 10) ++ [c] := by
        simp [decimal, Nat.toDigits_of_base_le (b := 10) (n := n) (by decide) (by omega), hc]
      have hvalue : n / 10 * 10 + n % 10 = n := by omega
      rw [hsplit, digits_append, ih (n / 10) (by omega) (by omega)]
      simp [digits, hdigit, hvalue, h]

/-- A number starts with a digit. -/
theorem decimal_head (n : Nat) : ∃ c rest, decimal n = c :: rest ∧ c ≠ 43 ∧ c ≠ 45 := by
  induction n using Nat.strong_induction_on with
  | _ n ih =>
    by_cases hn : n < 10
    · obtain ⟨c, hc, _, hsign⟩ := digitChar_decimal hn
      exact ⟨c, [], by simp [decimal, Nat.toDigits_of_lt_base hn, hc], hsign⟩
    · obtain ⟨c, rest, hrest, hsign⟩ := ih (n / 10) (by omega)
      refine ⟨c, rest ++ String.utf8EncodeChar (n % 10).digitChar, ?_, hsign⟩
      rw [decimal, Nat.toDigits_of_base_le (by decide) (by omega), List.flatMap_append]
      show decimal (n / 10) ++ _ = _
      rw [hrest]
      simp

/-- Without a sign in front, all of the text is digits. -/
theorem from_str_radix_unsigned {max radix : Nat} {c : UInt8} (rest : Bytes) (hplus : c ≠ 43)
    (hminus : c ≠ 45) : from_str_radix max radix (c :: rest) = digits max radix 0 (c :: rest) := by
  cases rest with
  | nil => simp [from_str_radix, hplus, hminus]
  | cons c' rest => simp [from_str_radix, hplus]

/-- **A printed number is read as this number**, by the parser of every type that has it. -/
theorem parse_unsigned_repr {max n : Nat} (h : n ≤ max) : parse_unsigned max n.repr = some n := by
  obtain ⟨c, rest, hrest, hplus, hminus⟩ := decimal_head n
  rw [parse_unsigned, bytes_repr, hrest, from_str_radix_unsigned rest hplus hminus, ← hrest,
    digits_decimal h]

end Str

/-! ## Section 3: Hexadecimal digits -/

namespace Hex

/-- The digits of a byte, high digit first. -/
def digitsOf (b : UInt8) : List Char := [(b.toNat / 16).digitChar, (b.toNat % 16).digitChar]

/-- `hex::encode` -/
def encode (bs : Bytes) : String := String.ofList (bs.flatMap digitsOf)

private theorem digitChar_code : ∀ n < 16,
    String.utf8EncodeChar n.digitChar = [UInt8.ofNat (if n < 10 then 48 + n else 87 + n)] ∧
      digit (UInt8.ofNat (if n < 10 then 48 + n else 87 + n)) = some n := by
  decide

theorem digitChar_hex {n : Nat} (hn : n < 16) : ∃ c, String.utf8EncodeChar n.digitChar = [c] ∧
    digit c = some n :=
  ⟨_, digitChar_code n hn⟩

/-- **The printed digits spell the bytes.** -/
theorem encodes_encode (bs : Bytes) : Encodes (Str.bytes (encode bs)) bs := by
  rw [encode, Str.bytes_ofList]
  induction bs with
  | nil => exact .nil
  | cons b bs ih =>
    have hb := b.toNat_lt
    obtain ⟨c, hc, hhigh⟩ := digitChar_hex (show b.toNat / 16 < 16 by omega)
    obtain ⟨c', hc', hlow⟩ := digitChar_hex (show b.toNat % 16 < 16 by omega)
    have hbyte : UInt8.ofNat (16 * (b.toNat / 16) + b.toNat % 16) = b := by
      rw [Nat.div_add_mod, UInt8.ofNat_toNat]
    have hcons := Encodes.cons hhigh hlow ih
    rw [hbyte] at hcons
    simpa [digitsOf, hc, hc'] using hcons

end Hex

/-! ## Section 4: Letters and digits -/

/-- A text of letters and digits. -/
def Str.Alnum (s : String) : Prop := ∀ c ∈ s.toList, c.isAlphanum = true

namespace Str

/-- There is no line break and no punctuation in such a text. -/
theorem Alnum.not_mem {s : String} (h : Alnum s) {c : Char} (hc : c.isAlphanum = false) :
    c ∉ s.toList := by
  intro hmem
  rw [h c hmem] at hc
  cases hc

theorem alnum_repr (n : Nat) : Alnum n.repr := by
  intro c hc
  rw [Nat.repr_eq_ofList_toDigits, String.toList_ofList] at hc
  have hdigit := Nat.isDigit_of_mem_toDigits (by decide) (by decide) hc
  simp [Char.isAlphanum, hdigit]

theorem alnum_encode (bs : Bytes) : Alnum (Hex.encode bs) := by
  have hdigit : ∀ n < 16, n.digitChar.isAlphanum = true := by decide
  intro c hc
  rw [Hex.encode, String.toList_ofList] at hc
  obtain ⟨b, _, hb⟩ := List.mem_flatMap.mp hc
  have hlt := b.toNat_lt
  rcases List.mem_cons.mp hb with rfl | hb
  · exact hdigit _ (by omega)
  · rw [List.mem_singleton.mp hb]
    exact hdigit _ (by omega)

end Str
