import PqBoringtun.Framework.Bytes

/-! # Byte strings written as text

    The two usual ways to write bytes in ASCII.

    - Hexadecimal: `Hex.Encodes` relates a text to the bytes its pairs of
      digits spell, in either case.
    - Base64 with the standard alphabet: `Base64.encode` writes groups of
      three bytes as four symbols, `Base64.decode` reads them back.  The
      padding at the end may be left out, wholly or in part; bits behind the
      last whole byte must be zero.

    `Base64.decode_eq_some` says that a text is accepted exactly if it is the
    encoding of some bytes, and that it is then read as these bytes.
-/

/-! ## Section 1: Hexadecimal digits -/

namespace Hex

/-- The value of a hexadecimal digit. -/
def digit (a : UInt8) : Option Nat :=
  if 48 ≤ a.toNat ∧ a.toNat ≤ 57 then some (a.toNat - 48)
  else if 97 ≤ a.toNat ∧ a.toNat ≤ 102 then some (a.toNat - 87)
  else if 65 ≤ a.toNat ∧ a.toNat ≤ 70 then some (a.toNat - 55)
  else none

/-- A text of pairs of digits, high digit first, and the bytes it spells. -/
inductive Encodes : Bytes → Bytes → Prop where
  | nil : Encodes [] []
  | cons {a b : UInt8} {x y : Nat} {text bs : Bytes} (ha : digit a = some x) (hb : digit b = some y)
      (rest : Encodes text bs) : Encodes (a :: b :: text) (UInt8.ofNat (16 * x + y) :: bs)

/-- A digit is an ASCII character, and no sign. -/
theorem digit_range {a : UInt8} {x : Nat} (h : digit a = some x) :
    x < 16 ∧ 48 ≤ a.toNat ∧ a.toNat < 128 := by
  unfold digit at h
  split at h
  · cases h
    omega
  · split at h
    · cases h
      omega
    · split at h
      · cases h
        omega
      · cases h

/-- A byte takes two digits. -/
theorem Encodes.length {text bs : Bytes} (h : Encodes text bs) :
    text.length = 2 * bs.length := by
  induction h with
  | nil => rfl
  | cons ha hb rest ih =>
    simp only [List.length_cons, ih]
    omega

theorem Encodes.head_digit {text bs : Bytes} (h : Encodes text bs) :
    ∀ a ∈ text.head?, (digit a).isSome := by
  cases h with
  | nil => simp
  | cons ha hb rest => simp [ha]

end Hex

/-! ## Section 2: Base64 -/

namespace Base64

/-- The sign that fills up the last group. -/
def PAD : UInt8 := 61

/-- The symbol for six bits: `A-Z`, `a-z`, `0-9`, `+`, `/`. -/
def symbol (v : Nat) : UInt8 :=
  if v < 26 then UInt8.ofNat (65 + v)
  else if v < 52 then UInt8.ofNat (71 + v)
  else if v < 62 then UInt8.ofNat (v - 4)
  else if v = 62 then 43
  else 47

/-- The six bits a symbol stands for. -/
def value (a : UInt8) : Option Nat :=
  if 65 ≤ a.toNat ∧ a.toNat ≤ 90 then some (a.toNat - 65)
  else if 97 ≤ a.toNat ∧ a.toNat ≤ 122 then some (a.toNat - 71)
  else if 48 ≤ a.toNat ∧ a.toNat ≤ 57 then some (a.toNat + 4)
  else if a.toNat = 43 then some 62
  else if a.toNat = 47 then some 63
  else none

/-- The symbols of a byte string, without padding. -/
def encode : Bytes → Bytes
  | [] => []
  | [x] => [symbol (x.toNat / 4), symbol (x.toNat % 4 * 16)]
  | [x, y] =>
    [symbol (x.toNat / 4), symbol (x.toNat % 4 * 16 + y.toNat / 16), symbol (y.toNat % 16 * 4)]
  | x :: y :: z :: rest =>
    symbol (x.toNat / 4) :: symbol (x.toNat % 4 * 16 + y.toNat / 16) ::
      symbol (y.toNat % 16 * 4 + z.toNat / 64) :: symbol (z.toNat % 64) :: encode rest

/-- The number of padding signs that fill up the last group of `n` bytes. -/
def padding (n : Nat) : Nat := (3 - n % 3) % 3

/-- A text is the encoding of a byte string, with as much of its padding as the writer chose. -/
def Encodes (text bs : Bytes) : Prop :=
  ∃ p ≤ padding bs.length, text = encode bs ++ List.replicate p PAD

/-- Two symbols: one byte. -/
def two (a b : UInt8) : Option Bytes := do
  let x ← value a
  let y ← value b
  if y % 16 = 0 then some [UInt8.ofNat (x * 4 + y / 16)] else none

/-- Three symbols: two bytes. -/
def three (a b c : UInt8) : Option Bytes := do
  let x ← value a
  let y ← value b
  let z ← value c
  if z % 4 = 0 then
    some [UInt8.ofNat (x * 4 + y / 16), UInt8.ofNat (y % 16 * 16 + z / 4)]
  else none

/-- Four symbols: three bytes. -/
def four (a b c d : UInt8) : Option Bytes := do
  let x ← value a
  let y ← value b
  let z ← value c
  let w ← value d
  some [UInt8.ofNat (x * 4 + y / 16), UInt8.ofNat (y % 16 * 16 + z / 4),
    UInt8.ofNat (z % 4 * 64 + w)]

/-- The bytes a text stands for; padding is accepted in the last group only, from its third
    symbol on. -/
def decode : Bytes → Option Bytes
  | [] => some []
  | [_] => none
  | [a, b] => two a b
  | [a, b, c] => if c = PAD then two a b else three a b c
  | [a, b, c, d] =>
    if d = PAD then (if c = PAD then two a b else three a b c) else four a b c d
  | a :: b :: c :: d :: e :: rest => do
    let group ← four a b c d
    let bs ← decode (e :: rest)
    some (group ++ bs)

/-! ### Symbols -/

theorem value_symbol : ∀ v < 64, value (symbol v) = some v := by decide

theorem symbol_ne_PAD : ∀ v < 64, symbol v ≠ PAD := by decide

private theorem value_of_code :
    ∀ n < 256, ∀ v ∈ value (UInt8.ofNat n), v < 64 ∧ symbol v = UInt8.ofNat n := by
  decide +kernel

theorem value_eq_some {a : UInt8} {v : Nat} : value a = some v ↔ v < 64 ∧ symbol v = a := by
  constructor
  · intro h
    have := value_of_code a.toNat a.toNat_lt v
    rw [UInt8.ofNat_toNat] at this
    exact this h
  · rintro ⟨hlt, rfl⟩
    exact value_symbol v hlt

/-! ### Groups -/

private theorem toNat_byte {n : Nat} (h : n < 256) : (UInt8.ofNat n).toNat = n :=
  UInt8.toNat_ofNat_of_lt h

theorem two_eq_some {a b : UInt8} {bs : Bytes} :
    two a b = some bs ↔ ∃ x, bs = [x] ∧ [a, b] = encode [x] := by
  simp only [two, Option.bind_eq_bind, Option.bind_eq_some_iff, Option.ite_none_right_eq_some,
    Option.some.injEq, value_eq_some]
  constructor
  · rintro ⟨x, ⟨hx, rfl⟩, y, ⟨hy, rfl⟩, hzero, rfl⟩
    refine ⟨_, rfl, ?_⟩
    rw [encode, toNat_byte (by omega), show (x * 4 + y / 16) / 4 = x by omega,
      show (x * 4 + y / 16) % 4 * 16 = y by omega]
  · rintro ⟨x, rfl, henc⟩
    have hx : x.toNat < 256 := x.toNat_lt
    simp only [encode, List.cons.injEq, and_true] at henc
    refine ⟨_, ⟨by omega, henc.1.symm⟩, _, ⟨by omega, henc.2.symm⟩, by omega, ?_⟩
    rw [show x.toNat / 4 * 4 + x.toNat % 4 * 16 / 16 = x.toNat by omega, UInt8.ofNat_toNat]

theorem three_eq_some {a b c : UInt8} {bs : Bytes} :
    three a b c = some bs ↔ ∃ x y, bs = [x, y] ∧ [a, b, c] = encode [x, y] := by
  simp only [three, Option.bind_eq_bind, Option.bind_eq_some_iff, Option.ite_none_right_eq_some,
    Option.some.injEq, value_eq_some]
  constructor
  · rintro ⟨x, ⟨hx, rfl⟩, y, ⟨hy, rfl⟩, z, ⟨hz, rfl⟩, hzero, rfl⟩
    refine ⟨_, _, rfl, ?_⟩
    rw [encode, toNat_byte (by omega), toNat_byte (by omega),
      show (x * 4 + y / 16) / 4 = x by omega,
      show (x * 4 + y / 16) % 4 * 16 + (y % 16 * 16 + z / 4) / 16 = y by omega,
      show (y % 16 * 16 + z / 4) % 16 * 4 = z by omega]
  · rintro ⟨x, y, rfl, henc⟩
    have hx : x.toNat < 256 := x.toNat_lt
    have hy : y.toNat < 256 := y.toNat_lt
    simp only [encode, List.cons.injEq, and_true] at henc
    refine ⟨_, ⟨by omega, henc.1.symm⟩, _, ⟨by omega, henc.2.1.symm⟩, _,
      ⟨by omega, henc.2.2.symm⟩, by omega, ?_⟩
    rw [show x.toNat / 4 * 4 + (x.toNat % 4 * 16 + y.toNat / 16) / 16 = x.toNat by omega,
      show (x.toNat % 4 * 16 + y.toNat / 16) % 16 * 16 + y.toNat % 16 * 4 / 4 = y.toNat by omega,
      UInt8.ofNat_toNat, UInt8.ofNat_toNat]

theorem four_eq_some {a b c d : UInt8} {bs : Bytes} :
    four a b c d = some bs ↔ ∃ x y z, bs = [x, y, z] ∧ [a, b, c, d] = encode [x, y, z] := by
  simp only [four, Option.bind_eq_bind, Option.bind_eq_some_iff, Option.some.injEq, value_eq_some]
  constructor
  · rintro ⟨x, ⟨hx, rfl⟩, y, ⟨hy, rfl⟩, z, ⟨hz, rfl⟩, w, ⟨hw, rfl⟩, rfl⟩
    refine ⟨_, _, _, rfl, ?_⟩
    rw [encode, toNat_byte (by omega), toNat_byte (by omega), toNat_byte (by omega),
      show (x * 4 + y / 16) / 4 = x by omega,
      show (x * 4 + y / 16) % 4 * 16 + (y % 16 * 16 + z / 4) / 16 = y by omega,
      show (y % 16 * 16 + z / 4) % 16 * 4 + (z % 4 * 64 + w) / 64 = z by omega,
      show (z % 4 * 64 + w) % 64 = w by omega, encode]
  · rintro ⟨x, y, z, rfl, henc⟩
    have hx : x.toNat < 256 := x.toNat_lt
    have hy : y.toNat < 256 := y.toNat_lt
    have hz : z.toNat < 256 := z.toNat_lt
    simp only [encode, List.cons.injEq, and_true] at henc
    refine ⟨_, ⟨by omega, henc.1.symm⟩, _, ⟨by omega, henc.2.1.symm⟩, _,
      ⟨by omega, henc.2.2.1.symm⟩, _, ⟨by omega, henc.2.2.2.symm⟩, ?_⟩
    rw [show x.toNat / 4 * 4 + (x.toNat % 4 * 16 + y.toNat / 16) / 16 = x.toNat by omega,
      show (x.toNat % 4 * 16 + y.toNat / 16) % 16 * 16 + (y.toNat % 16 * 4 + z.toNat / 64) / 4 =
        y.toNat by omega,
      show (y.toNat % 16 * 4 + z.toNat / 64) % 4 * 64 + z.toNat % 64 = z.toNat by omega,
      UInt8.ofNat_toNat, UInt8.ofNat_toNat, UInt8.ofNat_toNat]

/-! ### Whole texts -/

/-- A full group in front of a text, when it is not padded itself. -/
theorem decode_group {a b c d : UInt8} (text : Bytes) (hd : d ≠ PAD) :
    decode (a :: b :: c :: d :: text) =
      (four a b c d).bind fun group => (decode text).map (group ++ ·) := by
  cases text with
  | nil => simp [decode, hd]
  | cons e rest =>
    simp only [decode, Option.bind_eq_bind]
    rcases four a b c d with _ | group
    · rfl
    · rcases decode (e :: rest) with _ | bs <;> rfl

theorem encode_group (x y z : UInt8) (rest : Bytes) :
    encode (x :: y :: z :: rest) = encode [x, y, z] ++ encode rest := by
  simp [encode]

theorem padding_add_three (n : Nat) : padding (n + 3) = padding n := by
  simp [padding]

/-- An encoding, with any part of its padding, is read as what was encoded. -/
theorem decode_encode (bs : Bytes) {p : Nat} (hp : p ≤ padding bs.length) :
    decode (encode bs ++ List.replicate p PAD) = some bs := by
  induction bs using encode.induct with
  | case1 =>
    obtain rfl : p = 0 := by simpa [padding] using hp
    rfl
  | case2 x =>
    have htwo := two_eq_some.2 ⟨x, rfl, rfl⟩
    have hp' : p ≤ 2 := hp
    obtain rfl | rfl | rfl : p = 0 ∨ p = 1 ∨ p = 2 := by omega
    · exact htwo
    · exact htwo
    · exact htwo
  | case3 x y =>
    have hthree := three_eq_some.2 ⟨x, y, rfl, rfl⟩
    have hne : symbol (y.toNat % 16 * 4) ≠ PAD := symbol_ne_PAD _ (by omega)
    have hp' : p ≤ 1 := hp
    obtain rfl | rfl : p = 0 ∨ p = 1 := by omega
    · exact (if_neg hne).trans hthree
    · exact (if_neg hne).trans hthree
  | case4 x y z rest ih =>
    have hfour := four_eq_some.2 ⟨x, y, z, rfl, rfl⟩
    have hne : symbol (z.toNat % 64) ≠ PAD := symbol_ne_PAD _ (by omega)
    rw [List.length_cons, List.length_cons, List.length_cons, padding_add_three] at hp
    refine (decode_group (encode rest ++ List.replicate p PAD) hne).trans ?_
    rw [hfour, ih hp]
    rfl

/-- Whatever is read was encoded. -/
theorem encodes_of_decode {text bs : Bytes} (h : decode text = some bs) : Encodes text bs := by
  induction text using decode.induct generalizing bs with
  | case1 =>
    cases h
    exact ⟨0, Nat.zero_le _, rfl⟩
  | case2 a => cases h
  | case3 a b =>
    obtain ⟨x, rfl, henc⟩ := two_eq_some.1 h
    exact ⟨0, Nat.zero_le _, henc⟩
  | case4 a b =>
    obtain ⟨x, rfl, henc⟩ := two_eq_some.1 ((if_pos rfl).symm.trans h)
    exact ⟨1, by simp [padding], congrArg (· ++ [PAD]) henc⟩
  | case5 a b c hc =>
    obtain ⟨x, y, rfl, henc⟩ := three_eq_some.1 ((if_neg hc).symm.trans h)
    exact ⟨0, Nat.zero_le _, henc⟩
  | case6 a b =>
    obtain ⟨x, rfl, henc⟩ := two_eq_some.1 (((if_pos rfl).trans (if_pos rfl)).symm.trans h)
    exact ⟨2, by simp [padding], congrArg (· ++ [PAD, PAD]) henc⟩
  | case7 a b c hc =>
    obtain ⟨x, y, rfl, henc⟩ := three_eq_some.1 (((if_pos rfl).trans (if_neg hc)).symm.trans h)
    exact ⟨1, by simp [padding], congrArg (· ++ [PAD]) henc⟩
  | case8 a b c d hd =>
    obtain ⟨x, y, z, rfl, henc⟩ := four_eq_some.1 ((if_neg hd).symm.trans h)
    exact ⟨0, Nat.zero_le _, by rw [henc]; simp⟩
  | case9 a b c d e rest ih =>
    simp only [decode, Option.bind_eq_bind, Option.bind_eq_some_iff, Option.some.injEq] at h
    obtain ⟨group, hgroup, tail, htail, rfl⟩ := h
    obtain ⟨x, y, z, rfl, henc⟩ := four_eq_some.1 hgroup
    obtain ⟨p, hp, htext⟩ := ih htail
    refine ⟨p, by simpa [padding_add_three] using hp, ?_⟩
    rw [show [x, y, z] ++ tail = x :: y :: z :: tail from rfl, encode_group, ← henc,
      List.append_assoc, ← htext]
    rfl

/-- **Standard base64.**  A text is accepted exactly if it encodes some bytes, and it is read as
    the bytes it encodes. -/
theorem decode_eq_some {text bs : Bytes} : decode text = some bs ↔ Encodes text bs := by
  constructor
  · exact encodes_of_decode
  · rintro ⟨p, hp, rfl⟩
    exact decode_encode bs hp

theorem length_encode (bs : Bytes) : (encode bs).length = (4 * bs.length + 2) / 3 := by
  induction bs using encode.induct with
  | case1 => rfl
  | case2 x => simp [encode]
  | case3 x y => simp [encode]
  | case4 x y z rest ih =>
    simp only [encode, List.length_cons, ih]
    omega

end Base64
