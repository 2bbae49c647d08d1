import PqBoringtun.Framework.Str

/-! # Keys in configuration texts

    `KeyBytes::from_str` reads a key of 32 bytes from a hexadecimal or base64
    text; the configuration interface and the foreign function interface
    read every key through it.

    What it accepts is compared with the encodings of 32 bytes in
    `KeyBytes.from_str_exact_iff`.  The two agree, and nothing panics, exactly
    on the texts that meet `KeyBytes.Readable`:

    - a text of 64 bytes consists of digits, or one of its pairs is refused
      and lies on character boundaries, with every pair before it taken;
    - a text of 43 or 44 bytes is base64, of any bytes.

    On the others a plus sign is taken for a digit, a slice cuts a character,
    or text that is no base64 is taken for the zero key.
-/

namespace PqBoringtun

/-! ## Section 1: Model -/

/-- `struct KeyBytes(pub [u8; 32])` -/
@[ext] structure KeyBytes where
  bytes : Bytes
  size : bytes.length = 32

instance : DecidableEq KeyBytes := fun a b =>
  decidable_of_iff (a.bytes = b.bytes) KeyBytes.ext_iff.symm

namespace KeyBytes

/-- `[0u8; 32]` -/
def zero : KeyBytes := ⟨List.replicate 32 0, by simp⟩

/-- `internal[i] = b` -/
def set (internal : KeyBytes) (i : Nat) (b : UInt8) : KeyBytes :=
  ⟨internal.bytes.set i b, by rw [List.length_set, internal.size]⟩

/-- The loop that reads one pair of hexadecimal digits for each index. -/
def from_hex (s : Bytes) (internal : KeyBytes) : List Nat → Attempt String KeyBytes
  | [] => pure internal
  | i :: rest => do
    let digits ← (Str.slice s (i * 2) (i * 2 + 1 + 1) : Outcome Bytes)
    match Str.from_str_radix 255 16 digits with
    | none => throw "Illegal character in key"
    | some b => from_hex s (internal.set i (UInt8.ofNat b)) rest

/-- `KeyBytes::from_str` -/
def from_str (s : String) : Attempt String KeyBytes :=
  let internal := zero
  let bytes := Str.bytes s
  if bytes.length = 64 then
    -- Try to parse as hex
    from_hex bytes internal (List.range 32)
  else if bytes.length = 43 ∨ bytes.length = 44 then
    -- Try to parse as base64
    match Base64.decode bytes with
    | some decoded_key =>
      if h : decoded_key.length = 32 then pure ⟨decoded_key, h⟩
      else throw "Illegal character in key"
    -- a text that is no base64 leaves the array as it was
    | none => pure internal
  else throw "Illegal key size"

end KeyBytes

/-! ## Section 2: Pairs of digits -/

namespace KeyBytes

/-- The array with bytes written one after the other from an index on. -/
def write (internal : KeyBytes) (i : Nat) : Bytes → KeyBytes
  | [] => internal
  | b :: bs => (internal.set i b).write (i + 1) bs

/-- The loop on the part of the text that it has not read yet. -/
def readPairs (internal : KeyBytes) (i : Nat) : Bytes → Attempt String KeyBytes
  | a :: b :: text =>
    if Str.starts text then
      match Str.pair a b with
      | none => throw "Illegal character in key"
      | some x => (internal.set i (UInt8.ofNat x)).readPairs (i + 1) text
    else Attempt.panic "byte index is not a char boundary"
  | _ => pure internal

/-- A pair of bytes is refused, on character boundaries, and every pair before it is taken. -/
inductive Refused : Bytes → Prop where
  | here {a b : UInt8} {text : Bytes} (hstarts : Str.starts text) (hpair : Str.pair a b = none) :
      Refused (a :: b :: text)
  | later {a b : UInt8} {text : Bytes} {x : Nat} (hstarts : Str.starts text)
      (hpair : Str.pair a b = some x) (rest : Refused text) : Refused (a :: b :: text)

/-- A pair of bytes ends inside of a character, and every pair before it is taken. -/
inductive Cut : Bytes → Prop where
  | here {a b : UInt8} {text : Bytes} (hcut : Str.starts text = false) : Cut (a :: b :: text)
  | later {a b : UInt8} {text : Bytes} {x : Nat} (hstarts : Str.starts text)
      (hpair : Str.pair a b = some x) (rest : Cut text) : Cut (a :: b :: text)

theorem write_bytes (internal : KeyBytes) (i : Nat) (bs : Bytes) (h : i + bs.length ≤ 32) :
    (internal.write i bs).bytes =
      internal.bytes.take i ++ bs ++ internal.bytes.drop (i + bs.length) := by
  induction bs generalizing internal i with
  | nil => simp [write]
  | cons b bs ih =>
    rw [List.length_cons] at h
    have hi : i < internal.bytes.length := by
      rw [internal.size]
      omega
    rw [write, ih _ _ (by omega)]
    simp only [set, List.length_cons]
    rw [List.take_add_one, List.take_set_of_le (Nat.le_refl i), List.getElem?_set_self hi,
      List.drop_set_of_lt (by omega)]
    simp [Nat.add_comm, Nat.add_left_comm]

/-- A key written over the whole array. -/
theorem zero_write (k : KeyBytes) : zero.write 0 k.bytes = k := by
  have h := write_bytes zero 0 k.bytes (by rw [k.size])
  have hdrop : zero.bytes.drop (0 + k.bytes.length) = [] := by
    rw [k.size]
    rfl
  rw [hdrop] at h
  apply KeyBytes.ext
  simpa using h

/-- The loop reads the rest of the text. -/
theorem from_hex_eq (internal : KeyBytes) (front text : Bytes) {i n : Nat}
    (hfront : front.length = i * 2) (htext : text.length = n * 2)
    (hstart : Str.is_char_boundary (front ++ text) front.length) :
    from_hex (front ++ text) internal (List.range' i n) = internal.readPairs i text := by
  induction n generalizing internal front text i with
  | zero =>
    obtain rfl : text = [] := by simpa using htext
    rfl
  | succ n ih =>
    obtain ⟨a, b, text, rfl⟩ : ∃ a b text', text = a :: b :: text' := by
      rcases text with _ | ⟨a, _ | ⟨b, text'⟩⟩
      · simp at htext
      · simp at htext
        omega
      · exact ⟨a, b, text', rfl⟩
    have hslice := Str.slice_pair hstart
    rw [hfront] at hslice
    rw [List.range'_succ, from_hex, hslice, readPairs]
    by_cases hstarts : Str.starts text
    · -- the next pair starts where this one ended
      have hnext : Str.is_char_boundary ((front ++ [a, b]) ++ text) (front ++ [a, b]).length := by
        rw [Str.is_char_boundary_append _ (by simp)]
        exact hstarts
      rw [if_pos hstarts, if_pos hstarts]
      show (match Str.from_str_radix 255 16 [a, b] with
        | none => throw "Illegal character in key"
        | some b' => from_hex _ (internal.set i (UInt8.ofNat b')) (List.range' (i + 1) n)) = _
      rw [Str.from_str_radix_pair]
      cases Str.pair a b with
      | none => rfl
      | some x =>
        have hrest := ih (internal.set i (UInt8.ofNat x)) (front ++ [a, b]) text (i := i + 1)
          (by simp; omega) (by simp at htext; omega) hnext
        simpa using hrest
    · rw [if_neg hstarts, if_neg hstarts]
      rfl

/-- A text of digits is read as the bytes it encodes. -/
theorem readPairs_of_encodes {text bs : Bytes} (h : Hex.Encodes text bs) (internal : KeyBytes)
    (i : Nat) : internal.readPairs i text = pure (internal.write i bs) := by
  induction h generalizing internal i with
  | nil => rfl
  | @cons a b x y text bs ha hb rest ih =>
    have hstarts : Str.starts text = true := by
      cases rest with
      | nil => rfl
      | cons ha' hb' rest' =>
        have := (Hex.digit_range ha').2
        simp [Str.starts, Str.continues]
        omega
    have hpair : Str.pair a b = some (16 * x + y) := by
      have hsign : a ≠ 43 := by
        rintro rfl
        cases ha
      simp [Str.pair, hsign, ha, hb]
    simp [readPairs, hstarts, hpair, ih, write]

theorem readPairs_of_refused {text : Bytes} (h : Refused text) (internal : KeyBytes) (i : Nat) :
    internal.readPairs i text = throw "Illegal character in key" := by
  induction h generalizing internal i with
  | here hstarts hpair => simp [readPairs, hstarts, hpair]
  | later hstarts hpair rest ih => simp [readPairs, hstarts, hpair, ih]

theorem refused_of_readPairs {internal : KeyBytes} {i : Nat} {text : Bytes} {e : String}
    (h : (internal.readPairs i text).run = .ok (.error e)) : Refused text := by
  induction internal, i, text using readPairs.induct with
  | case1 internal i a b text hstarts hpair => exact .here hstarts hpair
  | case2 internal i a b text hstarts x hpair ih =>
    simp only [readPairs, hstarts, hpair] at h
    exact .later hstarts hpair (ih h)
  | case3 internal i a b text hstarts =>
    simp [readPairs, hstarts] at h
  | case4 text internal i hshort =>
    rw [readPairs.eq_2 _ _ _ hshort] at h
    cases h

theorem readPairs_panics_iff (internal : KeyBytes) (i : Nat) (text : Bytes) :
    (∃ msg, (internal.readPairs i text).run = .panic msg) ↔ Cut text := by
  induction internal, i, text using readPairs.induct with
  | case1 internal i a b text hstarts hpair =>
    constructor
    · rintro ⟨msg, h⟩
      simp [readPairs, hstarts, hpair] at h
    · intro h
      cases h with
      | here hcut => simp [hstarts] at hcut
      | later _ hpair' _ => simp [hpair] at hpair'
  | case2 internal i a b text hstarts x hpair ih =>
    simp only [readPairs, hstarts, hpair, ↓reduceIte]
    rw [ih]
    constructor
    · exact .later hstarts hpair
    · intro h
      cases h with
      | here hcut => simp [hstarts] at hcut
      | later _ _ rest => exact rest
  | case3 internal i a b text hstarts =>
    have hcut : Str.starts text = false := by simpa using hstarts
    exact ⟨fun _ => .here hcut, fun _ => ⟨_, by simp [readPairs, hcut]; rfl⟩⟩
  | case4 text internal i hshort =>
    rw [readPairs.eq_2 _ _ _ hshort]
    constructor
    · rintro ⟨msg, h⟩
      cases h
    · intro h
      cases h with
      | here _ => exact (hshort _ _ _ rfl).elim
      | later _ _ _ => exact (hshort _ _ _ rfl).elim

/-! ## Section 3: Accepted texts -/

/-- A text is an encoding of the key: hexadecimal digits, or base64 with or without its padding
    sign. -/
def Encoding (s : String) (k : KeyBytes) : Prop :=
  Hex.Encodes (Str.bytes s) k.bytes ∨ Base64.Encodes (Str.bytes s) k.bytes

/-- The text is parsed without a panic, and into a key exactly if it is an encoding of this key. -/
def Exact (s : String) : Prop :=
  (∃ res, (from_str s).run = .ok res) ∧ ∀ k, (from_str s).run = .ok (.ok k) ↔ Encoding s k

/-- A text of 64 bytes consists of digits, or one of its pairs is refused; a text of 43 or 44
    bytes is the base64 encoding of some bytes, of any number of them. -/
structure Readable (s : String) : Prop where
  hex : (Str.bytes s).length = 64 →
    (∃ bs, Hex.Encodes (Str.bytes s) bs) ∨ Refused (Str.bytes s)
  base64 : (Str.bytes s).length = 43 ∨ (Str.bytes s).length = 44 →
    ∃ bs, Base64.Encodes (Str.bytes s) bs

theorem length_of_hex {text : Bytes} {k : KeyBytes} (h : Hex.Encodes text k.bytes) :
    text.length = 64 := by
  rw [h.length, k.size]

theorem length_of_base64 {text : Bytes} {k : KeyBytes} (h : Base64.Encodes text k.bytes) :
    text.length = 43 ∨ text.length = 44 := by
  obtain ⟨p, hp, rfl⟩ := h
  rw [k.size] at hp
  have hp' : p ≤ 1 := hp
  rw [List.length_append, List.length_replicate, Base64.length_encode, k.size]
  omega

theorem from_str_hex {s : String} (hlen : (Str.bytes s).length = 64) :
    from_str s = zero.readPairs 0 (Str.bytes s) := by
  have hloop := from_hex_eq zero [] (Str.bytes s) (i := 0) (n := 32) rfl hlen rfl
  rw [from_str, if_pos hlen]
  exact hloop

theorem from_str_base64 {s : String}
    (hlen : (Str.bytes s).length = 43 ∨ (Str.bytes s).length = 44) :
    from_str s =
      match Base64.decode (Str.bytes s) with
      | some decoded_key =>
        if h : decoded_key.length = 32 then pure ⟨decoded_key, h⟩
        else throw "Illegal character in key"
      | none => pure zero := by
  rw [from_str, if_neg (by omega), if_pos hlen]

/-- The text has the length of a hexadecimal key, and reading it cuts a character. -/
def CutsCharacter (s : String) : Prop := (Str.bytes s).length = 64 ∧ Cut (Str.bytes s)

/-- **Reading a key panics on these texts.** -/
theorem from_str_panics_iff (s : String) :
    (∃ msg, (from_str s).run = .panic msg) ↔ CutsCharacter s := by
  by_cases hhex : (Str.bytes s).length = 64
  · rw [from_str_hex hhex, readPairs_panics_iff]
    exact ⟨fun h => ⟨hhex, h⟩, fun h => h.2⟩
  · constructor
    · rintro ⟨msg, h⟩
      by_cases hbase64 : (Str.bytes s).length = 43 ∨ (Str.bytes s).length = 44
      · rw [from_str_base64 hbase64] at h
        split at h
        · split at h <;> cases h
        · cases h
      · rw [from_str, if_neg hhex, if_neg hbase64] at h
        cases h
    · intro h
      exact absurd h.1 hhex

theorem from_str_size {s : String} (hhex : (Str.bytes s).length ≠ 64)
    (hbase64 : ¬ ((Str.bytes s).length = 43 ∨ (Str.bytes s).length = 44)) :
    from_str s = throw "Illegal key size" := by
  rw [from_str, if_neg hhex, if_neg hbase64]

/-- **A text that panics** has the wrong size with one character more or less. -/
theorem from_str_panic_push {s : String} {c : Char} {msg : String} :
    ((from_str s).run = .panic msg →
      (from_str (s ++ String.singleton c)).run = .ok (.error "Illegal key size")) ∧
    ((from_str (s ++ String.singleton c)).run = .panic msg →
      (from_str s).run = .ok (.error "Illegal key size")) := by
  obtain ⟨hless, hmore⟩ := Str.bytes_push_length s c
  constructor
  · intro h
    have hlen := ((from_str_panics_iff _).mp ⟨msg, h⟩).1
    rw [from_str_size (by omega) (by omega)]
    rfl
  · intro h
    have hlen := ((from_str_panics_iff _).mp ⟨msg, h⟩).1
    rw [from_str_size (by omega) (by omega)]
    rfl

/-- Hexadecimal: digits are read, and a refused pair is an error. -/
theorem exact_iff_of_hex {s : String} (hlen : (Str.bytes s).length = 64) :
    Exact s ↔ (∃ bs, Hex.Encodes (Str.bytes s) bs) ∨ Refused (Str.bytes s) := by
  have hencoding : ∀ k, Encoding s k ↔ Hex.Encodes (Str.bytes s) k.bytes := by
    intro k
    constructor
    · rintro (h | h)
      · exact h
      · have := length_of_base64 h
        omega
    · exact Or.inl
  have hread : ∀ k : KeyBytes, Hex.Encodes (Str.bytes s) k.bytes → from_str s = pure k := by
    intro k h
    rw [from_str_hex hlen, readPairs_of_encodes h, zero_write]
  constructor
  · rintro ⟨⟨res, hres⟩, hexact⟩
    cases res with
    | error e =>
      rw [from_str_hex hlen] at hres
      exact Or.inr (refused_of_readPairs hres)
    | ok k => exact Or.inl ⟨_, (hencoding k).1 ((hexact k).1 hres)⟩
  · rintro (⟨bs, hbs⟩ | hrefused)
    · have hsize : bs.length = 32 := by
        have := hbs.length
        omega
      have hok := hread ⟨bs, hsize⟩ hbs
      refine ⟨⟨_, by rw [hok]; rfl⟩, fun k => ?_⟩
      rw [hencoding, hok]
      constructor
      · intro h
        cases h
        exact hbs
      · intro h
        rw [← hok, hread k h]
        rfl
    · have herr : from_str s = throw "Illegal character in key" := by
        rw [from_str_hex hlen, readPairs_of_refused hrefused]
      refine ⟨⟨_, by rw [herr]; rfl⟩, fun k => ?_⟩
      rw [hencoding]
      constructor
      · intro h
        rw [herr] at h
        cases h
      · intro h
        rw [hread k h]
        rfl

/-- Base64: what decodes is read or has another length; what does not decode is taken for the
    zero key. -/
theorem exact_iff_of_base64 {s : String}
    (hlen : (Str.bytes s).length = 43 ∨ (Str.bytes s).length = 44) :
    Exact s ↔ ∃ bs, Base64.Encodes (Str.bytes s) bs := by
  have hencoding : ∀ k, Encoding s k ↔ Base64.decode (Str.bytes s) = some k.bytes := by
    intro k
    rw [Base64.decode_eq_some]
    constructor
    · rintro (h | h)
      · have := length_of_hex h
        omega
      · exact h
    · exact Or.inr
  simp only [Exact, hencoding, ← Base64.decode_eq_some, from_str_base64 hlen]
  cases hdecode : Base64.decode (Str.bytes s) with
  | none => simp
  | some bs =>
    by_cases hsize : bs.length = 32
    · simp [hsize, KeyBytes.ext_iff]
    · have hother : ∀ k : KeyBytes, bs ≠ k.bytes := by
        rintro k rfl
        exact hsize k.size
      simp [hsize, hother]

/-- A text of any other length is an error. -/
theorem exact_of_length {s : String} (hhex : (Str.bytes s).length ≠ 64)
    (hbase64 : ¬ ((Str.bytes s).length = 43 ∨ (Str.bytes s).length = 44)) : Exact s := by
  have herr : from_str s = throw "Illegal key size" := by
    rw [from_str, if_neg hhex, if_neg hbase64]
  refine ⟨⟨_, by rw [herr]; rfl⟩, fun k => ?_⟩
  rw [herr]
  constructor
  · intro h
    cases h
  · rintro (h | h)
    · exact absurd (length_of_hex h) hhex
    · exact absurd (length_of_base64 h) hbase64

/-- **Which texts are parsed as they should be.** -/
theorem from_str_exact_iff (s : String) : Exact s ↔ Readable s := by
  by_cases hhex : (Str.bytes s).length = 64
  · rw [exact_iff_of_hex hhex]
    constructor
    · intro h
      exact ⟨fun _ => h, fun hlen => by omega⟩
    · intro h
      exact h.hex hhex
  · by_cases hbase64 : (Str.bytes s).length = 43 ∨ (Str.bytes s).length = 44
    · rw [exact_iff_of_base64 hbase64]
      constructor
      · intro h
        exact ⟨fun hlen => absurd hlen hhex, fun _ => h⟩
      · intro h
        exact h.base64 hbase64
    · constructor
      · intro _
        exact ⟨fun hlen => absurd hlen hhex, fun hlen => absurd hlen hbase64⟩
      · intro _
        exact exact_of_length hhex hbase64

/-- **Texts that are parsed as keys although they are none, and one that panics.**  A text of 43
    exclamation marks becomes the zero key, plus signs are taken for digits, and a character that
    is cut by a pair of bytes ends the call in a panic. -/
theorem from_str_not_exact :
    ((from_str "!!!!!!!!!!!!!!!!!!!!!!!!!!!!!!!!!!!!!!!!!!!").run = .ok (.ok zero) ∧
      ¬ Encoding "!!!!!!!!!!!!!!!!!!!!!!!!!!!!!!!!!!!!!!!!!!!" zero) ∧
    (∃ k, (from_str
        "+f+f+f+f+f+f+f+f+f+f+f+f+f+f+f+f+f+f+f+f+f+f+f+f+f+f+f+f+f+f+f+f").run = .ok (.ok k) ∧
      ¬ Encoding "+f+f+f+f+f+f+f+f+f+f+f+f+f+f+f+f+f+f+f+f+f+f+f+f+f+f+f+f+f+f+f+f" k) ∧
    (from_str "aé0000000000000000000000000000000000000000000000000000000000000").run =
      .panic "byte index is not a char boundary" := by
  refine ⟨⟨by decide, ?_⟩, ⟨⟨List.replicate 32 15, by decide⟩, by decide, ?_⟩, by decide⟩
  · rintro (h | h)
    · exact absurd (length_of_hex h) (by decide)
    · exact absurd (Base64.decode_eq_some.2 h) (by decide)
  · rintro (h | h)
    · exact absurd (h.head_digit 43 (by decide)) (by decide)
    · exact absurd (length_of_base64 h) (by decide)

end KeyBytes

end PqBoringtun
