import PqBoringtun.Framework.Outcome
import PqBoringtun.Framework.TextEncoding

/-! # Text at byte offsets

    Strings as a language that stores them in UTF-8 and indexes them by bytes
    treats them: a slice whose ends do not fall between two characters
    panics.  With them the grammar of the standard parser for unsigned
    integers, which accepts one leading plus sign, and what is needed to read
    a stream line by line and to take a line apart.
-/

namespace Str

/-- The bytes of a string. -/
def bytes (s : String) : Bytes := s.toByteArray.data.toList

/-- A byte inside of a character, behind its first one. -/
def continues (b : UInt8) : Bool := 128 ≤ b.toNat ∧ b.toNat < 192

/-- `s.is_char_boundary(index)` -/
def is_char_boundary (s : Bytes) (index : Nat) : Bool :=
  index = 0 ||
    match s[index]? with
    | none => index = s.length
    | some b => !continues b

/-- `&s[lo..hi]` -/
def slice (s : Bytes) (lo hi : Nat) : Outcome Bytes :=
  if lo ≤ hi ∧ is_char_boundary s lo ∧ is_char_boundary s hi then .ok (Bytes.slice s lo hi)
  else .panic "byte index is not a char boundary"

/-- No character is cut in front of this text. -/
def starts (text : Bytes) : Bool :=
  match text with
  | [] => true
  | b :: _ => !continues b

theorem is_char_boundary_append {front : Bytes} (text : Bytes) (hfront : front ≠ []) :
    is_char_boundary (front ++ text) front.length = starts text := by
  have hlen : front.length ≠ 0 := by simpa using hfront
  unfold is_char_boundary starts
  rw [List.getElem?_append_right (Nat.le_refl _), Nat.sub_self]
  cases text with
  | nil => simp
  | cons b rest => simp [hlen]

/-- The slice of the next two bytes, when the one before it ended between two characters. -/
theorem slice_pair {front : Bytes} {a b : UInt8} {text : Bytes}
    (hstart : is_char_boundary (front ++ a :: b :: text) front.length) :
    slice (front ++ a :: b :: text) front.length (front.length + 2) =
      if starts text then .ok [a, b] else .panic "byte index is not a char boundary" := by
  have hend : is_char_boundary (front ++ a :: b :: text) (front.length + 2) = starts text := by
    have := is_char_boundary_append text (show front ++ [a, b] ≠ [] by simp)
    simpa using this
  have hpair : Bytes.slice (front ++ a :: b :: text) front.length (front.length + 2) = [a, b] := by
    simp [Bytes.slice]
  rw [slice, hstart, hend, hpair]
  simp

/-! ## Unsigned integers -/

/-- `c.to_digit(radix)`, for an ASCII character. -/
def to_digit (radix : Nat) (c : UInt8) : Option Nat :=
  let digit :=
    if 48 ≤ c.toNat ∧ c.toNat ≤ 57 then some (c.toNat - 48)
    else if 97 ≤ c.toNat ∧ c.toNat ≤ 122 then some (c.toNat - 87)
    else if 65 ≤ c.toNat ∧ c.toNat ≤ 90 then some (c.toNat - 55)
    else none
  digit.filter (· < radix)

/-- Digits behind a number already read, as long as the result stays within the type. -/
def digits (max radix : Nat) (result : Nat) : Bytes → Option Nat
  | [] => some result
  | c :: rest =>
    match to_digit radix c with
    | none => none
    | some x =>
      if result * radix + x ≤ max then digits max radix (result * radix + x) rest else none

/-- `from_str_radix(src, radix)`, for the unsigned type with the given maximum. -/
def from_str_radix (max radix : Nat) (src : Bytes) : Option Nat :=
  match src with
  | [] => none
  | [c] => if c = 43 ∨ c = 45 then none else digits max radix 0 [c]
  | c :: rest => if c = 43 then digits max radix 0 rest else digits max radix 0 (c :: rest)

private theorem to_digit_hex_code :
    ∀ n < 256, to_digit 16 (UInt8.ofNat n) = Hex.digit (UInt8.ofNat n) := by
  decide +kernel

theorem to_digit_hex (c : UInt8) : to_digit 16 c = Hex.digit c := by
  have := to_digit_hex_code c.toNat c.toNat_lt
  rwa [UInt8.ofNat_toNat] at this

/-- Two characters as a hexadecimal number: two digits, or a plus sign and one digit. -/
def pair (a b : UInt8) : Option Nat :=
  if a = 43 then Hex.digit b
  else (Hex.digit a).bind fun x => (Hex.digit b).map fun y => 16 * x + y

theorem from_str_radix_pair (a b : UInt8) : from_str_radix 255 16 [a, b] = pair a b := by
  unfold from_str_radix pair
  simp only [digits, to_digit_hex]
  split
  · cases hb : Hex.digit b with
    | none => rfl
    | some y =>
      have hy := (Hex.digit_range hb).1
      have hfits : y ≤ 255 := by omega
      simp [hfits]
  · cases ha : Hex.digit a with
    | none => rfl
    | some x =>
      have hx := (Hex.digit_range ha).1
      cases hb : Hex.digit b with
      | none => simp
      | some y =>
        have hy := (Hex.digit_range hb).1
        have hfits : x ≤ 255 := by omega
        have hfits' : x * 16 + y ≤ 255 := by omega
        simp [hfits, hfits', Nat.mul_comm]

/-- `s.parse()`, for the unsigned type with the given maximum. -/
def parse_unsigned (max : Nat) (s : String) : Option Nat := from_str_radix max 10 (bytes s)

/-- `s.parse::<bool>()` -/
def parse_bool (s : String) : Option Bool :=
  if s = "true" then some true
  else if s = "false" then some false
  else none

/-! ## Lines and their parts -/

/-- `str::from_utf8` -/
def from_utf8 (v : Bytes) : Option String := String.fromUTF8? ⟨v.toArray⟩

/-- The lines of a stream, each with its newline, which may be missing behind the last one. -/
def lines : Bytes → List Bytes
  | [] => []
  | b :: rest =>
    if b = 10 then [b] :: lines rest
    else
      match lines rest with
      | [] => [[b]]
      | line :: more => (b :: line) :: more

/-- A line with its newline. -/
def terminated (line : Bytes) : Bool := line.getLast? = some 10

/-- `s.pop()`, whatever the last character is. -/
def pop (s : String) : String := String.ofList s.toList.dropLast

/-- `s.split(c)` -/
def split (c : Char) (s : String) : List String := (s.toList.splitOn c).map String.ofList

/-- `s.splitn(2, c)` -/
def splitn_two (c : Char) (s : String) : List String :=
  match s.toList.dropWhile (· ≠ c) with
  | [] => [s]
  | _ :: rest => [String.ofList (s.toList.takeWhile (· ≠ c)), String.ofList rest]

theorem bytes_append (s t : String) : bytes (s ++ t) = bytes s ++ bytes t := by
  simp [bytes]

theorem from_utf8_bytes (s : String) : from_utf8 (bytes s) = some s := by
  have hdata : (⟨(bytes s).toArray⟩ : ByteArray) = s.toByteArray := by simp [bytes]
  rw [from_utf8, hdata, String.fromUTF8?, dif_pos s.isValidUTF8]
  rfl

/-- The first line of a stream. -/
theorem lines_newline {line : Bytes} (rest : Bytes) (hline : 10 ∉ line) :
    lines (line ++ 10 :: rest) = (line ++ [10]) :: lines rest := by
  induction line with
  | nil => simp [lines]
  | cons b line ih =>
    have hb : b ≠ 10 := fun h => hline (h ▸ List.mem_cons_self)
    have hrest : 10 ∉ line := fun h => hline (List.mem_cons_of_mem _ h)
    rw [List.cons_append, lines, if_neg hb, ih hrest]
    rfl

/-- The lines of a stream that was put together from lines. -/
theorem lines_flatMap {texts : List String} (htexts : ∀ s ∈ texts, 10 ∉ bytes s) :
    (lines (texts.flatMap fun s => bytes (s ++ "\n"))).map from_utf8 =
      texts.map fun s => some (s ++ "\n") := by
  induction texts with
  | nil => rfl
  | cons s texts ih =>
    have hline : bytes (s ++ "\n") = bytes s ++ [10] := bytes_append s "\n"
    rw [List.flatMap_cons, hline, List.append_assoc, List.singleton_append,
      lines_newline _ (htexts s List.mem_cons_self), List.map_cons, List.map_cons, ← hline,
      from_utf8_bytes, ih fun s' hs' => htexts s' (List.mem_cons_of_mem _ hs')]

theorem pop_newline (s : String) : pop (s ++ "\n") = s := by
  have hlist : (s ++ "\n").toList = s.toList ++ ['\n'] := by simp
  rw [pop, hlist, List.dropLast_concat, String.ofList_toList]

/-- **A newline behind a stream that does not end in one** ends its last line. -/
theorem lines_open {s : Bytes} (hne : s ≠ []) (hopen : s.getLast? ≠ some 10) :
    ∃ front last, last ≠ [] ∧ lines s = front ++ [last] ∧
      lines (s ++ [10]) = front ++ [last ++ [10]] := by
  induction s with
  | nil => exact absurd rfl hne
  | cons b rest ih =>
    cases rest with
    | nil =>
      have hb : b ≠ 10 := by simpa using hopen
      exact ⟨[], [b], by simp, by simp [lines, hb], by simp [lines, hb]⟩
    | cons b' rest =>
      obtain ⟨front, last, hlast, hlines, hlines'⟩ := ih (by simp) (by simpa using hopen)
      rw [List.cons_append, lines.eq_2, lines.eq_2 b, hlines, hlines']
      by_cases hb : b = 10
      · exact ⟨[b] :: front, last, hlast, by simp [hb], by simp [hb]⟩
      · rw [if_neg hb, if_neg hb]
        cases front with
        | nil => exact ⟨[], b :: last, by simp, rfl, rfl⟩
        | cons line front => exact ⟨(b :: line) :: front, last, hlast, rfl, rfl⟩

theorem lines_single {line : Bytes} (hne : line ≠ []) (hline : 10 ∉ line) :
    lines line = [line] := by
  have hopen : line.getLast? ≠ some 10 := fun hlast => hline (List.mem_of_getLast? hlast)
  obtain ⟨front, last, _, hlines, hlines'⟩ := lines_open hne hopen
  rw [lines_newline [] hline] at hlines'
  obtain ⟨rfl, hlast⟩ := List.append_inj' (show [] ++ [line ++ [10]] = front ++
    [last ++ [10]] from hlines') rfl
  rw [hlines, List.append_cancel_right (List.cons.inj hlast).1, List.nil_append]

/-- A text without its last character, and that character. -/
theorem pop_concat {s : String} (h : s ≠ "") : ∃ c, s = pop s ++ String.singleton c := by
  have hlist : s.toList ≠ [] := fun hnil => h (String.toList_inj.mp (by simpa using hnil))
  refine ⟨s.toList.getLast hlist, String.toList_inj.mp ?_⟩
  simp [pop, List.dropLast_append_getLast]

/-- The last byte of a character that is not ASCII continues it. -/
theorem getLast?_utf8EncodeChar {c : Char} (h : (String.utf8EncodeChar c).getLast? = some 10) :
    c = '\n' := by
  have hfar : ∀ n : Nat, UInt8.ofNat (n % 64 + 128) ≠ 10 := by
    intro n heq
    have hval := congrArg UInt8.toNat heq
    rw [UInt8.toNat_ofNat'] at hval
    simp at hval
    omega
  unfold String.utf8EncodeChar at h
  by_cases h₁ : c.val.toNat ≤ 127
  · simp only [h₁, if_true, List.getLast?_singleton, Option.some.injEq] at h
    have hval : c.val.toNat % 256 = 10 := by simpa using congrArg UInt8.toNat h
    exact Char.ext (UInt32.toNat_inj.mp (show c.val.toNat = 10 by omega))
  · by_cases h₂ : c.val.toNat ≤ 2047
    · simp only [h₁, h₂, if_true, if_false] at h
      exact absurd (Option.some.inj h) (hfar _)
    · by_cases h₃ : c.val.toNat ≤ 65535
      · simp only [h₁, h₂, h₃, if_true, if_false] at h
        exact absurd (Option.some.inj h) (hfar _)
      · simp only [h₁, h₂, h₃, if_false] at h
        exact absurd (Option.some.inj h) (hfar _)

theorem from_utf8_eq_some {v : Bytes} {s : String} : from_utf8 v = some s ↔ v = bytes s := by
  constructor
  · intro h
    unfold from_utf8 String.fromUTF8? at h
    by_cases hvalid : (⟨v.toArray⟩ : ByteArray).IsValidUTF8
    · rw [dif_pos hvalid] at h
      cases h
      rfl
    · rw [dif_neg hvalid] at h
      cases h
  · rintro rfl
    exact from_utf8_bytes s

theorem bytes_singleton (c : Char) : bytes (String.singleton c) = String.utf8EncodeChar c := by
  simp [bytes, List.utf8Encode]

/-- A newline behind a text is a character of its own. -/
theorem from_utf8_newline (v : Bytes) : from_utf8 (v ++ [10]) = (from_utf8 v).map (· ++ "\n") := by
  have hnewline : bytes "\n" = [10] := by decide
  cases hv : from_utf8 v with
  | some s =>
    cases from_utf8_eq_some.mp hv
    rw [← hnewline, ← bytes_append, from_utf8_bytes]
    rfl
  | none =>
    cases ht : from_utf8 (v ++ [10]) with
    | none => rfl
    | some t =>
      have hbytes := from_utf8_eq_some.mp ht
      have hne : t ≠ "" := by
        rintro rfl
        simp [bytes] at hbytes
      obtain ⟨c, hc⟩ := pop_concat hne
      rw [hc, bytes_append, bytes_singleton] at hbytes
      have hchar : String.utf8EncodeChar c ≠ [] := by
        intro hnil
        have hsize := String.length_utf8EncodeChar c
        rw [hnil] at hsize
        exact Nat.ne_of_lt c.utf8Size_pos hsize
      have hlast : (String.utf8EncodeChar c).getLast? = some 10 := by
        rw [← List.getLast?_append_of_ne_nil (bytes (pop t)) hchar, ← hbytes]
        simp
      cases getLast?_utf8EncodeChar hlast
      have hv' : v = bytes (pop t) := List.append_cancel_right hbytes
      rw [from_utf8_eq_some.mpr hv'] at hv
      cases hv

private theorem toList_join (c : Char) (key val : String) :
    (key ++ String.singleton c ++ val).toList = key.toList ++ c :: val.toList := by
  simp

/-- A key and a value are taken apart at the first separator. -/
theorem splitn_two_append {c : Char} {key : String} (hkey : c ∉ key.toList) (val : String) :
    splitn_two c (key ++ String.singleton c ++ val) = [key, val] := by
  have hfront : ∀ x ∈ key.toList, decide (x ≠ c) = true := by
    intro x hx
    exact decide_eq_true fun heq => hkey (heq ▸ hx)
  have hrest : (key.toList ++ c :: val.toList).dropWhile (· ≠ c) = c :: val.toList := by
    rw [List.dropWhile_append_of_pos hfront]
    simp
  rw [splitn_two, toList_join, hrest, List.takeWhile_append_of_pos hfront]
  simp

private theorem splitOn_append_cons {c : Char} {front : List Char} (hfront : c ∉ front)
    (rest : List Char) : (front ++ c :: rest).splitOn c = front :: rest.splitOn c := by
  have hkeep : ∀ x ∈ front, (x == c) = false := by
    intro x hx
    exact beq_eq_false_iff_ne.mpr fun heq => hfront (heq ▸ hx)
  exact List.splitOnP_append_cons_of_forall_mem hkeep c (beq_self_eq_true c) rest

theorem split_append {c : Char} {key val : String} (hkey : c ∉ key.toList) (hval : c ∉ val.toList) :
    split c (key ++ String.singleton c ++ val) = [key, val] := by
  rw [split, toList_join, splitOn_append_cons hkey, List.splitOn_eq_singleton hval]
  simp

private theorem splitOn_eq_singleton {c : Char} {xs part : List Char} (h : xs.splitOn c = [part]) :
    xs = part ∧ c ∉ xs := by
  by_cases hmem : c ∈ xs
  · obtain ⟨front, rest, rfl, hfront⟩ := List.eq_append_cons_of_mem hmem
    rw [splitOn_append_cons hfront] at h
    exact absurd (List.cons.inj h).2 (List.splitOn_ne_nil c rest)
  · rw [List.splitOn_eq_singleton hmem] at h
    exact ⟨(List.cons.inj h).1, hmem⟩

private theorem splitOn_eq_pair {c : Char} {xs key val : List Char}
    (h : xs.splitOn c = [key, val]) : xs = key ++ c :: val ∧ c ∉ key ∧ c ∉ val := by
  by_cases hmem : c ∈ xs
  · obtain ⟨front, rest, rfl, hfront⟩ := List.eq_append_cons_of_mem hmem
    rw [splitOn_append_cons hfront] at h
    obtain ⟨rfl, hrest⟩ := List.cons.inj h
    obtain ⟨rfl, hval⟩ := splitOn_eq_singleton hrest
    exact ⟨rfl, hfront, hval⟩
  · rw [List.splitOn_eq_singleton hmem] at h
    cases h

/-- **A text has two parts**: the separator stands between them only. -/
theorem split_eq_pair {c : Char} {s key val : String} : split c s = [key, val] ↔
    s = key ++ String.singleton c ++ val ∧ c ∉ key.toList ∧ c ∉ val.toList := by
  constructor
  · intro h
    have hparts : s.toList.splitOn c = [key.toList, val.toList] := by
      have := congrArg (List.map String.toList) h
      simpa [split, Function.comp_def] using this
    obtain ⟨hs, hkey, hval⟩ := splitOn_eq_pair hparts
    exact ⟨String.toList_inj.mp (by simpa using hs), hkey, hval⟩
  · rintro ⟨rfl, hkey, hval⟩
    exact split_append hkey hval

theorem splitn_two_plain {c : Char} {s : String} (h : c ∉ s.toList) : splitn_two c s = [s] := by
  have hkeep : ∀ x ∈ s.toList, decide (x ≠ c) = true := by
    intro x hx
    exact decide_eq_true fun heq => h (heq ▸ hx)
  have hdrop : s.toList.dropWhile (· ≠ c) = [] := by
    rw [← List.append_nil s.toList, List.dropWhile_append_of_pos hkeep, List.dropWhile_nil]
  rw [splitn_two, hdrop]

/-- **A text has a first part**: it ends in front of the first separator. -/
theorem splitn_two_eq_pair {c : Char} {s key val : String} : splitn_two c s = [key, val] ↔
    s = key ++ String.singleton c ++ val ∧ c ∉ key.toList := by
  constructor
  · intro h
    by_cases hmem : c ∈ s.toList
    · obtain ⟨front, rest, hs, hfront⟩ := List.eq_append_cons_of_mem hmem
      have hjoin : s = String.ofList front ++ String.singleton c ++ String.ofList rest :=
        String.toList_inj.mp (by simpa using hs)
      have hplain : c ∉ (String.ofList front).toList := by simpa using hfront
      rw [hjoin, splitn_two_append hplain] at h
      cases h
      exact ⟨hjoin, hplain⟩
    · rw [splitn_two_plain hmem] at h
      cases h
  · rintro ⟨rfl, hkey⟩
    exact splitn_two_append hkey val

/-- A further character belongs to the second part. -/
theorem splitn_two_push {sep c : Char} {s key val : String} (h : splitn_two sep s = [key, val]) :
    splitn_two sep (s ++ String.singleton c) = [key, val ++ String.singleton c] := by
  obtain ⟨rfl, hkey⟩ := splitn_two_eq_pair.mp h
  rw [String.append_assoc]
  exact splitn_two_append hkey _

/-- A further character belongs to the second part, as long as there are two of them. -/
theorem split_push {sep c : Char} {s key val key' val' : String} (h : split sep s = [key, val])
    (h' : split sep (s ++ String.singleton c) = [key', val']) :
    key' = key ∧ val' = val ++ String.singleton c := by
  have hparts : ∀ {s key val : String}, split sep s = [key, val] →
      splitn_two sep s = [key, val] := by
    intro s key val hs
    obtain ⟨hjoin, hkey, _⟩ := split_eq_pair.mp hs
    exact splitn_two_eq_pair.mpr ⟨hjoin, hkey⟩
  have heq := (hparts h').symm.trans (splitn_two_push (hparts h))
  simpa using heq

/-- A character has one to four bytes. -/
theorem bytes_push_length (s : String) (c : Char) :
    (bytes s).length < (bytes (s ++ String.singleton c)).length ∧
      (bytes (s ++ String.singleton c)).length ≤ (bytes s).length + 4 := by
  have hsize := String.length_utf8EncodeChar c
  have hpos := c.utf8Size_pos
  have hle := c.utf8Size_le_four
  rw [bytes_append, bytes_singleton, List.length_append]
  omega

/-- A flag with a further character is no flag. -/
theorem parse_bool_push {s : String} {b : Bool} (c : Char) (h : parse_bool s = some b) :
    parse_bool (s ++ String.singleton c) = none := by
  have hpush : ∀ {t : String}, s ++ String.singleton c = t → s.toList ++ [c] = t.toList := by
    rintro t rfl
    simp
  have hs : s = "true" ∨ s = "false" := by
    unfold parse_bool at h
    split at h
    · exact Or.inl ‹_›
    · split at h
      · exact Or.inr ‹_›
      · cases h
  have htrue : s ++ String.singleton c ≠ "true" := by
    intro heq
    have hlist := hpush heq
    rcases hs with rfl | rfl <;> simp at hlist
  have hfalse : s ++ String.singleton c ≠ "false" := by
    intro heq
    have hlist := hpush heq
    rcases hs with rfl | rfl <;> simp at hlist
  rw [parse_bool, if_neg htrue, if_neg hfalse]

end Str
