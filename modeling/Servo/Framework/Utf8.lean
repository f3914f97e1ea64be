import Mathlib.Data.List.Basic
import Mathlib.Data.List.TakeWhile

/-! # Lossy Decoding of UTF-8

    Bytes are read as text whatever they are. Where they are not UTF-8, the
    longest beginning of a character that stands there becomes one replacement
    character, and a byte that begins no character becomes one too.

    The encoding of a text is read as that text.
-/

namespace Utf8

/-- U+FFFD. -/
def replacement : Char := Char.ofNat 0xFFFD

/-! ### Single characters -/

/-- How many bytes have to follow this one; there is no longer character than four bytes. -/
def following (first : UInt8) : Nat :=
  if first < 0xC2 then 0 else if first < 0xE0 then 1 else if first < 0xF0 then 2
  else if first < 0xF5 then 3 else 0

def is_continuation (byte : UInt8) : Bool := 0x80 ≤ byte && byte ≤ 0xBF

/-- Can this byte follow the first one? Overlong forms, surrogates and what is beyond the last
    character are excluded here. -/
def is_second (first second : UInt8) : Bool :=
  if first = 0xE0 then 0xA0 ≤ second && second ≤ 0xBF
  else if first = 0xED then 0x80 ≤ second && second ≤ 0x9F
  else if first = 0xF0 then 0x90 ≤ second && second ≤ 0xBF
  else if first = 0xF4 then 0x80 ≤ second && second ≤ 0x8F
  else is_continuation second

/-- Of the bytes behind the first one, those that go on with its character. -/
def continued (first : UInt8) : List UInt8 → List UInt8
  | [] => []
  | second :: rest =>
    if is_second first second then second :: rest.takeWhile is_continuation else []

/-- The bits of the first byte. -/
def lead (first : UInt8) : Nat :=
  if first < 0xE0 then first.toNat % 32 else if first < 0xF0 then first.toNat % 16
  else first.toNat % 8

/-- The character at the front, and how many bytes it has behind the first one. -/
def read_char (first : UInt8) (rest : List UInt8) : Char × Nat :=
  let tail := continued first (rest.take (following first))
  if first < 0x80 then (Char.ofNat first.toNat, 0)
  else if following first ≠ 0 ∧ tail.length = following first then
    (Char.ofNat (tail.foldl (fun n byte => n * 64 + byte.toNat % 64) (lead first)), tail.length)
  else (replacement, tail.length)

/-! ### Texts -/

/-- The text of these bytes, the first `skip` of which have been read. -/
def lossy_from : Nat → List UInt8 → List Char
  | _, [] => []
  | skip + 1, _ :: rest => lossy_from skip rest
  | 0, first :: rest =>
    (read_char first rest).1 :: lossy_from (read_char first rest).2 rest

def lossy (bytes : List UInt8) : List Char := lossy_from 0 bytes

theorem lossy_from_append (front rest : List UInt8) :
    lossy_from front.length (front ++ rest) = lossy rest := by
  induction front with
  | nil => rfl
  | cons byte front ih =>
    rw [List.length_cons, List.cons_append, lossy_from, ih]

/-- One character is read and its bytes are skipped. -/
theorem lossy_cons {first : UInt8} {tail rest : List UInt8} {c : Char}
    (h : read_char first (tail ++ rest) = (c, tail.length)) :
    lossy (first :: tail ++ rest) = c :: lossy rest := by
  have hfirst : lossy (first :: (tail ++ rest)) =
      (read_char first (tail ++ rest)).1 ::
        lossy_from (read_char first (tail ++ rest)).2 (tail ++ rest) := rfl
  rw [List.cons_append, hfirst, h, lossy_from_append]

/-! ### What has been encoded -/

theorem read_char_ascii {first : UInt8} (h : first < 0x80) (rest : List UInt8) :
    read_char first rest = (Char.ofNat first.toNat, 0) := by
  unfold read_char
  rw [if_pos h]

/-- A character of several bytes. -/
theorem read_char_tail {first second : UInt8} {tail : List UInt8} (hfirst : ¬ first < 0x80)
    (hlength : following first = tail.length + 1) (hsecond : is_second first second = true)
    (htail : ∀ byte ∈ tail, is_continuation byte = true) (rest : List UInt8) :
    read_char first (second :: tail ++ rest) =
      (Char.ofNat ((second :: tail).foldl (fun n byte => n * 64 + byte.toNat % 64) (lead first)),
        (second :: tail).length) := by
  have htake : (second :: tail ++ rest).take (following first) = second :: tail := by
    rw [hlength, ← List.length_cons (a := second), List.take_left]
  have hcontinued : continued first (second :: tail) = second :: tail := by
    rw [continued, if_pos hsecond, List.takeWhile_eq_self_iff.mpr htail]
  unfold read_char
  rw [htake, hcontinued, if_neg hfirst, if_pos ⟨by omega, hlength.symm⟩]

/-- A byte by its value. -/
theorem toNat_byte {n : Nat} (h : n < 256) : (UInt8.ofNat n).toNat = n := by
  rw [UInt8.toNat_ofNat', Nat.mod_eq_of_lt h]

theorem following_byte {n : Nat} (h : n < 256) :
    following (UInt8.ofNat n) =
      if n < 194 then 0 else if n < 224 then 1 else if n < 240 then 2 else if n < 245 then 3
      else 0 := by
  unfold following
  simp only [UInt8.lt_iff_toNat_lt, toNat_byte h]
  rfl

theorem lead_byte {n : Nat} (h : n < 256) :
    lead (UInt8.ofNat n) =
      if n < 224 then n % 32 else if n < 240 then n % 16 else n % 8 := by
  unfold lead
  simp only [UInt8.lt_iff_toNat_lt, toNat_byte h]
  rfl

theorem is_continuation_byte {n : Nat} (h : n < 256) :
    is_continuation (UInt8.ofNat n) = true ↔ 128 ≤ n ∧ n ≤ 191 := by
  unfold is_continuation
  simp only [UInt8.le_iff_toNat_le, toNat_byte h, Bool.and_eq_true, decide_eq_true_eq]
  rfl

theorem is_second_byte {n m : Nat} (hn : n < 256) (hm : m < 256) (hrange : 128 ≤ m ∧ m ≤ 191)
    (he0 : n = 224 → 160 ≤ m) (hed : n = 237 → m ≤ 159) (hf0 : n = 240 → 144 ≤ m)
    (hf4 : n = 244 → m ≤ 143) : is_second (UInt8.ofNat n) (UInt8.ofNat m) = true := by
  have hcontinuation := (is_continuation_byte hm).mpr hrange
  unfold is_second
  simp only [← UInt8.toNat_inj, UInt8.le_iff_toNat_le, toNat_byte hn, toNat_byte hm]
  split
  · next h => simpa using ⟨he0 h, hrange.2⟩
  · split
    · next h => simpa using ⟨hrange.1, hed h⟩
    · split
      · next h => simpa using ⟨hf0 h, hrange.2⟩
      · split
        · next h => simpa using ⟨hrange.1, hf4 h⟩
        · exact hcontinuation

/-- A character of several bytes, by the values of its bytes. -/
theorem lossy_bytes {n m : Nat} {tail : List Nat} {c : Char} (rest : List UInt8)
    (hn : 194 ≤ n ∧ n < 245) (hm : 128 ≤ m ∧ m ≤ 191) (htail : ∀ k ∈ tail, 128 ≤ k ∧ k ≤ 191)
    (hlength : (if n < 224 then 0 else if n < 240 then 1 else 2) = tail.length)
    (he0 : n = 224 → 160 ≤ m) (hed : n = 237 → m ≤ 159) (hf0 : n = 240 → 144 ≤ m)
    (hf4 : n = 244 → m ≤ 143)
    (hvalue : (m :: tail).foldl (fun n k => n * 64 + k % 64)
      (if n < 224 then n % 32 else if n < 240 then n % 16 else n % 8) = c.toNat) :
    lossy ((UInt8.ofNat n :: UInt8.ofNat m :: tail.map UInt8.ofNat) ++ rest) = c :: lossy rest := by
  have hfirst : ¬ UInt8.ofNat n < 0x80 := by
    rw [UInt8.lt_iff_toNat_lt, toNat_byte (by omega)]
    show ¬ n < 128
    omega
  have hfollowing : following (UInt8.ofNat n) = (tail.map UInt8.ofNat).length + 1 := by
    rw [following_byte (by omega), List.length_map, ← hlength, if_neg (by omega)]
    split
    · rfl
    · split
      · rfl
      · rw [if_pos hn.2]
  have hsecond := is_second_byte (n := n) (m := m) (by omega) (by omega) hm he0 hed hf0 hf4
  have hrest : ∀ byte ∈ tail.map UInt8.ofNat, is_continuation byte = true := by
    intro byte hbyte
    obtain ⟨k, hk, rfl⟩ := List.mem_map.mp hbyte
    have hrange := htail k hk
    exact (is_continuation_byte (by omega)).mpr hrange
  -- the bytes have the values of which the character is made up
  have hvalues : ∀ (ks : List Nat) (start : Nat), (∀ k ∈ ks, k < 256) →
      (ks.map UInt8.ofNat).foldl (fun n byte => n * 64 + byte.toNat % 64) start =
        ks.foldl (fun n k => n * 64 + k % 64) start := by
    intro ks start hks
    rw [List.foldl_map]
    apply List.foldl_ext
    intro total k hk
    rw [toNat_byte (hks k hk)]
  have hbytes : ∀ k ∈ m :: tail, k < 256 := by
    intro k hk
    rcases List.mem_cons.mp hk with rfl | hk
    · omega
    · have hrange := htail k hk
      omega
  apply lossy_cons
  rw [read_char_tail hfirst hfollowing hsecond hrest, ← List.map_cons,
    hvalues (m :: tail) _ hbytes, lead_byte (by omega), hvalue, Char.ofNat_toNat]

/-- The encoding of a character is read as that character. -/
theorem lossy_encode_char (c : Char) (rest : List UInt8) :
    lossy (String.utf8EncodeChar c ++ rest) = c :: lossy rest := by
  have hvalid : c.toNat < 0xD800 ∨ 0xDFFF < c.toNat ∧ c.toNat < 0x110000 := c.valid
  unfold String.utf8EncodeChar
  simp only [show c.val.toNat = c.toNat from rfl]
  split
  · have hascii : UInt8.ofNat c.toNat < 0x80 := by
      rw [UInt8.lt_iff_toNat_lt, toNat_byte (by omega)]
      show c.toNat < 128
      omega
    have hread := read_char_ascii hascii rest
    rw [toNat_byte (by omega), Char.ofNat_toNat] at hread
    exact @lossy_cons _ [] _ _ hread
  · split
    · apply @lossy_bytes _ _ [] c rest
      case hlength =>
        rw [if_pos (by omega)]
        rfl
      case hvalue =>
        simp only [List.foldl_cons, List.foldl_nil]
        rw [if_pos (by omega)]
        omega
      all_goals simp <;> omega
    · split
      · apply @lossy_bytes _ _ [c.toNat % 64 + 128] c rest
        case hlength =>
          rw [if_neg (by omega), if_pos (by omega)]
          rfl
        case hvalue =>
          simp only [List.foldl_cons, List.foldl_nil]
          rw [if_neg (by omega), if_pos (by omega)]
          omega
        all_goals
          simp
          omega
      · apply @lossy_bytes _ _ [c.toNat / 64 % 64 + 128, c.toNat % 64 + 128] c rest
        case hlength =>
          rw [if_neg (by omega), if_neg (by omega)]
          rfl
        case hvalue =>
          simp only [List.foldl_cons, List.foldl_nil]
          rw [if_neg (by omega), if_neg (by omega)]
          omega
        all_goals simp <;> omega

/-- **The encoding of a text is read as that text.** -/
theorem lossy_encode (text : List Char) : lossy (text.flatMap String.utf8EncodeChar) = text := by
  induction text with
  | nil => rfl
  | cons c text ih => rw [List.flatMap_cons, lossy_encode_char, ih]

end Utf8
