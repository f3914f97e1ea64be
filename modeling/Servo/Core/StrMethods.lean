import Mathlib.Data.List.DropRight

/-! # Methods of `str`

    What the code uses of Rust's strings. A slice by bytes panics when one of
    its ends is not between two characters.
-/

namespace Servo

/-- `char::is_whitespace`, the Unicode property `White_Space`. -/
def is_whitespace (c : Char) : Bool :=
  let n := c.toNat
  (9 ≤ n && n ≤ 13) || n = 0x20 || n = 0x85 || n = 0xA0 || n = 0x1680 ||
    (0x2000 ≤ n && n ≤ 0x200A) || n = 0x2028 || n = 0x2029 || n = 0x202F || n = 0x205F ||
    n = 0x3000

/-- `text.trim()`. -/
def trim (text : String) : String :=
  String.ofList ((text.toList.dropWhile is_whitespace).rdropWhile is_whitespace)

/-- `(&text[..index], &text[index..])`. -/
def split_at (index : Nat) : List Char → Option (List Char × List Char)
  | [] => if index = 0 then some ([], []) else none
  | c :: text =>
    if index = 0 then some ([], c :: text)
    else if c.utf8Size ≤ index then
      (split_at (index - c.utf8Size) text).map fun parts => (c :: parts.1, parts.2)
    else none

theorem split_at_nil (index : Nat) : split_at index [] = if index = 0 then some ([], []) else none :=
  rfl

theorem split_at_cons (index : Nat) (c : Char) (text : List Char) :
    split_at index (c :: text) =
      if index = 0 then some ([], c :: text)
      else if c.utf8Size ≤ index then
        (split_at (index - c.utf8Size) text).map fun parts => (c :: parts.1, parts.2)
      else none := rfl

/-- `text[start..stop]`. -/
def slice (start stop : Nat) (text : String) : Option String :=
  (split_at stop text.toList).bind fun parts =>
    (split_at start parts.1).map fun parts => String.ofList parts.2

/-- `text.is_char_boundary(index)`. -/
def is_char_boundary (index : Nat) (text : String) : Bool := (split_at index text.toList).isSome

/-- A text without blanks at its ends is not trimmed. -/
theorem trim_eq_self {text : String} (hhead : ∀ c ∈ text.toList.head?, is_whitespace c = false)
    (hlast : ∀ c ∈ text.toList.getLast?, is_whitespace c = false) : trim text = text := by
  have hfront : text.toList.dropWhile is_whitespace = text.toList := by
    rw [List.dropWhile_eq_self_iff]
    intro hlt
    rw [hhead _ (List.head?_eq_getElem?.trans (List.getElem?_eq_getElem hlt))]
    decide
  have hback : text.toList.rdropWhile is_whitespace = text.toList := by
    rw [List.rdropWhile_eq_self_iff]
    intro hne
    rw [hlast _ (List.getLast?_eq_some_getLast hne)]
    decide
  rw [trim, hfront, hback, String.ofList_toList]

/-- Both parts make up the text. -/
theorem split_at_eq_some {index : Nat} {text : List Char} {parts : List Char × List Char}
    (h : split_at index text = some parts) : text = parts.1 ++ parts.2 := by
  induction text generalizing index parts with
  | nil =>
    rw [split_at_nil] at h
    split at h
    · cases h
      rfl
    · cases h
  | cons c text ih =>
    rw [split_at_cons] at h
    split at h
    · cases h
      rfl
    · split at h
      · obtain ⟨parts', hparts, rfl⟩ := Option.map_eq_some_iff.mp h
        rw [ih hparts]
        rfl
      · cases h

/-- The first part has as many bytes as are asked for. -/
theorem size_of_split_at {index : Nat} {text : List Char} {parts : List Char × List Char}
    (h : split_at index text = some parts) : (String.ofList parts.1).utf8ByteSize = index := by
  induction text generalizing index parts with
  | nil =>
    rw [split_at_nil] at h
    split at h
    · next hzero =>
      cases h
      exact hzero.symm
    · cases h
  | cons c text ih =>
    rw [split_at_cons] at h
    split at h
    · next hzero =>
      cases h
      exact hzero.symm
    · split at h
      · next hsize =>
        obtain ⟨parts', hparts, rfl⟩ := Option.map_eq_some_iff.mp h
        rw [String.ofList_cons, String.utf8ByteSize_append, String.utf8ByteSize_singleton,
          ih hparts]
        omega
      · cases h

theorem split_at_zero (text : List Char) : split_at 0 text = some ([], text) := by
  cases text <;> rfl

/-- The end of the text is a boundary. -/
theorem split_at_size (text : List Char) :
    split_at (String.ofList text).utf8ByteSize text = some (text, []) := by
  induction text with
  | nil => rfl
  | cons c text ih =>
    have hpos := Char.utf8Size_pos c
    have hsize : (String.ofList (c :: text)).utf8ByteSize =
        c.utf8Size + (String.ofList text).utf8ByteSize := by
      rw [String.ofList_cons, String.utf8ByteSize_append, String.utf8ByteSize_singleton]
    rw [hsize, split_at_cons, if_neg (by omega), if_pos (by omega), Nat.add_sub_cancel_left, ih]
    rfl

/-- Between two neighboring boundaries there is one character. -/
theorem split_at_succ {index : Nat} {text : List Char} {parts parts' : List Char × List Char}
    (h : split_at index text = some parts) (h' : split_at (index + 1) text = some parts') :
    ∃ c, parts.2 = c :: parts'.2 := by
  induction text generalizing index parts parts' with
  | nil => cases h'
  | cons c text ih =>
    have hpos := Char.utf8Size_pos c
    rw [split_at_cons, if_neg (Nat.succ_ne_zero index)] at h'
    by_cases hzero : index = 0
    · rw [split_at_cons, if_pos hzero] at h
      cases h
      split at h'
      · rw [show index + 1 - c.utf8Size = 0 by omega, split_at_zero] at h'
        cases h'
        exact ⟨c, rfl⟩
      · cases h'
    · rw [split_at_cons, if_neg hzero] at h
      by_cases hsize : c.utf8Size ≤ index
      · rw [if_pos hsize] at h
        rw [if_pos (Nat.le_succ_of_le hsize), Nat.succ_sub hsize] at h'
        obtain ⟨front, hfront, rfl⟩ := Option.map_eq_some_iff.mp h
        obtain ⟨front', hfront', rfl⟩ := Option.map_eq_some_iff.mp h'
        have hnext := ih hfront hfront'
        exact hnext
      · rw [if_neg hsize] at h
        cases h

/-- `text[..stop]`. -/
theorem slice_zero (stop : Nat) (text : String) :
    slice 0 stop text = (split_at stop text.toList).map fun parts => String.ofList parts.1 := by
  rw [slice]
  cases split_at stop text.toList with
  | none => rfl
  | some parts =>
    rw [Option.bind_some, split_at_zero]
    rfl

/-- `text[start..]`. -/
theorem slice_size {text : String} {size : Nat} (hsize : text.utf8ByteSize = size) (start : Nat) :
    slice start size text =
      (split_at start text.toList).map fun parts => String.ofList parts.2 := by
  have hall : split_at size text.toList = some (text.toList, []) := by
    rw [← hsize, ← split_at_size, String.ofList_toList]
  rw [slice, hall]
  rfl

end Servo
