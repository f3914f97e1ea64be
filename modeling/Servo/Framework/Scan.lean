import Servo.Framework.Text
import Mathlib.Data.List.DropRight
import Mathlib.Data.List.TakeWhile
import Mathlib.Order.Basic

/-! # Reading Texts by a Format

    A format is a list of items: a character that must be there, blanks, of
    which there may be any number, and decimal numbers. Blanks may stand in
    front of a number. The number ends at its width if not before; behind a
    sign it goes on to the last digit.

    What has been written with the widths of the format is read back. And a
    text that can be read has no characters other than those of its numbers,
    its blanks and the format.
-/

namespace Scan

inductive Item where
  | literal (c : Char)
  | blanks
  | number (width : Nat) (signed : Bool)
  deriving DecidableEq

/-- The digits at the front, at most `width` of them, and what is behind them. -/
def read_digits (width : Nat) (text : List Char) : Option (Nat × List Char) :=
  let digits := (text.takeWhile Char.isDigit).take width
  if digits.isEmpty then none
  else some (Nat.ofDigitChars 10 digits 0, text.drop digits.length)

def read_number (width : Nat) (signed : Bool) (text : List Char) : Option (Int × List Char) :=
  match signed, text with
  | true, '-' :: text => (read_digits text.length text).map fun found => (-(found.1 : Int), found.2)
  | true, '+' :: text => (read_digits text.length text).map fun found => ((found.1 : Int), found.2)
  | _, text => (read_digits width text).map fun found => ((found.1 : Int), found.2)

/-- The numbers in a text, if it has this format. -/
def read (blank : Char → Bool) : List Item → List Char → Option (List Int)
  | [], [] => some []
  | [], _ :: _ => none
  | .literal _ :: _, [] => none
  | .literal c :: items, c' :: text => if c = c' then read blank items text else none
  | .blanks :: items, text => read blank items (text.dropWhile blank)
  | .number width signed :: items, text =>
    (read_number width signed (text.dropWhile blank)).bind fun found =>
      (read blank items found.2).map (found.1 :: ·)

theorem read_literal_cons (blank : Char → Bool) (c c' : Char) (items : List Item)
    (text : List Char) :
    read blank (.literal c :: items) (c' :: text) =
      if c = c' then read blank items text else none := rfl

theorem read_blanks (blank : Char → Bool) (items : List Item) (text : List Char) :
    read blank (.blanks :: items) text = read blank items (text.dropWhile blank) := rfl

theorem read_numeric (blank : Char → Bool) (width : Nat) (signed : Bool) (items : List Item)
    (text : List Char) :
    read blank (.number width signed :: items) text =
      (read_number width signed (text.dropWhile blank)).bind fun found =>
        (read blank items found.2).map (found.1 :: ·) := rfl

/-! ### What has been read -/

theorem read_digits_eq_some {width n : Nat} {text rest : List Char}
    (h : read_digits width text = some (n, rest)) :
    ∃ digits, text = digits ++ rest ∧ ∀ c ∈ digits, c.isDigit = true := by
  unfold read_digits at h
  simp only [Option.ite_none_left_eq_some, Option.some.injEq, Prod.mk.injEq] at h
  obtain ⟨-, -, hrest⟩ := h
  refine ⟨(text.takeWhile Char.isDigit).take width, ?_, fun c hc => ?_⟩
  · have hprefix : (text.takeWhile Char.isDigit).take width <+: text :=
      (List.take_prefix _ _).trans (List.takeWhile_prefix _)
    rw [← hrest]
    exact (List.prefix_iff_eq_append.mp hprefix).symm
  · exact List.mem_takeWhile_imp (List.mem_of_mem_take hc)

/-- A number has digits, and a sign at most. -/
theorem read_number_eq_some {width : Nat} {signed : Bool} {n : Int} {text rest : List Char}
    (h : read_number width signed text = some (n, rest)) :
    ∃ front, text = front ++ rest ∧ ∀ c ∈ front, c.isDigit = true ∨ c = '-' ∨ c = '+' := by
  have hdigits : ∀ {w : Nat} {f : Nat → Int} {text : List Char},
      (read_digits w text).map (fun found => (f found.1, found.2)) = some (n, rest) →
      ∃ digits, text = digits ++ rest ∧ ∀ c ∈ digits, c.isDigit = true := by
    intro w f text h
    obtain ⟨⟨m, rest'⟩, hread, heq⟩ := Option.map_eq_some_iff.mp h
    cases heq
    exact read_digits_eq_some hread
  unfold read_number at h
  split at h
  · obtain ⟨digits, rfl, hall⟩ := hdigits (f := fun n => -(n : Int)) h
    refine ⟨'-' :: digits, rfl, fun c hc => ?_⟩
    rcases List.mem_cons.mp hc with rfl | hc
    · exact .inr (.inl rfl)
    · exact .inl (hall c hc)
  · obtain ⟨digits, rfl, hall⟩ := hdigits (f := fun n => (n : Int)) h
    refine ⟨'+' :: digits, rfl, fun c hc => ?_⟩
    rcases List.mem_cons.mp hc with rfl | hc
    · exact .inr (.inr rfl)
    · exact .inl (hall c hc)
  · obtain ⟨digits, rfl, hall⟩ := hdigits (f := fun n => (n : Int)) h
    exact ⟨digits, rfl, fun c hc => .inl (hall c hc)⟩

section read
variable {blank : Char → Bool} {items : List Item} {text : List Char} {values : List Int}

/-- **The characters of a text that has been read.** -/
theorem mem_of_read (h : read blank items text = some values) (c : Char) (hc : c ∈ text) :
    c.isDigit = true ∨ c = '-' ∨ c = '+' ∨ blank c = true ∨ .literal c ∈ items := by
  have hblank : ∀ {text : List Char}, c ∈ text → blank c = true ∨ c ∈ text.dropWhile blank := by
    intro text hc
    rw [← List.takeWhile_append_dropWhile (p := blank) (l := text)] at hc
    rcases List.mem_append.mp hc with hc | hc
    · exact .inl (List.mem_takeWhile_imp hc)
    · exact .inr hc
  have hlater : ∀ {item : Item} {items : List Item},
      c.isDigit = true ∨ c = '-' ∨ c = '+' ∨ blank c = true ∨ .literal c ∈ items →
      c.isDigit = true ∨ c = '-' ∨ c = '+' ∨ blank c = true ∨ .literal c ∈ item :: items := by
    intro item items h
    rw [List.mem_cons]
    tauto
  induction items generalizing text values with
  | nil =>
    cases text with
    | nil => cases hc
    | cons c' text => cases h
  | cons item items ih =>
    cases item with
    | literal c' =>
      cases text with
      | nil => cases h
      | cons c'' text =>
        rw [read_literal_cons] at h
        obtain ⟨rfl, hread⟩ := Option.ite_none_right_eq_some.mp h
        rcases List.mem_cons.mp hc with rfl | hc
        · exact .inr (.inr (.inr (.inr List.mem_cons_self)))
        · exact hlater (ih hread hc)
    | blanks =>
      rw [read_blanks] at h
      rcases hblank hc with hc | hc
      · exact .inr (.inr (.inr (.inl hc)))
      · exact hlater (ih h hc)
    | number width signed =>
      rw [read_numeric] at h
      obtain ⟨⟨n, rest⟩, hnumber, hrest⟩ := Option.bind_eq_some_iff.mp h
      obtain ⟨values', hread, -⟩ := Option.map_eq_some_iff.mp hrest
      obtain ⟨front, hfront, hall⟩ := read_number_eq_some hnumber
      rcases hblank hc with hc | hc
      · exact .inr (.inr (.inr (.inl hc)))
      · rw [hfront] at hc
        rcases List.mem_append.mp hc with hc | hc
        · have := hall c hc
          tauto
        · exact hlater (ih hread hc)

/-- **The characters of the format** are all there. -/
theorem count_literal_le (h : read blank items text = some values) (c : Char) :
    items.count (.literal c) ≤ text.count c := by
  have hdrop : ∀ text : List Char, (text.dropWhile blank).count c ≤ text.count c := fun text =>
    (List.dropWhile_sublist blank).count_le c
  induction items generalizing text values with
  | nil => exact Nat.zero_le _
  | cons item items ih =>
    cases item with
    | literal c' =>
      cases text with
      | nil => cases h
      | cons c'' text =>
        rw [read_literal_cons] at h
        obtain ⟨rfl, hread⟩ := Option.ite_none_right_eq_some.mp h
        have hle := ih hread
        rw [List.count_cons, List.count_cons]
        by_cases hc : c' = c
        · subst hc
          simp only [beq_self_eq_true, if_true]
          omega
        · have hne : ¬ Item.literal c' = .literal c := fun heq => hc (Item.literal.inj heq)
          simp only [beq_iff_eq, hc, hne, if_false]
          omega
    | blanks =>
      rw [read_blanks] at h
      rw [List.count_cons_of_ne (by simp)]
      exact (ih h).trans (hdrop text)
    | number width signed =>
      rw [read_numeric] at h
      obtain ⟨⟨n, rest⟩, hnumber, hrest⟩ := Option.bind_eq_some_iff.mp h
      obtain ⟨values', hread, -⟩ := Option.map_eq_some_iff.mp hrest
      obtain ⟨front, hfront, -⟩ := read_number_eq_some hnumber
      have hle := hdrop text
      rw [hfront, List.count_append] at hle
      have hrest' : items.count (.literal c) ≤ rest.count c := ih hread
      rw [List.count_cons_of_ne (by simp)]
      omega

end read

/-! ### Reading back -/

/-- Digits are read up to the width, or up to a character that is no digit. -/
theorem read_digits_append {width : Nat} {digits rest : List Char} (hne : digits ≠ [])
    (hall : ∀ c ∈ digits, c.isDigit = true) (hlength : digits.length ≤ width)
    (hend : digits.length = width ∨ ∀ c ∈ rest.head?, c.isDigit = false) :
    read_digits width (digits ++ rest) = some (Nat.ofDigitChars 10 digits 0, rest) := by
  have hfront : ((digits ++ rest).takeWhile Char.isDigit).take width = digits := by
    rw [List.takeWhile_append_of_pos hall]
    rcases hend with heq | hhead
    · rw [← heq, List.take_left']
      rfl
    · have hnil : rest.takeWhile Char.isDigit = [] := by
        cases rest with
        | nil => rfl
        | cons c rest => rw [List.takeWhile_cons_of_neg (by simp [hhead c rfl])]
      rw [hnil, List.append_nil]
      exact List.take_of_length_le hlength
  unfold read_digits
  rw [hfront, if_neg (by simpa using hne), List.drop_left']
  rfl

section written
variable {blank : Char → Bool}
  (hblank : ∀ c, blank c = true → c.isDigit = false ∧ c ≠ '-' ∧ c ≠ '+')

theorem read_literal (c : Char) (items : List Item) (text : List Char) :
    read blank (.literal c :: items) (c :: text) = read blank items text := by
  rw [read_literal_cons, if_pos rfl]

/-- Blanks in front of a number are passed over. -/
theorem read_number_blank {width : Nat} {signed : Bool} {items : List Item} {c : Char}
    (hc : blank c = true) (text : List Char) :
    read blank (.number width signed :: items) (c :: text) =
      read blank (.number width signed :: items) text := by
  rw [read_numeric, read_numeric, List.dropWhile_cons_of_pos hc]

theorem read_blanks_blank {items : List Item} {c : Char} (hc : blank c = true) (text : List Char) :
    read blank (.blanks :: items) (c :: text) = read blank (.blanks :: items) text := by
  rw [read_blanks, read_blanks, List.dropWhile_cons_of_pos hc]

theorem read_blanks_number (width : Nat) (signed : Bool) (items : List Item) (text : List Char) :
    read blank (.blanks :: .number width signed :: items) text =
      read blank (.number width signed :: items) text := by
  rw [read_blanks, read_numeric, read_numeric, List.dropWhile_idempotent blank]

include hblank

/-- A number without a sign. -/
theorem read_unsigned {width : Nat} {signed : Bool} {items : List Item}
    {digits rest : List Char} (hne : digits ≠ []) (hall : ∀ c ∈ digits, c.isDigit = true)
    (hlength : digits.length ≤ width)
    (hend : digits.length = width ∨ ∀ c ∈ rest.head?, c.isDigit = false) :
    read blank (.number width signed :: items) (digits ++ rest) =
      (read blank items rest).map ((Nat.ofDigitChars 10 digits 0 : Int) :: ·) := by
  obtain ⟨first, digits, rfl⟩ := List.exists_cons_of_ne_nil hne
  have hfirst := hall first List.mem_cons_self
  have hdrop : (first :: digits ++ rest).dropWhile blank = first :: digits ++ rest := by
    refine List.dropWhile_cons_of_neg fun hb => ?_
    rw [(hblank first hb).1] at hfirst
    cases hfirst
  have hnumber : read_number width signed (first :: digits ++ rest) =
      some ((Nat.ofDigitChars 10 (first :: digits) 0 : Int), rest) := by
    have hread := read_digits_append hne hall hlength hend
    unfold read_number
    split
    · next heq =>
      cases heq
      exact absurd hfirst (by decide)
    · next heq =>
      cases heq
      exact absurd hfirst (by decide)
    · rw [hread]
      rfl
  rw [read_numeric, hdrop, hnumber, Option.bind_some]

/-- A number with as many digits as its width. -/
theorem read_pad {width n : Nat} {signed : Bool} {items : List Item} {rest : List Char}
    (hwidth : 0 < width) (hn : n < 10 ^ width) :
    read blank (.number width signed :: items) ((Text.pad width n).toList ++ rest) =
      (read blank items rest).map ((n : Int) :: ·) := by
  have hlength := Text.length_toList_pad hwidth hn
  rw [read_unsigned hblank (Text.toList_pad_ne_nil width n) (fun _ => Text.mem_pad) hlength.le
    (.inl hlength), Text.of_digits_pad]

/-- A number with a sign in front ends with its last digit. -/
theorem read_signed {width n pad_width : Nat} {items : List Item} {rest : List Char}
    (hhead : ∀ c ∈ rest.head?, c.isDigit = false) :
    read blank (.number width true :: items) ('-' :: ((Text.pad pad_width n).toList ++ rest)) =
        (read blank items rest).map (-(n : Int) :: ·) ∧
      read blank (.number width true :: items) ('+' :: ((Text.pad pad_width n).toList ++ rest)) =
        (read blank items rest).map ((n : Int) :: ·) := by
  have hdrop : ∀ c text, c = '-' ∨ c = '+' → (c :: text).dropWhile blank = c :: text := by
    intro c text hc
    refine List.dropWhile_cons_of_neg fun hb => ?_
    have := hblank c hb
    tauto
  have hlength : (Text.pad pad_width n).toList.length ≤
      ((Text.pad pad_width n).toList ++ rest).length := by
    rw [List.length_append]
    omega
  have hread := read_digits_append (Text.toList_pad_ne_nil pad_width n) (fun _ => Text.mem_pad)
    hlength (.inr hhead)
  rw [Text.of_digits_pad] at hread
  constructor
  · rw [read_numeric, hdrop _ _ (.inl rfl), read_number, hread]
    rfl
  · rw [read_numeric, hdrop _ _ (.inr rfl), read_number, hread]
    rfl

end written

end Scan
