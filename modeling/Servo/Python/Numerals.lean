import Servo.Core.StrMethods
import Servo.Framework.Fallible
import Servo.Framework.Text

/-! # Numerals in Python

    `str.isdigit` and `int` take the digits of all scripts, `int` also signs,
    underscores between digits and blanks around the numeral, and it refuses a
    numeral with too many digits. So they take more than the numerals that are
    written with the digits from 0 to 9.
-/

namespace Servo.Python

/-- `str.isspace` of a character. The four separators of ASCII count as blanks here. -/
def is_space (c : Char) : Bool := is_whitespace c || (0x1C ≤ c.toNat && c.toNat ≤ 0x1F)

/-- The tables of an interpreter for digits, and its limit for `int`. -/
structure Numerals where
  /-- `str.isdigit` of a character. -/
  isdigit : Char → Bool
  /-- The value of a decimal digit, `unicodedata.decimal`. -/
  decimal : Char → Option Nat
  /-- `sys.get_int_max_str_digits()`; `none` is no limit. -/
  max_str_digits : Option Nat
  /-- `sys.int_info.str_digits_check_threshold` is the least limit. -/
  limit_ge : ∀ limit ∈ max_str_digits, 640 ≤ limit
  decimal_lt : ∀ {c n}, decimal c = some n → n < 10
  isdigit_of_decimal : ∀ {c n}, decimal c = some n → isdigit c = true
  isdigit_of_ascii : ∀ {c : Char}, c.toNat < 128 → isdigit c = c.isDigit
  decimal_of_ascii : ∀ {c : Char}, c.toNat < 128 →
    decimal c = if c.isDigit then some (c.toNat - 48) else none

/-- A number that is written with the digits from 0 to 9. -/
structure IsNumber (text : List Char) (n : Nat) : Prop where
  ne_nil : text ≠ []
  digits : ∀ c ∈ text, c.isDigit = true
  value : Nat.ofDigitChars 10 text 0 = n

namespace IsNumber

theorem of_digits {text : List Char} (hne : text ≠ []) (h : ∀ c ∈ text, c.isDigit = true) :
    IsNumber text (Nat.ofDigitChars 10 text 0) := ⟨hne, h, rfl⟩

theorem notMem {text : List Char} {n : Nat} (h : IsNumber text n) {c : Char}
    (hc : c.isDigit = false) : c ∉ text := by
  intro hmem
  have hdigit := h.digits c hmem
  rw [hc] at hdigit
  cases hdigit

end IsNumber

theorem range_of_isDigit {c : Char} (h : c.isDigit = true) : 48 ≤ c.toNat ∧ c.toNat ≤ 57 :=
  Char.isDigit_iff_toNat.mp h

theorem toNat_lt_of_isDigit {c : Char} (h : c.isDigit = true) : c.toNat < 128 := by
  have hrange := range_of_isDigit h
  omega

/-- A digit is no blank. -/
theorem not_is_whitespace_of_isDigit {c : Char} (h : c.isDigit = true) :
    is_whitespace c = false := by
  have hrange := range_of_isDigit h
  simp [is_whitespace]
  omega

namespace Numerals

variable (self : Numerals)

/-- `text.isdigit()`. -/
def all_digits (text : List Char) : Bool := !text.isEmpty && text.all self.isdigit

/-- `int` of what follows the sign: groups of digits with underscores between them. -/
def unsigned (text : List Char) : Option Nat :=
  let groups := Text.split ['_'] text
  if groups.any List.isEmpty then none
  else (groups.flatten.mapM self.decimal).bind fun digits =>
    if self.max_str_digits.any (· < digits.length) then none
    else some (digits.foldl (fun n digit => 10 * n + digit) 0)

/-- `int(text)`; `none` is a `ValueError`. -/
def int (text : List Char) : Option Int :=
  match (text.dropWhile is_whitespace).rdropWhile is_whitespace with
  | '-' :: rest => (self.unsigned rest).map fun n : Nat => -(n : Int)
  | '+' :: rest => (self.unsigned rest).map Int.ofNat
  | rest => (self.unsigned rest).map Int.ofNat

/-- The limit allows this number of digits. -/
def Allows (length : Nat) : Prop := ∀ limit ∈ self.max_str_digits, length ≤ limit

variable {self}

theorem decimal_of_isDigit {c : Char} (h : c.isDigit = true) :
    self.decimal c = some (c.toNat - 48) := by
  rw [self.decimal_of_ascii (toNat_lt_of_isDigit h), if_pos h]

theorem isdigit_of_isDigit {c : Char} (h : c.isDigit = true) : self.isdigit c = true :=
  self.isdigit_of_decimal (decimal_of_isDigit h)

theorem Allows.mono {m n : Nat} (h : self.Allows n) (hle : m ≤ n) : self.Allows m :=
  fun limit hlimit => hle.trans (h limit hlimit)

theorem ofDigitChars_eq_foldl (text : List Char) (n : Nat) :
    Nat.ofDigitChars 10 text n =
      (text.map fun c => c.toNat - 48).foldl (fun n digit => 10 * n + digit) n := by
  rw [List.foldl_map]
  rfl

/-- The digits from 0 to 9 are read one after the other, unless there are too many of them. -/
theorem unsigned_of_digits {text : List Char} (hne : text ≠ [])
    (h : ∀ c ∈ text, c.isDigit = true) : self.unsigned text =
      if self.max_str_digits.any (· < text.length) then none
      else some (Nat.ofDigitChars 10 text 0) := by
  have hunderscore : '_' ∉ text := by
    intro hmem
    cases h _ hmem
  have hdecimals : text.mapM self.decimal = some (text.map fun c => c.toNat - 48) := by
    apply Fallible.mapM_eq_some_map
    intro c hc
    exact decimal_of_isDigit (h c hc)
  unfold unsigned
  rw [Text.split_of_notMem hunderscore]
  simp [hne, hdecimals, ofDigitChars_eq_foldl]

theorem int_of_digits {text : List Char} (hne : text ≠ [])
    (h : ∀ c ∈ text, c.isDigit = true) : self.int text =
      if self.max_str_digits.any (· < text.length) then none
      else some (Nat.ofDigitChars 10 text 0 : Int) := by
  have hstrip : (text.dropWhile is_whitespace).rdropWhile is_whitespace = text := by
    have hfront : text.dropWhile is_whitespace = text := by
      rw [List.dropWhile_eq_self_iff]
      intro hlength
      simp [not_is_whitespace_of_isDigit (h _ (List.getElem_mem hlength))]
    rw [hfront, List.rdropWhile_eq_self_iff]
    intro hne
    simp [not_is_whitespace_of_isDigit (h _ (List.getLast_mem hne))]
  unfold int
  rw [hstrip]
  split
  · cases h '-' List.mem_cons_self
  · cases h '+' List.mem_cons_self
  · rw [unsigned_of_digits hne h]
    split
    · rfl
    · rfl

theorem int_eq_some_iff {text : List Char} {n : Nat} (h : IsNumber text n) {v : Int} :
    self.int text = some v ↔ self.Allows text.length ∧ v = n := by
  have hlimit : self.max_str_digits.any (· < text.length) = false ↔ self.Allows text.length := by
    unfold Allows
    cases self.max_str_digits with
    | none => simp
    | some limit => simp
  rw [int_of_digits h.ne_nil h.digits, h.value, ← hlimit]
  cases self.max_str_digits.any (· < text.length) with
  | true => simp
  | false => simp [eq_comm]

/-- Every interpreter reads a number that is not very long. -/
theorem int_of_number {text : List Char} {n : Nat} (h : IsNumber text n)
    (hlength : text.length ≤ 640) : self.int text = some (n : Int) :=
  (int_eq_some_iff h).mpr ⟨fun limit hlimit => hlength.trans (self.limit_ge limit hlimit), rfl⟩

theorem all_digits_of_isNumber {text : List Char} {n : Nat} (h : IsNumber text n) :
    self.all_digits text = true := by
  have hdigits : ∀ c ∈ text, self.isdigit c = true := fun c hc => isdigit_of_isDigit (h.digits c hc)
  simpa [all_digits, h.ne_nil] using hdigits

/-- No other character of ASCII is a digit. -/
theorem notMem_of_all_digits {text : List Char} (h : self.all_digits text = true) {c : Char}
    (hc : c.toNat < 128) (hdigit : c.isDigit = false) : c ∉ text := by
  intro hmem
  have hall : ∀ c ∈ text, self.isdigit c = true := by
    simp [all_digits] at h
    exact h.2
  have hc := self.isdigit_of_ascii hc
  rw [hall c hmem, hdigit] at hc
  cases hc

end Numerals

/-- The digits of Latin-1. -/
def latin_numerals : Numerals where
  isdigit c := c.isDigit || c = '²' || c = '³' || c = '¹'
  decimal c := if c.isDigit then some (c.toNat - 48) else none
  max_str_digits := some 4300
  limit_ge := by
    intro limit h
    cases h
    decide
  decimal_lt := by
    intro c n h
    split at h
    · next hdigit =>
      cases h
      have hrange := range_of_isDigit hdigit
      omega
    · cases h
  isdigit_of_decimal := by
    intro c n h
    split at h
    · next hdigit => simp [hdigit]
    · cases h
  isdigit_of_ascii := by
    intro c hc
    have hne : ∀ d : Char, 128 ≤ d.toNat → c ≠ d := by
      intro d hd heq
      rw [heq] at hc
      omega
    simp [hne '²' (by decide), hne '³' (by decide), hne '¹' (by decide)]
  decimal_of_ascii := fun _ => rfl

end Servo.Python
