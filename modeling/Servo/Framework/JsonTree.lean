import Mathlib.Data.Char
import Servo.Framework.Fallible
import Servo.Framework.OrderedMap

/-! # JSON Texts

    A JSON text is read from the front, value by value. A value that is written
    in one of several styles (with or without blanks, with or without escapes
    for what is not ASCII) is read back, whatever follows it.
-/

/-- A JSON value. Numbers are kept as they are written. -/
inductive JsonTree where
  | null
  | bool (b : Bool)
  | number (literal : String)
  | string (text : String)
  | array (items : List JsonTree)
  /-- The members in the order in which their names came first. -/
  | object (members : List (String × JsonTree))

namespace JsonTree

/-- Why a text is not read. -/
inductive ReadError where
  /-- It is not a JSON text. -/
  | malformed
  /-- An integer has too many digits. -/
  | too_long
  /-- A string has a surrogate without its partner, so it is no text. -/
  | unpaired
  deriving DecidableEq

/-- A property of all values, from those that are in them. -/
@[elab_as_elim]
theorem induct {P : JsonTree → Prop} (null : P null) (bool : ∀ b, P (bool b))
    (number : ∀ literal, P (number literal)) (string : ∀ text, P (string text))
    (array : ∀ items, (∀ v ∈ items, P v) → P (array items))
    (object : ∀ members, (∀ m ∈ members, P m.2) → P (object members)) (v : JsonTree) : P v := by
  refine @JsonTree.rec P (fun items => ∀ v ∈ items, P v) (fun members => ∀ m ∈ members, P m.2)
    (fun m => P m.2) null bool number string array object ?_ ?_ ?_ ?_ ?_ v
  · simp
  · exact fun item items hitem hitems => List.forall_mem_cons.mpr ⟨hitem, hitems⟩
  · simp
  · exact fun m members hm hmembers => List.forall_mem_cons.mpr ⟨hm, hmembers⟩
  · exact fun _ _ hvalue => hvalue

/-! ### Reading -/

/-- Blanks between values. -/
def is_blank (c : Char) : Bool := c = ' ' || c = '\t' || c = '\n' || c = '\r'

def skip_blanks (text : List Char) : List Char := text.dropWhile is_blank

/-- The rest after a character, where it comes first. -/
def strip_char (c : Char) : List Char → Option (List Char)
  | [] => none
  | d :: rest => if d = c then some rest else none

/-- The value of a hexadecimal digit. -/
def hex_value (c : Char) : Option Nat :=
  if c.isDigit then some (c.toNat - 48)
  else if 'a' ≤ c && c ≤ 'f' then some (c.toNat - 87)
  else if 'A' ≤ c && c ≤ 'F' then some (c.toNat - 55)
  else none

/-- The code unit of four hexadecimal digits. -/
def hex_unit (a b c d : Char) : Option Nat := do
  let a ← hex_value a
  let b ← hex_value b
  let c ← hex_value c
  let d ← hex_value d
  some (4096 * a + 256 * b + 16 * c + d)

/-- What stands for the character after a backslash. -/
def escaped (c : Char) : Option Nat :=
  if c = '"' ∨ c = '\\' ∨ c = '/' then some c.toNat
  else if c = 'b' then some 8
  else if c = 'f' then some 12
  else if c = 'n' then some 10
  else if c = 'r' then some 13
  else if c = 't' then some 9
  else none

/-- The code points up to the closing quote, and the rest. A pair of surrogates still counts as
    two of them. -/
def read_units : List Char → Option (List Nat × List Char)
  | [] => none
  | '"' :: rest => some ([], rest)
  | '\\' :: 'u' :: a :: b :: c :: d :: rest =>
    (hex_unit a b c d).bind fun unit => (read_units rest).map fun p => (unit :: p.1, p.2)
  | '\\' :: c :: rest =>
    (escaped c).bind fun unit => (read_units rest).map fun p => (unit :: p.1, p.2)
  | c :: rest =>
    -- control characters are escaped
    if c.toNat < 32 then none else (read_units rest).map fun p => (c.toNat :: p.1, p.2)

def is_high (unit : Nat) : Bool := 0xD800 ≤ unit && unit < 0xDC00

def is_low (unit : Nat) : Bool := 0xDC00 ≤ unit && unit < 0xE000

/-- Pairs of surrogates become characters. -/
def join_surrogates : List Nat → List Nat
  | high :: low :: rest =>
    if is_high high && is_low low then
      (0x10000 + (high - 0xD800) * 0x400 + (low - 0xDC00)) :: join_surrogates rest
    else high :: join_surrogates (low :: rest)
  | units => units

/-- The character of a code point that is no surrogate. -/
def char_of_point (n : Nat) : Option Char :=
  if n < 0xD800 ∨ 0xDFFF < n then some (Char.ofNat n) else none

/-- The text of code points; `none` where a surrogate is left. -/
def text_of_units (units : List Nat) : Option String :=
  ((join_surrogates units).mapM char_of_point).map String.ofList

/-- What follows the opening quote of a string, and the rest. -/
def read_string (text : List Char) : Except ReadError (String × List Char) :=
  match read_units text with
  | none => .error .malformed
  | some (units, rest) =>
    match text_of_units units with
    | some text => .ok (text, rest)
    | none => .error .unpaired

/-- The digits of a fraction, with the point. -/
def read_fraction : List Char → List Char × List Char
  | '.' :: rest =>
    if (rest.takeWhile Char.isDigit).isEmpty then ([], '.' :: rest)
    else ('.' :: rest.takeWhile Char.isDigit, rest.dropWhile Char.isDigit)
  | text => ([], text)

/-- The sign of an exponent. -/
def read_sign : List Char → List Char × List Char
  | '+' :: rest => (['+'], rest)
  | '-' :: rest => (['-'], rest)
  | text => ([], text)

/-- An exponent, with its letter. -/
def read_exponent : List Char → List Char × List Char
  | [] => ([], [])
  | c :: rest =>
    if c = 'e' ∨ c = 'E' then
      if ((read_sign rest).2.takeWhile Char.isDigit).isEmpty then ([], c :: rest)
      else (c :: ((read_sign rest).1 ++ (read_sign rest).2.takeWhile Char.isDigit),
        (read_sign rest).2.dropWhile Char.isDigit)
    else ([], c :: rest)

/-- The digits before the point: no zero comes before others. -/
def read_digits : List Char → Option (List Char × List Char)
  | '0' :: rest => some (['0'], rest)
  | text =>
    if (text.takeWhile Char.isDigit).isEmpty then none
    else some (text.takeWhile Char.isDigit, text.dropWhile Char.isDigit)

def minus (text : List Char) : List Char := if text.head? = some '-' then ['-'] else []

/-- The rest after a character that comes next. -/
def after (c : Char) (text : List Char) : Option (List Char) := strip_char c (skip_blanks text)

/-- The name of a member with its colon, and the rest. -/
def read_name (text : List Char) : Except ReadError (String × List Char) :=
  match strip_char '"' text with
  | none => .error .malformed
  | some rest => (read_string rest).bind fun p =>
    match after ':' p.2 with
    | none => .error .malformed
    | some rest => .ok (p.1, skip_blanks rest)

section limit

variable (max_digits : Option Nat)

/-- A number. The limit is for integers only. -/
def read_number (text : List Char) : Except ReadError (JsonTree × List Char) :=
  match read_digits (text.drop (minus text).length) with
  | none => .error .malformed
  | some (digits, rest) =>
    let fraction := (read_fraction rest).1
    let exponent := read_exponent (read_fraction rest).2
    if fraction = [] ∧ exponent.1 = [] ∧ max_digits.any (· < digits.length) then .error .too_long
    else .ok (.number (String.ofList (minus text ++ digits ++ fraction ++ exponent.1)), exponent.2)

/-- A value that has no other values in it, except for strings. -/
def read_scalar : List Char → Except ReadError (JsonTree × List Char)
  | 'n' :: 'u' :: 'l' :: 'l' :: rest => .ok (.null, rest)
  | 't' :: 'r' :: 'u' :: 'e' :: rest => .ok (.bool true, rest)
  | 'f' :: 'a' :: 'l' :: 's' :: 'e' :: rest => .ok (.bool false, rest)
  | 'N' :: 'a' :: 'N' :: rest => .ok (.number "NaN", rest)
  | 'I' :: 'n' :: 'f' :: 'i' :: 'n' :: 'i' :: 't' :: 'y' :: rest => .ok (.number "Infinity", rest)
  | '-' :: 'I' :: 'n' :: 'f' :: 'i' :: 'n' :: 'i' :: 't' :: 'y' :: rest =>
    .ok (.number "-Infinity", rest)
  | text => read_number max_digits text

mutual

/-- The value at the front, and the rest. -/
def read_value : Nat → List Char → Except ReadError (JsonTree × List Char)
  | 0, _ => .error .malformed
  | _ + 1, '"' :: rest => (read_string rest).map fun p => (.string p.1, p.2)
  | fuel + 1, '\x7b' :: rest =>
    match after '\x7d' rest with
    | some rest => .ok (.object [], rest)
    | none => (read_members fuel [] (skip_blanks rest)).map fun p => (.object p.1, p.2)
  | fuel + 1, '[' :: rest =>
    match after ']' rest with
    | some rest => .ok (.array [], rest)
    | none => (read_items fuel (skip_blanks rest)).map fun p => (.array p.1, p.2)
  | _ + 1, text => read_scalar max_digits text

/-- The items up to the closing bracket, at least one. -/
def read_items : Nat → List Char → Except ReadError (List JsonTree × List Char)
  | 0, _ => .error .malformed
  | fuel + 1, text => (read_value fuel text).bind fun p =>
    match after ',' p.2 with
    | some rest => (read_items fuel (skip_blanks rest)).map fun q => (p.1 :: q.1, q.2)
    | none =>
      match after ']' p.2 with
      | some rest => .ok ([p.1], rest)
      | none => .error .malformed

/-- The members up to the closing brace, at least one, after those that have been read. -/
def read_members : Nat → List (String × JsonTree) → List Char →
    Except ReadError (List (String × JsonTree) × List Char)
  | 0, _, _ => .error .malformed
  | fuel + 1, members, text => (read_name text).bind fun p => (read_value fuel p.2).bind fun q =>
    match after ',' q.2 with
    -- the last of several members with one name counts
    | some rest => read_members fuel (OrderedMap.set members p.1 q.1) (skip_blanks rest)
    | none =>
      match after '\x7d' q.2 with
      | some rest => .ok (OrderedMap.set members p.1 q.1, rest)
      | none => .error .malformed

end

/-- A whole text: one value, with blanks around it. -/
def read (text : String) : Except ReadError JsonTree := do
  let (value, rest) ← read_value max_digits (2 * text.length + 1) (skip_blanks text.toList)
  if skip_blanks rest = [] then .ok value else .error .malformed

end limit

/-! ### There is always enough fuel -/

section fuel

variable {text rest : List Char}

theorem length_skip_blanks (text : List Char) : (skip_blanks text).length ≤ text.length :=
  (List.dropWhile_sublist _).length_le

theorem length_read_units {units : List Nat} (h : read_units text = some (units, rest)) :
    rest.length < text.length := by
  fun_induction read_units text generalizing units with
  | case1 => cases h
  | case2 rest' =>
    cases h
    simp
  | case3 a b c d rest' ih =>
    obtain ⟨unit, -, h⟩ := Option.bind_eq_some_iff.mp h
    obtain ⟨p, hp, heq⟩ := Option.map_eq_some_iff.mp h
    cases heq
    have hlt := ih hp
    simp only [List.length_cons]
    omega
  | case4 c rest' _ ih =>
    obtain ⟨unit, -, h⟩ := Option.bind_eq_some_iff.mp h
    obtain ⟨p, hp, heq⟩ := Option.map_eq_some_iff.mp h
    cases heq
    have hlt := ih hp
    simp only [List.length_cons]
    omega
  | case5 c rest' => cases h
  | case6 c rest' _ _ _ _ ih =>
    obtain ⟨p, hp, heq⟩ := Option.map_eq_some_iff.mp h
    cases heq
    have hlt := ih hp
    simp only [List.length_cons]
    omega

theorem length_read_string {string : String} (h : read_string text = .ok (string, rest)) :
    rest.length < text.length := by
  unfold read_string at h
  split at h
  · cases h
  · next units rest' hunits =>
    have hlt := length_read_units hunits
    split at h
    · cases h
      exact hlt
    · cases h

theorem length_read_digits {digits : List Char} (h : read_digits text = some (digits, rest)) :
    rest.length < text.length := by
  unfold read_digits at h
  split at h
  · cases h
    simp
  · split at h
    · cases h
    · next hne =>
      cases h
      have hsplit := congrArg List.length
        (List.takeWhile_append_dropWhile (p := Char.isDigit) (l := text))
      rw [List.length_append] at hsplit
      have hpos : 0 < (text.takeWhile Char.isDigit).length := by
        rw [List.length_pos_iff]
        simpa using hne
      omega

theorem length_read_fraction (text : List Char) :
    (read_fraction text).2.length ≤ text.length := by
  unfold read_fraction
  split
  · split
    · exact le_refl _
    · exact Nat.le_succ_of_le (List.Sublist.length_le (List.dropWhile_sublist _))
  · exact le_refl _

theorem length_read_sign (text : List Char) : (read_sign text).2.length ≤ text.length := by
  unfold read_sign
  split <;> simp

theorem length_read_exponent (text : List Char) :
    (read_exponent text).2.length ≤ text.length := by
  unfold read_exponent
  split
  · exact le_refl _
  · next c rest' =>
    have hsign := length_read_sign rest'
    have hdigits := (List.dropWhile_sublist (l := (read_sign rest').2) Char.isDigit).length_le
    split
    · split
      · exact le_refl _
      · simp only [List.length_cons]
        omega
    · exact le_refl _

variable {max_digits : Option Nat}

theorem length_read_number {v : JsonTree} (h : read_number max_digits text = .ok (v, rest)) :
    rest.length < text.length := by
  unfold read_number at h
  split at h
  · cases h
  · next digits rest' hdigits =>
    have hlt := length_read_digits hdigits
    have hfraction := length_read_fraction rest'
    have hexponent := length_read_exponent (read_fraction rest').2
    simp only at h
    split at h
    · cases h
    · cases h
      rw [List.length_drop] at hlt
      omega

theorem length_read_scalar {v : JsonTree} (h : read_scalar max_digits text = .ok (v, rest)) :
    rest.length < text.length := by
  unfold read_scalar at h
  split at h
  · cases h; simp; omega
  · cases h; simp; omega
  · cases h; simp; omega
  · cases h; simp; omega
  · cases h; simp; omega
  · cases h; simp; omega
  · exact length_read_number h

theorem length_strip_char {c : Char} (h : strip_char c text = some rest) :
    rest.length < text.length := by
  cases text with
  | nil => cases h
  | cons d text =>
    rw [strip_char] at h
    split at h
    · cases h
      simp
    · cases h

theorem length_after {c : Char} (h : after c text = some rest) : rest.length < text.length :=
  Nat.lt_of_lt_of_le (length_strip_char h) (length_skip_blanks text)

theorem length_read_name {name : String} (h : read_name text = .ok (name, rest)) :
    rest.length < text.length := by
  unfold read_name at h
  split at h
  · cases h
  · next text' hquote =>
    have hlt := length_strip_char hquote
    obtain ⟨p, hp, h⟩ := Fallible.bind_eq_ok_iff.mp h
    have hstring := length_read_string hp
    split at h
    · cases h
    · next text'' hcolon =>
      cases h
      have hafter := length_after hcolon
      have hblanks := length_skip_blanks text''
      omega

/-- Whatever is read takes something of the text. -/
theorem length_read_value (fuel : Nat) :
    (∀ {text rest v}, read_value max_digits fuel text = .ok (v, rest) →
      rest.length < text.length) ∧
    (∀ {text rest items}, read_items max_digits fuel text = .ok (items, rest) →
      rest.length < text.length) ∧
    ∀ {text rest front members}, read_members max_digits fuel front text = .ok (members, rest) →
      rest.length < text.length := by
  induction fuel with
  | zero =>
    refine ⟨?_, ?_, ?_⟩
    · intro text rest v h
      cases h
    · intro text rest v h
      cases h
    · intro text rest front members h
      cases h
  | succ fuel ih =>
    obtain ⟨hvalue, hitems, hmembers⟩ := ih
    refine ⟨?_, ?_, ?_⟩
    · intro text rest v h
      unfold read_value at h
      split at h
      · next heq =>
        cases heq
      · obtain ⟨p, hp, heq⟩ := Fallible.map_eq_ok_iff.mp h
        cases heq
        exact Nat.lt_succ_of_lt (length_read_string hp)
      · next text' hfuel =>
        cases hfuel
        have hblanks := length_skip_blanks text'
        split at h
        · next text'' hclose =>
          cases h
          exact Nat.lt_succ_of_lt (length_after hclose)
        · obtain ⟨p, hp, heq⟩ := Fallible.map_eq_ok_iff.mp h
          cases heq
          have hlt := hmembers hp
          simp only [List.length_cons]
          omega
      · next text' hfuel =>
        cases hfuel
        have hblanks := length_skip_blanks text'
        split at h
        · next text'' hclose =>
          cases h
          exact Nat.lt_succ_of_lt (length_after hclose)
        · obtain ⟨p, hp, heq⟩ := Fallible.map_eq_ok_iff.mp h
          cases heq
          have hlt := hitems hp
          simp only [List.length_cons]
          omega
      · exact length_read_scalar h
    · intro text rest items h
      obtain ⟨p, hp, h⟩ := Fallible.bind_eq_ok_iff.mp h
      have hitem := hvalue hp
      split at h
      · next text' hcomma =>
        obtain ⟨q, hq, heq⟩ := Fallible.map_eq_ok_iff.mp h
        cases heq
        have hlt := hitems hq
        have hafter := length_after hcomma
        have hblanks := length_skip_blanks text'
        omega
      · split at h
        · next text' hclose =>
          cases h
          have hafter := length_after hclose
          omega
        · cases h
    · intro text rest front members h
      obtain ⟨p, hp, h⟩ := Fallible.bind_eq_ok_iff.mp h
      obtain ⟨q, hq, h⟩ := Fallible.bind_eq_ok_iff.mp h
      have hname := length_read_name hp
      have hmember := hvalue hq
      split at h
      · next text' hcomma =>
        have hlt := hmembers h
        have hafter := length_after hcomma
        have hblanks := length_skip_blanks text'
        omega
      · split at h
        · next text' hclose =>
          cases h
          have hafter := length_after hclose
          omega
        · cases h

/-- **Enough fuel is twice the length of the text**: more fuel makes no difference. -/
theorem read_value_eq (fuel : Nat) : ∀ fuel',
    (∀ {text}, 2 * text.length < fuel → 2 * text.length < fuel' →
      read_value max_digits fuel text = read_value max_digits fuel' text) ∧
    (∀ {text}, 2 * text.length + 1 < fuel → 2 * text.length + 1 < fuel' →
      read_items max_digits fuel text = read_items max_digits fuel' text) ∧
    ∀ {text front}, 2 * text.length < fuel → 2 * text.length < fuel' →
      read_members max_digits fuel front text = read_members max_digits fuel' front text := by
  induction fuel with
  | zero =>
    intro fuel'
    refine ⟨?_, ?_, ?_⟩
    · intro text h
      exact absurd h (Nat.not_lt_zero _)
    · intro text h
      exact absurd h (Nat.not_lt_zero _)
    · intro text front h
      exact absurd h (Nat.not_lt_zero _)
  | succ fuel ih =>
    intro fuel'
    cases fuel' with
    | zero =>
      refine ⟨?_, ?_, ?_⟩
      · intro text _ h
        exact absurd h (Nat.not_lt_zero _)
      · intro text _ h
        exact absurd h (Nat.not_lt_zero _)
      · intro text front _ h
        exact absurd h (Nat.not_lt_zero _)
    | succ fuel' =>
      obtain ⟨hvalue, hitems, hmembers⟩ := ih fuel'
      refine ⟨?_, ?_, ?_⟩
      · intro text h h'
        unfold read_value
        split
        · next heq =>
          cases heq
        · rfl
        · next text' heq =>
          cases heq
          have hblanks := length_skip_blanks text'
          rw [List.length_cons] at h h'
          split
          · rfl
          · rw [hmembers (by omega) (by omega)]
        · next text' heq =>
          cases heq
          have hblanks := length_skip_blanks text'
          rw [List.length_cons] at h h'
          split
          · rfl
          · rw [hitems (by omega) (by omega)]
        · rfl
      · intro text h h'
        rw [read_items, read_items, hvalue (by omega) (by omega)]
        cases hread : read_value max_digits fuel' text with
        | error e => rfl
        | ok p =>
          have hlt := (length_read_value fuel').1 hread
          simp only [Except.bind]
          split
          · next text' hcomma =>
            have hafter := length_after hcomma
            have hblanks := length_skip_blanks text'
            rw [hitems (by omega) (by omega)]
          · rfl
      · intro text front h h'
        rw [read_members, read_members]
        cases hname : read_name text with
        | error e => rfl
        | ok p =>
          have hlt := length_read_name hname
          simp only [Except.bind]
          rw [hvalue (by omega) (by omega)]
          cases hread : read_value max_digits fuel' p.2 with
          | error e => rfl
          | ok q =>
            have hlt' := (length_read_value fuel').1 hread
            simp only
            split
            · next text' hcomma =>
              have hafter := length_after hcomma
              have hblanks := length_skip_blanks text'
              rw [hmembers (by omega) (by omega)]
            · rfl

end fuel

/-! ### Writing -/

end JsonTree

/-- A way of writing texts: what stands for a character in a string, and what comes after a comma
    or a colon. -/
structure JsonStyle where
  char : Char → List Char
  gap : List Char
  /-- What is written of a number that has been read. -/
  number : String → List Char
  /-- The code points that are read of a character. -/
  units : Char → List Nat
  blank_of_mem_gap : ∀ c ∈ gap, JsonTree.is_blank c = true
  read_char : ∀ c rest, JsonTree.read_units (char c ++ rest) =
    (JsonTree.read_units rest).map fun p => (units c ++ p.1, p.2)
  join_units : ∀ c rest, JsonTree.join_surrogates (units c ++ rest) =
    c.toNat :: JsonTree.join_surrogates rest

namespace JsonTree

variable (s : JsonStyle)

/-- What follows the opening quote. -/
def write_chars (text : String) : List Char := text.toList.flatMap s.char ++ ['"']

mutual

def write : JsonTree → List Char
  | null => "null".toList
  | bool b => if b then "true".toList else "false".toList
  | number literal => s.number literal
  | string text => '"' :: write_chars s text
  | array [] => ['[', ']']
  | array (item :: items) => '[' :: (write item ++ write_items items)
  | object [] => ['\x7b', '\x7d']
  | object ((name, value) :: members) =>
    '\x7b' :: '"' ::
      (write_chars s name ++ ':' :: (s.gap ++ (write value ++ write_members members)))

/-- What follows an item. -/
def write_items : List JsonTree → List Char
  | [] => [']']
  | item :: items => ',' :: (s.gap ++ (write item ++ write_items items))

/-- What follows a member. -/
def write_members : List (String × JsonTree) → List Char
  | [] => ['\x7d']
  | (name, value) :: members =>
    ',' :: (s.gap ++ '"' ::
      (write_chars s name ++ ':' :: (s.gap ++ (write value ++ write_members members))))

end

mutual

/-- There are no numbers in the value, and the members of its objects have distinct names. -/
def Textual : JsonTree → Prop
  | number _ => False
  | array items => items_textual items
  | object members => (members.map Prod.fst).Nodup ∧ members_textual members
  | _ => True

def items_textual : List JsonTree → Prop
  | [] => True
  | item :: items => Textual item ∧ items_textual items

def members_textual : List (String × JsonTree) → Prop
  | [] => True
  | (_, value) :: members => Textual value ∧ members_textual members

end

theorem items_textual_iff {items : List JsonTree} :
    items_textual items ↔ ∀ v ∈ items, v.Textual := by
  induction items with
  | nil => simp [items_textual]
  | cons item items ih => rw [items_textual, List.forall_mem_cons, ih]

theorem members_textual_iff {members : List (String × JsonTree)} :
    members_textual members ↔ ∀ m ∈ members, m.2.Textual := by
  induction members with
  | nil => simp [members_textual]
  | cons m members ih => rw [members_textual, List.forall_mem_cons, ih]

@[simp] theorem textual_array {items : List JsonTree} :
    (array items).Textual ↔ ∀ v ∈ items, v.Textual := by
  rw [Textual, items_textual_iff]

@[simp] theorem textual_object {members : List (String × JsonTree)} :
    (object members).Textual ↔
      (members.map Prod.fst).Nodup ∧ ∀ m ∈ members, m.2.Textual := by
  rw [Textual, members_textual_iff]

@[simp] theorem textual_string (text : String) : (string text).Textual := by simp [Textual]

/-! ### Characters in strings -/

section characters

theorem join_cons {unit : Nat} (h : is_high unit = false) (rest : List Nat) :
    join_surrogates (unit :: rest) = unit :: join_surrogates rest := by
  cases rest with
  | nil => rfl
  | cons next rest => simp [join_surrogates, h]

/-- A character is no surrogate. -/
theorem not_is_high (c : Char) : is_high c.toNat = false := by
  rcases c.valid with hlow | hhigh
  · have hlow : c.toNat < 0xD800 := hlow
    simp [is_high]
    omega
  · have hhigh : 0xDFFF < c.toNat := hhigh.1
    simp [is_high]
    omega

theorem read_units_plain {c : Char} (h : 32 ≤ c.toNat) (hquote : c ≠ '"')
    (hback : c ≠ '\\') (rest : List Char) :
    read_units (c :: rest) = (read_units rest).map fun p => (c.toNat :: p.1, p.2) := by
  rw [read_units]
  · rw [if_neg (by omega)]
  · exact fun hc => absurd hc hquote
  · intro _ _ _ _ _ hc
    exact absurd hc hback
  · intro _ _ hc
    exact absurd hc hback

theorem read_units_escaped {c : Char} {unit : Nat} (h : escaped c = some unit)
    (rest : List Char) :
    read_units ('\\' :: c :: rest) = (read_units rest).map fun p => (unit :: p.1, p.2) := by
  have hne : c ≠ 'u' := by
    intro hc
    rw [hc] at h
    cases h
  rw [read_units]
  · rw [h]
    rfl
  · intro _ _ _ _ _ hc
    exact absurd hc hne

/-- A lower-case hexadecimal digit. -/
def hex_digit (n : Nat) : Char := Nat.digitChar (n % 16)

theorem hex_value_hex_digit (n : Nat) : hex_value (hex_digit n) = some (n % 16) := by
  have hdigits : ∀ d < 16, hex_value (Nat.digitChar d) = some d := by decide
  exact hdigits _ (Nat.mod_lt n (by decide))

/-- `\u` and four digits. -/
def escape_unit (unit : Nat) : List Char :=
  ['\\', 'u', hex_digit (unit / 4096), hex_digit (unit / 256), hex_digit (unit / 16),
    hex_digit unit]

theorem read_escape_unit {unit : Nat} (h : unit < 0x10000) (rest : List Char) :
    read_units (escape_unit unit ++ rest) =
      (read_units rest).map fun p => (unit :: p.1, p.2) := by
  have hunit : 4096 * (unit / 4096 % 16) + 256 * (unit / 256 % 16) + 16 * (unit / 16 % 16) +
      unit % 16 = unit := by omega
  simp only [escape_unit, List.cons_append, List.nil_append, read_units, hex_unit,
    hex_value_hex_digit, bind, Option.bind_some, hunit]

end characters

/-! ### What is written is read back -/

section round_trip

variable {s} (max_digits : Option Nat)

theorem read_units_chars (text rest : List Char) :
    read_units (text.flatMap s.char ++ '"' :: rest) = some (text.flatMap s.units, rest) := by
  induction text with
  | nil => simp [read_units]
  | cons c text ih =>
    rw [List.flatMap_cons, List.append_assoc, s.read_char, ih]
    simp

theorem join_units (text : List Char) :
    join_surrogates (text.flatMap s.units) = text.map Char.toNat := by
  induction text with
  | nil => rfl
  | cons c text ih => rw [List.flatMap_cons, s.join_units, ih, List.map_cons]

theorem char_of_point_toNat (c : Char) : char_of_point c.toNat = some c := by
  have hvalid : c.toNat < 0xD800 ∨ 0xDFFF < c.toNat := by
    rcases c.valid with hlow | hhigh
    · exact .inl hlow
    · exact .inr hhigh.1
  rw [char_of_point, if_pos hvalid, Char.ofNat_toNat]

theorem text_of_units_chars (text : String) :
    text_of_units (text.toList.flatMap s.units) = some text := by
  have hchars : ∀ cs : List Char, (cs.map Char.toNat).mapM char_of_point = some cs := by
    intro cs
    induction cs with
    | nil => rfl
    | cons c cs ih =>
      rw [List.map_cons, List.mapM_cons, char_of_point_toNat, ih]
      rfl
  rw [text_of_units, join_units, hchars]
  simp

theorem read_string_write (text : String) (rest : List Char) :
    read_string (write_chars s text ++ rest) = .ok (text, rest) := by
  rw [write_chars, List.append_assoc, List.singleton_append, read_string, read_units_chars]
  simp only [text_of_units_chars]

theorem after_self {c : Char} (h : is_blank c = false) (rest : List Char) :
    after c (c :: rest) = some rest := by
  simp [after, skip_blanks, strip_char, h]

theorem after_other {c d : Char} (h : is_blank d = false) (hne : d ≠ c) (rest : List Char) :
    after c (d :: rest) = none := by
  simp [after, skip_blanks, strip_char, h, hne]

theorem skip_gap (rest : List Char) : skip_blanks (s.gap ++ rest) = skip_blanks rest :=
  List.dropWhile_append_of_pos s.blank_of_mem_gap

theorem skip_of_head {c : Char} (h : is_blank c = false) (rest : List Char) :
    skip_blanks (c :: rest) = c :: rest := by
  simp [skip_blanks, h]

/-- What is written of a value starts neither with a blank nor with a closing bracket. -/
theorem write_eq_cons {v : JsonTree} (h : v.Textual) :
    ∃ c rest, v.write s = c :: rest ∧ is_blank c = false ∧ c ≠ ']' := by
  cases v with
  | null => exact ⟨'n', _, by rw [write]; rfl, by decide, by decide⟩
  | bool b =>
    cases b with
    | true => exact ⟨'t', _, by rw [write]; rfl, by decide, by decide⟩
    | false => exact ⟨'f', _, by rw [write]; rfl, by decide, by decide⟩
  | number literal => exact absurd h (by simp [Textual])
  | string text => exact ⟨'"', _, by rw [write], by decide, by decide⟩
  | array items =>
    cases items with
    | nil => exact ⟨'[', _, by rw [write], by decide, by decide⟩
    | cons item items => exact ⟨'[', _, by rw [write], by decide, by decide⟩
  | object members =>
    cases members with
    | nil => exact ⟨'\x7b', _, by rw [write], by decide, by decide⟩
    | cons m members => exact ⟨'\x7b', _, by rw [write], by decide, by decide⟩

theorem skip_write {v : JsonTree} (h : v.Textual) (rest : List Char) :
    skip_blanks (v.write s ++ rest) = v.write s ++ rest := by
  obtain ⟨c, tail, hwrite, hblank, -⟩ := write_eq_cons (s := s) h
  rw [hwrite, List.cons_append, skip_of_head hblank]

/-- The value is read back, whatever follows it. -/
def ReadBack (s : JsonStyle) (max_digits : Option Nat) (v : JsonTree) : Prop :=
  ∀ fuel rest, 2 * (v.write s ++ rest).length < fuel →
    read_value max_digits fuel (v.write s ++ rest) = .ok (v, rest)

/-- The items of an array, up to the closing bracket. -/
theorem read_items_write {items : List JsonTree} {item : JsonTree}
    (hread : ∀ v ∈ item :: items, ReadBack s max_digits v)
    (h : ∀ v ∈ items, v.Textual) {fuel : Nat} {rest : List Char}
    (hfuel : 2 * (item.write s ++ (write_items s items ++ rest)).length + 1 < fuel) :
    read_items max_digits fuel (item.write s ++ (write_items s items ++ rest)) =
      .ok (item :: items, rest) := by
  induction items generalizing item fuel with
  | nil =>
    obtain ⟨fuel, rfl⟩ : ∃ n, fuel = n + 1 := ⟨fuel - 1, by omega⟩
    rw [read_items, hread item (by simp) fuel _ (by omega)]
    rfl
  | cons next items ih =>
    obtain ⟨fuel, rfl⟩ : ∃ n, fuel = n + 1 := ⟨fuel - 1, by omega⟩
    obtain ⟨hnext, hitems⟩ := List.forall_mem_cons.mp h
    rw [read_items, hread item (by simp) fuel _ (by omega)]
    simp only [write_items, List.cons_append, List.append_assoc, List.length_append,
      List.length_cons] at hfuel ⊢
    have hrest := @ih next (fun v hv => hread v (List.mem_cons_of_mem _ hv)) hitems fuel
      (by simp only [List.length_append]; omega)
    have hskip : skip_blanks (s.gap ++ (next.write s ++ (write_items s items ++ rest))) =
        next.write s ++ (write_items s items ++ rest) := by
      rw [skip_gap, skip_write hnext]
    have hcomma := after_self (c := ',') (by decide)
    simp only [Except.bind, hcomma, hskip, hrest, Except.map]

theorem read_name_write (name : String) (rest : List Char) :
    read_name ('"' :: (write_chars s name ++ ':' :: rest)) = .ok (name, skip_blanks rest) := by
  rw [read_name, strip_char, if_pos rfl]
  simp only [read_string_write, Except.bind, after_self (c := ':') (by decide)]

/-- The members of an object, up to the closing brace. -/
theorem read_members_write {members front : List (String × JsonTree)} {name : String}
    {value : JsonTree} (hread : ∀ m ∈ (name, value) :: members, ReadBack s max_digits m.2)
    (h : ∀ m ∈ (name, value) :: members, m.2.Textual)
    (hnames : ((front ++ (name, value) :: members).map Prod.fst).Nodup) {fuel : Nat}
    {rest : List Char}
    (hfuel : 2 * (write_chars s name ++ ':' :: (s.gap ++
      (value.write s ++ (write_members s members ++ rest)))).length < fuel) :
    read_members max_digits fuel front ('"' :: (write_chars s name ++ ':' :: (s.gap ++
      (value.write s ++ (write_members s members ++ rest))))) =
        .ok (front ++ (name, value) :: members, rest) := by
  have hfirst : name ∉ front.map Prod.fst := by
    rw [List.map_append, List.nodup_append] at hnames
    intro hmem
    exact hnames.2.2 name hmem name (by simp) rfl
  induction members generalizing front name value fuel with
  | nil =>
    obtain ⟨fuel, rfl⟩ : ∃ n, fuel = n + 1 := ⟨fuel - 1, by omega⟩
    simp only [List.length_append, List.length_cons] at hfuel
    have hvalue := hread (name, value) (by simp) fuel (write_members s [] ++ rest)
      (by simp only [List.length_append]; omega)
    have hskip := skip_write (s := s) (h (name, value) (by simp)) (write_members s [] ++ rest)
    rw [read_members, read_name_write, skip_gap, hskip]
    simp only [Except.bind, hvalue, OrderedMap.set_of_notMem hfirst]
    rfl
  | cons next members ih =>
    obtain ⟨next, next_value⟩ := next
    obtain ⟨fuel, rfl⟩ : ∃ n, fuel = n + 1 := ⟨fuel - 1, by omega⟩
    have hvalue := hread (name, value) (by simp) fuel
      (write_members s ((next, next_value) :: members) ++ rest)
      (by simp only [List.length_append, List.length_cons] at hfuel ⊢; omega)
    have hskip := skip_write (s := s) (h (name, value) (by simp))
      (write_members s ((next, next_value) :: members) ++ rest)
    have hassoc : front ++ (name, value) :: (next, next_value) :: members =
        (front ++ [(name, value)]) ++ (next, next_value) :: members := by simp
    have hnext : next ∉ (front ++ [(name, value)]).map Prod.fst := by
      rw [hassoc, List.map_append, List.nodup_append] at hnames
      intro hmem
      exact hnames.2.2 next hmem next (by simp) rfl
    simp only [write_members, List.cons_append, List.append_assoc, List.length_append,
      List.length_cons] at hfuel hvalue hskip ⊢
    have hrest := @ih (front ++ [(name, value)]) next next_value
      (fun m hm => hread m (List.mem_cons_of_mem _ hm))
      (fun m hm => h m (List.mem_cons_of_mem _ hm)) (by rwa [hassoc] at hnames) fuel
      (by simp only [List.length_append, List.length_cons]; omega) hnext
    have hcomma := after_self (c := ',') (by decide)
    have hquote := skip_of_head (c := '"') (by decide)
    rw [read_members, read_name_write, skip_gap, hskip]
    simp only [Except.bind, hvalue, hcomma, skip_gap, hquote, OrderedMap.set_of_notMem hfirst,
      hrest, hassoc]

/-- Members that have been read stay. -/
theorem names_of_read_members {fuel : Nat} {front members : List (String × JsonTree)}
    {text rest : List Char} (h : read_members max_digits fuel front text = .ok (members, rest))
    {name : String} (hname : name ∈ front.map Prod.fst) : name ∈ members.map Prod.fst := by
  induction fuel generalizing front text with
  | zero => cases h
  | succ fuel ih =>
    obtain ⟨p, -, h⟩ := Fallible.bind_eq_ok_iff.mp h
    obtain ⟨q, -, h⟩ := Fallible.bind_eq_ok_iff.mp h
    have hset : name ∈ (OrderedMap.set front p.1 q.1).map Prod.fst :=
      OrderedMap.mem_keys_set.mpr (.inl hname)
    split at h
    · exact ih h hset
    · split at h
      · cases h
        exact hset
      · cases h

/-- The name of a member is read, if the members before it are. -/
theorem name_of_read_members {good : List (String × JsonTree)} {name : String}
    {value : JsonTree} {others front members : List (String × JsonTree)} {rest rest' : List Char}
    (hread : ∀ m ∈ good, ReadBack s max_digits m.2 ∧ m.2.Textual)
    {m : String × JsonTree} {tail : List (String × JsonTree)}
    (hsplit : m :: tail = good ++ (name, value) :: others) {fuel : Nat}
    (hfuel : 2 * (write_chars s m.1 ++ ':' :: (s.gap ++
      (m.2.write s ++ (write_members s tail ++ rest)))).length < fuel)
    (h : read_members max_digits fuel front ('"' :: (write_chars s m.1 ++ ':' :: (s.gap ++
      (m.2.write s ++ (write_members s tail ++ rest))))) = .ok (members, rest')) :
    name ∈ members.map Prod.fst := by
  induction good generalizing m tail front fuel with
  | nil =>
    rw [List.nil_append, List.cons.injEq] at hsplit
    obtain ⟨rfl, rfl⟩ := hsplit
    obtain ⟨fuel, rfl⟩ : ∃ n, fuel = n + 1 := ⟨fuel - 1, by omega⟩
    obtain ⟨p, hp, h⟩ := Fallible.bind_eq_ok_iff.mp h
    rw [read_name_write] at hp
    cases hp
    obtain ⟨q, -, h⟩ := Fallible.bind_eq_ok_iff.mp h
    have hset : name ∈ (OrderedMap.set front name q.1).map Prod.fst :=
      OrderedMap.mem_keys_set.mpr (.inr rfl)
    split at h
    · exact names_of_read_members max_digits h hset
    · split at h
      · cases h
        exact hset
      · cases h
  | cons first good ih =>
    obtain ⟨next, tail', htail⟩ :
        ∃ next tail', good ++ (name, value) :: others = next :: tail' := by
      cases good with
      | nil => exact ⟨_, _, rfl⟩
      | cons => exact ⟨_, _, rfl⟩
    rw [List.cons_append, List.cons.injEq, htail] at hsplit
    obtain ⟨rfl, rfl⟩ := hsplit
    obtain ⟨⟨hvalue, htextual⟩, hgood⟩ := List.forall_mem_cons.mp hread
    obtain ⟨fuel, rfl⟩ : ∃ n, fuel = n + 1 := ⟨fuel - 1, by omega⟩
    have hfirst := hvalue fuel (write_members s (next :: tail') ++ rest)
      (by simp only [List.length_append, List.length_cons] at hfuel ⊢; omega)
    have hskip := skip_write (s := s) htextual (write_members s (next :: tail') ++ rest)
    obtain ⟨p, hp, h⟩ := Fallible.bind_eq_ok_iff.mp h
    rw [read_name_write, skip_gap, hskip] at hp
    cases hp
    obtain ⟨q, hq, h⟩ := Fallible.bind_eq_ok_iff.mp h
    rw [hfirst] at hq
    cases hq
    obtain ⟨next_name, next_value⟩ := next
    simp only [write_members, List.cons_append, List.append_assoc,
      after_self (c := ',') (by decide), skip_gap, skip_of_head (c := '"') (by decide),
      List.length_append, List.length_cons] at h hfuel
    exact ih hgood htail.symm (by simp only [List.length_append, List.length_cons]; omega) h

/-- **What is written is read back.** -/
theorem read_value_write (v : JsonTree) (h : v.Textual) : ReadBack s max_digits v := by
  induction v using induct with
  | null =>
    intro fuel rest hfuel
    obtain ⟨fuel, rfl⟩ : ∃ n, fuel = n + 1 := ⟨fuel - 1, by omega⟩
    rw [write]
    rfl
  | bool b =>
    intro fuel rest hfuel
    obtain ⟨fuel, rfl⟩ : ∃ n, fuel = n + 1 := ⟨fuel - 1, by omega⟩
    rw [write]
    cases b <;> rfl
  | number literal => simp [Textual] at h
  | string text =>
    intro fuel rest hfuel
    obtain ⟨fuel, rfl⟩ : ∃ n, fuel = n + 1 := ⟨fuel - 1, by omega⟩
    rw [write, List.cons_append, read_value, read_string_write]
    rfl
  | array items ih =>
    intro fuel rest hfuel
    obtain ⟨fuel, rfl⟩ : ∃ n, fuel = n + 1 := ⟨fuel - 1, by omega⟩
    cases items with
    | nil =>
      rw [write]
      rfl
    | cons item items =>
      rw [textual_array] at h
      have hitem := h item (by simp)
      simp only [write, List.cons_append, List.append_assoc, List.length_cons] at hfuel ⊢
      have hitems := @read_items_write s max_digits items item (fun v hv => ih v hv (h v hv))
        (fun v hv => h v (List.mem_cons_of_mem _ hv)) fuel rest (by omega)
      obtain ⟨c, tail, hwrite, hblank, hclose⟩ := write_eq_cons (s := s) hitem
      have hafter : after ']' (item.write s ++ (write_items s items ++ rest)) = none := by
        rw [hwrite, List.cons_append, after_other hblank hclose]
      rw [read_value, skip_write hitem, hafter]
      simp only [hitems, Except.map]
  | object members ih =>
    intro fuel rest hfuel
    obtain ⟨fuel, rfl⟩ : ∃ n, fuel = n + 1 := ⟨fuel - 1, by omega⟩
    cases members with
    | nil =>
      rw [write]
      rfl
    | cons m members =>
      obtain ⟨name, value⟩ := m
      rw [textual_object] at h
      simp only [write, List.cons_append, List.append_assoc, List.length_cons] at hfuel ⊢
      have hmembers := @read_members_write s max_digits members [] name value
        (fun m hm => ih m hm (h.2 m hm)) h.2 (by simpa using h.1) fuel rest (by omega)
      rw [read_value, after_other (by decide) (by decide), skip_of_head (by decide)]
      simp only [hmembers, Except.map, List.nil_append]

variable (s)

/-- The text of a value. -/
def text (v : JsonTree) : String := String.ofList (v.write s)

theorem read_text (v : JsonTree) (h : v.Textual) : read max_digits (v.text s) = .ok v := by
  have hvalue := read_value_write (s := s) max_digits v h (2 * (v.text s).length + 1) []
    (by simp [text])
  have hskip := skip_write (s := s) h []
  rw [List.append_nil] at hvalue hskip
  rw [read, text, String.toList_ofList, hskip, ← text, hvalue]
  rfl

/-- The name of a member is read with the whole text, if the members before it are. -/
theorem name_of_read {good others members : List (String × JsonTree)} {name : String}
    {value : JsonTree} (hgood : ∀ m ∈ good, m.2.Textual)
    (h : read max_digits ((object (good ++ (name, value) :: others)).text s) =
      .ok (object members)) : name ∈ members.map Prod.fst := by
  obtain ⟨m, tail, hsplit⟩ : ∃ m tail, good ++ (name, value) :: others = m :: tail := by
    cases good with
    | nil => exact ⟨_, _, rfl⟩
    | cons => exact ⟨_, _, rfl⟩
  obtain ⟨m_name, m_value⟩ := m
  rw [hsplit, read] at h
  obtain ⟨p, hp, h⟩ := Fallible.bind_eq_ok_iff.mp h
  have hlength : ((object ((m_name, m_value) :: tail)).text s).length =
      ((object ((m_name, m_value) :: tail)).write s).length := by simp [text]
  rw [hlength, text, String.toList_ofList] at hp
  simp only [write, List.length_cons] at hp
  rw [skip_of_head (by decide), read_value, after_other (by decide) (by decide),
    skip_of_head (by decide)] at hp
  obtain ⟨q, hq, rfl⟩ := Fallible.map_eq_ok_iff.mp hp
  simp only at h
  split at h
  · cases h
    refine @name_of_read_members s max_digits good name value others [] q.1 [] q.2 ?_
      (m_name, m_value) tail hsplit.symm _ ?_ (by simpa using hq)
    · exact fun m hm => ⟨read_value_write max_digits m.2 (hgood m hm), hgood m hm⟩
    · simp only [List.append_nil, List.length_append, List.length_cons]
      omega
  · cases h

/-- The text determines the value. -/
theorem text_inj {v w : JsonTree} (hv : v.Textual) (hw : w.Textual) (h : v.text s = w.text s) :
    v = w := by
  have hread := read_text s none v hv
  rw [h, read_text s none w hw] at hread
  cases hread
  rfl

end round_trip

end JsonTree
