import Mathlib.Data.BitVec

/-! # UUIDs and Their Text

    `uuid::Uuid` as a 128-bit word, with the hyphenated lower-case form its
    `Display` instance writes (8-4-4-4-12 hexadecimal digits). The text has
    fixed length and determines the word, which is what makes the keys built
    from it unambiguous.
-/

namespace Servo

/-- `uuid::Uuid`. -/
abbrev Uuid : Type := BitVec 128

-- So that membership in a list of UUIDs is decided alike wherever it is asked for
instance : LawfulBEq Uuid := inferInstance

namespace Uuid

/-- A lower-case hexadecimal digit. -/
def hex_digit (d : BitVec 4) : Char :=
  if d.toNat < 10 then Char.ofNat (48 + d.toNat) else Char.ofNat (87 + d.toNat)

/-- The 36 positions of the text: the index of a digit (31 is the most
    significant), or `none` for a hyphen. -/
def layout : List (Option Nat) :=
  [some 31, some 30, some 29, some 28, some 27, some 26, some 25, some 24, none,
   some 23, some 22, some 21, some 20, none,
   some 19, some 18, some 17, some 16, none,
   some 15, some 14, some 13, some 12, none,
   some 11, some 10, some 9, some 8, some 7, some 6, some 5, some 4, some 3, some 2, some 1,
   some 0]

/-- The character at a position of the text. -/
def char_at (u : Uuid) : Option Nat → Char
  | some i => hex_digit (u.extractLsb' (4 * i) 4)
  | none => '-'

/-- The `Display` text of a UUID. -/
def to_string (u : Uuid) : String := String.ofList (layout.map u.char_at)

theorem hex_digit_injective : Function.Injective hex_digit := by
  unfold Function.Injective
  decide

@[simp] theorem toList_to_string (u : Uuid) : u.to_string.toList = layout.map u.char_at := by
  simp [to_string]

theorem length_to_string (u : Uuid) : u.to_string.toList.length = 36 := by
  simp [layout]

/-- The text determines the UUID. -/
theorem to_string_injective : Function.Injective to_string := by
  intro u v h
  have hmap : layout.map u.char_at = layout.map v.char_at := by
    rw [← toList_to_string, ← toList_to_string, h]
  have hdigit : ∀ i < 32, u.extractLsb' (4 * i) 4 = v.extractLsb' (4 * i) 4 := by
    intro i hi
    have hmem : some i ∈ layout := by
      revert i
      decide
    exact hex_digit_injective (List.map_inj_left.mp hmap (some i) hmem)
  -- bit `j` of the word is bit `j % 4` of digit `j / 4`
  apply BitVec.eq_of_getLsbD_eq
  intro j hj
  have hbit := congrArg (fun d => d.getLsbD (j % 4)) (hdigit (j / 4) (by omega))
  have hj4 : 4 * (j / 4) + j % 4 = j := by omega
  simpa [hj4, Nat.mod_lt] using hbit

end Uuid

end Servo
