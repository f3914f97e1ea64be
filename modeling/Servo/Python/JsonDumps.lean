import Mathlib.Data.List.Sort
import Mathlib.Data.String.Basic
import Servo.Framework.JsonTree
import Servo.Python.Numerals

/-! # The `json` Module

    `json.dumps` writes what is not ASCII as code units, a pair of them for the
    characters of higher planes, and puts a blank after commas and colons. With
    `sort_keys`, the members of an object come in the order of their names.
-/

namespace Servo.Python

/-! ### Characters -/

/-- `ESCAPE_DCT`, without the backslashes. -/
def escape_dct : List (Char × Char) :=
  [('\\', '\\'), ('"', '"'), ('\x08', 'b'), ('\x0C', 'f'), ('\n', 'n'), ('\r', 'r'),
    ('\t', 't')]

/-- The code units of a character. -/
def utf16_units (c : Char) : List Nat :=
  if c.toNat < 0x10000 then [c.toNat]
  else [0xD800 + (c.toNat - 0x10000) / 0x400, 0xDC00 + (c.toNat - 0x10000) % 0x400]

/-- What stands for a character in a string, with `ensure_ascii`. -/
def escape_ascii (c : Char) : List Char :=
  match escape_dct.lookup c with
  | some d => ['\\', d]
  | none =>
    if 32 ≤ c.toNat ∧ c.toNat ≤ 126 then [c]
    else (utf16_units c).flatMap JsonTree.escape_unit

theorem utf16_units_of_lt {c : Char} (h : c.toNat < 0x10000) : utf16_units c = [c.toNat] :=
  if_pos h

/-- What comes behind a backslash is read as the character it is for. -/
theorem escaped_of_lookup {c d : Char} (h : escape_dct.lookup c = some d) :
    c.toNat < 0x10000 ∧ JsonTree.escaped d = some c.toNat := by
  have hall : escape_dct.all
      (fun e => e.1.toNat < 0x10000 && JsonTree.escaped e.2 == some e.1.toNat) = true := by decide
  rw [List.all_eq_true] at hall
  obtain ⟨front, back, heq, -⟩ := List.lookup_eq_some_iff.mp h
  simpa using hall (c, d) (by rw [heq]; simp)

theorem char_lt (c : Char) : c.toNat < 0x110000 := by
  rcases c.valid with hlow | hhigh
  · have hlow : c.toNat < 0xD800 := hlow
    omega
  · exact hhigh.2

theorem read_utf16_units (c : Char) (rest : List Char) :
    JsonTree.read_units ((utf16_units c).flatMap JsonTree.escape_unit ++ rest) =
      (JsonTree.read_units rest).map fun p => (utf16_units c ++ p.1, p.2) := by
  have hmax := char_lt c
  unfold utf16_units
  split
  · next hlt =>
    rw [List.flatMap_singleton, JsonTree.read_escape_unit hlt]
    rfl
  · rw [List.flatMap_cons, List.flatMap_singleton, List.append_assoc,
      JsonTree.read_escape_unit (by omega), JsonTree.read_escape_unit (by omega), Option.map_map]
    rfl

theorem read_escape_ascii (c : Char) (rest : List Char) :
    JsonTree.read_units (escape_ascii c ++ rest) =
      (JsonTree.read_units rest).map fun p => (utf16_units c ++ p.1, p.2) := by
  unfold escape_ascii
  cases hlookup : escape_dct.lookup c with
  | some d =>
    obtain ⟨hlt, hescaped⟩ := escaped_of_lookup hlookup
    rw [utf16_units_of_lt hlt]
    exact JsonTree.read_units_escaped hescaped rest
  | none =>
    simp only
    split
    · next hplain =>
      rw [List.lookup_eq_none_iff] at hlookup
      have hquote : c ≠ '"' := by
        rintro rfl
        simp [escape_dct] at hlookup
      have hback : c ≠ '\\' := by
        rintro rfl
        simp [escape_dct] at hlookup
      rw [utf16_units_of_lt (by omega)]
      exact JsonTree.read_units_plain hplain.1 hquote hback rest
    · exact read_utf16_units c rest

theorem join_utf16_units (c : Char) (rest : List Nat) :
    JsonTree.join_surrogates (utf16_units c ++ rest) =
      c.toNat :: JsonTree.join_surrogates rest := by
  have hmax := char_lt c
  unfold utf16_units
  split
  · exact JsonTree.join_cons (JsonTree.not_is_high c) rest
  · next hge =>
    have hhigh : JsonTree.is_high (0xD800 + (c.toNat - 0x10000) / 0x400) = true := by
      simp [JsonTree.is_high]
      omega
    have hlow : JsonTree.is_low (0xDC00 + (c.toNat - 0x10000) % 0x400) = true := by
      simp [JsonTree.is_low]
      omega
    have hpoint : 0x10000 + (0xD800 + (c.toNat - 0x10000) / 0x400 - 0xD800) * 0x400 +
        (0xDC00 + (c.toNat - 0x10000) % 0x400 - 0xDC00) = c.toNat := by omega
    rw [List.cons_append, List.cons_append, List.nil_append, JsonTree.join_surrogates, hhigh, hlow,
      hpoint]
    rfl

/-! ### Values -/

/-- The style of `json.dumps`, given how numbers are written. -/
def dumps_style (number : String → List Char) : JsonStyle where
  char := escape_ascii
  gap := [' ']
  number := number
  units := utf16_units
  blank_of_mem_gap := by simp [JsonTree.is_blank]
  read_char := read_escape_ascii
  join_units := join_utf16_units

/-- The members of an object in the order of their names. -/
def sort_by_name {α : Type} (members : List (String × α)) : List (String × α) :=
  members.insertionSort fun m m' => m.1 ≤ m'.1

mutual

/-- What `sort_keys` does to a value. -/
def sort_keys : JsonTree → JsonTree
  | .array items => .array (sort_items items)
  | .object members => .object (sort_by_name (sort_members members))
  | .null => .null
  | .bool b => .bool b
  | .number literal => .number literal
  | .string text => .string text

def sort_items : List JsonTree → List JsonTree
  | [] => []
  | item :: items => sort_keys item :: sort_items items

def sort_members : List (String × JsonTree) → List (String × JsonTree)
  | [] => []
  | (name, value) :: members => (name, sort_keys value) :: sort_members members

end

/-- `json.dumps(value, sort_keys=True)`. -/
def json_dumps (number : String → List Char) (value : JsonTree) : String :=
  (sort_keys value).text (dumps_style number)

/-- `json.loads`. -/
def json_loads (numerals : Numerals) (text : String) : Except JsonTree.ReadError JsonTree :=
  JsonTree.read numerals.max_str_digits text

/-! ### Dictionaries of texts -/

/-- A `dict[str, str]`, in the order of its keys. -/
abbrev Dict := List (String × String)

def Dict.names (d : Dict) : List String := d.map Prod.fst

/-- A dictionary as a JSON value. -/
def Dict.to_tree (d : Dict) : JsonTree := .object (d.map fun e => (e.1, .string e.2))

theorem Dict.names_to_tree (d : Dict) :
    (d.map fun e => (e.1, JsonTree.string e.2)).map Prod.fst = d.names := by
  simp [names]

theorem sort_members_strings (d : Dict) :
    sort_members (d.map fun e => (e.1, JsonTree.string e.2)) =
      d.map fun e => (e.1, JsonTree.string e.2) := by
  induction d with
  | nil => rfl
  | cons e d ih => rw [List.map_cons, sort_members, ih, sort_keys]

theorem sort_keys_to_tree (d : Dict) : sort_keys d.to_tree = Dict.to_tree (sort_by_name d) := by
  have hsort : (d.map fun e => (e.1, JsonTree.string e.2)).insertionSort (fun m m' => m.1 ≤ m'.1) =
      (d.insertionSort fun m m' => m.1 ≤ m'.1).map fun e => (e.1, JsonTree.string e.2) := by
    symm
    apply List.map_insertionSort
    intro _ _ _ _
    rfl
  rw [Dict.to_tree, sort_keys, sort_members_strings, Dict.to_tree, sort_by_name, sort_by_name,
    hsort]

theorem perm_sort_by_name {α : Type} (members : List (String × α)) :
    (sort_by_name members).Perm members := List.perm_insertionSort _ _

theorem textual_to_tree {d : Dict} (h : d.names.Nodup) : d.to_tree.Textual := by
  rw [Dict.to_tree, JsonTree.textual_object, Dict.names_to_tree]
  refine ⟨h, fun m hm => ?_⟩
  obtain ⟨e, -, rfl⟩ := List.mem_map.mp hm
  exact JsonTree.textual_string e.2

/-- A dictionary that is written is read, its members in the order of their names. -/
theorem json_loads_dumps {d : Dict} (h : d.names.Nodup) (numerals : Numerals)
    (number : String → List Char) :
    json_loads numerals (json_dumps number d.to_tree) = .ok (Dict.to_tree (sort_by_name d)) := by
  rw [json_loads, json_dumps, sort_keys_to_tree]
  apply JsonTree.read_text
  apply textual_to_tree
  exact ((perm_sort_by_name d).map Prod.fst).nodup_iff.mpr h

theorem Dict.to_tree_inj {d d' : Dict} (h : d.to_tree = d'.to_tree) : d = d' := by
  rw [to_tree, to_tree, JsonTree.object.injEq] at h
  refine List.map_injective_iff.mpr ?_ h
  intro e e' heq
  rw [Prod.mk.injEq, JsonTree.string.injEq] at heq
  exact Prod.ext heq.1 heq.2

/-- Dictionaries with the same keys in the same order are the same if they are up to order. -/
theorem Dict.eq_of_perm {d d' : Dict} (h : d.names.Nodup) (hnames : d.names = d'.names)
    (hperm : d.Perm d') : d = d' := by
  induction d generalizing d' with
  | nil => exact hperm.nil_eq
  | cons e d ih =>
    cases d' with
    | nil => exact hperm.eq_nil
    | cons e' d' =>
      simp only [names, List.map_cons, List.nodup_cons, List.cons.injEq] at h hnames
      have hmem : e ∈ e' :: d' := hperm.mem_iff.mp List.mem_cons_self
      have heq : e = e' := by
        rcases List.mem_cons.mp hmem with heq | hmem
        · exact heq
        · refine absurd ?_ h.1
          rw [hnames.2]
          exact List.mem_map.mpr ⟨e, hmem, rfl⟩
      subst heq
      rw [ih h.2 hnames.2 ((List.perm_cons e).mp hperm)]

/-- The text of a dictionary with given keys determines it. -/
theorem json_dumps_inj {number : String → List Char} {d d' : Dict} (h : d.names.Nodup)
    (hnames : d.names = d'.names)
    (heq : json_dumps number d.to_tree = json_dumps number d'.to_tree) : d = d' := by
  have hnodup : ∀ d : Dict, d.names.Nodup → (Dict.names (sort_by_name d)).Nodup := fun d hd =>
    ((perm_sort_by_name d).map Prod.fst).nodup_iff.mpr hd
  rw [json_dumps, json_dumps, sort_keys_to_tree, sort_keys_to_tree] at heq
  have htree := JsonTree.text_inj _ (textual_to_tree (hnodup d h))
    (textual_to_tree (hnodup d' (hnames ▸ h))) heq
  have hsorted := Dict.to_tree_inj htree
  apply Dict.eq_of_perm h hnames
  exact (perm_sort_by_name d).symm.trans (hsorted ▸ perm_sort_by_name d')

end Servo.Python
