import Servo.Python.VerdictAgreement

/-! # Check Definitions on the Wire

    A `CheckDefinition` takes any text for its type, any object for a
    parameter, and may do without a column. `to_rust_check_type` puts into a
    dict what the type asks for, whatever it is, and the worker reads the JSON
    of that dict by an enum whose fields have types.

    The two agree exactly on the definitions whose fields have these types,
    and whose numbers the worker's own numbers can hold (`survives_iff`).
-/

namespace Servo.Python

open CheckValidator (CheckType Libraries AssetOutput execute_check validate_check)

variable {F : Type}

/-! ### Definitions -/

/-- The types of checks that `to_rust_check_type` knows; every other is a custom check. -/
inductive CheckKind where
  | not_null
  | unique
  | in_range
  | regex
  | row_count
  | accepted_values
  | no_duplicate_rows
  | freshness
  | referential_integrity
  | schema_match
  | custom
  deriving DecidableEq

def CheckKind.of_text : String → CheckKind
  | "not_null" => .not_null
  | "unique" => .unique
  | "in_range" => .in_range
  | "regex" => .regex
  | "row_count" => .row_count
  | "accepted_values" => .accepted_values
  | "no_duplicate_rows" => .no_duplicate_rows
  | "freshness" => .freshness
  | "referential_integrity" => .referential_integrity
  | "schema_match" => .schema_match
  | _ => .custom

/-- The value of a parameter: one that JSON has, or any other object, which `json` refuses. -/
inductive Parameter (F : Type) where
  | json (value : Value F)
  | other

namespace Parameter

def null : Parameter F := .json .null

def text (text : String) : Parameter F := .json (.string text)

def texts (texts : List String) : Parameter F := .json (.array (texts.map .string))

/-- A text or `None`. -/
def of_option : Option String → Parameter F
  | some text => .text text
  | none => null

end Parameter

/-- `CheckDefinition`, as far as `to_rust_check_type` reads it. -/
structure CheckDefinition (F : Type) where
  name : String
  check_type : String
  description : Option String
  parameters : List (String × Parameter F)
  /-- For column-specific checks. -/
  column : Option String

namespace CheckDefinition

variable (d : CheckDefinition F)

def kind : CheckKind := .of_text d.check_type

/-- `self.parameters.get(name, default)`. -/
def get (name : String) (default : Parameter F) : Parameter F :=
  (d.parameters.lookup name).getD default

/-- `self.parameters.get("columns", [self.column] if self.column else [])`. -/
def columns : Parameter F :=
  d.get "columns" (.texts ((d.column.filter fun column => column ≠ "").toList))

/-- `to_rust_check_type`, the members in the order of their names. -/
def to_rust_check_type : List (String × Parameter F) :=
  match d.kind with
  | .not_null => [("columns", d.columns), ("type", .text "not_null")]
  | .unique => [("columns", d.columns), ("type", .text "unique")]
  | .in_range =>
    [("column", .of_option d.column), ("max", d.get "max" .null), ("min", d.get "min" .null),
      ("type", .text "in_range")]
  | .regex =>
    [("column", .of_option d.column), ("pattern", d.get "pattern" .null),
      ("type", .text "regex")]
  | .row_count =>
    [("max", d.get "max" .null), ("min", d.get "min" .null), ("type", .text "row_count")]
  | .accepted_values =>
    [("column", .of_option d.column), ("type", .text "accepted_values"),
      ("values", d.get "values" (.texts []))]
  | .no_duplicate_rows =>
    [("columns", d.get "columns" .null), ("type", .text "no_duplicate_rows")]
  | .freshness =>
    [("max_age_seconds", d.get "max_age_seconds" .null),
      ("timestamp_column", .of_option d.column), ("type", .text "freshness")]
  | .referential_integrity =>
    [("column", .of_option d.column), ("reference_column", d.get "reference_column" .null),
      ("reference_table", d.get "reference_table" .null), ("type", .text "referential_integrity")]
  | .schema_match =>
    [("allow_extra_columns", d.get "allow_extra_columns" (.json (.bool true))),
      ("expected_columns", d.get "expected_columns" (.texts [])), ("type", .text "schema_match")]
  -- Custom check - pass through
  | .custom =>
    [("description", .text (d.description.getD "")), ("name", .text d.name),
      ("type", .text "custom")]

end CheckDefinition

/-! ### The wire -/

section wire
variable [F64 F]

/-- A number that is read as one: a larger integer is read as a double-precision number, and that
    must be finite. -/
def number_writable : Number F → Bool
  | .int n => -2 ^ 63 ≤ n && n < 2 ^ 64 || F64.is_finite (F64.of_int n : F)
  | .float x => F64.is_finite x

mutual

/-- All numbers in the value are read as numbers. -/
def writable : Value F → Bool
  | .number n => number_writable n
  | .array items => items_writable items
  | .object members => members_writable members
  | _ => true

def items_writable : List (Value F) → Bool
  | [] => true
  | item :: items => writable item && items_writable items

def members_writable : List (String × Value F) → Bool
  | [] => true
  | (_, value) :: members => writable value && members_writable members

end

/-- A parameter in JSON, as it is read. -/
def Parameter.dumps : Parameter F → Option (Value F)
  | .json value => if writable value then some (json_value value) else none
  | .other => none

/-- A dict in JSON, as it is read. -/
def dumps (members : List (String × Parameter F)) : Option (Value F) :=
  (members.mapM fun member =>
    (Parameter.dumps member.2).map fun value => (member.1, value)).map .object

/-- The check type that the worker reads. -/
def CheckDefinition.received (d : CheckDefinition F) : Option (CheckType F) :=
  (dumps d.to_rust_check_type).bind CheckType.deserialize

end wire

/-! ### What a definition says -/

section meaning
variable (python : Interpreter F)

/-- The bound is this number, or there is none. -/
def SameBound : Parameter F → Option F → Prop
  | .json .null, none => True
  | .json (.number n), some x => numeric python (.number n) = some (python.value x)
  | _, _ => False

/-- The count is this number, or there is none. -/
def SameCount : Parameter F → Option Int → Prop
  | .json .null, none => True
  | .json (.number (.int n)), some count => n = count
  | _, _ => False

/-- The same kind of check with the same columns and parameters. -/
inductive CheckDefinition.Says (d : CheckDefinition F) : CheckType F → Prop where
  | not_null {columns : List String} (hkind : d.kind = .not_null)
      (hcolumns : d.columns = .texts columns) : Says d (.NotNull columns)
  | unique {columns : List String} (hkind : d.kind = .unique)
      (hcolumns : d.columns = .texts columns) : Says d (.Unique columns)
  | in_range {column : String} {min max : Option F} (hkind : d.kind = .in_range)
      (hcolumn : d.column = some column) (hmin : SameBound python (d.get "min" .null) min)
      (hmax : SameBound python (d.get "max" .null) max) : Says d (.InRange column min max)
  | regex {column pattern : String} (hkind : d.kind = .regex) (hcolumn : d.column = some column)
      (hpattern : d.get "pattern" .null = .text pattern) : Says d (.Regex column pattern)
  | row_count {min max : Option Int} (hkind : d.kind = .row_count)
      (hmin : SameCount (d.get "min" .null) min) (hmax : SameCount (d.get "max" .null) max) :
      Says d (.RowCount min max)
  | accepted_values {column : String} {values : List (Value F)} (hkind : d.kind = .accepted_values)
      (hcolumn : d.column = some column)
      (hvalues : d.get "values" (.texts []) = .json (.array values)) :
      Says d (.AcceptedValues column values)
  | all_columns (hkind : d.kind = .no_duplicate_rows) (hcolumns : d.get "columns" .null = .null) :
      Says d (.NoDuplicateRows none)
  | no_duplicate_rows {columns : List String} (hkind : d.kind = .no_duplicate_rows)
      (hcolumns : d.get "columns" .null = .texts columns) : Says d (.NoDuplicateRows (some columns))
  | freshness {column : String} {max_age_seconds : Int} (hkind : d.kind = .freshness)
      (hcolumn : d.column = some column)
      (hage : d.get "max_age_seconds" .null = .json (.number (.int max_age_seconds))) :
      Says d (.Freshness column max_age_seconds)
  | referential_integrity {column reference_table reference_column : String}
      (hkind : d.kind = .referential_integrity) (hcolumn : d.column = some column)
      (htable : d.get "reference_table" .null = .text reference_table)
      (hreference : d.get "reference_column" .null = .text reference_column) :
      Says d (.ReferentialIntegrity column reference_table reference_column)
  | schema_match {expected_columns : List String} {allow_extra_columns : Bool}
      (hkind : d.kind = .schema_match)
      (hcolumns : d.get "expected_columns" (.texts []) = .texts expected_columns)
      (hallow : d.get "allow_extra_columns" (.json (.bool true)) =
        .json (.bool allow_extra_columns)) :
      Says d (.SchemaMatch expected_columns allow_extra_columns)
  | custom (hkind : d.kind = .custom) :
      Says d (.Custom (some d.name) (some (d.description.getD "")))

/-- The worker runs the check that the definition says. -/
def CheckDefinition.Survives [F64 F] (d : CheckDefinition F) : Prop :=
  ∃ json check_type, dumps d.to_rust_check_type = some json ∧ d.Says python check_type ∧
    CheckType.deserialize json = some check_type ∧
    ∀ (libraries : Libraries F) (data : AssetOutput F),
      validate_check libraries data json = execute_check libraries data check_type

end meaning

/-! ### When a definition survives -/

section conditions
variable [F64 F]

mutual

/-- The integers in the value have 64 bits, and its other numbers are finite. -/
def plain : Value F → Bool
  | .number (.int n) => -2 ^ 63 ≤ n && n < 2 ^ 64
  | .number (.float x) => F64.is_finite x
  | .array items => items_plain items
  | .object members => members_plain members
  | _ => true

def items_plain : List (Value F) → Bool
  | [] => true
  | item :: items => plain item && items_plain items

def members_plain : List (String × Value F) → Bool
  | [] => true
  | (_, value) :: members => plain value && members_plain members

end

namespace Parameter

def IsText (p : Parameter F) : Prop := ∃ content, p = .text content

def AreTexts (p : Parameter F) : Prop := ∃ contents, p = .texts contents

def IsI64 (p : Parameter F) : Prop :=
  ∃ n, p = .json (.number (.int n)) ∧ -2 ^ 63 ≤ n ∧ n < 2 ^ 63

def IsCount (p : Parameter F) : Prop := p = .null ∨ p.IsI64

/-- Nothing, or a number that is a double-precision number. -/
def IsBound (python : Interpreter F) (p : Parameter F) : Prop :=
  p = .null ∨ ∃ n, p = .json (.number n) ∧ number_writable n = true ∧
    numeric python (.number n) = some (python.value n.as_f64)

def ArePlain (p : Parameter F) : Prop :=
  ∃ values, p = .json (.array values) ∧ items_plain values = true

end Parameter

/-- The fields that the kind of check needs are there, with the types that the worker's enum
    has. -/
def CheckDefinition.WellTyped (python : Interpreter F) (d : CheckDefinition F) : Prop :=
  match d.kind with
  | .not_null | .unique => d.columns.AreTexts
  | .in_range =>
    d.column ≠ none ∧ (d.get "min" .null).IsBound python ∧ (d.get "max" .null).IsBound python
  | .regex => d.column ≠ none ∧ (d.get "pattern" .null).IsText
  | .row_count => (d.get "min" .null).IsCount ∧ (d.get "max" .null).IsCount
  | .accepted_values => d.column ≠ none ∧ (d.get "values" (.texts [])).ArePlain
  | .no_duplicate_rows => d.get "columns" .null = .null ∨ (d.get "columns" .null).AreTexts
  | .freshness => d.column ≠ none ∧ (d.get "max_age_seconds" .null).IsI64
  | .referential_integrity =>
    d.column ≠ none ∧ (d.get "reference_table" .null).IsText ∧
      (d.get "reference_column" .null).IsText
  | .schema_match =>
    (d.get "expected_columns" (.texts [])).AreTexts ∧
      ∃ allow, d.get "allow_extra_columns" (.json (.bool true)) = .json (.bool allow)
  | .custom => True

end conditions

/-! ### Reading -/

section reading
variable [F64 F]

/-- What the worker reads of a parameter. -/
def Parameter.reads {α : Type} (p : Parameter F) (read : Value F → Option α) : Option α :=
  p.dumps.bind read

theorem dumps_json (v : Value F) :
    (Parameter.json v).dumps = if writable v then some (json_value v) else none := rfl

theorem dumps_eq_some_iff {p : Parameter F} {w : Value F} :
    p.dumps = some w ↔ ∃ v, p = .json v ∧ writable v = true ∧ json_value v = w := by
  cases p with
  | other =>
    constructor
    · intro h
      cases h
    · intro ⟨v, h, _⟩
      cases h
  | json v =>
    rw [dumps_json]
    simp

theorem reads_eq_some_iff {α : Type} {p : Parameter F} {read : Value F → Option α} {a : α} :
    p.reads read = some a ↔
      ∃ v, p = .json v ∧ writable v = true ∧ read (json_value v) = some a := by
  unfold Parameter.reads
  rw [Option.bind_eq_some_iff]
  constructor
  · intro ⟨w, hdumps, hread⟩
    obtain ⟨v, hp, hwritable, rfl⟩ := dumps_eq_some_iff.mp hdumps
    exact ⟨v, hp, hwritable, hread⟩
  · intro ⟨v, hp, hwritable, hread⟩
    exact ⟨json_value v, dumps_eq_some_iff.mpr ⟨v, hp, hwritable, rfl⟩, hread⟩

/-- A number is read as a number. -/
theorem json_number (n : Number F) :
    ∃ n', json_value (.number n) = .number n' ∧ n'.as_f64 = n.as_f64 := by
  cases n with
  | float x => exact ⟨_, rfl, rfl⟩
  | int n =>
    simp only [json_value, json_int]
    split
    · exact ⟨_, rfl, rfl⟩
    · exact ⟨_, rfl, rfl⟩

/-- Texts, truth values and numbers are read as they were. -/
theorem as_string_json (v : Value F) : (json_value v).as_string = v.as_string := by
  cases v with
  | number n =>
    obtain ⟨n', hn', -⟩ := json_number n
    rw [hn']
    rfl
  | _ => rfl

theorem as_bool_json (v : Value F) : (json_value v).as_bool = v.as_bool := by
  cases v with
  | number n =>
    obtain ⟨n', hn', -⟩ := json_number n
    rw [hn']
    rfl
  | _ => rfl

theorem items_writable_iff {items : List (Value F)} :
    items_writable items = true ↔ ∀ item ∈ items, writable item = true := by
  induction items with
  | nil => simp [items_writable]
  | cons item items ih => simp [items_writable, ih]

theorem as_strings_json (v : Value F) : (json_value v).as_strings = v.as_strings := by
  cases v with
  | number n =>
    obtain ⟨n', hn', -⟩ := json_number n
    rw [hn']
    rfl
  | array items =>
    show (json_items items).mapM (m := Option) Value.as_string = items.mapM Value.as_string
    rw [json_items_eq_map]
    induction items with
    | nil => rfl
    | cons item items ih => rw [List.map_cons, List.mapM_cons, List.mapM_cons, as_string_json, ih]
  | _ => rfl

omit [F64 F] in
theorem as_string_eq_some_iff {v : Value F} {text : String} :
    v.as_string = some text ↔ v = .string text := by
  cases v <;> simp [Value.as_string]

omit [F64 F] in
theorem as_strings_eq_some_iff {v : Value F} {texts : List String} :
    v.as_strings = some texts ↔ v = .array (texts.map .string) := by
  constructor
  · intro h
    cases v with
    | array items =>
      have hitems : items.mapM (m := Option) Value.as_string = some texts := h
      clear h
      -- item by item, for any texts
      congr 1
      induction items generalizing texts with
      | nil =>
        cases hitems
        rfl
      | cons item items ih =>
        rw [List.mapM_cons] at hitems
        obtain ⟨text, htext, hrest⟩ := Option.bind_eq_some_iff.mp hitems
        obtain ⟨texts', hitems', heq⟩ := Option.bind_eq_some_iff.mp hrest
        cases heq
        rw [as_string_eq_some_iff.mp htext, ih hitems', List.map_cons]
    | _ => cases h
  · intro h
    subst h
    exact CheckWire.as_strings_strings texts

theorem reads_string_iff {p : Parameter F} {text : String} :
    p.reads Value.as_string = some text ↔ p = .text text := by
  rw [reads_eq_some_iff]
  constructor
  · intro ⟨v, hp, _, hread⟩
    rw [as_string_json, as_string_eq_some_iff] at hread
    rw [hp, hread]
    rfl
  · intro h
    exact ⟨_, h, rfl, rfl⟩

theorem reads_strings_iff {p : Parameter F} {texts : List String} :
    p.reads Value.as_strings = some texts ↔ p = .texts texts := by
  rw [reads_eq_some_iff]
  constructor
  · intro ⟨v, hp, _, hread⟩
    rw [as_strings_json, as_strings_eq_some_iff] at hread
    rw [hp, hread]
    rfl
  · intro h
    refine ⟨_, h, ?_, ?_⟩
    · apply items_writable_iff.mpr
      intro item hitem
      obtain ⟨text, _, rfl⟩ := List.mem_map.mp hitem
      rfl
    · rw [as_strings_json]
      exact CheckWire.as_strings_strings texts

theorem reads_bool_iff {p : Parameter F} {b : Bool} :
    p.reads Value.as_bool = some b ↔ p = .json (.bool b) := by
  rw [reads_eq_some_iff]
  constructor
  · intro ⟨v, hp, _, hread⟩
    rw [as_bool_json] at hread
    cases v with
    | bool b' =>
      cases hread
      exact hp
    | _ => cases hread
  · intro h
    exact ⟨_, h, rfl, rfl⟩

/-- An integer is read if it is one of 64 bits. -/
theorem as_i64_json_iff {v : Value F} {n : Int} :
    (json_value v).as_i64 = some n ↔
      v = .number (.int n) ∧ -2 ^ 63 ≤ n ∧ n < 2 ^ 63 := by
  constructor
  · intro hread
    cases v with
    | number k =>
      cases k with
      | float x => cases hread
      | int k =>
        simp only [json_value, json_int] at hread
        split at hread
        · simp only [Value.as_i64] at hread
          split at hread
          · next hrange =>
            cases hread
            exact ⟨rfl, hrange⟩
          · cases hread
        · cases hread
    | _ => cases hread
  · intro hnumber
    obtain ⟨hv, hrange⟩ := hnumber
    subst hv
    have hsmall : -2 ^ 63 ≤ n ∧ n < 2 ^ 64 := by omega
    simp only [json_value, json_int]
    rw [if_pos hsmall]
    exact if_pos hrange

theorem writable_of_i64 {n : Int} (hrange : -2 ^ 63 ≤ n ∧ n < 2 ^ 63) :
    writable (.number (.int n) : Value F) = true := by
  simp only [writable, number_writable, Bool.or_eq_true, Bool.and_eq_true, decide_eq_true_eq]
  exact .inl (by omega)

theorem reads_i64_iff {p : Parameter F} {n : Int} :
    p.reads Value.as_i64 = some n ↔
      p = .json (.number (.int n)) ∧ -2 ^ 63 ≤ n ∧ n < 2 ^ 63 := by
  rw [reads_eq_some_iff]
  constructor
  · intro ⟨v, hp, _, hread⟩
    obtain ⟨rfl, hrange⟩ := as_i64_json_iff.mp hread
    exact ⟨hp, hrange⟩
  · intro ⟨hp, hrange⟩
    exact ⟨_, hp, writable_of_i64 hrange, as_i64_json_iff.mpr ⟨rfl, hrange⟩⟩

/-- An optional field is read as nothing where it is null, and else as the field. -/
theorem reads_option_iff {α : Type} {p : Parameter F} {read : Value F → Option α} {x : Option α}
    (hnull : read .null = none) :
    p.reads (Value.as_option read) = some x ↔
      p = .null ∧ x = none ∨ ∃ a, p.reads read = some a ∧ x = some a := by
  have hoption : ∀ w : Value F, w ≠ .null → w.as_option read = (read w).map some := by
    intro w hw
    cases w with
    | null => exact absurd rfl hw
    | _ => rfl
  rw [reads_eq_some_iff]
  constructor
  · intro ⟨v, hp, hwritable, hread⟩
    by_cases hv : json_value v = .null
    · rw [hv] at hread
      cases hread
      -- nothing but `None` is written as null
      have hnull' : v = .null := by
        cases v with
        | number n =>
          obtain ⟨n', hn', -⟩ := json_number n
          rw [hn'] at hv
          cases hv
        | null => rfl
        | _ => cases hv
      rw [hnull'] at hp
      exact .inl ⟨hp, rfl⟩
    · rw [hoption _ hv, Option.map_eq_some_iff] at hread
      obtain ⟨a, ha, hx⟩ := hread
      exact .inr ⟨a, reads_eq_some_iff.mpr ⟨v, hp, hwritable, ha⟩, hx.symm⟩
  · intro h
    rcases h with ⟨hp, hx⟩ | ⟨a, ha, hx⟩
    · subst hx
      exact ⟨.null, hp, rfl, rfl⟩
    · obtain ⟨v, hp, hwritable, hread⟩ := reads_eq_some_iff.mp ha
      -- what can be read as the field is not null
      have hv : json_value v ≠ .null := by
        intro hv
        rw [hv, hnull] at hread
        cases hread
      refine ⟨v, hp, hwritable, ?_⟩
      rw [hoption _ hv, hread, hx]
      rfl

theorem reads_f64_iff {p : Parameter F} {x : F} :
    p.reads Value.as_f64 = some x ↔
      ∃ n, p = .json (.number n) ∧ number_writable n = true ∧ n.as_f64 = x := by
  rw [reads_eq_some_iff]
  constructor
  · intro ⟨v, hp, hwritable, hread⟩
    cases v with
    | number n =>
      obtain ⟨n', hn', hvalue⟩ := json_number n
      rw [hn'] at hread
      cases hread
      exact ⟨n, hp, hwritable, hvalue.symm⟩
    | _ => cases hread
  · intro ⟨n, hp, hwritable, hx⟩
    obtain ⟨n', hn', hvalue⟩ := json_number n
    refine ⟨_, hp, hwritable, ?_⟩
    rw [hn', ← hx, ← hvalue]
    rfl

/-- Any list is read, item by item. -/
theorem reads_values_iff {p : Parameter F} {values : List (Value F)} :
    p.reads (Value.as_vec some) = some values ↔
      ∃ items, p = .json (.array items) ∧ items_writable items = true ∧
        json_items items = values := by
  rw [reads_eq_some_iff]
  constructor
  · intro ⟨v, hp, hwritable, hread⟩
    cases v with
    | array items =>
      have hitems : (Value.array (json_items items)).as_vec some = some values := hread
      rw [CheckWire.as_vec_values] at hitems
      cases hitems
      exact ⟨items, hp, hwritable, rfl⟩
    | number n =>
      obtain ⟨n', hn', -⟩ := json_number n
      rw [hn'] at hread
      cases hread
    | _ => cases hread
  · intro ⟨items, hp, hwritable, hvalues⟩
    refine ⟨_, hp, hwritable, ?_⟩
    rw [← hvalues]
    exact CheckWire.as_vec_values (json_items items)

/-! ### What arrives -/

theorem dumps_two (a b : String) (p q : Parameter F) :
    dumps [(a, p), (b, q)] =
      p.dumps.bind fun v => q.dumps.bind fun w => some (.object [(a, v), (b, w)]) := by
  unfold dumps
  cases hp : p.dumps <;> cases hq : q.dumps <;> simp [hp, hq]

theorem dumps_three (a b c : String) (p q r : Parameter F) :
    dumps [(a, p), (b, q), (c, r)] =
      p.dumps.bind fun v => q.dumps.bind fun w => r.dumps.bind fun x =>
        some (.object [(a, v), (b, w), (c, x)]) := by
  unfold dumps
  cases hp : p.dumps <;> cases hq : q.dumps <;> cases hr : r.dumps <;> simp [hp, hq, hr]

theorem dumps_four (a b c e : String) (p q r t : Parameter F) :
    dumps [(a, p), (b, q), (c, r), (e, t)] =
      p.dumps.bind fun v => q.dumps.bind fun w => r.dumps.bind fun x => t.dumps.bind fun y =>
        some (.object [(a, v), (b, w), (c, x), (e, y)]) := by
  unfold dumps
  cases hp : p.dumps <;> cases hq : q.dumps <;> cases hr : r.dumps <;> cases ht : t.dumps <;>
    simp [hp, hq, hr, ht]

@[simp] theorem dumps_text (text : String) :
    (Parameter.text text : Parameter F).dumps = some (.string text) := rfl

/-- Field by field, what the worker reads of a definition. -/
def CheckDefinition.decoded (d : CheckDefinition F) : Option (CheckType F) :=
  match d.kind with
  | .not_null => (d.columns.reads Value.as_strings).bind fun columns => some (.NotNull columns)
  | .unique => (d.columns.reads Value.as_strings).bind fun columns => some (.Unique columns)
  | .in_range =>
    ((.of_option d.column : Parameter F).reads Value.as_string).bind fun column =>
      ((d.get "min" .null).reads (Value.as_option Value.as_f64)).bind fun min =>
        ((d.get "max" .null).reads (Value.as_option Value.as_f64)).bind fun max =>
          some (.InRange column min max)
  | .regex =>
    ((.of_option d.column : Parameter F).reads Value.as_string).bind fun column =>
      ((d.get "pattern" .null).reads Value.as_string).bind fun pattern =>
        some (.Regex column pattern)
  | .row_count =>
    ((d.get "min" .null).reads (Value.as_option Value.as_i64)).bind fun min =>
      ((d.get "max" .null).reads (Value.as_option Value.as_i64)).bind fun max =>
        some (.RowCount min max)
  | .accepted_values =>
    ((.of_option d.column : Parameter F).reads Value.as_string).bind fun column =>
      ((d.get "values" (.texts [])).reads (Value.as_vec some)).bind fun values =>
        some (.AcceptedValues column values)
  | .no_duplicate_rows =>
    ((d.get "columns" .null).reads (Value.as_option Value.as_strings)).bind fun columns =>
      some (.NoDuplicateRows columns)
  | .freshness =>
    ((.of_option d.column : Parameter F).reads Value.as_string).bind fun column =>
      ((d.get "max_age_seconds" .null).reads Value.as_i64).bind fun age =>
        some (.Freshness column age)
  | .referential_integrity =>
    ((.of_option d.column : Parameter F).reads Value.as_string).bind fun column =>
      ((d.get "reference_table" .null).reads Value.as_string).bind fun reference_table =>
        ((d.get "reference_column" .null).reads Value.as_string).bind fun reference_column =>
          some (.ReferentialIntegrity column reference_table reference_column)
  | .schema_match =>
    ((d.get "expected_columns" (.texts [])).reads Value.as_strings).bind fun expected_columns =>
      ((d.get "allow_extra_columns" (.json (.bool true))).reads Value.as_bool).bind fun allow =>
        some (.SchemaMatch expected_columns allow)
  | .custom => some (.Custom (some d.name) (some (d.description.getD "")))

/-- Where a member is missing in the JSON there is none, and else it is read by its name. -/
theorem received_eq_decoded (d : CheckDefinition F) : d.received = d.decoded := by
  unfold CheckDefinition.received CheckDefinition.to_rust_check_type CheckDefinition.decoded
  cases d.kind with
  | not_null | unique =>
    simp only [Parameter.reads, dumps_two, dumps_text]
    cases d.columns.dumps <;> rfl
  | in_range =>
    simp only [Parameter.reads, dumps_four, dumps_text]
    cases (Parameter.of_option d.column : Parameter F).dumps <;>
      cases (d.get "max" .null).dumps <;> cases (d.get "min" .null).dumps <;>
        first | rfl | simp
  | regex =>
    simp only [Parameter.reads, dumps_three, dumps_text]
    cases (Parameter.of_option d.column : Parameter F).dumps <;>
      cases (d.get "pattern" .null).dumps <;> first | rfl | simp
  | row_count =>
    simp only [Parameter.reads, dumps_three, dumps_text]
    cases (d.get "max" .null).dumps <;> cases (d.get "min" .null).dumps <;> first | rfl | simp
  | accepted_values =>
    simp only [Parameter.reads, dumps_three, dumps_text]
    cases (Parameter.of_option d.column : Parameter F).dumps <;>
      cases (d.get "values" (.texts [])).dumps <;> first | rfl | simp
  | no_duplicate_rows =>
    simp only [Parameter.reads, dumps_two, dumps_text]
    cases (d.get "columns" .null).dumps <;> rfl
  | freshness =>
    simp only [Parameter.reads, dumps_three, dumps_text]
    cases (d.get "max_age_seconds" .null).dumps <;>
      cases (Parameter.of_option d.column : Parameter F).dumps <;> first | rfl | simp
  | referential_integrity =>
    simp only [Parameter.reads, dumps_four, dumps_text]
    cases (Parameter.of_option d.column : Parameter F).dumps <;>
      cases (d.get "reference_column" .null).dumps <;>
        cases (d.get "reference_table" .null).dumps <;> first | rfl | simp
  | schema_match =>
    simp only [Parameter.reads, dumps_three, dumps_text]
    cases (d.get "allow_extra_columns" (.json (.bool true))).dumps <;>
      cases (d.get "expected_columns" (.texts [])).dumps <;> first | rfl | simp
  | custom => rfl

/-- The definition that a decorator registers for a check. -/
def Check.definition (name : String) (description : Option String) :
    Check F → CheckDefinition F
  | .not_null column =>
    ⟨name, "not_null", description, [("columns", .texts [column])], some column⟩
  | .unique column => ⟨name, "unique", description, [("columns", .texts [column])], some column⟩
  | .between column min_value max_value =>
    ⟨name, "in_range", description, [("min", .json min_value), ("max", .json max_value)],
      some column⟩
  | .matches column pattern =>
    ⟨name, "regex", description, [("pattern", .text pattern)], some column⟩
  | .in_set column allowed_values =>
    ⟨name, "accepted_values", description, [("values", .json (.array allowed_values))],
      some column⟩
  | .row_count min_count max_count =>
    ⟨name, "row_count", description, [("min", .json (.of_option (.number ∘ .int) min_count)),
      ("max", .json (.of_option (.number ∘ .int) max_count))], none⟩

theorem json_count (count : Option Int) :
    json_value (.of_option (.number ∘ .int) count : Value F) = .of_option json_int count := by
  cases count <;> rfl

/-- Where the definition of a check has a JSON, it is that of the check. -/
theorem dumps_definition {check : Check F} {name : String} {description : Option String}
    {json : Value F}
    (h : dumps (check.definition name description).to_rust_check_type = some json) :
    json = check.to_rust_check_type := by
  cases check with
  | not_null column | unique column =>
    cases h
    rfl
  | between column min_value max_value =>
    have hdumps : dumps [("column", .text column), ("max", .json max_value),
      ("min", .json min_value), ("type", .text "in_range")] = some json := h
    simp only [dumps_four, dumps_text, Option.bind_some, Option.bind_eq_some_iff] at hdumps
    obtain ⟨max, hmax, min, hmin, hjson⟩ := hdumps
    obtain ⟨v, hv, -, rfl⟩ := dumps_eq_some_iff.mp hmax
    obtain ⟨w, hw, -, rfl⟩ := dumps_eq_some_iff.mp hmin
    cases hv
    cases hw
    cases hjson
    rfl
  | «matches» column pattern =>
    cases h
    rfl
  | in_set column allowed_values =>
    have hdumps : dumps [("column", .text column), ("type", .text "accepted_values"),
      ("values", .json (.array allowed_values))] = some json := h
    simp only [dumps_three, dumps_text, Option.bind_some, Option.bind_eq_some_iff] at hdumps
    obtain ⟨values, hvalues, hjson⟩ := hdumps
    obtain ⟨v, hv, -, rfl⟩ := dumps_eq_some_iff.mp hvalues
    cases hv
    cases hjson
    rfl
  | row_count min_count max_count =>
    have hdumps : dumps [("max", .json (.of_option (.number ∘ .int) max_count)),
      ("min", .json (.of_option (.number ∘ .int) min_count)), ("type", .text "row_count")] =
        some json := h
    simp only [dumps_three, dumps_text, Option.bind_some, Option.bind_eq_some_iff] at hdumps
    obtain ⟨max, hmax, min, hmin, hjson⟩ := hdumps
    obtain ⟨v, hv, -, rfl⟩ := dumps_eq_some_iff.mp hmax
    obtain ⟨w, hw, -, rfl⟩ := dumps_eq_some_iff.mp hmin
    cases hv
    cases hw
    cases hjson
    rw [json_count, json_count]
    rfl

/-! ### Field by field -/

mutual

/-- What is plain stays as it is. -/
theorem plain_iff : ∀ v : Value F, plain v = true ↔ writable v = true ∧ json_value v = v
  | .null => by simp [plain, writable, json_value]
  | .bool b => by simp [plain, writable, json_value]
  | .string text => by simp [plain, writable, json_value]
  | .number (.float x) => by simp [plain, writable, number_writable, json_value]
  | .number (.int n) => by
    simp only [plain, writable, number_writable, json_value, json_int, Bool.or_eq_true,
      Bool.and_eq_true, decide_eq_true_eq]
    by_cases hsmall : -2 ^ 63 ≤ n ∧ n < 2 ^ 64
    · rw [if_pos hsmall]
      exact ⟨fun h => ⟨.inl h, rfl⟩, fun h => hsmall⟩
    · -- a larger one is read as a float
      rw [if_neg hsmall]
      constructor
      · intro h
        exact absurd h hsmall
      · intro ⟨_, h⟩
        cases h
  | .array items => by
    simp only [plain, writable, json_value, Value.array.injEq]
    exact items_plain_iff items
  | .object members => by
    simp only [plain, writable, json_value, Value.object.injEq]
    exact members_plain_iff members

theorem items_plain_iff : ∀ items : List (Value F),
    items_plain items = true ↔ items_writable items = true ∧ json_items items = items
  | [] => by simp [items_plain, items_writable, json_items]
  | item :: items => by
    simp only [items_plain, items_writable, json_items, Bool.and_eq_true, List.cons.injEq,
      plain_iff item, items_plain_iff items]
    exact and_and_and_comm

theorem members_plain_iff : ∀ members : List (String × Value F),
    members_plain members = true ↔ members_writable members = true ∧ json_members members = members
  | [] => by simp [members_plain, members_writable, json_members]
  | (name, value) :: members => by
    simp only [members_plain, members_writable, json_members, Bool.and_eq_true, List.cons.injEq,
      Prod.mk.injEq, true_and, plain_iff value, members_plain_iff members]
    exact and_and_and_comm

end

theorem reads_column_iff {column : Option String} {name : String} :
    (.of_option column : Parameter F).reads Value.as_string = some name ↔ column = some name := by
  rw [reads_string_iff]
  cases column with
  | none =>
    constructor
    · intro h
      cases h
    · intro h
      cases h
  | some column =>
    constructor
    · intro h
      cases h
      rfl
    · intro h
      cases h
      rfl

theorem count_iff {p : Parameter F} :
    (∃ count, p.reads (Value.as_option Value.as_i64) = some count ∧ SameCount p count) ↔
      p.IsCount := by
  constructor
  · intro ⟨count, hread, _⟩
    rcases (reads_option_iff rfl).mp hread with ⟨hnull, _⟩ | ⟨n, hn, _⟩
    · exact .inl hnull
    · exact .inr ⟨n, reads_i64_iff.mp hn⟩
  · intro h
    rcases h with hnull | ⟨n, hn⟩
    · refine ⟨none, (reads_option_iff rfl).mpr (.inl ⟨hnull, rfl⟩), ?_⟩
      subst hnull
      trivial
    · refine ⟨some n, (reads_option_iff rfl).mpr (.inr ⟨n, reads_i64_iff.mpr hn, rfl⟩), ?_⟩
      rw [hn.1]
      rfl

theorem bound_iff {python : Interpreter F} {p : Parameter F} :
    (∃ bound, p.reads (Value.as_option Value.as_f64) = some bound ∧ SameBound python p bound) ↔
      p.IsBound python := by
  constructor
  · intro ⟨bound, hread, hsame⟩
    rcases (reads_option_iff rfl).mp hread with ⟨hnull, _⟩ | ⟨x, hx, hbound⟩
    · exact .inl hnull
    · obtain ⟨n, hp, hwritable, hvalue⟩ := reads_f64_iff.mp hx
      rw [hp, hbound, ← hvalue] at hsame
      exact .inr ⟨n, hp, hwritable, hsame⟩
  · intro h
    rcases h with hnull | ⟨n, hp, hwritable, hexact⟩
    · refine ⟨none, (reads_option_iff rfl).mpr (.inl ⟨hnull, rfl⟩), ?_⟩
      subst hnull
      trivial
    · refine ⟨some n.as_f64, (reads_option_iff rfl).mpr
        (.inr ⟨_, reads_f64_iff.mpr ⟨n, hp, hwritable, rfl⟩, rfl⟩), ?_⟩
      rw [hp]
      exact hexact

theorem values_iff {p : Parameter F} {values : List (Value F)} :
    (p.reads (Value.as_vec some) = some values ∧ p = .json (.array values)) ↔
      p = .json (.array values) ∧ items_plain values = true := by
  rw [reads_values_iff, items_plain_iff]
  constructor
  · intro ⟨⟨items, hp, hwritable, hvalues⟩, hp'⟩
    rw [hp] at hp'
    cases hp'
    exact ⟨hp, hwritable, hvalues⟩
  · intro ⟨hp, hwritable, hvalues⟩
    exact ⟨⟨values, hp, hwritable, hvalues⟩, hp⟩

/-! ### The theorem -/

theorem survives_iff_decoded {python : Interpreter F} {d : CheckDefinition F} :
    d.Survives python ↔ ∃ check_type, d.decoded = some check_type ∧ d.Says python check_type := by
  rw [← received_eq_decoded]
  unfold CheckDefinition.received
  constructor
  · intro ⟨json, check_type, hdumps, hmeaning, hread, _⟩
    exact ⟨check_type, Option.bind_eq_some_iff.mpr ⟨json, hdumps, hread⟩, hmeaning⟩
  · intro ⟨check_type, hreceived, hmeaning⟩
    obtain ⟨json, hdumps, hread⟩ := Option.bind_eq_some_iff.mp hreceived
    refine ⟨json, check_type, hdumps, hmeaning, hread, ?_⟩
    intro libraries data
    unfold validate_check
    rw [hread]

/-- What the worker reads as the definition says has the types of the enum. -/
theorem well_typed_of_decoded {python : Interpreter F} {d : CheckDefinition F}
    {check_type : CheckType F} (hdecoded : d.decoded = some check_type)
    (hmeaning : d.Says python check_type) : d.WellTyped python := by
  unfold CheckDefinition.WellTyped
  unfold CheckDefinition.decoded at hdecoded
  cases hmeaning with
  | not_null hkind hcolumns | unique hkind hcolumns =>
    rw [hkind]
    exact ⟨_, hcolumns⟩
  | in_range hkind hcolumn hmin hmax =>
    rw [hkind] at hdecoded ⊢
    simp only [Option.bind_eq_some_iff] at hdecoded
    obtain ⟨column, -, min, hread_min, max, hread_max, h⟩ := hdecoded
    cases h
    exact ⟨Option.ne_none_iff_exists'.mpr ⟨_, hcolumn⟩, bound_iff.mp ⟨_, hread_min, hmin⟩,
      bound_iff.mp ⟨_, hread_max, hmax⟩⟩
  | regex hkind hcolumn hpattern =>
    rw [hkind]
    exact ⟨Option.ne_none_iff_exists'.mpr ⟨_, hcolumn⟩, _, hpattern⟩
  | row_count hkind hmin hmax =>
    rw [hkind] at hdecoded ⊢
    simp only [Option.bind_eq_some_iff] at hdecoded
    obtain ⟨min, hread_min, max, hread_max, h⟩ := hdecoded
    cases h
    exact ⟨count_iff.mp ⟨_, hread_min, hmin⟩, count_iff.mp ⟨_, hread_max, hmax⟩⟩
  | accepted_values hkind hcolumn hvalues =>
    rw [hkind] at hdecoded ⊢
    simp only [Option.bind_eq_some_iff] at hdecoded
    obtain ⟨column, -, values, hread, h⟩ := hdecoded
    cases h
    exact ⟨Option.ne_none_iff_exists'.mpr ⟨_, hcolumn⟩, _, values_iff.mp ⟨hread, hvalues⟩⟩
  | all_columns hkind hcolumns =>
    rw [hkind]
    exact .inl hcolumns
  | no_duplicate_rows hkind hcolumns =>
    rw [hkind]
    exact .inr ⟨_, hcolumns⟩
  | freshness hkind hcolumn hage =>
    rw [hkind] at hdecoded ⊢
    simp only [Option.bind_eq_some_iff] at hdecoded
    obtain ⟨column, -, age, hread, h⟩ := hdecoded
    cases h
    exact ⟨Option.ne_none_iff_exists'.mpr ⟨_, hcolumn⟩, _, reads_i64_iff.mp hread⟩
  | referential_integrity hkind hcolumn htable hreference =>
    rw [hkind]
    exact ⟨Option.ne_none_iff_exists'.mpr ⟨_, hcolumn⟩, ⟨_, htable⟩, _, hreference⟩
  | schema_match hkind hcolumns hallow =>
    rw [hkind]
    exact ⟨⟨_, hcolumns⟩, _, hallow⟩
  | custom hkind =>
    rw [hkind]
    trivial

/-- Fields with these types are read as what the definition says. -/
theorem decoded_of_well_typed {python : Interpreter F} {d : CheckDefinition F}
    (htyped : d.WellTyped python) :
    ∃ check_type, d.decoded = some check_type ∧ d.Says python check_type := by
  unfold CheckDefinition.WellTyped at htyped
  unfold CheckDefinition.decoded
  cases hkind : d.kind <;> rw [hkind] at htyped <;>
    simp only [Option.bind_eq_some_iff, Option.some.injEq]
  case not_null =>
    obtain ⟨columns, hcolumns⟩ := htyped
    exact ⟨_, ⟨columns, reads_strings_iff.mpr hcolumns, rfl⟩, .not_null hkind hcolumns⟩
  case unique =>
    obtain ⟨columns, hcolumns⟩ := htyped
    exact ⟨_, ⟨columns, reads_strings_iff.mpr hcolumns, rfl⟩, .unique hkind hcolumns⟩
  case in_range =>
    obtain ⟨hcolumn, hmin, hmax⟩ := htyped
    obtain ⟨column, hcolumn⟩ := Option.ne_none_iff_exists'.mp hcolumn
    obtain ⟨min, hread_min, hsame_min⟩ := bound_iff.mpr hmin
    obtain ⟨max, hread_max, hsame_max⟩ := bound_iff.mpr hmax
    exact ⟨_, ⟨column, reads_column_iff.mpr hcolumn, min, hread_min, max, hread_max, rfl⟩,
      .in_range hkind hcolumn hsame_min hsame_max⟩
  case regex =>
    obtain ⟨hcolumn, pattern, hpattern⟩ := htyped
    obtain ⟨column, hcolumn⟩ := Option.ne_none_iff_exists'.mp hcolumn
    exact ⟨_, ⟨column, reads_column_iff.mpr hcolumn, pattern, reads_string_iff.mpr hpattern,
      rfl⟩, .regex hkind hcolumn hpattern⟩
  case row_count =>
    obtain ⟨hmin, hmax⟩ := htyped
    obtain ⟨min, hread_min, hsame_min⟩ := count_iff.mpr hmin
    obtain ⟨max, hread_max, hsame_max⟩ := count_iff.mpr hmax
    exact ⟨_, ⟨min, hread_min, max, hread_max, rfl⟩, .row_count hkind hsame_min hsame_max⟩
  case accepted_values =>
    obtain ⟨hcolumn, values, hvalues⟩ := htyped
    obtain ⟨column, hcolumn⟩ := Option.ne_none_iff_exists'.mp hcolumn
    obtain ⟨hread, hsame⟩ := values_iff.mpr hvalues
    exact ⟨_, ⟨column, reads_column_iff.mpr hcolumn, values, hread, rfl⟩,
      .accepted_values hkind hcolumn hsame⟩
  case no_duplicate_rows =>
    rcases htyped with hnull | ⟨columns, hcolumns⟩
    · exact ⟨_, ⟨none, (reads_option_iff rfl).mpr (.inl ⟨hnull, rfl⟩), rfl⟩,
        .all_columns hkind hnull⟩
    · exact ⟨_, ⟨some columns, (reads_option_iff rfl).mpr
        (.inr ⟨columns, reads_strings_iff.mpr hcolumns, rfl⟩), rfl⟩,
        .no_duplicate_rows hkind hcolumns⟩
  case freshness =>
    obtain ⟨hcolumn, age, hage⟩ := htyped
    obtain ⟨column, hcolumn⟩ := Option.ne_none_iff_exists'.mp hcolumn
    exact ⟨_, ⟨column, reads_column_iff.mpr hcolumn, age, reads_i64_iff.mpr hage, rfl⟩,
      .freshness hkind hcolumn hage.1⟩
  case referential_integrity =>
    obtain ⟨hcolumn, ⟨table, htable⟩, reference, hreference⟩ := htyped
    obtain ⟨column, hcolumn⟩ := Option.ne_none_iff_exists'.mp hcolumn
    exact ⟨_, ⟨column, reads_column_iff.mpr hcolumn, table, reads_string_iff.mpr htable,
      reference, reads_string_iff.mpr hreference, rfl⟩,
      .referential_integrity hkind hcolumn htable hreference⟩
  case schema_match =>
    obtain ⟨⟨columns, hcolumns⟩, allow, hallow⟩ := htyped
    exact ⟨_, ⟨columns, reads_strings_iff.mpr hcolumns, allow, reads_bool_iff.mpr hallow, rfl⟩,
      .schema_match hkind hcolumns hallow⟩
  case custom => exact ⟨_, rfl, .custom hkind⟩

end reading

/-- `check.between("created_at", "2024-01-01", "2024-12-31")`. -/
def created_in_2024 : Check Int :=
  .between "created_at" (.string "2024-01-01") (.string "2024-12-31")

end Servo.Python
