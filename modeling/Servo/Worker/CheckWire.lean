import Servo.Core.Quality
import Servo.Worker.CheckValidator

/-! # Check Types on the Wire

    `servo_core::quality::CheckType` and the enum of the worker are written
    apart. The core serializes by one, the worker reads by the other.

    A maximum age is a `u64` for the core and an `i64` for the worker. And a
    bound that is no finite number is `null` in JSON, which the worker takes
    for no bound.
-/

namespace Servo.CheckWire

open Quality (CheckType)

variable {F : Type} [F64 F]

/-- The check type of the worker that corresponds to one of the core. -/
def to_worker : CheckType F → CheckValidator.CheckType F
  | .NotNull columns => .NotNull columns
  | .Unique columns => .Unique columns
  | .InRange column min max => .InRange column min max
  | .Regex column pattern => .Regex column pattern
  | .RowCount min max => .RowCount (min.map (·.toInt)) (max.map (·.toInt))
  | .Freshness timestamp_column max_age_seconds =>
    .Freshness timestamp_column max_age_seconds.toNat
  | .AcceptedValues column values => .AcceptedValues column values
  | .Custom name description => .Custom (some name) (some description)
  | .ReferentialIntegrity column reference_table reference_column =>
    .ReferentialIntegrity column reference_table reference_column
  | .SchemaMatch expected_columns allow_extra_columns =>
    .SchemaMatch expected_columns allow_extra_columns

/-- The bounds are finite, and the maximum age is an `i64`. -/
def Representable : CheckType F → Prop
  | .InRange _ min max => min.all F64.is_finite = true ∧ max.all F64.is_finite = true
  | .Freshness _ max_age_seconds => max_age_seconds.toNat < 2 ^ 63
  | _ => True

/-! ### What is read of what has been written -/

omit [F64 F] in
theorem as_strings_strings (texts : List String) :
    (Quality.CheckType.strings texts : Value F).as_strings = some texts := by
  show (texts.map Value.string).mapM (m := Option) (Value.as_string (F := F)) = some texts
  induction texts with
  | nil => rfl
  | cons text texts ih => rw [List.map_cons, List.mapM_cons, ih]; rfl

omit [F64 F] in
theorem as_vec_values (values : List (Value F)) :
    (Value.array values).as_vec some = some values := by
  show values.mapM (m := Option) some = some values
  induction values with
  | nil => rfl
  | cons value values ih => rw [List.mapM_cons, ih]; rfl

omit [F64 F] in
theorem as_i64_int (n : Int64) : (.number (.int n.toInt) : Value F).as_i64 = some n.toInt :=
  if_pos ⟨n.le_toInt, n.toInt_lt⟩

omit [F64 F] in
theorem as_i64_of_nat (n : Nat) :
    (Value.of_nat n : Value F).as_i64 = if n < 2 ^ 63 then some (n : Int) else none := by
  unfold Value.of_nat Value.as_i64
  by_cases hn : n < 2 ^ 63
  · rw [if_pos hn]
    exact if_pos ⟨by omega, by omega⟩
  · rw [if_neg hn]
    exact if_neg (by omega)

omit [F64 F] in
theorem as_option_i64 (n : Option Int64) :
    (Value.of_option (fun n => .number (.int n.toInt)) n : Value F).as_option Value.as_i64 =
      some (n.map (·.toInt)) := by
  cases n with
  | none => rfl
  | some n =>
    show (Value.as_i64 (.number (.int n.toInt) : Value F)).map some = _
    rw [as_i64_int]
    rfl

/-- A bound arrives as it is if it is finite, and gets lost otherwise. -/
theorem as_option_f64 (x : Option F) :
    (Value.of_option Value.of_f64 x).as_option Value.as_f64 =
      some (x.filter fun x => F64.is_finite x) := by
  cases x with
  | none => rfl
  | some x =>
    show (if F64.is_finite x = true then Value.number (.float x) else .null).as_option
      Value.as_f64 = _
    by_cases hfinite : F64.is_finite x = true
    · rw [if_pos hfinite, Option.filter_some_pos hfinite]
      rfl
    · rw [if_neg hfinite, Option.filter_some_neg (Bool.eq_false_iff.mpr hfinite)]
      rfl

/-- A maximum age is read as an `i64`. -/
theorem deserialize_freshness (timestamp_column : String) (max_age_seconds : Value F) :
    CheckValidator.CheckType.deserialize (.object [("max_age_seconds", max_age_seconds),
        ("timestamp_column", .string timestamp_column), ("type", .string "freshness")]) =
      max_age_seconds.as_i64.bind fun n => some (.Freshness timestamp_column n) := rfl

/-- What the worker reads: bounds that are not finite are lost, and a maximum age that is no
    `i64` is an error. -/
def received : CheckType F → Option (CheckValidator.CheckType F)
  | .InRange column min max =>
    some (.InRange column (min.filter fun x => F64.is_finite x)
      (max.filter fun x => F64.is_finite x))
  | .Freshness timestamp_column max_age_seconds =>
    if max_age_seconds.toNat < 2 ^ 63 then
      some (.Freshness timestamp_column max_age_seconds.toNat)
    else none
  | check_type => some (to_worker check_type)

theorem deserialize_to_value (check_type : CheckType F) :
    CheckValidator.CheckType.deserialize check_type.to_value = received check_type := by
  cases check_type with
  | NotNull columns | Unique columns =>
    show ((Quality.CheckType.strings columns : Value F).as_strings.bind fun columns => _) = _
    rw [as_strings_strings]
    rfl
  | InRange column min max =>
    show (((Value.of_option Value.of_f64 min).as_option Value.as_f64).bind fun min =>
      ((Value.of_option Value.of_f64 max).as_option Value.as_f64).bind fun max => _) = _
    rw [as_option_f64, as_option_f64]
    rfl
  | Regex | Custom | ReferentialIntegrity => rfl
  | RowCount min max =>
    show (((Value.of_option _ min : Value F).as_option Value.as_i64).bind fun min =>
      ((Value.of_option _ max : Value F).as_option Value.as_i64).bind fun max => _) = _
    rw [as_option_i64, as_option_i64]
    rfl
  | Freshness timestamp_column max_age_seconds =>
    refine (deserialize_freshness timestamp_column _).trans ?_
    rw [as_i64_of_nat, received]
    split <;> rfl
  | AcceptedValues column values =>
    show (((Value.array values).as_vec some).bind fun values => _) = _
    rw [as_vec_values]
    rfl
  | SchemaMatch expected_columns allow_extra_columns =>
    show ((Quality.CheckType.strings expected_columns : Value F).as_strings.bind
      fun columns => _) = _
    rw [as_strings_strings]
    rfl

theorem filter_eq_self_iff {α : Type} (p : α → Bool) (x : Option α) :
    x.filter p = x ↔ x.all p = true := by
  cases x with
  | none => simp
  | some x => cases hp : p x <;> simp [Option.filter, hp]

/-- **When a check type survives the wire**: exactly if its bounds are finite, and its maximum
    age is an `i64`. -/
theorem survives_wire_iff (check_type : CheckType F) :
    CheckValidator.CheckType.deserialize check_type.to_value = some (to_worker check_type) ↔
      Representable check_type := by
  rw [deserialize_to_value]
  cases check_type with
  | InRange column min max =>
    show some (CheckValidator.CheckType.InRange _ _ _) = some (.InRange _ _ _) ↔ _ ∧ _
    rw [← filter_eq_self_iff, ← filter_eq_self_iff]
    simp
  | Freshness timestamp_column max_age_seconds =>
    show (if _ then some (to_worker (.Freshness timestamp_column max_age_seconds)) else none) =
      some (to_worker (.Freshness timestamp_column max_age_seconds)) ↔ _ < _
    simp
  | _ => exact iff_of_true rfl trivial

/-- A maximum age of 2^63 seconds. -/
theorem large_age_is_refused :
    ¬ ∀ check_type : CheckType Int,
      CheckValidator.CheckType.deserialize check_type.to_value = some (to_worker check_type) := by
  intro hall
  have hread := hall (.Freshness "updated_at" (.ofNat (2 ^ 63)))
  have hlarge : ¬ (UInt64.ofNat (2 ^ 63)).toNat < 2 ^ 63 := by decide
  rw [deserialize_to_value, received, if_neg hlarge] at hread
  cases hread

end Servo.CheckWire
