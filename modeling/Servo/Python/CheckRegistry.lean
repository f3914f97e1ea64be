import Servo.Framework.Fallible
import Servo.Framework.Grouping
import Servo.Python.CheckDefinitions

/-! # The Registry of Checks

    `@asset` gives a function a name of its own, and `@check.*` puts a check on
    it. The two are stacked in any order. A check is registered under the
    attribute `_servo_asset_name` of what it decorates, and where there is none
    under the name of the function.

    Nothing sets that attribute. So the checks of an asset are found under its
    name exactly if it has none, or is named as its function.
-/

namespace Servo.Python

open Quality (CheckSeverity)

variable {F : Type}

/-! ### The registry -/

/-- `ServoValidationError`. -/
structure ServoValidationError where
  message : String
  field : String
  deriving DecidableEq

/-- `CheckDefinition` in full. -/
structure RegisteredCheck (F : Type) extends CheckDefinition F where
  asset_name : String
  severity : CheckSeverity
  blocking : Bool
  function_name : String
  module : String

/-- The global registry. The keys of `_check_registry` are the names of the checks. -/
structure CheckRegistry (F : Type) where
  /-- `_check_registry`, in the order of insertion. -/
  checks : List (RegisteredCheck F)
  /-- `_asset_checks`. -/
  asset_checks : List (String × List String)
  names_nodup : (checks.map (·.name)).Nodup
  listed : ∀ asset, (asset_checks.lookup asset).getD [] =
    (checks.filter fun d => d.asset_name = asset).map (·.name)

namespace CheckRegistry

def empty : CheckRegistry F := ⟨[], [], by simp, by simp⟩

variable (registry : CheckRegistry F)

def get_check (name : String) : Option (RegisteredCheck F) :=
  registry.checks.find? fun d => d.name = name

def get_checks_for_asset (asset_name : String) : List (RegisteredCheck F) :=
  ((registry.asset_checks.lookup asset_name).getD []).filterMap registry.get_check

/-- `_register_check`. -/
def register_check (d : RegisteredCheck F) : Except ServoValidationError (CheckRegistry F) :=
  if h : d.name ∈ registry.checks.map (·.name) then
    .error ⟨"Check '" ++ d.name ++ "' is already registered", "name"⟩
  else .ok {
    checks := registry.checks ++ [d]
    asset_checks := Grouping.append_under d.asset_name d.name registry.asset_checks
    names_nodup := by
      rw [List.map_append, List.nodup_append']
      exact ⟨registry.names_nodup, by simp, by simpa using h⟩
    listed := by
      intro asset
      rw [Grouping.lookup_append_under, List.filter_append, List.map_append,
        ← registry.listed asset]
      by_cases hasset : asset = d.asset_name
      · simp [hasset]
      · simp [hasset, Ne.symm hasset] }

variable {registry}

/-- A check is registered unless there is one of its name. -/
theorem register_check_cases (d : RegisteredCheck F) :
    (d.name ∉ registry.checks.map (·.name) ∧ ∃ registry',
        registry.register_check d = .ok registry' ∧
          registry'.checks = registry.checks ++ [d]) ∨
      d.name ∈ registry.checks.map (·.name) ∧ ∃ e, registry.register_check d = .error e := by
  unfold register_check
  split
  · next h => exact .inr ⟨h, _, rfl⟩
  · next h => exact .inl ⟨h, _, rfl, rfl⟩

/-- A check is found under its name. -/
theorem get_check_of_mem {d : RegisteredCheck F} (h : d ∈ registry.checks) :
    registry.get_check d.name = some d := by
  unfold get_check
  cases hfound : registry.checks.find? fun e => e.name = d.name with
  | none =>
    have hnone := List.find?_eq_none.mp hfound d h
    simp at hnone
  | some e =>
    have hname : e.name = d.name := by simpa using List.find?_some hfound
    rw [List.inj_on_of_nodup_map registry.names_nodup (List.mem_of_find?_eq_some hfound) h hname]

/-- The checks of an asset are those that have been registered under its name. -/
theorem get_checks_for_asset_eq (asset_name : String) :
    registry.get_checks_for_asset asset_name =
      registry.checks.filter fun d => d.asset_name = asset_name := by
  have hfound : ∀ checks : List (RegisteredCheck F), (∀ d ∈ checks, d ∈ registry.checks) →
      (checks.map (·.name)).filterMap registry.get_check = checks := by
    intro checks hchecks
    induction checks with
    | nil => rfl
    | cons d checks ih =>
      have hd := get_check_of_mem (hchecks d List.mem_cons_self)
      rw [List.map_cons, List.filterMap_cons, hd]
      exact congrArg (d :: ·) (ih fun e he => hchecks e (List.mem_cons_of_mem _ he))
  unfold get_checks_for_asset
  rw [registry.listed]
  exact hfound _ fun d hd => (List.mem_filter.mp hd).1

end CheckRegistry

/-! ### Decorators -/

/-- A function, or the `Asset` that wraps one. -/
structure Function where
  /-- `__name__`. -/
  name : String
  /-- `__module__`. -/
  module : String
  /-- `_servo_asset_name`, where it is set. -/
  servo_asset_name : Option String

/-- The kind of a `check.*` decorator, and its arguments. -/
inductive CheckSpec (F : Type) where
  | not_null (column : String)
  | unique (column : String)
  | between (column : String) (min_value max_value : Parameter F)
  | matches (column pattern : String)
  | in_set (column : String) (allowed_values : Parameter F)
  | row_count (min_count max_count : Parameter F)
  | freshness (column : String) (max_age_seconds : Parameter F)
  | referential_integrity (column reference_table reference_column : String)
  | schema_match (expected_columns allow_extra_columns : Parameter F)

namespace CheckSpec

/-- The name of a check that is not given one. -/
def default_name : CheckSpec F → String
  | .not_null column => "not_null_" ++ column
  | .unique column => "unique_" ++ column
  | .between column _ _ => "between_" ++ column
  | .matches column _ => "matches_" ++ column
  | .in_set column _ => "in_set_" ++ column
  | .row_count _ _ => "row_count"
  | .freshness column _ => "freshness_" ++ column
  | .referential_integrity column _ _ => "referential_integrity_" ++ column
  | .schema_match _ _ => "schema_match"

/-- What the worker is told of the check; `text` is the text of an object in an f-string. -/
def definition (text : Parameter F → String) (name : String) : CheckSpec F → CheckDefinition F
  | .not_null column =>
    ⟨name, "not_null", some ("Column '" ++ column ++ "' must not contain null values"),
      [("columns", .texts [column])], some column⟩
  | .unique column =>
    ⟨name, "unique", some ("Column '" ++ column ++ "' must have unique values"),
      [("columns", .texts [column])], some column⟩
  | .between column min_value max_value =>
    ⟨name, "in_range", some ("Column '" ++ column ++ "' must be between " ++ text min_value ++
      " and " ++ text max_value), [("min", min_value), ("max", max_value)], some column⟩
  | .matches column pattern =>
    ⟨name, "regex", some ("Column '" ++ column ++ "' must match pattern '" ++ pattern ++ "'"),
      [("pattern", .text pattern)], some column⟩
  | .in_set column allowed_values =>
    ⟨name, "accepted_values", some ("Column '" ++ column ++ "' must be one of " ++
      text allowed_values), [("values", allowed_values)], some column⟩
  | .row_count min_count max_count =>
    ⟨name, "row_count", some ("Row count must be between " ++ text min_count ++ " and " ++
      text max_count), [("min", min_count), ("max", max_count)], none⟩
  | .freshness column max_age_seconds =>
    ⟨name, "freshness", some ("Column '" ++ column ++ "' must have data fresher than " ++
      text max_age_seconds ++ "s"), [("max_age_seconds", max_age_seconds)], some column⟩
  | .referential_integrity column reference_table reference_column =>
    ⟨name, "referential_integrity", some ("Column '" ++ column ++ "' must reference '" ++
      reference_table ++ "." ++ reference_column ++ "'"),
      [("reference_table", .text reference_table), ("reference_column", .text reference_column)],
      some column⟩
  | .schema_match expected_columns allow_extra_columns =>
    ⟨name, "schema_match", some ("Schema must contain columns: " ++ text expected_columns),
      [("expected_columns", expected_columns), ("allow_extra_columns", allow_extra_columns)],
      none⟩

end CheckSpec

/-- A `check.*` decorator. -/
structure CheckDecorator (F : Type) where
  spec : CheckSpec F
  severity : CheckSeverity
  blocking : Bool
  name : Option String

namespace CheckDecorator

variable (c : CheckDecorator F)

/-- `name or ..`: an empty name is none. -/
def check_name : String := (c.name.filter fun name => name ≠ "").getD c.spec.default_name

/-- The definition of this check for an asset of this name. -/
def definition (text : Parameter F → String) (asset_name function_name module : String) :
    RegisteredCheck F where
  toCheckDefinition := c.spec.definition text c.check_name
  asset_name := asset_name
  severity := c.severity
  blocking := c.blocking
  function_name := function_name
  module := module

/-- The decorator, applied to a function. -/
def apply (text : Parameter F → String) (func : Function) (registry : CheckRegistry F) :
    Except ServoValidationError (CheckRegistry F) :=
  registry.register_check
    (c.definition text (func.servo_asset_name.getD func.name) func.name func.module)

@[simp] theorem name_definition (text : Parameter F → String)
    (asset_name function_name module : String) :
    (c.definition text asset_name function_name module).name = c.check_name := by
  unfold definition
  cases c.spec <;> rfl

end CheckDecorator

/-- `AssetDefinition`, as far as a registration reads it. -/
structure AssetDefinition where
  name : String
  function_name : String
  module : String
  dependencies : List String

/-- `_asset_registry`, in the order of insertion. The keys are the names of the assets. -/
structure AssetRegistry where
  assets : List AssetDefinition
  names_nodup : (assets.map (·.name)).Nodup

def AssetRegistry.empty : AssetRegistry := ⟨[], by simp⟩

section asset

-- `str.isalnum` of a text with one character
variable (is_alnum : Char → Bool)

/-- `name.replace("_", "").replace("-", "").isalnum()`. -/
def is_asset_name (name : String) : Bool :=
  let chars := name.toList.filter fun c => c ≠ '_' && c ≠ '-'
  chars ≠ [] && chars.all is_alnum

/-- `Asset._validate`. -/
def validate_asset (name : String) (dependencies : List String) :
    Except ServoValidationError Unit :=
  if name = "" then .error ⟨"Asset name cannot be empty", "name"⟩
  else if ¬ is_asset_name is_alnum name then
    .error ⟨"Asset name must be alphanumeric (with underscores/hyphens): " ++ name, "name"⟩
  else if name ∈ dependencies then
    .error ⟨"Asset cannot depend on itself: " ++ name, "dependencies"⟩
  else .ok ()

/-- `Asset._register`. -/
def register_asset (registry : AssetRegistry) (d : AssetDefinition) :
    Except ServoValidationError AssetRegistry :=
  if h : d.name ∈ registry.assets.map (·.name) then
    .error ⟨"Asset '" ++ d.name ++ "' already registered from " ++
      ((registry.assets.find? fun existing => existing.name = d.name).elim "" fun existing =>
        existing.module ++ "." ++ existing.function_name), "name"⟩
  else .ok {
    assets := registry.assets ++ [d]
    names_nodup := by
      rw [List.map_append, List.nodup_append']
      exact ⟨registry.names_nodup, by simp, by simpa using h⟩ }

/-- `asset`: the wrapper, and the registry with the asset. `update_wrapper` gives the wrapper the
    name and the attributes of the function. -/
def asset (func : Function) (name : Option String) (dependencies : List String)
    (registry : AssetRegistry) : Except ServoValidationError (Function × AssetRegistry) := do
  let asset_name := name.getD func.name
  validate_asset is_alnum asset_name dependencies
  let registry ← register_asset registry ⟨asset_name, func.name, func.module, dependencies⟩
  return (func, registry)

end asset

/-! ### Programs -/

/-- The definition of a function and its decorators: the checks between `def` and `@asset` and
    those above it, the innermost first. -/
structure AssetSource (F : Type) where
  function_name : String
  module : String
  below : List (CheckDecorator F)
  name : Option String
  dependencies : List String
  above : List (CheckDecorator F)

namespace AssetSource

variable (source : AssetSource F)

/-- The name that the asset decorator gives to the function. -/
def asset_name : String := source.name.getD source.function_name

/-- The checks that are written on the asset. -/
def checks : List (CheckDecorator F) := source.below ++ source.above

/-- Their definitions, for an asset of this name. -/
def definitions (text : Parameter F → String) (asset_name : String) : List (RegisteredCheck F) :=
  source.checks.map (·.definition text asset_name source.function_name source.module)

end AssetSource

structure Registries (F : Type) where
  assets : AssetRegistry
  checks : CheckRegistry F

section run

variable (is_alnum : Char → Bool) (text : Parameter F → String)

def apply_checks (checks : List (CheckDecorator F)) (func : Function)
    (registry : CheckRegistry F) : Except ServoValidationError (CheckRegistry F) :=
  checks.foldlM (fun registry c => c.apply text func registry) registry

def run_source (registries : Registries F) (source : AssetSource F) :
    Except ServoValidationError (Registries F) := do
  let func : Function := ⟨source.function_name, source.module, none⟩
  let below ← apply_checks text source.below func registries.checks
  let (wrapper, assets) ←
    asset is_alnum func source.name source.dependencies registries.assets
  let above ← apply_checks text source.above wrapper below
  return ⟨assets, above⟩

/-- A program, up to its first exception. -/
def run (program : List (AssetSource F)) : Except ServoValidationError (Registries F) :=
  program.foldlM (run_source is_alnum text) ⟨.empty, .empty⟩

end run

/-! ### What is registered -/

section registered

variable {is_alnum : Char → Bool} {text : Parameter F → String}

theorem apply_checks_cons (c : CheckDecorator F) (checks : List (CheckDecorator F))
    (func : Function) (registry : CheckRegistry F) :
    apply_checks text (c :: checks) func registry =
      (c.apply text func registry >>= fun registry => apply_checks text checks func registry) :=
  rfl

/-- Checks are registered one after the other, if their names are new and different. -/
theorem apply_checks_iff {checks : List (CheckDecorator F)} {func : Function}
    {registry : CheckRegistry F} :
    (∃ registry', apply_checks text checks func registry = .ok registry') ↔
      (registry.checks.map (·.name) ++ checks.map (·.check_name)).Nodup := by
  induction checks generalizing registry with
  | nil =>
    rw [List.map_nil, List.append_nil]
    exact iff_of_true ⟨registry, rfl⟩ registry.names_nodup
  | cons c checks ih =>
    rw [apply_checks_cons, List.map_cons]
    unfold CheckDecorator.apply
    obtain ⟨hnew, registry', happly, hchecks⟩ | ⟨htaken, e, happly⟩ := registry.register_check_cases
      (c.definition text (func.servo_asset_name.getD func.name) func.name func.module)
    · rw [happly, Fallible.ok_bind, ih, hchecks, List.map_append, List.append_assoc]
      simp
    · rw [happly, Fallible.error_bind]
      rw [CheckDecorator.name_definition] at htaken
      constructor
      · intro hok
        obtain ⟨registry', hok⟩ := hok
        cases hok
      · intro hnodup
        have hdisjoint := (List.nodup_append'.mp hnodup).2.2
        exact absurd List.mem_cons_self (hdisjoint htaken)

theorem checks_of_apply_checks {checks : List (CheckDecorator F)} {func : Function}
    {registry registry' : CheckRegistry F}
    (h : apply_checks text checks func registry = .ok registry') :
    registry'.checks = registry.checks ++ checks.map
      (·.definition text (func.servo_asset_name.getD func.name) func.name func.module) := by
  induction checks generalizing registry with
  | nil =>
    cases h
    simp
  | cons c checks ih =>
    rw [apply_checks_cons] at h
    unfold CheckDecorator.apply at h
    obtain ⟨-, registry₁, happly, hchecks⟩ | ⟨-, e, happly⟩ := registry.register_check_cases
      (c.definition text (func.servo_asset_name.getD func.name) func.name func.module)
    · rw [happly, Fallible.ok_bind] at h
      rw [ih h, hchecks, List.append_assoc]
      rfl
    · rw [happly, Fallible.error_bind] at h
      cases h

/-- An asset is registered if its name is valid and new. -/
theorem asset_eq_ok_iff {func wrapper : Function} {name : Option String}
    {dependencies : List String} {registry registry' : AssetRegistry} :
    asset is_alnum func name dependencies registry = .ok (wrapper, registry') ↔
      validate_asset is_alnum (name.getD func.name) dependencies = .ok () ∧
        name.getD func.name ∉ registry.assets.map (·.name) ∧ wrapper = func ∧
        registry'.assets = registry.assets ++
          [⟨name.getD func.name, func.name, func.module, dependencies⟩] := by
  unfold asset register_asset
  rw [Fallible.bind_eq_ok_iff]
  constructor
  · intro h
    obtain ⟨⟨⟩, hvalid, h⟩ := h
    split at h
    · cases h
    · next hnew =>
      cases h
      exact ⟨hvalid, hnew, rfl, rfl⟩
  · intro h
    obtain ⟨hvalid, hnew, rfl, hassets⟩ := h
    refine ⟨(), hvalid, ?_⟩
    rw [dif_neg hnew]
    obtain ⟨assets, hnodup⟩ := registry'
    subst hassets
    rfl

/-- What a definition adds to the registries. -/
theorem run_source_eq_ok {registries registries' : Registries F} {source : AssetSource F}
    (h : run_source is_alnum text registries source = .ok registries') :
    registries'.assets.assets.map (·.name) =
        registries.assets.assets.map (·.name) ++ [source.asset_name] ∧
      registries'.checks.checks =
        registries.checks.checks ++ source.definitions text source.function_name := by
  obtain ⟨below, hbelow, h⟩ := Fallible.bind_eq_ok_iff.mp h
  obtain ⟨⟨wrapper, assets⟩, hasset, h⟩ := Fallible.bind_eq_ok_iff.mp h
  obtain ⟨above, habove, h⟩ := Fallible.bind_eq_ok_iff.mp h
  cases h
  obtain ⟨-, -, rfl, hassets⟩ := asset_eq_ok_iff.mp hasset
  constructor
  · rw [hassets, List.map_append]
    rfl
  · rw [checks_of_apply_checks habove, checks_of_apply_checks hbelow, List.append_assoc,
      ← List.map_append]
    rfl

/-- A definition is accepted if its asset is valid and new, and the names of its checks are new
    and different. -/
theorem run_source_iff {registries : Registries F} {source : AssetSource F} :
    (∃ registries', run_source is_alnum text registries source = .ok registries') ↔
      validate_asset is_alnum source.asset_name source.dependencies = .ok () ∧
        source.asset_name ∉ registries.assets.assets.map (·.name) ∧
        (registries.checks.checks.map (·.name) ++ source.checks.map (·.check_name)).Nodup := by
  have hnames : ∀ below : CheckRegistry F,
      below.checks = registries.checks.checks ++ source.below.map
        (·.definition text source.function_name source.function_name source.module) →
      below.checks.map (·.name) ++ source.above.map (·.check_name) =
        registries.checks.checks.map (·.name) ++ source.checks.map (·.check_name) := by
    intro below hbelow
    rw [hbelow, AssetSource.checks, List.map_append, List.map_append, List.map_map,
      List.append_assoc]
    simp [Function.comp_def]
  constructor
  · intro h
    obtain ⟨registries', h⟩ := h
    obtain ⟨below, hbelow, h⟩ := Fallible.bind_eq_ok_iff.mp h
    obtain ⟨⟨wrapper, assets⟩, hasset, h⟩ := Fallible.bind_eq_ok_iff.mp h
    obtain ⟨above, habove, -⟩ := Fallible.bind_eq_ok_iff.mp h
    obtain ⟨hvalid, hnew, -, -⟩ := asset_eq_ok_iff.mp hasset
    have hnodup := apply_checks_iff.mp ⟨above, habove⟩
    rw [hnames below (checks_of_apply_checks hbelow)] at hnodup
    exact ⟨hvalid, hnew, hnodup⟩
  · intro h
    obtain ⟨hvalid, hnew, hnodup⟩ := h
    have hbelow_nodup := hnodup
    rw [AssetSource.checks, List.map_append, ← List.append_assoc] at hbelow_nodup
    obtain ⟨below, hbelow⟩ := (@apply_checks_iff F text source.below
      ⟨source.function_name, source.module, none⟩ registries.checks).mpr
        (List.nodup_append'.mp hbelow_nodup).1
    rw [← hnames below (checks_of_apply_checks hbelow)] at hnodup
    obtain ⟨above, habove⟩ := (@apply_checks_iff F text source.above
      ⟨source.function_name, source.module, none⟩ below).mpr hnodup
    obtain ⟨assets, hassets⟩ : ∃ assets, asset is_alnum
        ⟨source.function_name, source.module, none⟩ source.name source.dependencies
          registries.assets = .ok (⟨source.function_name, source.module, none⟩, assets) := by
      refine ⟨⟨registries.assets.assets ++ [⟨source.asset_name, source.function_name,
        source.module, source.dependencies⟩], ?_⟩, asset_eq_ok_iff.mpr ⟨hvalid, hnew, rfl, rfl⟩⟩
      rw [List.map_append, List.nodup_append']
      exact ⟨registries.assets.names_nodup, by simp, by simpa using hnew⟩
    exact ⟨⟨assets, above⟩, Fallible.bind_eq_ok_iff.mpr ⟨below, hbelow,
      Fallible.bind_eq_ok_iff.mpr ⟨_, hassets, Fallible.bind_eq_ok_iff.mpr ⟨above, habove, rfl⟩⟩⟩⟩

/-- A program runs to its end if its assets are valid, and no two assets and no two checks have
    the same name. -/
structure Accepted (is_alnum : Char → Bool) (program : List (AssetSource F)) : Prop where
  valid : ∀ source ∈ program,
    validate_asset is_alnum source.asset_name source.dependencies = .ok ()
  assets_nodup : (program.map (·.asset_name)).Nodup
  checks_nodup : (program.flatMap fun source => source.checks.map (·.check_name)).Nodup

theorem run_append (program : List (AssetSource F)) (source : AssetSource F) :
    run is_alnum text (program ++ [source]) =
      (run is_alnum text program >>= fun registries =>
        run_source is_alnum text registries source) := by
  unfold run
  rw [List.foldlM_append]
  simp only [List.foldlM_cons, List.foldlM_nil, bind_pure]

/-- What is in the registries at the end of a program. -/
theorem registries_of_run {program : List (AssetSource F)} {registries : Registries F}
    (h : run is_alnum text program = .ok registries) :
    registries.assets.assets.map (·.name) = program.map (·.asset_name) ∧
      registries.checks.checks =
        program.flatMap fun source => source.definitions text source.function_name := by
  induction program using List.reverseRecOn generalizing registries with
  | nil =>
    cases h
    exact ⟨rfl, rfl⟩
  | append_singleton program source ih =>
    rw [run_append] at h
    obtain ⟨before, hbefore, hsource⟩ := Fallible.bind_eq_ok_iff.mp h
    obtain ⟨hassets, hchecks⟩ := ih hbefore
    obtain ⟨hnew_assets, hnew_checks⟩ := run_source_eq_ok hsource
    constructor
    · rw [hnew_assets, hassets, List.map_append]
      rfl
    · rw [hnew_checks, hchecks, List.flatMap_append, List.flatMap_singleton]

theorem names_of_definitions (source : AssetSource F) (asset_name : String) :
    (source.definitions text asset_name).map (·.name) = source.checks.map (·.check_name) := by
  unfold AssetSource.definitions
  rw [List.map_map]
  simp [Function.comp_def]

/-- A program runs to its end exactly if it is accepted. -/
theorem run_iff {program : List (AssetSource F)} :
    (∃ registries, run is_alnum text program = .ok registries) ↔ Accepted is_alnum program := by
  induction program using List.reverseRecOn with
  | nil => exact iff_of_true ⟨_, rfl⟩ ⟨by simp, by simp, by simp⟩
  | append_singleton program source ih =>
    -- the registries before the last definition hold the names of the definitions before it
    have hlast : ∀ {before : Registries F}, run is_alnum text program = .ok before →
        ((∃ registries, run_source is_alnum text before source = .ok registries) ↔
          validate_asset is_alnum source.asset_name source.dependencies = .ok () ∧
            source.asset_name ∉ program.map (·.asset_name) ∧
            ((program ++ [source]).flatMap fun source =>
              source.checks.map (·.check_name)).Nodup) := by
      intro before hbefore
      obtain ⟨hassets, hchecks⟩ := registries_of_run hbefore
      rw [run_source_iff, hassets, hchecks, List.map_flatMap, List.flatMap_append,
        List.flatMap_singleton]
      simp only [names_of_definitions]
    rw [run_append]
    constructor
    · intro h
      obtain ⟨registries, h⟩ := h
      obtain ⟨before, hbefore, hsource⟩ := Fallible.bind_eq_ok_iff.mp h
      have hprogram := ih.mp ⟨before, hbefore⟩
      obtain ⟨hvalid, hnew, hnodup⟩ := (hlast hbefore).mp ⟨registries, hsource⟩
      refine ⟨?_, ?_, hnodup⟩
      · intro other hother
        rcases List.mem_append.mp hother with hother | hother
        · exact hprogram.valid other hother
        · rw [List.mem_singleton.mp hother]
          exact hvalid
      · rw [List.map_append, List.nodup_append']
        exact ⟨hprogram.assets_nodup, by simp, by simpa using hnew⟩
    · intro h
      have hassets := h.assets_nodup
      have hchecks := h.checks_nodup
      rw [List.map_append, List.nodup_append'] at hassets
      rw [List.flatMap_append, List.nodup_append'] at hchecks
      have hprogram : Accepted is_alnum program :=
        ⟨fun other hother => h.valid other (List.mem_append_left _ hother), hassets.1, hchecks.1⟩
      obtain ⟨before, hbefore⟩ := ih.mpr hprogram
      obtain ⟨registries, hsource⟩ := (hlast hbefore).mpr
        ⟨h.valid source (by simp), by simpa using hassets.2.2, h.checks_nodup⟩
      exact ⟨registries, Fallible.bind_eq_ok_iff.mpr ⟨before, hbefore, hsource⟩⟩

end registered

/-! ### Checks and their assets -/

/-- Every check is found under its name and belongs to the asset it is written on, and the checks
    of an asset are those that are written on it. -/
structure Bound (text : Parameter F → String) (program : List (AssetSource F))
    (registry : CheckRegistry F) : Prop where
  each : ∀ source ∈ program, ∀ c ∈ source.checks, registry.get_check c.check_name =
    some (c.definition text source.asset_name source.function_name source.module)
  precisely : ∀ source ∈ program, registry.get_checks_for_asset source.asset_name =
    source.definitions text source.asset_name

/-- An asset with checks is named as its function. -/
def NamedAsFunction (source : AssetSource F) : Prop :=
  source.checks ≠ [] → source.asset_name = source.function_name

theorem definitions_eq_of_named {text : Parameter F → String} {source : AssetSource F}
    (h : NamedAsFunction source) :
    source.definitions text source.function_name = source.definitions text source.asset_name := by
  by_cases hchecks : source.checks = []
  · simp [AssetSource.definitions, hchecks]
  · rw [h hchecks]

/-- Lists that belong to different keys, one after the other: those of a key are its list. -/
theorem filter_flatMap_of_nodup {α β κ : Type} [DecidableEq κ] {key : α → κ} {f : α → List β}
    {key' : β → κ} (hkey : ∀ x, ∀ y ∈ f x, key' y = key x) {xs : List α}
    (hnodup : (xs.map key).Nodup) {x : α} (hx : x ∈ xs) :
    ((xs.flatMap f).filter fun y => key' y = key x) = f x := by
  have hothers : ∀ {others : List α}, key x ∉ others.map key →
      ((others.flatMap f).filter fun y => key' y = key x) = [] := by
    intro others hother
    rw [List.filter_eq_nil_iff]
    intro y hy heq
    obtain ⟨other, hmem, hy⟩ := List.mem_flatMap.mp hy
    exact hother (List.mem_map.mpr ⟨other, hmem, (hkey other y hy).symm.trans (by simpa using heq)⟩)
  obtain ⟨before, after, rfl⟩ := List.append_of_mem hx
  rw [List.map_append, List.map_cons, List.nodup_append'] at hnodup
  obtain ⟨-, hafter, hdisjoint⟩ := hnodup
  have hbefore : key x ∉ before.map key := fun h => hdisjoint h List.mem_cons_self
  have hown : ((f x).filter fun y => key' y = key x) = f x := by
    rw [List.filter_eq_self]
    intro y hy
    simpa using hkey x y hy
  rw [List.flatMap_append, List.flatMap_cons, List.filter_append, List.filter_append,
    hothers hbefore, hothers (List.nodup_cons.mp hafter).1, hown]
  simp

section bound

variable {is_alnum : Char → Bool} {text : Parameter F → String}

/-- The checks of a program that has run are bound to their assets exactly if every asset that
    has checks is named as its function. -/
theorem bound_of_run_iff {program : List (AssetSource F)} {registries : Registries F}
    (h : run is_alnum text program = .ok registries) :
    Bound text program registries.checks ↔ ∀ source ∈ program, NamedAsFunction source := by
  have hchecks := (registries_of_run h).2
  constructor
  · intro hbound source hsource hne
    obtain ⟨c, hc⟩ := List.exists_mem_of_ne_nil _ hne
    have hmem : c.definition text source.function_name source.function_name source.module ∈
        registries.checks.checks := by
      rw [hchecks]
      exact List.mem_flatMap.mpr ⟨source, hsource, List.mem_map_of_mem hc⟩
    have hfound := CheckRegistry.get_check_of_mem hmem
    rw [CheckDecorator.name_definition, hbound.each source hsource c hc] at hfound
    exact congrArg RegisteredCheck.asset_name (Option.some.inj hfound)
  · intro hnamed
    have hassets : registries.checks.checks =
        program.flatMap fun source => source.definitions text source.asset_name := by
      rw [hchecks]
      exact List.flatMap_congr fun source hsource =>
        definitions_eq_of_named (hnamed source hsource)
    constructor
    · intro source hsource c hc
      have hmem : c.definition text source.asset_name source.function_name source.module ∈
          registries.checks.checks := by
        rw [hassets]
        exact List.mem_flatMap.mpr ⟨source, hsource, List.mem_map_of_mem hc⟩
      have hfound := CheckRegistry.get_check_of_mem hmem
      rwa [CheckDecorator.name_definition] at hfound
    · intro source hsource
      rw [CheckRegistry.get_checks_for_asset_eq, hassets]
      apply filter_flatMap_of_nodup _
        (run_iff.mp ⟨registries, h⟩).assets_nodup hsource
      intro source d hd
      obtain ⟨c, -, rfl⟩ := List.mem_map.mp hd
      rfl

/-- A program runs to its end exactly if it is accepted, and then its checks are bound to their
    assets exactly if every asset that has checks is named as its function. -/
theorem checks_bound_iff (is_alnum : Char → Bool) (text : Parameter F → String)
    (program : List (AssetSource F)) :
    ((∃ registries, run is_alnum text program = .ok registries) ↔ Accepted is_alnum program) ∧
      ∀ registries, run is_alnum text program = .ok registries →
        (Bound text program registries.checks ↔ ∀ source ∈ program, NamedAsFunction source) :=
  ⟨run_iff, fun _ h => bound_of_run_iff h⟩

end bound

/-- `@check.not_null("id")` over `@asset(name="customers")` over `def customers`. -/
def customers : AssetSource Int :=
  ⟨"customers", "shop", [], some "customers", [], [⟨.not_null "id", .Error, true, none⟩]⟩

theorem checks_bound_customers : ∃ registries,
    run Char.isAlphanum (fun _ => "") [customers] = .ok registries ∧
      Bound (fun _ => "") [customers] registries.checks := by
  have haccepted : Accepted Char.isAlphanum [customers] := by
    refine ⟨?_, by decide, by decide⟩
    intro source hsource
    rw [List.mem_singleton.mp hsource]
    decide
  obtain ⟨registries, h⟩ :=
    (checks_bound_iff Char.isAlphanum (fun _ => "") [customers]).1.mpr haccepted
  refine ⟨registries, h, ?_⟩
  apply ((checks_bound_iff Char.isAlphanum (fun _ => "") [customers]).2 registries h).mpr
  intro source hsource
  rw [List.mem_singleton.mp hsource]
  exact fun _ => rfl

/-- The same over `def load_customers`. -/
def load_customers : AssetSource Int := { customers with function_name := "load_customers" }

/-- The check goes to `load_customers`, which is no asset. -/
theorem check_misses_asset : ∃ registries,
    run Char.isAlphanum (fun _ => "") [load_customers] = .ok registries ∧
      registries.assets.assets.map (·.name) = ["customers"] ∧
      registries.checks.get_checks_for_asset "customers" = [] ∧
      (registries.checks.get_checks_for_asset "load_customers").map (·.name) =
        ["not_null_id"] ∧
      ¬ Bound (fun _ => "") [load_customers] registries.checks := by
  have haccepted : Accepted Char.isAlphanum [load_customers] := by
    refine ⟨?_, by decide, by decide⟩
    intro source hsource
    rw [List.mem_singleton.mp hsource]
    decide
  obtain ⟨registries, h⟩ := (@run_iff Int _ (fun _ => "") _).mpr haccepted
  obtain ⟨hassets, hchecks⟩ := registries_of_run h
  have hnone : registries.checks.get_checks_for_asset "customers" = [] := by
    rw [CheckRegistry.get_checks_for_asset_eq, hchecks]
    rfl
  refine ⟨registries, h, hassets, hnone, ?_, ?_⟩
  · rw [CheckRegistry.get_checks_for_asset_eq, hchecks]
    rfl
  · intro hbound
    have hprecisely := hbound.precisely load_customers List.mem_cons_self
    rw [show load_customers.asset_name = "customers" from rfl, hnone] at hprecisely
    cases hprecisely

end Servo.Python
