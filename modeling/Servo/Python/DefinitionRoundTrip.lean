import Servo.Python.PartitionDefinitions

/-! # Definitions are Written and Read

    `parse_partition_definition` reads what `to_dict` writes, except for the
    format of a time partition, and it adds the keys of a dynamic partition one
    by one, so that a key which is there twice is kept once. A definition has
    the same keys afterwards where this makes no difference.
-/

namespace Servo.Python.PartitionDefinition

variable {I : Platform}

/-! ### Writing -/

/-- The value of the granularity. -/
def granularity_value : PartitionGranularity → String
  | .HOURLY => "hourly"
  | .DAILY => "daily"
  | .WEEKLY => "weekly"
  | .MONTHLY => "monthly"

mutual

/-- `to_dict`. -/
def to_dict : PartitionDefinition I → JsonTree
  | time granularity fields => .object [
      ("type", .string ("time_" ++ granularity_value granularity)),
      ("start_date", .string fields.start_date),
      ("end_date", (fields.end_date.map JsonTree.string).getD .null),
      ("timezone", .string fields.timezone),
      ("format", .string fields.fmt),
      ("granularity", .string (granularity_value granularity))]
  | static keys => .object [("type", .string "static"), ("keys", .array (keys.map .string))]
  | dynamic name keys => .object [("type", .string "dynamic"), ("name", .string name),
      ("keys", .array (keys.map .string))]
  | multi dimensions => .object [("type", .string "multi"),
      ("dimensions", .object (dimensions_to_dict dimensions))]

def dimensions_to_dict : List (String × PartitionDefinition I) → List (String × JsonTree)
  | [] => []
  | (name, dim) :: dimensions => (name, to_dict dim) :: dimensions_to_dict dimensions

end

/-! ### Reading -/

/-- `data.get(name, default)` of a text. -/
def get_text (data : List (String × JsonTree)) (name default : String) : Option String :=
  match data.lookup name with
  | none => some default
  | some (.string text) => some text
  | some _ => none

/-- `data.get(name)` of a text, which may be `None`. -/
def get_optional_text (data : List (String × JsonTree)) (name : String) : Option (Option String) :=
  match data.lookup name with
  | none => some none
  | some .null => some none
  | some (.string text) => some (some text)
  | some _ => none

def as_text : JsonTree → Option String
  | .string text => some text
  | _ => none

/-- `data.get(name, [])` of a list of texts. -/
def get_texts (data : List (String × JsonTree)) (name : String) : Option (List String) :=
  match data.lookup name with
  | none => some []
  | some (.array items) => items.mapM as_text
  | some _ => none

/-- `add_partition_key`. -/
def add_partition_key (keys : List String) (key : String) : List String :=
  if key ∈ keys then keys else keys ++ [key]

/-- `DynamicPartition(name)`, to which the keys are added. -/
def add_partition_keys (keys : List String) : List String := keys.foldl add_partition_key []

/-- `MultiPartition(**dimensions)`: a dimension named `self` is a `TypeError`. -/
def init_multi (dimensions : List (String × PartitionDefinition I)) :
    Option (PartitionDefinition I) :=
  if "self" ∈ dimensions.map Prod.fst then none else some (multi dimensions)

/-- The definition of a type that is not `multi`; `none` is an exception, or a field that has not
    its declared type. -/
def parse_simple (I : Platform) (data : List (String × JsonTree)) (partition_type : String) :
    Option (PartitionDefinition I) :=
  if partition_type = "static" then (get_texts data "keys").map static
  else if partition_type = "dynamic" then do
    let name ← get_text data "name" ""
    let keys ← get_texts data "keys"
    some (dynamic name (add_partition_keys keys))
  else if partition_type = "time_daily" ∨ partition_type = "daily" then parse_time .DAILY
  else if partition_type = "time_hourly" ∨ partition_type = "hourly" then parse_time .HOURLY
  else if partition_type = "time_weekly" ∨ partition_type = "weekly" then parse_time .WEEKLY
  else if partition_type = "time_monthly" ∨ partition_type = "monthly" then parse_time .MONTHLY
  else none
where
  /-- The format is the default. -/
  parse_time (granularity : PartitionGranularity) : Option (PartitionDefinition I) := do
    let start_date ← get_text data "start_date" ""
    let end_date ← get_optional_text data "end_date"
    let timezone ← get_text data "timezone" "UTC"
    let fields ← TimeFields.init I start_date end_date timezone granularity.default_format
    some (time granularity fields)

mutual

/-- `parse_partition_definition`. -/
def parse_partition_definition (I : Platform) : JsonTree → Option (PartitionDefinition I)
  | .object data => (get_text data "type" "").bind fun partition_type =>
    if partition_type = "multi" then (parse_dimensions I data).bind init_multi
    else parse_simple I data partition_type
  | _ => none

/-- The definitions in `data.get("dimensions", {})`. -/
def parse_dimensions (I : Platform) :
    List (String × JsonTree) → Option (List (String × PartitionDefinition I))
  | [] => some []
  | (name, value) :: data =>
    if name = "dimensions" then parse_dimension_items I value else parse_dimensions I data

def parse_dimension_items (I : Platform) :
    JsonTree → Option (List (String × PartitionDefinition I))
  | .object items => parse_each_dimension I items
  | _ => none

def parse_each_dimension (I : Platform) :
    List (String × JsonTree) → Option (List (String × PartitionDefinition I))
  | [] => some []
  | (dim_name, dim_data) :: items =>
    (parse_partition_definition I dim_data).bind fun dim =>
      (parse_each_dimension I items).map fun dimensions => (dim_name, dim) :: dimensions

end

/-! ### What is read of what is written -/

/-- What the constructors make: the dimensions have distinct names, none of which is `self`. -/
inductive WellFormed : PartitionDefinition I → Prop where
  | time (granularity fields) : WellFormed (time granularity fields)
  | static (keys) : WellFormed (static keys)
  | dynamic (name keys) : WellFormed (dynamic name keys)
  | multi {dimensions} (nodup : (dimensions.map Prod.fst).Nodup)
      (named : "self" ∉ dimensions.map Prod.fst)
      (dims : ∀ dim ∈ dimensions, WellFormed dim.2) : WellFormed (multi dimensions)

mutual

/-- The definition with default formats, and with its added keys once each. -/
def restored : PartitionDefinition I → PartitionDefinition I
  | time granularity fields => time granularity { fields with fmt := granularity.default_format }
  | static keys => static keys
  | dynamic name keys => dynamic name (add_partition_keys keys)
  | multi dimensions => multi (restored_dimensions dimensions)

def restored_dimensions :
    List (String × PartitionDefinition I) → List (String × PartitionDefinition I)
  | [] => []
  | (name, dim) :: dimensions => (name, restored dim) :: restored_dimensions dimensions

end

theorem restored_dimensions_eq (dimensions : List (String × PartitionDefinition I)) :
    restored_dimensions dimensions = dimensions.map fun dim => (dim.1, dim.2.restored) := by
  induction dimensions with
  | nil => rfl
  | cons dim dimensions ih => rw [restored_dimensions, ih, List.map_cons]

@[simp] theorem names_restored (dimensions : List (String × PartitionDefinition I)) :
    (restored_dimensions dimensions).map Prod.fst = dimensions.map Prod.fst := by
  simp [restored_dimensions_eq, Function.comp_def]

theorem mem_restored {dimensions : List (String × PartitionDefinition I)}
    {dim' : String × PartitionDefinition I} :
    dim' ∈ restored_dimensions dimensions ↔
      ∃ dim ∈ dimensions, dim' = (dim.1, dim.2.restored) := by
  rw [restored_dimensions_eq, List.mem_map]
  exact exists_congr fun _ => and_congr_right fun _ => eq_comm

theorem mapM_as_text (keys : List String) :
    keys.mapM (as_text ∘ JsonTree.string) = some keys := by
  induction keys with
  | nil => rfl
  | cons key keys ih =>
    rw [List.mapM_cons, ih]
    rfl

theorem parse_time_eq {data : List (String × JsonTree)} (granularity : PartitionGranularity)
    {fields : TimeFields I} (hstart : get_text data "start_date" "" = some fields.start_date)
    (hend : get_optional_text data "end_date" = some fields.end_date)
    (htimezone : get_text data "timezone" "UTC" = some fields.timezone) :
    parse_simple.parse_time I data granularity = some (time granularity fields).restored := by
  rw [parse_simple.parse_time, hstart, hend, htimezone]
  simp only [bind, Option.bind_some, TimeFields.init_eq]
  rfl

theorem parse_time_to_dict (granularity : PartitionGranularity) (fields : TimeFields I) :
    parse_partition_definition I (time granularity fields).to_dict =
      some (time granularity fields).restored := by
  have htext : ∀ type format value : JsonTree,
      let data : List (String × JsonTree) := [("type", type),
        ("start_date", .string fields.start_date),
        ("end_date", (fields.end_date.map JsonTree.string).getD .null),
        ("timezone", .string fields.timezone), ("format", format), ("granularity", value)]
      parse_simple.parse_time I data granularity = some (time granularity fields).restored := by
    intro type format value data
    apply parse_time_eq
    · simp [data, get_text, List.lookup_cons]
    · cases hend : fields.end_date <;> simp [data, hend, get_optional_text, List.lookup_cons]
    · simp [data, get_text, List.lookup_cons]
  rw [to_dict, parse_partition_definition]
  cases granularity with
  | HOURLY => simpa [get_text, List.lookup_cons, granularity_value, parse_simple] using htext _ _ _
  | DAILY => simpa [get_text, List.lookup_cons, granularity_value, parse_simple] using htext _ _ _
  | WEEKLY => simpa [get_text, List.lookup_cons, granularity_value, parse_simple] using htext _ _ _
  | MONTHLY => simpa [get_text, List.lookup_cons, granularity_value, parse_simple] using htext _ _ _

theorem parse_each_to_dict {dimensions : List (String × PartitionDefinition I)}
    (h : ∀ dim ∈ dimensions, parse_partition_definition I dim.2.to_dict = some dim.2.restored) :
    parse_each_dimension I (dimensions_to_dict dimensions) =
      some (restored_dimensions dimensions) := by
  induction dimensions with
  | nil => rfl
  | cons dim dimensions ih =>
    obtain ⟨hdim, hdimensions⟩ := List.forall_mem_cons.mp h
    rw [dimensions_to_dict, parse_each_dimension, hdim, ih hdimensions]
    rfl

/-- **What is written is read**, except for formats and keys that are there twice. -/
theorem parse_to_dict {self : PartitionDefinition I} (h : self.WellFormed) :
    parse_partition_definition I self.to_dict = some self.restored := by
  induction h with
  | time granularity fields => exact parse_time_to_dict granularity fields
  | static keys =>
    rw [to_dict, parse_partition_definition]
    simp [get_text, get_texts, List.lookup_cons, parse_simple, mapM_as_text, restored]
  | dynamic name keys =>
    rw [to_dict, parse_partition_definition]
    simp [get_text, get_texts, List.lookup_cons, parse_simple, mapM_as_text, restored]
  | multi nodup named dims ih =>
    have heach := parse_each_to_dict ih
    rw [to_dict, parse_partition_definition]
    simp [get_text, parse_dimensions, parse_dimension_items, heach, init_multi,
      named, restored]

/-! ### Which keys are kept -/

section keys

variable (today : Date) (start stop : Option Datetime)

/-- The generator of a time partition steps past the last date. -/
inductive Overflows : PartitionDefinition I → Prop where
  | time {granularity fields}
      (h : (fields.definition granularity).times today start stop = none) :
      Overflows (time granularity fields)
  | multi {dimensions dim} (hdim : dim ∈ dimensions) (h : Overflows dim.2) :
      Overflows (multi dimensions)

/-- The formats can write the times of the range. -/
inductive Writable : PartitionDefinition I → Prop where
  | time {granularity fields}
      (h : ∀ times, (fields.definition granularity).times today start stop = some times →
        ∀ t ∈ times, (I.strftime t fields.fmt).isSome) : Writable (time granularity fields)
  | static (keys) : Writable (static keys)
  | dynamic (name keys) : Writable (dynamic name keys)
  | multi {dimensions} (h : ∀ dim ∈ dimensions, Writable dim.2) : Writable (multi dimensions)

/-- There are no partitions in the range. -/
inductive Void : PartitionDefinition I → Prop where
  | time {granularity fields}
      (h : (fields.definition granularity).times today start stop = some []) :
      Void (time granularity fields)
  | static : Void (static [])
  | dynamic (name) : Void (dynamic name [])
  | none : Void (multi [])
  | multi {dimensions dim} (hdim : dim ∈ dimensions) (h : Void dim.2) : Void (multi dimensions)

/-- What the keys are kept under. -/
inductive KeysKept : PartitionDefinition I → Prop where
  /-- The format writes the times of the range as the default format does. -/
  | time {granularity fields}
      (h : ∀ times, (fields.definition granularity).times today start stop = some times →
        ∀ t ∈ times, I.strftime t fields.fmt = I.strftime t granularity.default_format) :
      KeysKept (time granularity fields)
  | static (keys) : KeysKept (static keys)
  /-- No key is there twice. -/
  | dynamic {name keys} (h : keys.Nodup) : KeysKept (dynamic name keys)
  | multi {dimensions} (h : ∀ dim ∈ dimensions, KeysKept dim.2) : KeysKept (multi dimensions)
  /-- There are no keys in any case. -/
  | overflows {dimensions} (h : Overflows today start stop (multi dimensions)) :
      KeysKept (multi dimensions)
  | void {dimensions dim} (hwritable : Writable today start stop (multi dimensions))
      (hdim : dim ∈ dimensions) (h : Void today start stop dim.2) : KeysKept (multi dimensions)

variable {today start stop}

/-- Keys that are added to others. -/
theorem mem_foldl_add {keys front : List String} {key : String} :
    key ∈ keys.foldl add_partition_key front ↔ key ∈ front ∨ key ∈ keys := by
  induction keys generalizing front with
  | nil => simp
  | cons k keys ih =>
    rw [List.foldl_cons, ih, add_partition_key, List.mem_cons]
    split
    · next hmem =>
      constructor
      · rintro (h | h)
        · exact .inl h
        · exact .inr (.inr h)
      · rintro (h | rfl | h)
        · exact .inl h
        · exact .inl hmem
        · exact .inr h
    · rw [List.mem_append, List.mem_singleton, or_assoc]

theorem add_partition_keys_eq_nil {keys : List String} :
    add_partition_keys keys = [] ↔ keys = [] := by
  simp only [List.eq_nil_iff_forall_not_mem, add_partition_keys, mem_foldl_add, List.not_mem_nil,
    false_or]

theorem length_foldl_add (keys front : List String) :
    (keys.foldl add_partition_key front).length ≤ front.length + keys.length := by
  induction keys generalizing front with
  | nil => simp
  | cons k keys ih =>
    have hadd : (add_partition_key front k).length ≤ front.length + 1 := by
      rw [add_partition_key]
      split <;> simp
    have hrest := ih (add_partition_key front k)
    rw [List.foldl_cons, List.length_cons]
    omega

/-- Nothing is left out exactly if all keys are new. -/
theorem foldl_add_eq_append_iff {keys front : List String} (h : front.Nodup) :
    keys.foldl add_partition_key front = front ++ keys ↔ (front ++ keys).Nodup := by
  induction keys generalizing front with
  | nil => simpa using h
  | cons k keys ih =>
    rw [List.foldl_cons, add_partition_key]
    split
    · next hmem =>
      have hle := length_foldl_add keys front
      apply iff_of_false
      · intro heq
        rw [heq, List.length_append, List.length_cons] at hle
        omega
      · intro hnodup
        exact (List.nodup_append.mp hnodup).2.2 k hmem k List.mem_cons_self rfl
    · next hnew =>
      have happend : (front ++ [k]).Nodup := by
        rw [List.nodup_append]
        refine ⟨h, List.nodup_singleton k, ?_⟩
        intro a ha b hb hab
        rw [List.mem_singleton.mp hb] at hab
        exact hnew (hab ▸ ha)
      rw [List.append_cons front k keys]
      exact ih happend

theorem overflows_multi {dimensions : List (String × PartitionDefinition I)} :
    (multi dimensions).Overflows today start stop ↔
      ∃ dim ∈ dimensions, dim.2.Overflows today start stop := by
  constructor
  · intro h
    cases h with
    | multi hdim h => exact ⟨_, hdim, h⟩
  · intro h
    obtain ⟨dim, hdim, h⟩ := h
    exact .multi hdim h

theorem void_multi {dimensions : List (String × PartitionDefinition I)} :
    (multi dimensions).Void today start stop ↔
      dimensions = [] ∨ ∃ dim ∈ dimensions, dim.2.Void today start stop := by
  constructor
  · intro h
    cases h with
    | none => exact .inl rfl
    | multi hdim h => exact .inr ⟨_, hdim, h⟩
  · intro h
    rcases h with rfl | ⟨dim, hdim, h⟩
    · exact .none
    · exact .multi hdim h

/-- A definition raises where its generator steps too far or a format fails. -/
theorem isSome_iff {self : PartitionDefinition I} :
    (self.get_partition_keys today start stop).isSome ↔
      ¬ self.Overflows today start stop ∧ self.Writable today start stop := by
  induction self using induct with
  | time granularity fields =>
    rw [get_partition_keys, get_time_keys]
    cases htimes : (fields.definition granularity).times today start stop with
    | none =>
      apply iff_of_false
      · simp
      · intro h
        exact h.1 (.time htimes)
    | some times =>
      have hno : ¬ (time granularity fields).Overflows today start stop := by
        intro h
        cases h with
        | time h =>
          rw [htimes] at h
          cases h
      rw [Option.bind_some, Fallible.isSome_mapM_iff]
      constructor
      · intro h
        refine ⟨hno, .time fun times' htimes' => ?_⟩
        rw [htimes] at htimes'
        cases htimes'
        exact h
      · intro h
        cases h.2 with
        | time hwritable => exact hwritable times htimes
  | static keys =>
    apply iff_of_true
    · rfl
    · exact ⟨(fun h => by cases h), .static keys⟩
  | dynamic name keys =>
    apply iff_of_true
    · rfl
    · exact ⟨(fun h => by cases h), .dynamic name keys⟩
  | multi dimensions ih =>
    rw [get_partition_keys_multi, Option.isSome_map, get_dimension_keys_isSome]
    constructor
    · intro h
      refine ⟨?_, .multi fun dim hdim => ((ih dim hdim).mp (h dim hdim)).2⟩
      intro hover
      obtain ⟨dim, hdim, hover⟩ := overflows_multi.mp hover
      exact ((ih dim hdim).mp (h dim hdim)).1 hover
    · intro h dim hdim
      obtain ⟨hno, hwritable⟩ := h
      cases hwritable with
      | multi hwritable =>
        exact (ih dim hdim).mpr ⟨fun hover => hno (.multi hdim hover), hwritable dim hdim⟩

/-- The default formats can write all times. -/
theorem writable_restored (self : PartitionDefinition I) :
    self.restored.Writable today start stop := by
  induction self using induct with
  | time granularity fields => exact .time fun times _ t _ => by simp [I.strftime_default]
  | static keys => exact .static keys
  | dynamic name keys => exact .dynamic name _
  | multi dimensions ih =>
    refine .multi fun dim' hdim' => ?_
    obtain ⟨dim, hdim, rfl⟩ := mem_restored.mp hdim'
    exact ih dim hdim

theorem overflows_restored {self : PartitionDefinition I} :
    self.restored.Overflows today start stop ↔ self.Overflows today start stop := by
  induction self using induct with
  | time granularity fields =>
    constructor
    · intro h
      cases h with
      | time h => exact .time h
    · intro h
      cases h with
      | time h => exact .time h
  | static keys => exact Iff.rfl
  | dynamic name keys => exact iff_of_false (fun h => by cases h) fun h => by cases h
  | multi dimensions ih =>
    rw [restored, overflows_multi, overflows_multi]
    constructor
    · intro h
      obtain ⟨dim', hdim', h⟩ := h
      obtain ⟨dim, hdim, rfl⟩ := mem_restored.mp hdim'
      exact ⟨dim, hdim, (ih dim hdim).mp h⟩
    · intro h
      obtain ⟨dim, hdim, h⟩ := h
      exact ⟨_, mem_restored.mpr ⟨dim, hdim, rfl⟩, (ih dim hdim).mpr h⟩

/-- The restored definition does not raise except by overflow. -/
theorem isSome_restored_iff {self : PartitionDefinition I} :
    (self.restored.get_partition_keys today start stop).isSome ↔
      ¬ self.Overflows today start stop := by
  rw [isSome_iff, overflows_restored, and_iff_left (writable_restored self)]

/-- The restored definition has no more keys, and has none only where there were none. -/
structure Shorter (p : PartitionDefinition I) (today : Date) (start stop : Option Datetime)
    (keys keys' : List String) : Prop where
  length_le : keys'.length ≤ keys.length
  nil_iff : keys' = [] ↔ keys = []
  void_iff : keys = [] ↔ p.Void today start stop

/-- What `get_partition_keys` of several dimensions has made. -/
def texts (I : Platform) (dim_keys : List (String × List String)) : List String :=
  (get_multi_keys dim_keys).contents.map fun d => json_dumps I.number d.to_tree

theorem texts_nil : texts I [] = [] := rfl

theorem texts_eq {dim_keys : List (String × List String)} (hne : dim_keys ≠ [])
    (hnames : (dim_keys.map Prod.fst).Nodup) :
    texts I dim_keys = (product dim_keys).map fun d => json_dumps I.number d.to_tree := by
  rw [texts, (get_multi_keys_spec hne hnames).1]

theorem texts_eq_nil_iff {dim_keys : List (String × List String)}
    (hnames : (dim_keys.map Prod.fst).Nodup) :
    texts I dim_keys = [] ↔ dim_keys = [] ∨ ∃ e ∈ dim_keys, e.2 = [] := by
  by_cases hne : dim_keys = []
  · rw [hne]
    exact iff_of_true texts_nil (.inl rfl)
  · rw [texts_eq hne hnames, List.map_eq_nil_iff, product_eq_nil_iff]
    exact (or_iff_right hne).symm

/-- Dictionaries with the same names, each by its text. -/
theorem map_dumps_inj {number : String → List Char} {names : List String} (h : names.Nodup)
    {ds ds' : List Dict} (hds : ∀ d ∈ ds, d.names = names) (hds' : ∀ d ∈ ds', d.names = names)
    (heq : (ds.map fun d => json_dumps number d.to_tree) =
      ds'.map fun d => json_dumps number d.to_tree) : ds = ds' := by
  induction ds generalizing ds' with
  | nil => exact (List.map_eq_nil_iff.mp heq.symm).symm
  | cons d ds ih =>
    cases ds' with
    | nil => exact absurd heq (by simp)
    | cons d' ds' =>
      rw [List.map_cons, List.map_cons, List.cons.injEq] at heq
      obtain ⟨hd, hds⟩ := List.forall_mem_cons.mp hds
      obtain ⟨hd', hds'⟩ := List.forall_mem_cons.mp hds'
      have hfirst : d = d' := by
        apply json_dumps_inj _ _ heq.1
        · rwa [hd]
        · rw [hd, hd']
      rw [hfirst, ih hds hds' heq.2]

/-- The texts determine the keys of the dimensions. -/
theorem texts_inj {dim_keys dim_keys' : List (String × List String)}
    (h : Shrunk dim_keys dim_keys') (hnames : (dim_keys.map Prod.fst).Nodup)
    (hne : ∀ e ∈ dim_keys', e.2 ≠ []) (heq : texts I dim_keys = texts I dim_keys') :
    dim_keys = dim_keys' := by
  have hsame : dim_keys.map Prod.fst = dim_keys'.map Prod.fst := by
    clear hnames hne heq
    induction h with
    | nil => rfl
    | cons hdim _ ih => rw [List.map_cons, List.map_cons, hdim.1, ih]
  by_cases hnil : dim_keys = []
  · subst hnil
    cases h
    rfl
  · have hnil' : dim_keys' ≠ [] := by
      rintro rfl
      rw [List.map_nil, List.map_eq_nil_iff] at hsame
      exact hnil hsame
    rw [texts_eq hnil hnames, texts_eq hnil' (hsame ▸ hnames)] at heq
    apply h.product_inj hne
    apply map_dumps_inj hnames _ _ heq
    · exact fun d hd => (mem_product.mp hd).names
    · intro d hd
      rw [(mem_product.mp hd).names, hsame]

/-- What the keys of the dimensions become. -/
structure DimensionsShorter (dimensions : List (String × PartitionDefinition I)) (today : Date)
    (start stop : Option Datetime) (dim_keys dim_keys' : List (String × List String)) : Prop where
  shrunk : Shrunk dim_keys dim_keys'
  nil_iff : (∃ e ∈ dim_keys', e.2 = []) ↔ ∃ e ∈ dim_keys, e.2 = []
  void_iff : (∃ e ∈ dim_keys, e.2 = []) ↔ ∃ dim ∈ dimensions, dim.2.Void today start stop

theorem dimensions_shorter {dimensions : List (String × PartitionDefinition I)}
    {dim_keys dim_keys' : List (String × List String)}
    (h : get_dimension_keys today start stop dimensions = some dim_keys)
    (h' : get_dimension_keys today start stop (restored_dimensions dimensions) = some dim_keys')
    (hdims : ∀ dim ∈ dimensions, ∀ {keys keys'},
      dim.2.get_partition_keys today start stop = some keys →
        dim.2.restored.get_partition_keys today start stop = some keys' →
          dim.2.Shorter today start stop keys keys') :
    DimensionsShorter dimensions today start stop dim_keys dim_keys' := by
  rw [get_dimension_keys_iff] at h h'
  induction dimensions generalizing dim_keys dim_keys' with
  | nil =>
    cases h
    cases h'
    exact ⟨.nil, by simp, by simp⟩
  | cons dim dimensions ih =>
    obtain ⟨hdim, hrest⟩ := List.forall_mem_cons.mp hdims
    rw [restored_dimensions] at h'
    cases h with
    | @cons _ e _ dim_keys he htail =>
      cases h' with
      | @cons _ e' _ dim_keys' he' htail' =>
        have hfirst := hdim he.2 he'.2
        have hothers := ih htail htail' hrest
        refine ⟨.cons ⟨he.1.trans he'.1.symm, hfirst.length_le⟩ hothers.shrunk, ?_, ?_⟩
        · simp only [List.exists_mem_cons_iff, hfirst.nil_iff, hothers.nil_iff]
        · simp only [List.exists_mem_cons_iff, hfirst.void_iff, hothers.void_iff]

/-- What the keys of a definition become. -/
theorem shorter {self : PartitionDefinition I} (h : self.WellFormed) {keys keys' : List String}
    (hkeys : self.get_partition_keys today start stop = some keys)
    (hkeys' : self.restored.get_partition_keys today start stop = some keys') :
    self.Shorter today start stop keys keys' := by
  induction h generalizing keys keys' with
  | time granularity fields =>
    rw [get_partition_keys, get_time_keys] at hkeys
    rw [restored, get_partition_keys, get_time_keys] at hkeys'
    obtain ⟨times, htimes, hkeys⟩ := Option.bind_eq_some_iff.mp hkeys
    obtain ⟨times', htimes', hkeys'⟩ := Option.bind_eq_some_iff.mp hkeys'
    have hsame : times' = times := Option.some.inj (htimes'.symm.trans htimes)
    subst hsame
    have hlength := (Fallible.forall₂_of_mapM hkeys).length_eq
    have hlength' := (Fallible.forall₂_of_mapM hkeys').length_eq
    have hvoid : keys = [] ↔ (time granularity fields).Void today start stop := by
      rw [← List.length_eq_zero_iff, ← hlength, List.length_eq_zero_iff]
      constructor
      · intro hnil
        exact .time (by rw [htimes, hnil])
      · intro h
        cases h with
        | time h => exact Option.some.inj (htimes.symm.trans h)
    refine ⟨by omega, ?_, hvoid⟩
    rw [← List.length_eq_zero_iff, ← List.length_eq_zero_iff, ← hlength, ← hlength']
  | static keys =>
    cases hkeys
    cases hkeys'
    refine ⟨le_refl _, Iff.rfl, ?_⟩
    constructor
    · rintro rfl
      exact .static
    · intro h
      cases h
      rfl
  | dynamic name keys =>
    cases hkeys
    cases hkeys'
    have hle := length_foldl_add keys []
    refine ⟨by simpa [add_partition_keys] using hle, ?_, ?_⟩
    · exact add_partition_keys_eq_nil
    · constructor
      · rintro rfl
        exact .dynamic name
      · intro h
        cases h
        rfl
  | @multi dimensions nodup named dims ih =>
    rw [get_partition_keys_multi] at hkeys
    rw [restored, get_partition_keys_multi] at hkeys'
    obtain ⟨dim_keys, hdim_keys, rfl⟩ := Option.map_eq_some_iff.mp hkeys
    obtain ⟨dim_keys', hdim_keys', rfl⟩ := Option.map_eq_some_iff.mp hkeys'
    have hshorter := dimensions_shorter hdim_keys hdim_keys' ih
    have hnames := names_of_get hdim_keys
    have hnames' := (names_of_get hdim_keys').trans (names_restored dimensions)
    have hnil : dim_keys = [] ↔ dimensions = [] := by
      rw [← List.map_eq_nil_iff (f := Prod.fst), hnames, List.map_eq_nil_iff]
    have hnil' : dim_keys' = [] ↔ dimensions = [] := by
      rw [← List.map_eq_nil_iff (f := Prod.fst), hnames', List.map_eq_nil_iff]
    change Shorter _ today start stop (texts I dim_keys) (texts I dim_keys')
    refine ⟨?_, ?_, ?_⟩
    · by_cases hempty : dimensions = []
      · rw [hnil.mpr hempty, hnil'.mpr hempty]
      · rw [texts_eq (fun h => hempty (hnil.mp h)) (hnames ▸ nodup),
          texts_eq (fun h => hempty (hnil'.mp h)) (hnames' ▸ nodup), List.length_map,
          List.length_map]
        exact hshorter.shrunk.length_product_le
    · rw [texts_eq_nil_iff (hnames' ▸ nodup), texts_eq_nil_iff (hnames ▸ nodup), hnil', hnil,
        hshorter.nil_iff]
    · rw [texts_eq_nil_iff (hnames ▸ nodup), hnil, hshorter.void_iff, void_multi]

/-- The dimensions have the same keys if each of them has. -/
theorem get_dimension_keys_restored {dimensions : List (String × PartitionDefinition I)}
    (h : ∀ dim ∈ dimensions, dim.2.restored.get_partition_keys today start stop =
      dim.2.get_partition_keys today start stop) :
    get_dimension_keys today start stop (restored_dimensions dimensions) =
      get_dimension_keys today start stop dimensions := by
  induction dimensions with
  | nil => rfl
  | cons dim dimensions ih =>
    obtain ⟨hdim, hrest⟩ := List.forall_mem_cons.mp h
    rw [restored_dimensions, get_dimension_keys, get_dimension_keys, hdim, ih hrest]

theorem same_of_dimension_keys {dimensions : List (String × PartitionDefinition I)}
    {dim_keys : List (String × List String)}
    (h : get_dimension_keys today start stop dimensions = some dim_keys)
    (h' : get_dimension_keys today start stop (restored_dimensions dimensions) = some dim_keys) :
    ∀ dim ∈ dimensions, dim.2.restored.get_partition_keys today start stop =
      dim.2.get_partition_keys today start stop := by
  rw [get_dimension_keys_iff] at h h'
  induction dimensions generalizing dim_keys with
  | nil => simp
  | cons dim dimensions ih =>
    rw [restored_dimensions] at h'
    cases h with
    | cons he htail =>
      cases h' with
      | cons he' htail' =>
        rw [List.forall_mem_cons]
        exact ⟨he'.2.trans he.2.symm, ih htail htail'⟩

/-- An overflow raises before and after. -/
theorem none_of_overflows {self : PartitionDefinition I} (h : self.Overflows today start stop) :
    self.get_partition_keys today start stop = none ∧
      self.restored.get_partition_keys today start stop = none := by
  rw [← Option.not_isSome_iff_eq_none, ← Option.not_isSome_iff_eq_none, isSome_iff,
    isSome_restored_iff]
  exact ⟨fun hsome => hsome.1 h, not_not_intro h⟩

theorem keys_of_kept {self : PartitionDefinition I} (h : self.WellFormed)
    (hkept : self.KeysKept today start stop) :
    self.restored.get_partition_keys today start stop =
      self.get_partition_keys today start stop := by
  induction hkept with
  | @time granularity fields hformat =>
    rw [restored, get_partition_keys, get_partition_keys, get_time_keys, get_time_keys]
    have htimes : (TimeFields.definition { fields with fmt := granularity.default_format }
        granularity).times today start stop =
          (fields.definition granularity).times today start stop := rfl
    rw [htimes]
    cases htimes : (fields.definition granularity).times today start stop with
    | none => rfl
    | some times =>
      have hdefault : ∀ t ∈ times, I.strftime t granularity.default_format =
          some (t.strftime granularity.default_format) := fun t _ => I.strftime_default t _
      rw [Option.bind_some, Option.bind_some, Fallible.mapM_eq_some_map hdefault,
        Fallible.mapM_eq_some_map fun t ht => (hformat times htimes t ht).trans (hdefault t ht)]
  | static keys => rfl
  | @dynamic name keys hnodup =>
    have hadd : add_partition_keys keys = keys :=
      (foldl_add_eq_append_iff List.nodup_nil).mpr hnodup
    rw [restored, hadd]
  | multi _ ih =>
    cases h with
    | multi nodup named dims =>
      rw [restored, get_partition_keys_multi, get_partition_keys_multi]
      have hsame := get_dimension_keys_restored fun dim hdim => ih dim hdim (dims dim hdim)
      rw [hsame]
  | @overflows dimensions hover =>
    obtain ⟨hnone, hnone'⟩ := none_of_overflows hover
    rw [hnone, hnone']
  | @void dimensions dim hwritable hdim hvoid =>
    by_cases hover : (multi dimensions).Overflows today start stop
    · obtain ⟨hnone, hnone'⟩ := none_of_overflows hover
      rw [hnone, hnone']
    · obtain ⟨keys, hkeys⟩ := Option.isSome_iff_exists.mp (isSome_iff.mpr ⟨hover, hwritable⟩)
      obtain ⟨keys', hkeys'⟩ := Option.isSome_iff_exists.mp (isSome_restored_iff.mpr hover)
      have hshorter := shorter h hkeys hkeys'
      have hnil := hshorter.void_iff.mpr (.multi hdim hvoid)
      rw [hkeys, hkeys', hnil, hshorter.nil_iff.mpr hnil]

theorem kept_of_keys {self : PartitionDefinition I} (h : self.WellFormed)
    (hkeys : self.restored.get_partition_keys today start stop =
      self.get_partition_keys today start stop) : self.KeysKept today start stop := by
  induction h with
  | time granularity fields =>
    refine .time fun times htimes t ht => ?_
    rw [restored, get_partition_keys, get_partition_keys, get_time_keys, get_time_keys] at hkeys
    have htimes' : (TimeFields.definition { fields with fmt := granularity.default_format }
        granularity).times today start stop = some times := htimes
    have hdefault : ∀ t ∈ times, I.strftime t granularity.default_format =
        some (t.strftime granularity.default_format) := fun t _ => I.strftime_default t _
    rw [htimes, htimes', Option.bind_some, Option.bind_some,
      Fallible.mapM_eq_some_map hdefault] at hkeys
    rw [Fallible.mapM_eq_some_map_iff.mp hkeys.symm t ht, I.strftime_default]
  | static keys => exact .static keys
  | dynamic name keys =>
    rw [restored] at hkeys
    have hadd : add_partition_keys keys = keys := Option.some.inj hkeys
    exact .dynamic ((foldl_add_eq_append_iff List.nodup_nil).mp hadd)
  | @multi dimensions nodup named dims ih =>
    by_cases hover : (multi dimensions).Overflows today start stop
    · exact .overflows hover
    obtain ⟨keys', hkeys'⟩ := Option.isSome_iff_exists.mp (isSome_restored_iff.mpr hover)
    rw [hkeys'] at hkeys
    have hwritable := (isSome_iff.mp (Option.isSome_iff_exists.mpr ⟨_, hkeys.symm⟩)).2
    have hsame := hkeys.symm
    rw [get_partition_keys_multi] at hsame
    rw [restored, get_partition_keys_multi] at hkeys'
    obtain ⟨dim_keys, hdim_keys, htexts⟩ := Option.map_eq_some_iff.mp hsame
    obtain ⟨dim_keys', hdim_keys', htexts'⟩ := Option.map_eq_some_iff.mp hkeys'
    have hboth : texts I dim_keys = texts I dim_keys' := htexts.trans htexts'.symm
    have hshorter := dimensions_shorter hdim_keys hdim_keys'
      fun dim hdim => shorter (dims dim hdim)
    by_cases hvoid : ∃ dim ∈ dimensions, dim.2.Void today start stop
    · obtain ⟨dim, hdim, hvoid⟩ := hvoid
      exact .void hwritable hdim hvoid
    have hne : ∀ e ∈ dim_keys', e.2 ≠ [] := by
      intro e he hnil
      exact hvoid (hshorter.void_iff.mp (hshorter.nil_iff.mp ⟨e, he, hnil⟩))
    have heq := texts_inj hshorter.shrunk ((names_of_get hdim_keys) ▸ nodup) hne hboth
    subst heq
    -- so the dimensions have the same keys one by one
    exact .multi fun dim hdim => ih dim hdim (same_of_dimension_keys hdim_keys hdim_keys' dim hdim)

end keys

/-! ### Which keys are accepted as before -/

section accepted

variable (today : Date)

/-- A text that is accepted as a date in the range, in some format. -/
def ReadsInRange (granularity : PartitionGranularity) (fields : TimeFields I)
    (fmt key : String) : Prop :=
  ∃ t, I.strptime key fmt = some (some t) ∧
    (fields.definition granularity).Covered today t.date

/-- No key is accepted, with given formats. -/
inductive AcceptsNone (format : PartitionGranularity → TimeFields I → String) :
    PartitionDefinition I → Prop where
  | time {granularity fields}
      (h : ∀ key, ¬ ReadsInRange today granularity fields (format granularity fields) key) :
      AcceptsNone format (time granularity fields)
  | static : AcceptsNone format (static [])
  | dynamic (name) : AcceptsNone format (dynamic name [])
  | multi {dimensions dim} (hdim : dim ∈ dimensions) (h : AcceptsNone format dim.2) :
      AcceptsNone format (multi dimensions)

/-- The format of the definition. -/
def own_format (_ : PartitionGranularity) (fields : TimeFields I) : String := fields.fmt

/-- The format of the restored definition. -/
def restored_format (granularity : PartitionGranularity) (_ : TimeFields I) : String :=
  granularity.default_format

/-- What the accepted keys are kept under. -/
inductive AcceptsKept : PartitionDefinition I → Prop where
  /-- The format reads the same keys as dates in the range as the default format. -/
  | time {granularity fields}
      (h : ∀ key, ReadsInRange today granularity fields fields.fmt key ↔
        ReadsInRange today granularity fields granularity.default_format key) :
      AcceptsKept (time granularity fields)
  | static (keys) : AcceptsKept (static keys)
  | dynamic (name keys) : AcceptsKept (dynamic name keys)
  | multi {dimensions} (h : ∀ dim ∈ dimensions, AcceptsKept dim.2) :
      AcceptsKept (multi dimensions)
  /-- No key is accepted in any case. -/
  | none {dimensions} (h : AcceptsNone today own_format (multi dimensions))
      (h' : AcceptsNone today restored_format (multi dimensions)) : AcceptsKept (multi dimensions)

variable {today}

theorem accepts_none_multi {format : PartitionGranularity → TimeFields I → String}
    {dimensions : List (String × PartitionDefinition I)} :
    AcceptsNone today format (multi dimensions) ↔
      ∃ dim ∈ dimensions, AcceptsNone today format dim.2 := by
  constructor
  · intro h
    cases h with
    | multi hdim h => exact ⟨_, hdim, h⟩
  · intro h
    obtain ⟨dim, hdim, h⟩ := h
    exact .multi hdim h

theorem well_formed_restored {self : PartitionDefinition I} (h : self.WellFormed) :
    self.restored.WellFormed := by
  induction h with
  | time granularity fields => exact .time _ _
  | static keys => exact .static keys
  | dynamic name keys => exact .dynamic name _
  | multi nodup named dims ih =>
    refine .multi (by rwa [names_restored]) (by rwa [names_restored]) fun dim' hdim' => ?_
    obtain ⟨dim, hdim, rfl⟩ := mem_restored.mp hdim'
    exact ih dim hdim

theorem accepts_none_restored {self : PartitionDefinition I} :
    AcceptsNone today own_format self.restored ↔ AcceptsNone today restored_format self := by
  induction self using induct with
  | time granularity fields =>
    constructor
    · intro h
      cases h with
      | time h => exact .time h
    · intro h
      cases h with
      | time h => exact .time h
  | static keys =>
    constructor
    · intro h
      cases h
      exact .static
    · intro h
      cases h
      exact .static
  | dynamic name keys =>
    rw [restored]
    constructor
    · intro h
      generalize hadd : add_partition_keys keys = added at h
      cases h
      rw [add_partition_keys_eq_nil.mp hadd]
      exact .dynamic name
    · intro h
      cases h
      exact .dynamic name
  | multi dimensions ih =>
    rw [restored, accepts_none_multi, accepts_none_multi]
    constructor
    · intro h
      obtain ⟨dim', hdim', h⟩ := h
      obtain ⟨dim, hdim, rfl⟩ := mem_restored.mp hdim'
      exact ⟨dim, hdim, (ih dim hdim).mp h⟩
    · intro h
      obtain ⟨dim, hdim, h⟩ := h
      exact ⟨_, mem_restored.mpr ⟨dim, hdim, rfl⟩, (ih dim hdim).mpr h⟩

/-- A key that has been chosen for each dimension. -/
def chosen (dimensions : List (String × PartitionDefinition I))
    (key_of : String × PartitionDefinition I → String) : Dict :=
  dimensions.map fun dim => (dim.1, key_of dim)

theorem names_chosen (dimensions : List (String × PartitionDefinition I))
    (key_of : String × PartitionDefinition I → String) :
    (chosen dimensions key_of).names = dimensions.map Prod.fst := by
  simp [chosen, Dict.names, Function.comp_def]

theorem isKeyOf_chosen {dimensions : List (String × PartitionDefinition I)}
    (hnames : (dimensions.map Prod.fst).Nodup) {key_of : String × PartitionDefinition I → String}
    (h : ∀ dim ∈ dimensions, dim.2.Accepts today (key_of dim)) :
    IsKeyOf today dimensions (chosen dimensions key_of) where
  names dim_name := by rw [names_chosen]
  accepts dim hdim key hkey := by
    obtain ⟨dim', hdim', heq⟩ := List.mem_map.mp hkey
    rw [Prod.mk.injEq] at heq
    obtain ⟨hname, rfl⟩ := heq
    rw [List.inj_on_of_nodup_map hnames hdim' hdim hname]
    exact h dim hdim

/-- **Each dimension counts**: where one definition accepts what another does, and there is
    something to accept, this holds of their dimensions. -/
theorem accepts_of_multi {dimensions dimensions' : List (String × PartitionDefinition I)}
    (hnames : (dimensions.map Prod.fst).Nodup)
    (hsame : dimensions'.map Prod.fst = dimensions.map Prod.fst)
    (h : ∀ key, (multi dimensions).Accepts today key → (multi dimensions').Accepts today key)
    (hsome : ∀ dim ∈ dimensions, ∃ key, dim.2.Accepts today key)
    {dim dim' : String × PartitionDefinition I} (hdim : dim ∈ dimensions)
    (hdim' : dim' ∈ dimensions') (hname : dim'.1 = dim.1) {key : String}
    (hkey : dim.2.Accepts today key) : dim'.2.Accepts today key := by
  choose! key_of hkey_of using hsome
  -- the key takes the place of the one that was chosen
  have hchosen : IsKeyOf today dimensions
      (chosen dimensions fun d => if d.1 = dim.1 then key else key_of d) := by
    apply isKeyOf_chosen hnames
    intro d hd
    split
    · next heq =>
      rw [List.inj_on_of_nodup_map hnames hd hdim heq]
      exact hkey
    · exact hkey_of d hd
  have hnodup : (chosen dimensions fun d => if d.1 = dim.1 then key else key_of d).names.Nodup := by
    rwa [names_chosen]
  have haccepts := h _ ((accepts_dumps hnames hnodup).mpr hchosen)
  rw [accepts_dumps (hsame ▸ hnames) hnodup] at haccepts
  apply haccepts.accepts dim' hdim'
  exact List.mem_map.mpr ⟨dim, hdim, by simp [hname]⟩

/-- With its own formats, a definition accepts no key if this holds of one of its dimensions. -/
theorem accepts_none_iff {self : PartitionDefinition I} (h : self.WellFormed) :
    AcceptsNone today own_format self ↔ ∀ key, ¬ self.Accepts today key := by
  induction h with
  | time granularity fields =>
    simp only [accepts_time]
    constructor
    · intro h
      cases h with
      | time h => exact h
    · exact fun h => .time h
  | static keys =>
    simp only [accepts_listed]
    rw [← List.eq_nil_iff_forall_not_mem]
    constructor
    · intro h
      cases h
      rfl
    · rintro rfl
      exact .static
  | dynamic name keys =>
    simp only [accepts_added]
    rw [← List.eq_nil_iff_forall_not_mem]
    constructor
    · intro h
      cases h
      rfl
    · rintro rfl
      exact .dynamic name
  | @multi dimensions nodup named dims ih =>
    rw [accepts_none_multi]
    constructor
    · intro h key hkey
      obtain ⟨dim, hdim, h⟩ := h
      obtain ⟨d, -, hd⟩ := (accepts_multi nodup).mp hkey
      obtain ⟨e, he, hname⟩ := List.mem_map.mp
        ((hd.names dim.1).mpr (List.mem_map.mpr ⟨dim, hdim, rfl⟩))
      exact (ih dim hdim).mp h e.2 (hd.accepts dim hdim e.2 (by rw [← hname]; exact he))
    · intro h
      by_contra hnone
      have hsome : ∀ dim ∈ dimensions, ∃ key, dim.2.Accepts today key := by
        intro dim hdim
        by_contra hno
        exact hnone ⟨dim, hdim, (ih dim hdim).mpr fun key hkey => hno ⟨key, hkey⟩⟩
      choose! key_of hkey_of using hsome
      apply h _ ((accepts_dumps nodup _).mpr (isKeyOf_chosen nodup hkey_of))
      rwa [names_chosen]

/-- The restored definition accepts the same keys exactly under the condition. -/
theorem accepts_restored_iff {self : PartitionDefinition I} (h : self.WellFormed) :
    (∀ key, self.restored.Accepts today key ↔ self.Accepts today key) ↔
      self.AcceptsKept today := by
  induction h with
  | time granularity fields =>
    simp only [restored, accepts_time]
    constructor
    · exact fun h => .time fun key => (h key).symm
    · intro h key
      cases h with
      | time h => exact (h key).symm
  | static keys => exact iff_of_true (fun _ => Iff.rfl) (.static keys)
  | dynamic name keys =>
    refine iff_of_true ?_ (.dynamic name keys)
    intro key
    rw [restored, accepts_added, accepts_added, add_partition_keys, mem_foldl_add]
    simp
  | @multi dimensions nodup named dims ih =>
    have hwell : (multi dimensions).WellFormed := .multi nodup named dims
    have hwell' := well_formed_restored hwell
    have hnames : (restored_dimensions dimensions).map Prod.fst = dimensions.map Prod.fst :=
      names_restored dimensions
    constructor
    · intro h
      by_cases hnone : AcceptsNone today own_format (multi dimensions)
      · refine .none hnone ?_
        rw [← accepts_none_restored, accepts_none_iff hwell']
        intro key hkey
        exact (accepts_none_iff hwell).mp hnone key ((h key).mp hkey)
      · have hsome : ∀ dim ∈ dimensions, ∃ key, dim.2.Accepts today key := by
          intro dim hdim
          by_contra hno
          apply hnone
          rw [accepts_none_multi]
          exact ⟨dim, hdim, (accepts_none_iff (dims dim hdim)).mpr fun key hkey => hno ⟨key, hkey⟩⟩
        have hsome' : ∀ dim' ∈ restored_dimensions dimensions,
            ∃ key, dim'.2.Accepts today key := by
          intro dim' hdim'
          obtain ⟨dim, hdim, rfl⟩ := mem_restored.mp hdim'
          obtain ⟨key, hkey⟩ := hsome dim hdim
          refine ⟨key, ?_⟩
          exact accepts_of_multi nodup hnames (fun k hk => (h k).mpr hk) hsome hdim hdim' rfl hkey
        refine .multi fun dim hdim => (ih dim hdim).mp fun key => ?_
        have hdim' := mem_restored.mpr ⟨dim, hdim, rfl⟩
        constructor
        · intro hkey
          exact accepts_of_multi (hnames ▸ nodup) hnames.symm (fun k hk => (h k).mp hk) hsome' hdim'
            hdim rfl hkey
        · intro hkey
          exact accepts_of_multi nodup hnames (fun k hk => (h k).mpr hk) hsome hdim hdim' rfl hkey
    · intro h key
      cases h with
      | multi h =>
        have hkeys := fun dim hdim => (ih dim hdim).mpr (h dim hdim)
        rw [restored, accepts_multi nodup, accepts_multi (hnames ▸ nodup)]
        refine exists_congr fun d => and_congr_right fun _ => ?_
        constructor
        · intro hd
          refine ⟨fun dim_name => by rw [hd.names, hnames], fun dim hdim key hmem => ?_⟩
          rw [← hkeys dim hdim]
          exact hd.accepts _ (mem_restored.mpr ⟨dim, hdim, rfl⟩) key hmem
        · intro hd
          refine ⟨fun dim_name => by rw [hd.names, hnames], fun dim' hdim' key hmem => ?_⟩
          obtain ⟨dim, hdim, rfl⟩ := mem_restored.mp hdim'
          exact (hkeys dim hdim key).mpr (hd.accepts dim hdim key hmem)
      | none h h' =>
        have hno := (accepts_none_iff hwell).mp h key
        have hno' := (accepts_none_iff hwell').mp (accepts_none_restored.mpr h') key
        exact iff_of_false hno' hno

end accepted

/-! ### The round trip -/

/-- The definition that is read generates the same keys and accepts the same keys. -/
def RoundTrips (self : PartitionDefinition I) (today : Date) (start stop : Option Datetime) :
    Prop :=
  ∃ parsed, parse_partition_definition I self.to_dict = some parsed ∧
    parsed.get_partition_keys today start stop = self.get_partition_keys today start stop ∧
      ∀ key, parsed.Accepts today key ↔ self.Accepts today key

theorem kept_of_roundTrips {self : PartitionDefinition I} (h : self.WellFormed) {today : Date}
    {start stop : Option Datetime} (htrips : self.RoundTrips today start stop) :
    self.KeysKept today start stop ∧ self.AcceptsKept today := by
  obtain ⟨parsed, hparsed, hkeys, haccepts⟩ := htrips
  rw [parse_to_dict h] at hparsed
  cases hparsed
  exact ⟨kept_of_keys h hkeys, (accepts_restored_iff h).mp haccepts⟩

/-- **The round trip keeps a definition** exactly if its formats do what the default formats do,
    and its added keys are there once, as far as this makes a difference. -/
theorem round_trips_iff {self : PartitionDefinition I} (h : self.WellFormed) (today : Date)
    (start stop : Option Datetime) :
    self.RoundTrips today start stop ↔
      self.KeysKept today start stop ∧ self.AcceptsKept today := by
  constructor
  · exact kept_of_roundTrips h
  · intro hkept
    exact ⟨self.restored, parse_to_dict h, keys_of_kept h hkept.1,
      (accepts_restored_iff h).mpr hkept.2⟩

/-- A dynamic partition in two dimensions, with one key each. -/
theorem round_trips_dynamic : (multi [("customer", dynamic "customer_ids" ["a", "b"]),
    ("region", static ["us"])] : PartitionDefinition latin_platform).RoundTrips
      (TimePartitionDefinition.january 0) none none := by
  refine (round_trips_iff (.multi (by decide) (by decide) ?_) _ _ _).mpr ⟨.multi ?_, .multi ?_⟩
  · simp only [List.forall_mem_cons]
    exact ⟨.dynamic _ _, .static _, by simp⟩
  · simp only [List.forall_mem_cons]
    exact ⟨.dynamic (by decide), .static _, by simp⟩
  · simp only [List.forall_mem_cons]
    exact ⟨.dynamic _ _, .static _, by simp⟩

/-- The first of January, without dashes in its key. -/
def compact_fields : TimeFields latin_platform where
  start_date := "2023-01-01"
  end_date := some "2023-01-01"
  timezone := "UTC"
  fmt := "%Y%m%d"
  start := TimePartitionDefinition.january 0
  stop := some (TimePartitionDefinition.january 0)
  parse_start := by rfl
  parse_stop := by rfl

/-- A key that is there twice, and a day that is written without dashes. -/
theorem round_trip_differs :
    (¬ (dynamic "customer_ids" ["a", "a"] : PartitionDefinition latin_platform).RoundTrips
      (TimePartitionDefinition.january 0) none none) ∧
    ¬ (time .DAILY compact_fields).RoundTrips (TimePartitionDefinition.january 0) none none := by
  constructor
  · intro h
    cases (kept_of_roundTrips (.dynamic _ _) h).1 with
    | dynamic hnodup => exact absurd hnodup (by decide)
  · intro h
    cases (kept_of_roundTrips (.time _ _) h).2 with
    | time hreads =>
      have hown : ReadsInRange (TimePartitionDefinition.january 0) .DAILY compact_fields
          "%Y%m%d" "20230101" :=
        ⟨(TimePartitionDefinition.january 0).midnight, by rfl, by decide, by decide⟩
      obtain ⟨t, ht, -⟩ := (hreads "20230101").mp hown
      have hnone : latin_platform.strptime "20230101" "%Y-%m-%d" = some none := by rfl
      rw [PartitionGranularity.default_format, hnone] at ht
      cases ht

end Servo.Python.PartitionDefinition
