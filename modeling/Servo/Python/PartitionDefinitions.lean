import Servo.Python.CartesianProduct
import Servo.Python.KeyValidation

/-! # Partition Definitions

    `servo.partitions`: definitions by time, with fixed keys, with keys that
    are added at runtime, and with several dimensions, each of which is a
    definition again. A `str` is a text here, so it has no lone surrogates.
-/

namespace Servo.Python

/-! ### The platform -/

/-- The default of `fmt`. -/
def PartitionGranularity.default_format : PartitionGranularity → String
  | .HOURLY => "%Y-%m-%dT%H"
  | .DAILY => "%Y-%m-%d"
  | .WEEKLY => "%Y-%m-%d"
  | .MONTHLY => "%Y-%m-01"

/-- What the definitions use of the interpreter, its platform and its locale. -/
structure Platform where
  numerals : Numerals
  /-- `strftime`; `none` is an exception. -/
  strftime : Datetime → String → Option String
  /-- `datetime.strptime`; `some none` is a `ValueError`, and `none` another exception, such as
      that for a format which names a directive twice. -/
  strptime : String → String → Option (Option Datetime)
  /-- What `json.dumps` writes of a number that `json.loads` has read. -/
  number : String → List Char
  strftime_default : ∀ t (g : PartitionGranularity),
    strftime t g.default_format = some (t.strftime g.default_format)
  strptime_default : ∀ text (g : PartitionGranularity),
    strptime text g.default_format = some (Python.strptime numerals text g.default_format)

/-- A platform that knows the directives of the default formats. -/
def latin_platform : Platform where
  numerals := latin_numerals
  strftime t format := some (t.strftime format)
  strptime text format := some (Python.strptime latin_numerals text format)
  number := String.toList
  strftime_default _ _ := rfl
  strptime_default _ _ := rfl

/-! ### Definitions -/

/-- `_parse_date`. -/
def parse_date (numerals : Numerals) (date_str : String) : Option Date :=
  (strptime numerals date_str "%Y-%m-%d").map Datetime.date

/-- The end date, where one is given; an empty text is none. -/
def parse_end_date (numerals : Numerals) : Option String → Option (Option Date)
  | none => some none
  | some date_str => if date_str = "" then some none else (parse_date numerals date_str).map some

/-- The fields of a `TimePartitionDefinition`, with the dates that `__post_init__` has parsed. -/
structure TimeFields (I : Platform) where
  start_date : String
  end_date : Option String
  timezone : String
  fmt : String
  start : Date
  stop : Option Date
  parse_start : parse_date I.numerals start_date = some start
  parse_stop : parse_end_date I.numerals end_date = some stop

inductive PartitionDefinition (I : Platform) where
  /-- `DailyPartition`, `HourlyPartition`, `WeeklyPartition`, `MonthlyPartition`. -/
  | time (granularity : PartitionGranularity) (fields : TimeFields I)
  | static (keys : List String)
  | dynamic (name : String) (keys : List String)
  | multi (dimensions : List (String × PartitionDefinition I))

variable {I : Platform}

namespace TimeFields

/-- The definition with its dates. -/
def definition (self : TimeFields I) (granularity : PartitionGranularity) :
    TimePartitionDefinition := ⟨self.start, self.stop, self.fmt, granularity⟩

/-- `__init__`; `none` is a `ValueError`. -/
def init (I : Platform) (start_date : String) (end_date : Option String)
    (timezone fmt : String) : Option (TimeFields I) :=
  match hstart : parse_date I.numerals start_date, hstop : parse_end_date I.numerals end_date with
  | some start, some stop => some ⟨start_date, end_date, timezone, fmt, start, stop, hstart, hstop⟩
  | _, _ => none

theorem init_eq (self : TimeFields I) (fmt : String) :
    init I self.start_date self.end_date self.timezone fmt = some { self with fmt := fmt } := by
  unfold init
  split
  · next start stop hstart hstop =>
    have hsame := hstart.symm.trans self.parse_start
    have hsame' := hstop.symm.trans self.parse_stop
    cases hsame
    cases hsame'
    rfl
  · next h =>
    exact (h _ _ self.parse_start self.parse_stop).elim

end TimeFields

namespace PartitionDefinition

/-- A property of all definitions, from their dimensions. -/
@[elab_as_elim]
theorem induct {P : PartitionDefinition I → Prop} (time : ∀ g fields, P (time g fields))
    (static : ∀ keys, P (static keys)) (dynamic : ∀ name keys, P (dynamic name keys))
    (multi : ∀ dims, (∀ dim ∈ dims, P dim.2) → P (multi dims)) (self : PartitionDefinition I) :
    P self := by
  refine @PartitionDefinition.rec I P (fun dims => ∀ dim ∈ dims, P dim.2) (fun dim => P dim.2)
    time static dynamic multi ?_ ?_ ?_ self
  · simp
  · exact fun dim dims hdim hdims => List.forall_mem_cons.mpr ⟨hdim, hdims⟩
  · exact fun _ _ hdim => hdim

end PartitionDefinition

/-! ### Times -/

namespace TimePartitionDefinition

variable (self : TimePartitionDefinition) (today : Date) (start stop : Option Datetime)

/-- The times for which `get_partition_keys` writes keys; `none` is an exception. -/
def times : Option (List Datetime) :=
  if h : self.granularity = .HOURLY then
    (hours.loop (self.get_end_date today).last_time.timestamp (breaks start stop)
      self.start_date.midnight).map fun times => times.filter fun t => !before start t
  else (self.iter_dates today h).map fun dates =>
    (dates.filter fun d => !filtered start stop d).map Date.midnight

theorem get_partition_keys_eq : self.get_partition_keys today start stop =
    (self.times today start stop).map fun times => times.map fun t => t.strftime self.fmt := by
  unfold get_partition_keys times
  split
  · rw [get_hourly_keys, Option.map_map]
    rfl
  · rw [Option.map_map]
    simp [Function.comp_def]

end TimePartitionDefinition

/-! ### Keys -/

namespace PartitionDefinition

variable (today : Date)

section keys

variable (start stop : Option Datetime)

/-- `TimePartitionDefinition.get_partition_keys`, with the format of the definition. -/
def get_time_keys (granularity : PartitionGranularity) (fields : TimeFields I) :
    Option (List String) :=
  ((fields.definition granularity).times today start stop).bind fun times =>
    times.mapM fun t => I.strftime t fields.fmt

mutual

/-- `get_partition_keys`; `none` is an exception. -/
def get_partition_keys : PartitionDefinition I → Option (List String)
  | time granularity fields => get_time_keys today start stop granularity fields
  | static keys => some keys
  | dynamic _ keys => some keys
  | multi dimensions => (get_dimension_keys dimensions).map fun dim_keys =>
    (get_multi_keys dim_keys).contents.map fun d => json_dumps I.number d.to_tree

/-- The keys of each dimension. -/
def get_dimension_keys : List (String × PartitionDefinition I) →
    Option (List (String × List String))
  | [] => some []
  | (dim_name, dim_def) :: dimensions =>
    (get_partition_keys dim_def).bind fun keys =>
      (get_dimension_keys dimensions).map fun dim_keys => (dim_name, keys) :: dim_keys

end

/-- `get_multi_partition_keys`: the dictionaries that have been made. -/
def get_multi_partition_keys (dimensions : List (String × PartitionDefinition I)) :
    Option ProductState := (get_dimension_keys today start stop dimensions).map get_multi_keys

variable {today start stop}

theorem get_partition_keys_multi (dimensions : List (String × PartitionDefinition I)) :
    (multi dimensions).get_partition_keys today start stop =
      (get_dimension_keys today start stop dimensions).map fun dim_keys =>
        (get_multi_keys dim_keys).contents.map fun d => json_dumps I.number d.to_tree := by
  rw [get_partition_keys]

/-- The keys of each dimension, where none raises. -/
theorem get_dimension_keys_iff {dimensions : List (String × PartitionDefinition I)}
    {dim_keys : List (String × List String)} :
    get_dimension_keys today start stop dimensions = some dim_keys ↔
      List.Forall₂ (fun dim e => e.1 = dim.1 ∧
        dim.2.get_partition_keys today start stop = some e.2) dimensions dim_keys := by
  induction dimensions generalizing dim_keys with
  | nil => simp [get_dimension_keys, eq_comm]
  | cons dim dimensions ih =>
    obtain ⟨dim_name, dim_def⟩ := dim
    rw [get_dimension_keys]
    constructor
    · intro h
      obtain ⟨keys, hkeys, h⟩ := Option.bind_eq_some_iff.mp h
      obtain ⟨rest, hrest, rfl⟩ := Option.map_eq_some_iff.mp h
      exact .cons ⟨rfl, hkeys⟩ (ih.mp hrest)
    · intro h
      cases h with
      | @cons _ e _ rest he hrest =>
        obtain ⟨hname, hkeys⟩ := he
        have hname : e.1 = dim_name := hname
        have hkeys : dim_def.get_partition_keys today start stop = some e.2 := hkeys
        rw [hkeys, ih.mpr hrest, ← hname]
        rfl

theorem get_dimension_keys_isSome {dimensions : List (String × PartitionDefinition I)} :
    (get_dimension_keys today start stop dimensions).isSome ↔
      ∀ dim ∈ dimensions, (dim.2.get_partition_keys today start stop).isSome := by
  induction dimensions with
  | nil => simp [get_dimension_keys]
  | cons dim dimensions ih =>
    obtain ⟨dim_name, dim_def⟩ := dim
    rw [get_dimension_keys, List.forall_mem_cons, ← ih]
    cases dim_def.get_partition_keys today start stop <;> simp

theorem names_of_get {dimensions : List (String × PartitionDefinition I)}
    {dim_keys : List (String × List String)}
    (h : get_dimension_keys today start stop dimensions = some dim_keys) :
    dim_keys.map Prod.fst = dimensions.map Prod.fst := by
  have hall := get_dimension_keys_iff.mp h
  clear h
  induction hall with
  | nil => rfl
  | cons he _ ih => rw [List.map_cons, List.map_cons, he.1, ih]

end keys

/-! ### Validation -/

/-- `TimePartitionDefinition.validate_partition_key`; `none` is an exception. -/
def validate_time_key (granularity : PartitionGranularity) (fields : TimeFields I) :
    JsonTree → Option Bool
  | .string key => (I.strptime key fields.fmt).map fun parsed => parsed.any fun t =>
      fields.start.day_number ≤ t.date.day_number &&
        t.date.day_number ≤ ((fields.definition granularity).get_end_date today).day_number
  -- a `TypeError`
  | _ => none

/-- `key in keys`. -/
def validate_listed (keys : List String) : JsonTree → Bool
  | .string key => key ∈ keys
  | _ => false

/-- The members are validated one after the other, until one is not valid. -/
def validate_members (validators : List (String × (JsonTree → Option Bool))) :
    List (String × JsonTree) → Option Bool
  | [] => some true
  | (dim_name, dim_key) :: members =>
    match validators.lookup dim_name with
    | some validate => (validate dim_key).bind fun valid =>
      if valid then validate_members validators members else some false
    -- a `KeyError`
    | none => some false

/-- What `json.loads` has read has the dimensions, and their keys are valid. -/
def validate_parsed (validators : List (String × (JsonTree → Option Bool))) :
    Except JsonTree.ReadError JsonTree → Option Bool
  | .ok (.object parsed) =>
    if (∀ dim ∈ validators, dim.1 ∈ parsed.map Prod.fst) ∧
        ∀ member ∈ parsed, member.1 ∈ validators.map Prod.fst then
      validate_members validators parsed
    else some false
  | .ok _ => some false
  | .error .malformed => some false
  | .error .too_long => none
  | .error .unpaired => none

/-- `MultiPartition.validate_partition_key`. -/
def validate_multi (numerals : Numerals) (validators : List (String × (JsonTree → Option Bool))) :
    JsonTree → Option Bool
  | .string key => validate_parsed validators (json_loads numerals key)
  -- a `TypeError`
  | _ => none

mutual

/-- `validate_partition_key`, for what a key has in one of its dimensions; `none` is an
    exception. -/
def validate_partition_key : PartitionDefinition I → JsonTree → Option Bool
  | time granularity fields, key => validate_time_key today granularity fields key
  | static keys, key => some (validate_listed keys key)
  | dynamic _ keys, key => some (validate_listed keys key)
  | multi dimensions, key => validate_multi I.numerals (validators dimensions) key

def validators : List (String × PartitionDefinition I) →
    List (String × (JsonTree → Option Bool))
  | [] => []
  | (dim_name, dim_def) :: dimensions =>
    (dim_name, fun key => validate_partition_key dim_def key) :: validators dimensions

end

theorem validators_eq (dimensions : List (String × PartitionDefinition I)) :
    validators today dimensions =
      dimensions.map fun dim => (dim.1, dim.2.validate_partition_key today) := by
  induction dimensions with
  | nil => rfl
  | cons dim dimensions ih =>
    rw [validators, ih]
    rfl

/-- The key is accepted. -/
def Accepts (self : PartitionDefinition I) (key : String) : Prop :=
  self.validate_partition_key today (.string key) = some true

/-! ### What is accepted -/

section accepted

variable {today}

/-- Only texts are accepted. -/
theorem string_of_validate {self : PartitionDefinition I} {key : JsonTree}
    (h : self.validate_partition_key today key = some true) : ∃ text, key = .string text := by
  cases self with
  | time granularity fields =>
    cases key with
    | string text => exact ⟨text, rfl⟩
    | _ => simp [validate_partition_key, validate_time_key] at h
  | static keys =>
    cases key with
    | string text => exact ⟨text, rfl⟩
    | _ => simp [validate_partition_key, validate_listed] at h
  | dynamic name keys =>
    cases key with
    | string text => exact ⟨text, rfl⟩
    | _ => simp [validate_partition_key, validate_listed] at h
  | multi dimensions =>
    cases key with
    | string text => exact ⟨text, rfl⟩
    | _ => simp [validate_partition_key, validate_multi] at h

theorem accepts_listed {keys : List String} {key : String} :
    (static keys : PartitionDefinition I).Accepts today key ↔ key ∈ keys := by
  simp [Accepts, validate_partition_key, validate_listed]

theorem accepts_added {name : String} {keys : List String} {key : String} :
    (dynamic name keys : PartitionDefinition I).Accepts today key ↔ key ∈ keys := by
  simp [Accepts, validate_partition_key, validate_listed]

/-- A time is accepted if its date is in the range. -/
theorem accepts_time {granularity : PartitionGranularity} {fields : TimeFields I} {key : String} :
    (time granularity fields).Accepts today key ↔
      ∃ t, I.strptime key fields.fmt = some (some t) ∧
        (fields.definition granularity).Covered today t.date := by
  rw [Accepts, validate_partition_key, validate_time_key]
  cases I.strptime key fields.fmt with
  | none => simp
  | some parsed =>
    cases parsed with
    | none => simp
    | some t =>
      simp only [Option.map_some, Option.any_some, Option.some.injEq, Bool.and_eq_true,
        decide_eq_true_eq, exists_eq_left']
      rfl

theorem validate_members_iff {validators : List (String × (JsonTree → Option Bool))}
    {members : List (String × JsonTree)} :
    validate_members validators members = some true ↔
      ∀ m ∈ members, ∃ validate, validators.lookup m.1 = some validate ∧
        validate m.2 = some true := by
  induction members with
  | nil => simp [validate_members]
  | cons m members ih =>
    obtain ⟨dim_name, dim_key⟩ := m
    rw [validate_members, List.forall_mem_cons, ← ih]
    cases hlookup : validators.lookup dim_name with
    | none => simp
    | some validate =>
      cases hvalid : validate dim_key with
      | none => simp [hvalid]
      | some valid => cases valid <;> simp [hvalid]

/-- A dictionary of texts that has the dimensions, each with a key that is accepted. -/
structure IsKeyOf (today : Date) (dimensions : List (String × PartitionDefinition I)) (d : Dict) :
    Prop where
  names : ∀ dim_name, dim_name ∈ d.names ↔ dim_name ∈ dimensions.map Prod.fst
  accepts : ∀ dim ∈ dimensions, ∀ key, (dim.1, key) ∈ d → dim.2.Accepts today key

theorem lookup_validators {dimensions : List (String × PartitionDefinition I)}
    (hnames : (dimensions.map Prod.fst).Nodup) {dim_name : String}
    {validate : JsonTree → Option Bool} :
    (validators today dimensions).lookup dim_name = some validate ↔
      ∃ dim ∈ dimensions, dim.1 = dim_name ∧ dim.2.validate_partition_key today = validate := by
  have hsame : ((validators today dimensions).map Prod.fst) = dimensions.map Prod.fst := by
    simp [validators_eq, Function.comp_def]
  rw [OrderedMap.lookup_eq_some_iff (by rwa [hsame]), validators_eq, List.mem_map]
  simp [Prod.ext_iff]

/-- Members whose values are texts are those of a dictionary. -/
theorem exists_dict {members : List (String × JsonTree)}
    (h : ∀ m ∈ members, ∃ text, m.2 = .string text) :
    ∃ d : Dict, members = d.map fun e => (e.1, .string e.2) := by
  induction members with
  | nil => exact ⟨[], rfl⟩
  | cons m members ih =>
    obtain ⟨⟨text, htext⟩, hmembers⟩ := List.forall_mem_cons.mp h
    obtain ⟨d, hd⟩ := ih hmembers
    refine ⟨(m.1, text) :: d, ?_⟩
    rw [List.map_cons, ← hd, ← htext]

/-- **A key of several dimensions** is accepted if it is a dictionary of keys that are accepted. -/
theorem accepts_multi {dimensions : List (String × PartitionDefinition I)}
    (hnames : (dimensions.map Prod.fst).Nodup) {key : String} :
    (multi dimensions).Accepts today key ↔
      ∃ d : Dict, json_loads I.numerals key = .ok d.to_tree ∧ IsKeyOf today dimensions d := by
  have hvalidators : (validators today dimensions).map Prod.fst = dimensions.map Prod.fst := by
    simp [validators_eq, Function.comp_def]
  have hdims : ∀ dim_name, (∃ v ∈ validators today dimensions, v.1 = dim_name) ↔
      dim_name ∈ dimensions.map Prod.fst := by
    intro dim_name
    rw [← hvalidators, List.mem_map]
  rw [Accepts, validate_partition_key, validate_multi]
  constructor
  · intro h
    unfold validate_parsed at h
    split at h
    · next parsed hparsed =>
      split at h
      · next hsame =>
        rw [validate_members_iff] at h
        obtain ⟨d, rfl⟩ : ∃ d : Dict, parsed = d.map fun e => (e.1, .string e.2) := by
          apply exists_dict
          intro m hm
          obtain ⟨validate, hlookup, hvalid⟩ := h m hm
          obtain ⟨dim, -, -, rfl⟩ := (lookup_validators hnames).mp hlookup
          exact string_of_validate hvalid
        rw [Dict.names_to_tree] at hsame
        refine ⟨d, hparsed, ?_, ?_⟩
        · intro dim_name
          constructor
          · intro hmem
            obtain ⟨e, he, rfl⟩ := List.mem_map.mp hmem
            rw [← hvalidators]
            exact hsame.2 _ (List.mem_map.mpr ⟨e, he, rfl⟩)
          · intro hmem
            obtain ⟨v, hv, rfl⟩ := (hdims dim_name).mpr hmem
            exact hsame.1 v hv
        · intro dim hdim key hkey
          obtain ⟨validate, hlookup, hvalid⟩ := h _ (List.mem_map.mpr ⟨_, hkey, rfl⟩)
          rw [(lookup_validators hnames).mpr ⟨dim, hdim, rfl, rfl⟩] at hlookup
          cases hlookup
          exact hvalid
      · cases h
    · cases h
    · cases h
    · cases h
    · cases h
  · intro h
    obtain ⟨d, hd, hkey⟩ := h
    rw [hd, Dict.to_tree, validate_parsed, if_pos, validate_members_iff]
    · intro m hm
      obtain ⟨e, he, rfl⟩ := List.mem_map.mp hm
      obtain ⟨dim, hdim, hname⟩ := List.mem_map.mp
        ((hkey.names e.1).mp (List.mem_map.mpr ⟨e, he, rfl⟩))
      refine ⟨dim.2.validate_partition_key today,
        (lookup_validators hnames).mpr ⟨dim, hdim, hname, rfl⟩, ?_⟩
      exact hkey.accepts dim hdim e.2 (by rw [hname]; exact he)
    · rw [Dict.names_to_tree, hvalidators]
      constructor
      · intro v hv
        exact (hkey.names v.1).mpr ((hdims v.1).mp ⟨v, hv, rfl⟩)
      · intro m hm
        obtain ⟨e, he, rfl⟩ := List.mem_map.mp hm
        exact (hkey.names e.1).mp (List.mem_map.mpr ⟨e, he, rfl⟩)

theorem isKeyOf_of_perm {dimensions : List (String × PartitionDefinition I)} {d d' : Dict}
    (h : d.Perm d') (hkey : IsKeyOf today dimensions d) : IsKeyOf today dimensions d' where
  names dim_name := by rw [← hkey.names, Dict.names, Dict.names, (h.map Prod.fst).mem_iff]
  accepts dim hdim key hmem := hkey.accepts dim hdim key (h.mem_iff.mpr hmem)

/-- The text of a dictionary is accepted if the dictionary is. -/
theorem accepts_dumps {dimensions : List (String × PartitionDefinition I)}
    (hnames : (dimensions.map Prod.fst).Nodup) {d : Dict} (hd : d.names.Nodup) :
    (multi dimensions).Accepts today (json_dumps I.number d.to_tree) ↔
      IsKeyOf today dimensions d := by
  have hperm := perm_sort_by_name d
  rw [accepts_multi hnames, json_loads_dumps hd]
  constructor
  · intro h
    obtain ⟨d', heq, hkey⟩ := h
    rw [← Dict.to_tree_inj (Except.ok.inj heq)] at hkey
    exact isKeyOf_of_perm hperm hkey
  · intro hkey
    exact ⟨_, rfl, isKeyOf_of_perm hperm.symm hkey⟩

end accepted

end PartitionDefinition

end Servo.Python
