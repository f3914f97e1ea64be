import Mathlib.Data.Finmap
import Servo.Python.JsonDumps
import Servo.Worker.CodeInjection

/-! # The Partition Context of the Python Process

    The worker hands the context of a partition to its Python process: as a JSON
    text in an environment variable, where the SDK reads it. `serde_json` leaves
    out what is empty, and the SDK has defaults for what is left out. So every
    process that is started has the context it was started with, in whatever
    order the maps of the worker yield their entries.
-/

namespace Servo.PartitionContext

open Worker Python

/-! ### What the worker writes -/

/-- What `serde_json` writes of a character. The short escapes are those of Python. -/
def serde_escape (c : Char) : List Char :=
  match escape_dct.lookup c with
  | some d => ['\\', d]
  -- other control characters by their codes; nothing else is escaped, ASCII or not
  | none => if c.toNat < 32 then JsonTree.escape_unit c.toNat else [c]

theorem read_serde_escape (c : Char) (rest : List Char) :
    JsonTree.read_units (serde_escape c ++ rest) =
      (JsonTree.read_units rest).map fun p => ([c.toNat] ++ p.1, p.2) := by
  unfold serde_escape
  cases hlookup : escape_dct.lookup c with
  | some d => exact JsonTree.read_units_escaped (escaped_of_lookup hlookup).2 rest
  | none =>
    simp only
    split
    · next hcontrol => exact JsonTree.read_escape_unit (by omega) rest
    · next hplain =>
      rw [List.lookup_eq_none_iff] at hlookup
      have hquote : c ≠ '"' := by
        rintro rfl
        simp [escape_dct] at hlookup
      have hback : c ≠ '\\' := by
        rintro rfl
        simp [escape_dct] at hlookup
      exact JsonTree.read_units_plain (by omega) hquote hback rest

/-- The style of `serde_json::to_string`. -/
def serde_style : JsonStyle where
  char := serde_escape
  gap := []
  number := String.toList
  units := fun c => [c.toNat]
  blank_of_mem_gap := by simp
  read_char := read_serde_escape
  join_units := fun c rest => JsonTree.join_cons (JsonTree.not_is_high c) rest

/-- The entries of a `HashMap`, in an order in which it yields them. -/
structure Entries {α : Type} (map : Finmap fun _ : String => α) where
  list : List (String × α)
  nodup : (list.map Prod.fst).Nodup
  lookup_eq : ∀ name, list.lookup name = map.lookup name

/-- An order for each map. -/
def HashOrder : Type 1 := ∀ (α : Type) (map : Finmap fun _ : String => α), Entries map

/-- The fields of an object that are not skipped. -/
def present (fields : List (String × Option JsonTree)) : List (String × JsonTree) :=
  fields.filterMap fun f => f.2.map fun value => (f.1, value)

/-- A map, which is skipped if it is empty. -/
def map_field {α : Type} {map : Finmap fun _ : String => α} (entries : Entries map)
    (write : α → JsonTree) : Option JsonTree :=
  if entries.list.isEmpty then none else some (.object (entries.list.map fun e => (e.1, write e.2)))

def write_texts (texts : List String) : JsonTree := .array (texts.map .string)

variable (order : HashOrder) (ctx : PartitionExecutionContext)

/-- The fields of `PartitionExecutionContext`, with `skip_serializing_if`. -/
def context_fields : List (String × Option JsonTree) :=
  [("partition_key", some (.string ctx.partition_key)),
    ("partition_type", ctx.partition_type.map .string),
    ("timezone", ctx.timezone.map .string),
    ("format", ctx.format.map .string),
    ("dimensions", map_field (order _ ctx.dimensions) .string),
    ("upstream_partitions", map_field (order _ ctx.upstream_partitions) write_texts)]

/-- `serde_json::to_string`, which does not fail on texts and maps. -/
def serialize : Option String :=
  some ((JsonTree.object (present (context_fields order ctx))).text serde_style)

/-! ### What the SDK reads -/

/-- `RuntimePartitionContext`, with its fields as `json` has made them. -/
structure RuntimePartitionContext where
  partition_key : JsonTree
  partition_type : JsonTree
  timezone : JsonTree
  format : JsonTree
  dimensions : JsonTree
  upstream_partitions : JsonTree

/-- `data.get(name, default)`. -/
def get (data : List (String × JsonTree)) (name : String) (default : JsonTree) : JsonTree :=
  (data.lookup name).getD default

def from_json (data : List (String × JsonTree)) : RuntimePartitionContext where
  partition_key := get data "partition_key" (.string "")
  partition_type := get data "partition_type" .null
  timezone := get data "timezone" .null
  format := get data "format" .null
  dimensions := get data "dimensions" (.object [])
  upstream_partitions := get data "upstream_partitions" (.object [])

/-- What `from_env` does not catch. -/
inductive FromEnvError where
  /-- An integer that is too long is a `ValueError`. A surrogate alone is no error in Python, but
      in no text of the model. -/
  | unread (e : JsonTree.ReadError)
  /-- What is not a dictionary has no `get`. -/
  | AttributeError
  deriving DecidableEq

def from_env (numerals : Numerals) (environ : List (String × String)) :
    Except FromEnvError (Option RuntimePartitionContext) :=
  match environ.lookup "SERVO_PARTITION_CONTEXT" with
  | none => .ok none
  | some ctx_json =>
    -- an empty text counts as none
    if ctx_json = "" then .ok none
    else
      match json_loads numerals ctx_json with
      | .ok (.object data) => .ok (some (from_json data))
      | .ok _ => .error .AttributeError
      | .error .malformed => .ok none
      | .error e => .error (.unread e)

/-! ### The same context -/

/-- `None` for a text that is not there. -/
def text_or_none (text : Option String) : JsonTree := (text.map .string).getD .null

/-- A dictionary with the entries of a map. -/
def SameMap {α : Type} (write : α → JsonTree) (map : Finmap fun _ : String => α)
    (dict : JsonTree) : Prop :=
  ∃ members, dict = .object members ∧ (members.map Prod.fst).Nodup ∧
    ∀ name, members.lookup name = (map.lookup name).map write

/-- The SDK has the context of the worker. -/
structure Same (ctx : PartitionExecutionContext) (r : RuntimePartitionContext) : Prop where
  partition_key : r.partition_key = .string ctx.partition_key
  partition_type : r.partition_type = text_or_none ctx.partition_type
  timezone : r.timezone = text_or_none ctx.timezone
  format : r.format = text_or_none ctx.format
  dimensions : SameMap .string ctx.dimensions r.dimensions
  upstream_partitions : SameMap write_texts ctx.upstream_partitions r.upstream_partitions

/-! ### Fields that are left out -/

theorem names_present (fields : List (String × Option JsonTree)) :
    ((present fields).map Prod.fst).Sublist (fields.map Prod.fst) := by
  induction fields with
  | nil => exact .slnil
  | cons f fields ih =>
    obtain ⟨name, value⟩ := f
    cases value with
    | none => exact ih.cons name
    | some v => exact ih.cons_cons name

/-- A field is found exactly if it is there and not skipped. -/
theorem lookup_present {fields : List (String × Option JsonTree)}
    (h : (fields.map Prod.fst).Nodup) (name : String) :
    (present fields).lookup name = (fields.lookup name).join := by
  induction fields with
  | nil => rfl
  | cons f fields ih =>
    obtain ⟨name', value⟩ := f
    rw [List.map_cons, List.nodup_cons] at h
    have hrest := ih h.2
    cases value with
    | none =>
      show (present fields).lookup name = _
      rw [hrest, List.lookup_cons]
      cases heq : name == name' with
      | false => rfl
      | true =>
        -- the field is skipped, and none behind it has its name
        have hnone : fields.lookup name = none := by
          rw [List.lookup_eq_none_iff]
          intro f hf
          have hmem : f.1 ∈ fields.map Prod.fst := List.mem_map_of_mem hf
          have hne : name' ≠ f.1 := fun hname => h.1 (hname ▸ hmem)
          rw [beq_iff_eq] at heq
          simpa [heq] using hne
        rw [hnone]
        rfl
    | some v =>
      show ((name', v) :: present fields).lookup name = _
      rw [List.lookup_cons, List.lookup_cons, hrest]
      cases name == name' <;> rfl

theorem textual_present {fields : List (String × Option JsonTree)}
    (h : (fields.map Prod.fst).Nodup) (hvalues : ∀ f ∈ fields, ∀ value ∈ f.2, value.Textual) :
    (JsonTree.object (present fields)).Textual := by
  rw [JsonTree.textual_object]
  refine ⟨h.sublist (names_present fields), ?_⟩
  intro m hm
  obtain ⟨f, hf, heq⟩ := List.mem_filterMap.mp hm
  obtain ⟨value, hvalue, rfl⟩ := Option.map_eq_some_iff.mp heq
  exact hvalues f hf value hvalue

/-! ### Maps -/

section maps

variable {α : Type} {map : Finmap fun _ : String => α} {write : α → JsonTree}

theorem lookup_map_write (list : List (String × α)) (name : String) :
    (list.map fun e => (e.1, write e.2)).lookup name = (list.lookup name).map write := by
  induction list with
  | nil => rfl
  | cons e list ih =>
    rw [List.map_cons, List.lookup_cons, List.lookup_cons, ih]
    cases name == e.1 <;> rfl

theorem names_map_write (list : List (String × α)) :
    (list.map fun e => (e.1, write e.2)).map Prod.fst = list.map Prod.fst := by
  rw [List.map_map]
  rfl

/-- A map that is skipped is read as the default, which is empty too. -/
theorem same_map_field (entries : Entries map) :
    SameMap write map ((map_field entries write).getD (.object [])) := by
  refine ⟨entries.list.map fun e => (e.1, write e.2), ?_, ?_, ?_⟩
  · unfold map_field
    cases hlist : entries.list with
    | nil => rfl
    | cons e list => rfl
  · rw [names_map_write]
    exact entries.nodup
  · intro name
    rw [lookup_map_write, entries.lookup_eq]

theorem textual_map_field (entries : Entries map) (h : ∀ a, (write a).Textual) :
    ∀ value ∈ map_field entries write, value.Textual := by
  intro value hvalue
  unfold map_field at hvalue
  split at hvalue
  · cases hvalue
  · cases hvalue
    rw [JsonTree.textual_object, names_map_write]
    refine ⟨entries.nodup, ?_⟩
    intro m hm
    obtain ⟨e, -, rfl⟩ := List.mem_map.mp hm
    exact h e.2

theorem textual_text (text : Option String) :
    ∀ value ∈ text.map JsonTree.string, value.Textual := by
  intro value hvalue
  obtain ⟨t, -, rfl⟩ := Option.map_eq_some_iff.mp hvalue
  exact JsonTree.textual_string t

theorem textual_write_texts (texts : List String) : (write_texts texts).Textual := by
  rw [write_texts, JsonTree.textual_array]
  intro v hv
  obtain ⟨t, -, rfl⟩ := List.mem_map.mp hv
  exact JsonTree.textual_string t

end maps

/-! ### From the worker to the SDK -/

variable {order ctx}

theorem nodup_context_fields : ((context_fields order ctx).map Prod.fst).Nodup := by
  show ["partition_key", "partition_type", "timezone", "format", "dimensions",
    "upstream_partitions"].Nodup
  decide

theorem textual_context :
    (JsonTree.object (present (context_fields order ctx))).Textual := by
  apply textual_present nodup_context_fields
  simp only [context_fields, List.forall_mem_cons]
  refine ⟨?_, textual_text _, textual_text _, textual_text _,
    textual_map_field _ JsonTree.textual_string, textual_map_field _ textual_write_texts, nofun⟩
  intro value hvalue
  cases hvalue
  exact JsonTree.textual_string _

theorem get_present {name : String} {value : Option JsonTree} (default : JsonTree)
    (h : (context_fields order ctx).lookup name = some value) :
    get (present (context_fields order ctx)) name default = value.getD default := by
  rw [get, lookup_present nodup_context_fields, h]
  rfl

theorem same_from_json : Same ctx (from_json (present (context_fields order ctx))) where
  partition_key :=
    @get_present order ctx "partition_key" (some (.string ctx.partition_key)) (.string "") rfl
  partition_type := get_present _ rfl
  timezone := get_present _ rfl
  format := get_present _ rfl
  dimensions := by
    have hget := @get_present order ctx "dimensions" _ (.object []) rfl
    rw [from_json, hget]
    exact same_map_field _
  upstream_partitions := by
    have hget := @get_present order ctx "upstream_partitions" _ (.object []) rfl
    rw [from_json, hget]
    exact same_map_field _

/-- What the worker writes is read by the SDK. -/
theorem json_loads_serialize (numerals : Numerals) :
    json_loads numerals ((JsonTree.object (present (context_fields order ctx))).text serde_style) =
      .ok (.object (present (context_fields order ctx))) := by
  apply JsonTree.read_text
  exact textual_context

theorem from_env_eq {numerals : Numerals} {environ : List (String × String)}
    (h : environ.lookup "SERVO_PARTITION_CONTEXT" = serialize order ctx) :
    from_env numerals environ = .ok (some (from_json (present (context_fields order ctx)))) := by
  have hread := @json_loads_serialize order ctx numerals
  have hne : (JsonTree.object (present (context_fields order ctx))).text serde_style ≠ "" := by
    intro hempty
    rw [hempty] at hread
    cases hread
  rw [from_env, h, serialize]
  simp only [if_neg hne, hread]

/-! ### What a process can be given -/

theorem nul_notMem_serde_escape (c : Char) : '\x00' ∉ serde_escape c := by
  unfold serde_escape
  cases hlookup : escape_dct.lookup c with
  | some d =>
    have hall : ∀ e ∈ escape_dct, e.2 ≠ '\x00' := by decide
    obtain ⟨front, back, heq, -⟩ := List.lookup_eq_some_iff.mp hlookup
    have hne := hall (c, d) (by rw [heq]; simp)
    simpa using Ne.symm hne
  | none =>
    simp only
    split
    · have hdigits : ∀ d < 16, Nat.digitChar d ≠ '\x00' := by decide
      have hdigit : ∀ n, '\x00' ≠ JsonTree.hex_digit n := fun n =>
        Ne.symm (hdigits _ (Nat.mod_lt n (by decide)))
      simp [JsonTree.escape_unit, hdigit]
    · next hplain =>
      rw [List.mem_singleton]
      rintro rfl
      exact hplain (by decide)

theorem nul_notMem_write_chars (text : String) :
    '\x00' ∉ JsonTree.write_chars serde_style text := by
  rw [JsonTree.write_chars, List.mem_append, List.mem_flatMap]
  rintro (⟨c, -, hc⟩ | hc)
  · exact nul_notMem_serde_escape c hc
  · simp at hc

theorem serde_gap : serde_style.gap = [] := rfl

theorem nul_notMem_write_items {items : List JsonTree}
    (h : ∀ v ∈ items, '\x00' ∉ v.write serde_style) :
    '\x00' ∉ JsonTree.write_items serde_style items := by
  induction items with
  | nil => simp [JsonTree.write_items]
  | cons v items ih =>
    rw [List.forall_mem_cons] at h
    simp [JsonTree.write_items, serde_gap, h.1, ih h.2]

theorem nul_notMem_write_members {members : List (String × JsonTree)}
    (h : ∀ m ∈ members, '\x00' ∉ m.2.write serde_style) :
    '\x00' ∉ JsonTree.write_members serde_style members := by
  induction members with
  | nil => simp [JsonTree.write_members]
  | cons m members ih =>
    rw [List.forall_mem_cons] at h
    simp [JsonTree.write_members, serde_gap, nul_notMem_write_chars, h.1, ih h.2]

/-- What `serde_json` writes has no NUL character: those in its texts are escaped. -/
theorem nul_notMem_write (v : JsonTree) (h : v.Textual) : '\x00' ∉ v.write serde_style := by
  induction v using JsonTree.induct with
  | null => simp [JsonTree.write]
  | bool b => cases b <;> simp [JsonTree.write]
  | number literal => exact absurd h (by simp [JsonTree.Textual])
  | string text => simp [JsonTree.write, nul_notMem_write_chars]
  | array items ih =>
    rw [JsonTree.textual_array] at h
    cases items with
    | nil => simp [JsonTree.write]
    | cons v items =>
      have hall : ∀ w ∈ v :: items, '\x00' ∉ w.write serde_style := fun w hw => ih w hw (h w hw)
      rw [List.forall_mem_cons] at hall
      simp [JsonTree.write, hall.1, nul_notMem_write_items hall.2]
  | object members ih =>
    rw [JsonTree.textual_object] at h
    cases members with
    | nil => simp [JsonTree.write]
    | cons m members =>
      have hall : ∀ m' ∈ m :: members, '\x00' ∉ m'.2.write serde_style := fun m' hm' =>
        ih m' hm' (h.2 m' hm')
      rw [List.forall_mem_cons] at hall
      simp [JsonTree.write, serde_gap, nul_notMem_write_chars, hall.1,
        nul_notMem_write_members hall.2]

/-! ### The process -/

theorem lookup_envs {context_envs : List (String × String)} {name : String}
    (h : name ≠ "SERVO_ASSET_ID" ∧ name ≠ "SERVO_ASSET_NAME" ∧ name ≠ "SERVO_TENANT_ID")
    (asset_id asset_name tenant_id : String) :
    ([("SERVO_ASSET_ID", asset_id), ("SERVO_ASSET_NAME", asset_name),
      ("SERVO_TENANT_ID", tenant_id)] ++ context_envs).lookup name = context_envs.lookup name := by
  obtain ⟨hid, hname, htenant⟩ := h
  simp only [List.cons_append, List.nil_append, List.lookup_cons, beq_false_of_ne hid,
    beq_false_of_ne hname, beq_false_of_ne htenant]

/-- The context adds nothing but its key to what a process may not be given. -/
theorem context_envs_carryNul_iff :
    CarriesNul ((partition_envs (serialize order) (some ctx)).flatMap
        fun entry => [entry.1, entry.2]) ↔ '\x00' ∈ ctx.partition_key.toList := by
  have hwritten : '\x00' ∉
      ((JsonTree.object (present (context_fields order ctx))).text serde_style).toList := by
    rw [JsonTree.text, String.toList_ofList]
    exact nul_notMem_write _ textual_context
  have hnames : '\x00' ∉ "SERVO_PARTITION_CONTEXT".toList ∧
      '\x00' ∉ "SERVO_PARTITION_KEY".toList := by decide
  simp only [partition_envs, serialize, List.flatMap_cons, List.flatMap_nil, List.cons_append,
    List.nil_append, carriesNul_cons, carriesNul_nil, hwritten, hnames.1, hnames.2, false_or,
    or_false]

/-- The process is started, and finds the context in its environment. -/
def Delivered (order : HashOrder) (ctx : PartitionExecutionContext) (tenant_id : TenantId)
    (asset : AssetModel) (numerals : Numerals) : Prop :=
  ∃ command r, execute_fetched (serialize order) asset.id tenant_id (some ctx) asset =
      .ok (some command) ∧
    from_env numerals command.envs = .ok (some r) ∧ Same ctx r ∧
    command.envs.lookup "SERVO_PARTITION_KEY" = some ctx.partition_key

end Servo.PartitionContext
