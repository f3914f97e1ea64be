import Servo.Python.PartitionDefinitions

/-! # Dimension Mapping

    `DimensionMapping` takes the dimensions of an upstream key from those of a
    downstream key. Where a single dimension is left, it returns its value as
    it is, although the upstream definition has several dimensions as far as
    its type is concerned, and accepts JSON objects only.
-/

namespace Servo.Python

open PartitionDefinition

variable {I : Platform}

/-- `upstream_key`, from the members of the downstream key. -/
def remap (dimension_map : Dict) (parsed : List (String × JsonTree)) : List (String × JsonTree) :=
  dimension_map.filterMap fun e => (parsed.lookup e.2).map fun value => (e.1, value)

/-- `DimensionMapping.get_upstream_partitions`; `none` is an exception. -/
def get_upstream_partitions (I : Platform) (dimension_map : Dict) (downstream_key : String) :
    Option (List JsonTree) :=
  match json_loads I.numerals downstream_key with
  | .ok (.object parsed) =>
    let upstream_key := remap dimension_map parsed
    -- If single dimension, return as string
    if upstream_key.length = 1 then some (upstream_key.map Prod.snd)
    else some [.string (json_dumps I.number (.object upstream_key))]
  | .ok _ => some [.string downstream_key]
  | .error .malformed => some [.string downstream_key]
  | .error .too_long => none
  | .error .unpaired => none

/-- What is asked of the keys: the map has a dimension of the downstream key for each dimension
    upstream, and its value is valid there. -/
structure Covers (today : Date) (dimensions : List (String × PartitionDefinition I))
    (dimension_map : Dict) (parsed : List (String × JsonTree)) : Prop where
  map_nodup : dimension_map.names.Nodup
  dims_nodup : (dimensions.map Prod.fst).Nodup
  assigned : ∀ dim ∈ dimensions, ∃ down_dim value, (dim.1, down_dim) ∈ dimension_map ∧
    parsed.lookup down_dim = some value ∧
      dim.2.validate_partition_key today value = some true

/-- All keys that are returned are accepted upstream. -/
def YieldsUpstreamKeys (today : Date) (dimensions : List (String × PartitionDefinition I))
    (dimension_map : Dict) (downstream_key : String) : Prop :=
  ∃ keys, get_upstream_partitions I dimension_map downstream_key = some keys ∧
    ∀ key ∈ keys, (multi dimensions).validate_partition_key today key = some true

/-- The entries of the map whose dimension is in the downstream key. -/
def present (dimension_map : Dict) (parsed : List (String × JsonTree)) : Dict :=
  dimension_map.filter fun e => (parsed.lookup e.2).isSome

/-- Not one dimension is left, and all that are left are upstream; or the one that is left has a
    value that is itself the text of an upstream key. -/
def FormsKey (today : Date) (dimensions : List (String × PartitionDefinition I))
    (dimension_map : Dict) (parsed : List (String × JsonTree)) : Prop :=
  ((present dimension_map parsed).length ≠ 1 ∧
    ∀ e ∈ present dimension_map parsed, e.1 ∈ dimensions.map Prod.fst) ∨
  ∃ e text d, present dimension_map parsed = [e] ∧ parsed.lookup e.2 = some (.string text) ∧
    json_loads I.numerals text = .ok (Dict.to_tree d) ∧ IsKeyOf today dimensions d

section mapping

variable {today : Date} {dimensions : List (String × PartitionDefinition I)}
  {dimension_map : Dict} {parsed : List (String × JsonTree)}

theorem mem_remap {m : String × JsonTree} : m ∈ remap dimension_map parsed ↔
    ∃ down_dim, (m.1, down_dim) ∈ dimension_map ∧ parsed.lookup down_dim = some m.2 := by
  rw [remap, List.mem_filterMap]
  constructor
  · intro h
    obtain ⟨e, he, heq⟩ := h
    obtain ⟨value, hvalue, rfl⟩ := Option.map_eq_some_iff.mp heq
    exact ⟨e.2, he, hvalue⟩
  · intro h
    obtain ⟨down_dim, he, hvalue⟩ := h
    exact ⟨_, he, by rw [hvalue]; rfl⟩

theorem names_remap : (remap dimension_map parsed).map Prod.fst =
    (present dimension_map parsed).names := by
  rw [remap, present, Dict.names]
  induction dimension_map with
  | nil => rfl
  | cons e dimension_map ih =>
    rw [List.filterMap_cons, List.filter_cons]
    cases parsed.lookup e.2 with
    | none => simpa using ih
    | some value => simpa using ih

theorem names_nodup (h : dimension_map.names.Nodup) :
    ((remap dimension_map parsed).map Prod.fst).Nodup := by
  rw [names_remap]
  exact h.sublist (List.filter_sublist.map Prod.fst)

theorem length_remap :
    (remap dimension_map parsed).length = (present dimension_map parsed).length := by
  have h := congrArg List.length (@names_remap dimension_map parsed)
  simpa [Dict.names] using h

/-- What is assigned to a dimension upstream is valid there. -/
theorem Covers.valid (h : Covers today dimensions dimension_map parsed) {m : String × JsonTree}
    (hm : m ∈ remap dimension_map parsed) {dim : String × PartitionDefinition I}
    (hdim : dim ∈ dimensions) (hname : dim.1 = m.1) :
    dim.2.validate_partition_key today m.2 = some true := by
  obtain ⟨down_dim, hentry, hlookup⟩ := mem_remap.mp hm
  obtain ⟨down_dim', value, hentry', hlookup', hvalid⟩ := h.assigned dim hdim
  have hsame := List.inj_on_of_nodup_map h.map_nodup hentry' hentry hname
  rw [Prod.mk.injEq] at hsame
  rw [hsame.2, hlookup] at hlookup'
  cases hlookup'
  exact hvalid

/-- Where nothing else is left, the object has exactly the dimensions upstream. -/
theorem Covers.exists_key (h : Covers today dimensions dimension_map parsed)
    (hall : ∀ e ∈ present dimension_map parsed, e.1 ∈ dimensions.map Prod.fst) :
    ∃ d : Dict, remap dimension_map parsed = (d.map fun e => (e.1, .string e.2)) ∧
      d.names.Nodup ∧ IsKeyOf today dimensions d := by
  have hnames : ∀ m ∈ remap dimension_map parsed, m.1 ∈ dimensions.map Prod.fst := by
    intro m hm
    have hmem : m.1 ∈ (present dimension_map parsed).names := by
      rw [← names_remap]
      exact List.mem_map.mpr ⟨m, hm, rfl⟩
    obtain ⟨e, he, heq⟩ := List.mem_map.mp hmem
    rw [← heq]
    exact hall e he
  obtain ⟨d, hd⟩ : ∃ d : Dict, remap dimension_map parsed =
      d.map fun e => (e.1, .string e.2) := by
    apply exists_dict
    intro m hm
    obtain ⟨dim, hdim, hname⟩ := List.mem_map.mp (hnames m hm)
    exact string_of_validate (h.valid hm hdim hname)
  have hdict : d.names = (remap dimension_map parsed).map Prod.fst := by
    rw [hd, Dict.names_to_tree]
  refine ⟨d, hd, hdict ▸ names_nodup h.map_nodup, ?_, ?_⟩
  · intro dim_name
    rw [hdict]
    constructor
    · intro hmem
      obtain ⟨m, hm, rfl⟩ := List.mem_map.mp hmem
      exact hnames m hm
    · intro hmem
      obtain ⟨dim, hdim, rfl⟩ := List.mem_map.mp hmem
      obtain ⟨down_dim, value, hentry, hlookup, -⟩ := h.assigned dim hdim
      exact List.mem_map.mpr ⟨(dim.1, value), mem_remap.mpr ⟨down_dim, hentry, hlookup⟩, rfl⟩
  · intro dim hdim key hkey
    have hmem : (dim.1, JsonTree.string key) ∈ remap dimension_map parsed := by
      rw [hd]
      exact List.mem_map.mpr ⟨_, hkey, rfl⟩
    exact h.valid hmem hdim rfl

theorem sort_members_eq (members : List (String × JsonTree)) :
    sort_members members = members.map fun m => (m.1, sort_keys m.2) := by
  induction members with
  | nil => rfl
  | cons m members ih => rw [sort_members, ih, List.map_cons]

/-- An object with another dimension is not accepted, whatever its value there. -/
theorem Covers.names_of_accepts (h : Covers today dimensions dimension_map parsed)
    (haccepts : (multi dimensions).Accepts today
      (json_dumps I.number (.object (remap dimension_map parsed)))) :
    ∀ e ∈ present dimension_map parsed, e.1 ∈ dimensions.map Prod.fst := by
  obtain ⟨d, hloads, hkey⟩ := (accepts_multi h.dims_nodup).mp haccepts
  rw [json_loads, json_dumps, sort_keys] at hloads
  generalize hsorted : sort_by_name (sort_members (remap dimension_map parsed)) = sorted at hloads
  have hmem : ∀ m, m ∈ sorted ↔ ∃ m' ∈ remap dimension_map parsed, (m'.1, sort_keys m'.2) = m := by
    intro m
    rw [← hsorted, (perm_sort_by_name _).mem_iff, sort_members_eq, List.mem_map]
  intro e he
  by_contra hnot
  have hex : ∃ m ∈ sorted, decide (m.1 ∉ dimensions.map Prod.fst) = true := by
    have hname : e.1 ∈ (remap dimension_map parsed).map Prod.fst := by
      rw [names_remap]
      exact List.mem_map.mpr ⟨e, he, rfl⟩
    obtain ⟨m, hm, heq⟩ := List.mem_map.mp hname
    exact ⟨_, (hmem _).mpr ⟨m, hm, rfl⟩, by simpa [heq] using hnot⟩
  -- the first member that is no dimension upstream comes after texts
  obtain ⟨bad, hfound⟩ := Option.isSome_iff_exists.mp (List.find?_isSome.mpr hex)
  obtain ⟨hbad, good, others, rfl, hgood⟩ := List.find?_eq_some_iff_append.mp hfound
  have htextual : ∀ m ∈ good, m.2.Textual := by
    intro m hm
    obtain ⟨m', hm', rfl⟩ := (hmem m).mp (List.mem_append_left _ hm)
    have hin : m'.1 ∈ dimensions.map Prod.fst := by simpa using hgood _ hm
    obtain ⟨dim, hdim, hname⟩ := List.mem_map.mp hin
    obtain ⟨text, htext⟩ := string_of_validate (h.valid hm' hdim hname)
    rw [htext, sort_keys]
    exact JsonTree.textual_string text
  have hread := JsonTree.name_of_read _ _ htextual hloads
  rw [Dict.names_to_tree, hkey.names] at hread
  exact of_decide_eq_true hbad hread

/-- What is returned where one dimension is left. -/
theorem get_upstream_partitions_one {downstream_key : String}
    (hparsed : json_loads I.numerals downstream_key = .ok (.object parsed))
    {e : String × String} (he : present dimension_map parsed = [e]) :
    ∃ value, parsed.lookup e.2 = some value ∧
      get_upstream_partitions I dimension_map downstream_key = some [value] := by
  have hone : (remap dimension_map parsed).length = 1 := by
    rw [length_remap, he]
    rfl
  obtain ⟨m, hm⟩ := List.length_eq_one_iff.mp hone
  obtain ⟨down_dim, hentry, hlookup⟩ := mem_remap.mp (hm ▸ List.mem_singleton_self m)
  have hmem : (m.1, down_dim) ∈ present dimension_map parsed :=
    List.mem_filter.mpr ⟨hentry, by rw [hlookup]; rfl⟩
  rw [he, List.mem_singleton] at hmem
  refine ⟨m.2, by rw [← hmem, hlookup], ?_⟩
  unfold get_upstream_partitions
  rw [hparsed]
  simp only [if_pos hone]
  rw [hm, List.map_singleton]

theorem get_upstream_partitions_several {downstream_key : String}
    (hparsed : json_loads I.numerals downstream_key = .ok (.object parsed))
    (hne : (present dimension_map parsed).length ≠ 1) :
    get_upstream_partitions I dimension_map downstream_key =
      some [.string (json_dumps I.number (.object (remap dimension_map parsed)))] := by
  unfold get_upstream_partitions
  rw [hparsed]
  simp only [length_remap, if_neg hne]

theorem forms_of_yields {downstream_key : String}
    (hparsed : json_loads I.numerals downstream_key = .ok (.object parsed))
    (h : Covers today dimensions dimension_map parsed)
    (hyields : YieldsUpstreamKeys today dimensions dimension_map downstream_key) :
    FormsKey today dimensions dimension_map parsed := by
  obtain ⟨keys, hkeys, haccepts⟩ := hyields
  by_cases hone : (present dimension_map parsed).length = 1
  · obtain ⟨e, he⟩ := List.length_eq_one_iff.mp hone
    obtain ⟨value, hvalue, hreturned⟩ := get_upstream_partitions_one hparsed he
    rw [hreturned] at hkeys
    cases hkeys
    have hvalid := haccepts value (List.mem_singleton_self value)
    obtain ⟨text, rfl⟩ := string_of_validate hvalid
    obtain ⟨d, hloads, hkey⟩ := (accepts_multi h.dims_nodup).mp hvalid
    exact .inr ⟨e, text, d, he, hvalue, hloads, hkey⟩
  · rw [get_upstream_partitions_several hparsed hone] at hkeys
    cases hkeys
    exact .inl ⟨hone, h.names_of_accepts (haccepts _ (List.mem_singleton_self _))⟩

/-- **The keys are accepted upstream** exactly if they have the form of a key there. -/
theorem yields_upstream_keys_iff {downstream_key : String}
    (hparsed : json_loads I.numerals downstream_key = .ok (.object parsed))
    (h : Covers today dimensions dimension_map parsed) :
    YieldsUpstreamKeys today dimensions dimension_map downstream_key ↔
      FormsKey today dimensions dimension_map parsed := by
  constructor
  · exact forms_of_yields hparsed h
  · intro hforms
    rcases hforms with ⟨hne, hall⟩ | ⟨e, text, d, he, hlookup, hloads, hkey⟩
    · refine ⟨_, get_upstream_partitions_several hparsed hne, ?_⟩
      rw [List.forall_mem_singleton]
      obtain ⟨d, hd, hnodup, hkey⟩ := h.exists_key hall
      rw [hd]
      exact (accepts_dumps h.dims_nodup hnodup).mpr hkey
    · obtain ⟨value, hvalue, hreturned⟩ := get_upstream_partitions_one hparsed he
      rw [hlookup] at hvalue
      cases hvalue
      refine ⟨_, hreturned, ?_⟩
      rw [List.forall_mem_singleton]
      exact (accepts_multi h.dims_nodup).mpr ⟨d, hloads, hkey⟩

/-- A client in a region. -/
def client_key : String :=
  json_dumps String.toList (Dict.to_tree [("client", "a"), ("region", "us")])

theorem loads_client_key : json_loads latin_platform.numerals client_key =
    .ok (Dict.to_tree [("client", "a"), ("region", "us")]) := by
  have hsorted : sort_by_name [("client", "a"), ("region", "us")] =
      [("client", "a"), ("region", "us")] := by decide
  rw [client_key, json_loads_dumps (by decide), hsorted]

/-- Two dimensions upstream, which have other names downstream. -/
theorem yields_upstream_keys_two : YieldsUpstreamKeys (TimePartitionDefinition.january 0)
    [("area", (static ["us", "eu"] : PartitionDefinition latin_platform)),
      ("customer", static ["a"])] [("area", "region"), ("customer", "client")] client_key := by
  refine (yields_upstream_keys_iff loads_client_key ⟨by decide, by decide, ?_⟩).mpr
    (.inl ⟨by decide, by decide⟩)
  simp only [List.forall_mem_cons]
  exact ⟨⟨"region", .string "us", by decide, rfl, rfl⟩,
    ⟨"client", .string "a", by decide, rfl, rfl⟩, by simp⟩

end mapping

/-- Only the region is upstream, and its bare name is no key there. -/
theorem single_dimension_refused : ¬ YieldsUpstreamKeys (TimePartitionDefinition.january 0)
    [("region", (static ["us"] : PartitionDefinition latin_platform))] [("region", "region")]
    client_key := by
  intro h
  have hcovers : Covers (TimePartitionDefinition.january 0)
      [("region", (static ["us"] : PartitionDefinition latin_platform))] [("region", "region")]
      [("client", .string "a"), ("region", .string "us")] := by
    refine ⟨by decide, by decide, ?_⟩
    rw [List.forall_mem_singleton]
    exact ⟨"region", .string "us", by decide, rfl, rfl⟩
  rcases forms_of_yields loads_client_key hcovers h with
    ⟨hne, -⟩ | ⟨e, text, d, he, hlookup, hloads, -⟩
  · exact hne (by decide)
  · have hentry : e = ("region", "region") := by
      have hpresent : present [("region", "region")]
          [("client", .string "a"), ("region", .string "us")] = [("region", "region")] := by decide
      have hsame : [("region", "region")] = [e] := hpresent.symm.trans he
      exact (List.cons.inj hsame).1.symm
    have htext : text = "us" := by
      rw [hentry] at hlookup
      cases hlookup
      rfl
    have hmalformed : json_loads latin_platform.numerals "us" = .error .malformed := by rfl
    rw [htext, hmalformed] at hloads
    cases hloads

end Servo.Python
