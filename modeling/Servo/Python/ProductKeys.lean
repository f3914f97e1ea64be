import Servo.Python.PartitionDefinitions

/-! # Keys of Several Dimensions

    `MultiPartition.get_partition_keys` writes each combination of the keys of
    its dimensions as a JSON text. Without dimensions there are no keys, not
    even that of the combination which is empty.
-/

namespace Servo.Python.PartitionDefinition

variable {I : Platform}

/-- One key of each dimension. -/
def IsChoice (dimensions : List (String × PartitionDefinition I)) (today : Date)
    (start stop : Option Datetime) (d : Dict) : Prop :=
  List.Forall₂ (fun dim e => e.1 = dim.1 ∧
    ∃ keys, dim.2.get_partition_keys today start stop = some keys ∧ e.2 ∈ keys) dimensions d

/-- The keys and the dictionaries are the product of the dimensions. -/
structure IsProductOf (dimensions : List (String × PartitionDefinition I)) (today : Date)
    (start stop : Option Datetime) (keys : List String) (made : ProductState) : Prop where
  keys_eq : (multi dimensions).get_partition_keys today start stop = some keys
  dicts_eq : get_multi_partition_keys today start stop dimensions = some made
  /-- Each combination is there, and nothing else. -/
  complete : ∀ d, d ∈ made.contents ↔ IsChoice dimensions today start stop d
  dicts_nodup : made.contents.Nodup
  /-- The keys are the texts of the dictionaries, in their order. -/
  same_order : keys = made.contents.map fun d => json_dumps I.number d.to_tree
  keys_nodup : keys.Nodup
  /-- The dictionaries are different objects, and the shared one is none of them. -/
  objects_nodup : made.result.Nodup
  unshared : 0 ∉ made.result

/-- `get_partition_keys` and `get_multi_partition_keys` return the product of the dimensions. -/
def GeneratesProduct (dimensions : List (String × PartitionDefinition I)) (today : Date)
    (start stop : Option Datetime) : Prop :=
  ∃ keys made, IsProductOf dimensions today start stop keys made

variable {dimensions : List (String × PartitionDefinition I)} {today : Date}
  {start stop : Option Datetime}

/-- A combination of the keys that have been generated. -/
theorem isCombination_iff {dim_keys : List (String × List String)}
    (h : get_dimension_keys today start stop dimensions = some dim_keys) {d : Dict} :
    IsCombination dim_keys d ↔ IsChoice dimensions today start stop d := by
  rw [get_dimension_keys_iff] at h
  induction h generalizing d with
  | nil =>
    constructor
    · intro hd
      cases hd
      exact .nil
    · intro hd
      cases hd
      exact .nil
  | @cons dim dim_key dimensions dim_keys hdim _ ih =>
    constructor
    · intro hd
      cases hd with
      | cons he hrest =>
        exact .cons ⟨he.1.trans hdim.1, dim_key.2, hdim.2, he.2⟩ (ih.mp hrest)
    · intro hd
      cases hd with
      | cons he hrest =>
        obtain ⟨hname, keys, hkeys, hmem⟩ := he
        rw [hdim.2] at hkeys
        cases hkeys
        exact .cons ⟨hname.trans hdim.1.symm, hmem⟩ (ih.mpr hrest)

theorem exists_of_mem_keys {dim_keys : List (String × List String)}
    (h : get_dimension_keys today start stop dimensions = some dim_keys)
    {dim_key : String × List String} (hmem : dim_key ∈ dim_keys) :
    ∃ dim ∈ dimensions, dim.2.get_partition_keys today start stop = some dim_key.2 := by
  rw [get_dimension_keys_iff] at h
  induction h with
  | nil => cases hmem
  | @cons dim first dimensions dim_keys hdim _ ih =>
    rcases List.mem_cons.mp hmem with rfl | hmem
    · exact ⟨dim, List.mem_cons_self, hdim.2⟩
    · obtain ⟨dim', hdim', hkeys⟩ := ih hmem
      exact ⟨dim', List.mem_cons_of_mem _ hdim', hkeys⟩

/-- Without dimensions, there is a combination but no key. -/
theorem get_partition_keys_nil :
    (multi [] : PartitionDefinition I).get_partition_keys today start stop = some [] := by
  rw [get_partition_keys_multi]
  rfl

theorem not_generatesProduct_nil :
    ¬ GeneratesProduct ([] : List (String × PartitionDefinition I)) today start stop := by
  intro h
  obtain ⟨keys, made, hproduct⟩ := h
  have hmade : made = get_multi_keys [] := (Option.some.inj hproduct.dicts_eq).symm
  have hempty := (hproduct.complete []).mpr .nil
  rw [hmade] at hempty
  cases hempty

/-- **The keys are the product of the dimensions**, where there are any, and each dimension
    generates keys that are distinct. -/
theorem generatesProduct (hnames : (dimensions.map Prod.fst).Nodup) (hne : dimensions ≠ [])
    (hkeys : ∀ dim ∈ dimensions, ∃ keys,
      dim.2.get_partition_keys today start stop = some keys ∧ keys.Nodup) :
    GeneratesProduct dimensions today start stop := by
  have hsome : (get_dimension_keys today start stop dimensions).isSome := by
    rw [get_dimension_keys_isSome]
    intro dim hdim
    obtain ⟨keys, hdim_keys, -⟩ := hkeys dim hdim
    exact Option.isSome_iff_exists.mpr ⟨keys, hdim_keys⟩
  obtain ⟨dim_keys, hdim_keys⟩ := Option.isSome_iff_exists.mp hsome
  have hsame := names_of_get hdim_keys
  have hnonempty : dim_keys ≠ [] := by
    intro hnil
    rw [hnil, List.map_nil, eq_comm, List.map_eq_nil_iff] at hsame
    exact hne hsame
  have hdistinct : ∀ dim_key ∈ dim_keys, dim_key.2.Nodup := by
    intro dim_key hmem
    obtain ⟨dim, hdim, heq⟩ := exists_of_mem_keys hdim_keys hmem
    obtain ⟨keys, heq', hnodup⟩ := hkeys dim hdim
    rw [heq] at heq'
    cases heq'
    exact hnodup
  have hproduct := product_nodup hdistinct
  obtain ⟨hcontents, hobjects, hunshared⟩ := get_multi_keys_spec hnonempty (hsame ▸ hnames)
  have htexts : ((product dim_keys).map fun d => json_dumps I.number d.to_tree).Nodup := by
    apply hproduct.map_on
    -- the combinations have the same names, so the texts tell them apart
    intro d hd d' hd' heq
    have hd_names := (mem_product.mp hd).names
    have hd'_names := (mem_product.mp hd').names
    apply json_dumps_inj _ _ heq
    · rw [hd_names, hsame]
      exact hnames
    · rw [hd_names, hd'_names]
  refine ⟨(get_multi_keys dim_keys).contents.map fun d => json_dumps I.number d.to_tree,
    get_multi_keys dim_keys, ?_⟩
  constructor
  · rw [get_partition_keys_multi, hdim_keys]
    rfl
  · rw [get_multi_partition_keys, hdim_keys]
    rfl
  · intro d
    rw [hcontents, mem_product, isCombination_iff hdim_keys]
  · rw [hcontents]
    exact hproduct
  · rfl
  · rw [hcontents]
    exact htexts
  · exact hobjects
  · exact hunshared

/-- **The keys of several dimensions**: the product where there are dimensions, and no keys where
    there are none. -/
theorem get_partition_keys_product (hnames : (dimensions.map Prod.fst).Nodup)
    (hkeys : ∀ dim ∈ dimensions, ∃ keys,
      dim.2.get_partition_keys today start stop = some keys ∧ keys.Nodup) :
    (dimensions ≠ [] → GeneratesProduct dimensions today start stop) ∧
      (dimensions = [] →
        (multi dimensions).get_partition_keys today start stop = some [] ∧
          get_multi_partition_keys today start stop dimensions = some ⟨[], []⟩) := by
  constructor
  · exact fun hne => generatesProduct hnames hne hkeys
  · rintro rfl
    exact ⟨get_partition_keys_nil, rfl⟩

/-- Two customers in two regions. -/
theorem get_partition_keys_regions :
    GeneratesProduct [("customer", (static ["a", "b"] : PartitionDefinition latin_platform)),
      ("region", static ["us", "eu"])] (TimePartitionDefinition.january 0) none none := by
  apply (get_partition_keys_product (by decide) ?_).1
  · simp
  · simp only [List.forall_mem_cons]
    exact ⟨⟨_, rfl, by decide⟩, ⟨_, rfl, by decide⟩, by simp⟩

/-- No dimensions, and so one combination without a key. -/
theorem no_dimensions_no_keys :
    ¬ GeneratesProduct ([] : List (String × PartitionDefinition latin_platform))
      (TimePartitionDefinition.january 0) none none := not_generatesProduct_nil

end Servo.Python.PartitionDefinition
