import Servo.Cli.WorkflowDefinition
import Servo.Framework.TopologicalSort

/-! # Cycles in Workflow Definitions

    What `validate_workflow_definition` accepts, as a property of the
    definition. That an asset does not depend on itself is among its tests;
    that no two assets depend on each other is not, and so a definition may
    be accepted whose assets have no order.
-/

namespace Servo

open TopologicalSort

namespace WorkflowDefinition

/-- The names of the assets. -/
def asset_names (definition : WorkflowDefinition) : List String := definition.assets.map (·.name)

/-- The dependencies as pairs of names, the upstream asset first. -/
def name_edges (definition : WorkflowDefinition) : List (String × String) :=
  definition.edges.map fun edge => (edge.2.asset, edge.1)

/-- The tests of the validation. -/
structure Accepted (parsers : ScheduleParsers) (definition : WorkflowDefinition) : Prop where
  named : definition.name ≠ ""
  schedule : ∀ schedule ∈ definition.schedule,
    parsers.cron ("0 " ++ schedule.cron) = true ∧ parsers.timezone schedule.timezone = true
  assets : ∀ asset ∈ definition.assets, asset.name ≠ "" ∧ asset.asset_type ≠ ""
  distinct : definition.asset_names.Nodup
  /-- Every dependency names an asset of the definition. -/
  defined : ∀ edge ∈ definition.name_edges, edge.1 ∈ definition.asset_names
  irreflexive : ∀ name, (name, name) ∉ definition.name_edges

/-- Two different assets depend on each other, directly or through others. -/
def MutuallyDependent (definition : WorkflowDefinition) (a b : String) : Prop :=
  a ≠ b ∧ Relation.TransGen (Edge definition.name_edges) a b ∧
    Relation.TransGen (Edge definition.name_edges) b a

end WorkflowDefinition

/-! ### What the validation accepts -/

section validation
variable {parsers : ScheduleParsers} {definition : WorkflowDefinition}

theorem validate_schedule_eq_ok_iff {schedule : ScheduleDefinition} {u : Unit} :
    validate_schedule parsers schedule = .ok u ↔
      parsers.cron ("0 " ++ schedule.cron) = true ∧
        parsers.timezone schedule.timezone = true := by
  unfold validate_schedule bail
  by_cases hcron : parsers.cron ("0 " ++ schedule.cron) = true
  · by_cases htimezone : parsers.timezone schedule.timezone = true <;> simp [hcron, htimezone]
  · simp [hcron]

/-- The first loop goes through the assets one at a time. -/
theorem validate_assets_eq_ok_iff {asset_names names : List String}
    {assets : List AssetDefinition} :
    validate_assets asset_names assets = .ok names ↔
      (∀ asset ∈ assets, asset.name ≠ "" ∧ asset.asset_type ≠ "") ∧
        (assets.map (·.name)).Nodup ∧ (∀ asset ∈ assets, asset.name ∉ asset_names) ∧
        names = (assets.map (·.name)).reverse ++ asset_names := by
  -- the names that have been seen grow from asset to asset
  induction assets generalizing asset_names with
  | nil =>
    rw [validate_assets, Except.ok.injEq]
    simp [eq_comm (a := names)]
  | cons asset assets ih =>
    unfold validate_assets bail
    by_cases hname : asset.name = ""
    · simp [hname]
    · rw [if_neg hname]
      by_cases hnew : asset.name ∈ asset_names
      · simp [hnew]
      · rw [if_neg hnew]
        by_cases htype : asset.asset_type = ""
        · simp [htype]
        · rw [if_neg htype, ih, List.map_cons, List.nodup_cons, List.forall_mem_cons,
            List.forall_mem_cons]
          have hsplit : (∀ a ∈ assets, a.name ∉ asset.name :: asset_names) ↔
              asset.name ∉ assets.map (·.name) ∧ ∀ a ∈ assets, a.name ∉ asset_names := by
            simp only [List.mem_cons, not_or, List.mem_map, not_exists, not_and]
            constructor
            · intro h
              exact ⟨fun a ha => (h a ha).1, fun a ha => (h a ha).2⟩
            · intro h a ha
              exact ⟨h.1 a ha, h.2 a ha⟩
          rw [hsplit, List.reverse_cons, List.append_assoc, List.singleton_append]
          tauto

theorem validate_references_eq_ok_iff {asset_names : List String}
    {edges : List (String × DependencyDefinition)} {u : Unit} :
    validate_references asset_names edges = .ok u ↔
      ∀ edge ∈ edges, edge.2.asset ∈ asset_names := by
  induction edges with
  | nil => simp [validate_references]
  | cons edge edges ih =>
    unfold validate_references bail
    by_cases hdefined : edge.2.asset ∈ asset_names
    · simp [hdefined, ih]
    · simp [hdefined]

theorem validate_no_self_dependency_eq_ok_iff {edges : List (String × DependencyDefinition)}
    {u : Unit} :
    validate_no_self_dependency edges = .ok u ↔ ∀ edge ∈ edges, edge.2.asset ≠ edge.1 := by
  induction edges with
  | nil => simp [validate_no_self_dependency]
  | cons edge edges ih =>
    unfold validate_no_self_dependency bail
    by_cases hself : edge.2.asset = edge.1
    · simp [hself]
    · simp [hself, ih]

/-- The three loops. -/
theorem validate_loops_eq_ok_iff {u : Unit} :
    (do
      let asset_names ← validate_assets [] definition.assets
      validate_references asset_names definition.edges
      validate_no_self_dependency definition.edges) = .ok u ↔
      (∀ asset ∈ definition.assets, asset.name ≠ "" ∧ asset.asset_type ≠ "") ∧
        definition.asset_names.Nodup ∧
        (∀ edge ∈ definition.name_edges, edge.1 ∈ definition.asset_names) ∧
        ∀ name, (name, name) ∉ definition.name_edges := by
  have hdefined : ∀ names : List String, (∀ name, name ∈ names ↔ name ∈ definition.asset_names) →
      ((∀ edge ∈ definition.edges, edge.2.asset ∈ names) ↔
        ∀ edge ∈ definition.name_edges, edge.1 ∈ definition.asset_names) := by
    intro names hnames
    simp only [WorkflowDefinition.name_edges, List.forall_mem_map, hnames]
  have hself : (∀ edge ∈ definition.edges, edge.2.asset ≠ edge.1) ↔
      ∀ name, (name, name) ∉ definition.name_edges := by
    unfold WorkflowDefinition.name_edges
    constructor
    · intro h name hmem
      obtain ⟨edge, hedge, heq⟩ := List.mem_map.mp hmem
      have hsame := Prod.mk.inj heq
      exact h edge hedge (hsame.1.trans hsame.2.symm)
    · intro h edge hedge heq
      apply h edge.1
      exact List.mem_map.mpr ⟨edge, hedge, by rw [heq]⟩
  -- the set that the loops look into is that of all names
  have hmem : ∀ name, name ∈ (definition.assets.map (·.name)).reverse ++ [] ↔
      name ∈ definition.asset_names := by
    intro name
    simp [WorkflowDefinition.asset_names]
  simp only [Fallible.bind_eq_ok_iff]
  constructor
  · intro h
    obtain ⟨names, hassets, _, hrefs, hno_self⟩ := h
    obtain ⟨hgood, hnodup, -, rfl⟩ := validate_assets_eq_ok_iff.mp hassets
    exact ⟨hgood, hnodup, (hdefined _ hmem).mp (validate_references_eq_ok_iff.mp hrefs),
      hself.mp (validate_no_self_dependency_eq_ok_iff.mp hno_self)⟩
  · intro h
    obtain ⟨hgood, hnodup, hrefs, hno_self⟩ := h
    exact ⟨_, validate_assets_eq_ok_iff.mpr ⟨hgood, hnodup, by simp, rfl⟩, (),
      validate_references_eq_ok_iff.mpr ((hdefined _ hmem).mpr hrefs),
      validate_no_self_dependency_eq_ok_iff.mpr (hself.mpr hno_self)⟩

/-- **What is accepted** is what passes each of the tests. -/
theorem validate_workflow_definition_eq_ok_iff {u : Unit} :
    validate_workflow_definition parsers definition = .ok u ↔ definition.Accepted parsers := by
  have hloops := @validate_loops_eq_ok_iff definition u
  have hsplit : definition.Accepted parsers ↔ definition.name ≠ "" ∧
      (∀ schedule ∈ definition.schedule, parsers.cron ("0 " ++ schedule.cron) = true ∧
        parsers.timezone schedule.timezone = true) ∧
      (∀ asset ∈ definition.assets, asset.name ≠ "" ∧ asset.asset_type ≠ "") ∧
      definition.asset_names.Nodup ∧
      (∀ edge ∈ definition.name_edges, edge.1 ∈ definition.asset_names) ∧
      ∀ name, (name, name) ∉ definition.name_edges := by
    constructor
    · intro h
      exact ⟨h.named, h.schedule, h.assets, h.distinct, h.defined, h.irreflexive⟩
    · intro h
      obtain ⟨hname, hschedule, hassets, hdistinct, hdefined, hself⟩ := h
      exact ⟨hname, hschedule, hassets, hdistinct, hdefined, hself⟩
  rw [hsplit, ← hloops]
  unfold validate_workflow_definition
  by_cases hname : definition.name = ""
  · rw [if_pos hname]
    exact iff_of_false (by simp [bail, bind, Except.bind]) fun h => h.1 hname
  · rw [if_neg hname]
    cases hschedule : definition.schedule with
    | none => simp [bind, Except.bind, hname]
    | some schedule =>
      have hparsed := @validate_schedule_eq_ok_iff parsers schedule
      cases hresult : validate_schedule parsers schedule with
      | error e =>
        have hfails : ¬ (parsers.cron ("0 " ++ schedule.cron) = true ∧
            parsers.timezone schedule.timezone = true) := by
          intro hgood
          have hok := (@hparsed ()).mpr hgood
          rw [hresult] at hok
          cases hok
        refine iff_of_false (by simp [bind, Except.bind, hresult]) ?_
        intro h
        exact hfails (h.2.1 schedule rfl)
      | ok v =>
        have hgood := hparsed.mp hresult
        simp [bind, Except.bind, hresult, hname, hgood.1, hgood.2]

end validation

/-! ### Which accepted definitions have an order -/

/-- What an accepted definition promises: no cycle, every dependency is an asset, and there is an
    order in which each asset comes after all it depends on. -/
structure WorkflowDefinition.Orderable (definition : WorkflowDefinition) : Prop where
  acyclic : ¬ Cyclic definition.name_edges
  defined : ∀ edge ∈ definition.name_edges, edge.1 ∈ definition.asset_names
  ordered : ∃ order : List String, order.Perm definition.asset_names ∧
    Sorted definition.name_edges order

section order
variable (parsers : ScheduleParsers) (definition : WorkflowDefinition)

theorem name_edges_snd {definition : WorkflowDefinition} :
    ∀ edge ∈ definition.name_edges, edge.2 ∈ definition.asset_names := by
  intro edge hedge
  obtain ⟨e, he, rfl⟩ := List.mem_map.mp hedge
  obtain ⟨asset, hasset, hdep⟩ := List.mem_flatMap.mp he
  obtain ⟨dep, -, rfl⟩ := List.mem_map.mp hdep
  exact List.mem_map.mpr ⟨asset, hasset, rfl⟩

/-- An accepted definition has an order if no two assets depend on each other. -/
theorem WorkflowDefinition.Accepted.orderable_iff {parsers : ScheduleParsers}
    {definition : WorkflowDefinition} (h : definition.Accepted parsers) :
    definition.Orderable ↔ ∀ a b, ¬ definition.MutuallyDependent a b := by
  have hcyclic := cyclic_iff_of_irreflexive h.irreflexive
  constructor
  · intro horder a b hmutual
    exact horder.acyclic (hcyclic.mpr ⟨a, b, hmutual⟩)
  · intro hnone
    have hacyclic : ¬ Cyclic definition.name_edges := by
      intro hcycle
      obtain ⟨a, b, hmutual⟩ := hcyclic.mp hcycle
      exact hnone a b hmutual
    exact ⟨hacyclic, h.defined,
      (exists_sorted_iff h.distinct h.defined name_edges_snd).mpr hacyclic⟩

/-- **Acyclic workflows deploy, and no others**, exactly as far as no two assets of an accepted
    definition depend on each other. -/
theorem accepted_orderable_iff :
    (validate_workflow_definition parsers definition = .ok () → definition.Orderable) ↔
      (definition.Accepted parsers → ∀ a b, ¬ definition.MutuallyDependent a b) := by
  rw [validate_workflow_definition_eq_ok_iff]
  constructor
  · intro h haccepted
    exact haccepted.orderable_iff.mp (h haccepted)
  · intro h haccepted
    exact haccepted.orderable_iff.mpr (h haccepted)

end order

/-- Two tables, each of which is to be computed from the other. -/
def chicken_and_egg : WorkflowDefinition where
  name := "chicken_and_egg"
  description := none
  owner := none
  tags := []
  schedule := none
  assets :=
    [{ name := "chickens", asset_type := "table", description := none, owner := none, tags := []
       dependencies := [⟨"eggs", "data"⟩], partition := none, compute_fn_module := none
       compute_fn_function := none },
     { name := "eggs", asset_type := "table", description := none, owner := none, tags := []
       dependencies := [⟨"chickens", "data"⟩], partition := none, compute_fn_module := none
       compute_fn_function := none }]

/-- It is accepted. -/
theorem cycle_is_accepted :
    ¬ ∀ (parsers : ScheduleParsers) (definition : WorkflowDefinition),
      validate_workflow_definition parsers definition = .ok () → definition.Orderable := by
  intro hall
  have haccepted : validate_workflow_definition ⟨fun _ => true, fun _ => true⟩ chicken_and_egg =
      .ok () := by decide
  have horder := hall _ _ haccepted
  apply horder.acyclic
  have hforth : Edge chicken_and_egg.name_edges "eggs" "chickens" := by
    unfold Edge
    decide
  have hback : Edge chicken_and_egg.name_edges "chickens" "eggs" := by
    unfold Edge
    decide
  exact ⟨"eggs", (Relation.TransGen.single hforth).tail hback⟩

end Servo
