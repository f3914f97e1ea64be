import Servo.Worker.PythonAssets

/-! # What Is Pasted into Python

    The programs of the two executors are fixed but for the names of the
    module, of the function and of the asset. A program is inert if its tokens
    are those of the fixed texts, with the first two as dotted names and the
    third between the quotes of its literals.

    Storage takes any texts for the three. The local executor refuses a module
    or a function with characters that do not belong to names, the worker does
    not; neither looks at the asset's name. So a name with a quote in it ends
    the literal, and what follows is a part of the program.
-/

namespace Servo.Worker

open PythonLexer

section injection

variable (unicode_identifier : String → Bool)

/-- The process runs a program with the tokens of the fixed texts. -/
def Inert (tokens : Segments (List Token)) (asset : AssetModel) (command : PythonCommand) : Prop :=
  ∃ code module function, command.args = ["-c", code] ∧
    asset.compute_fn_module = some module ∧ asset.compute_fn_function = some function ∧
    tokenize unicode_identifier code = some (tokens.tokens module function asset.name)

/-- The three texts fit into the gaps. -/
def Fits (asset : AssetModel) : Prop :=
  ∀ module ∈ asset.compute_fn_module, ∀ function ∈ asset.compute_fn_function,
    is_dotted_name unicode_identifier module = true ∧
      is_dotted_name unicode_identifier function = true ∧ is_quotable asset.name = true

variable (config : LocalExecutorConfig) (to_json : PartitionExecutionContext → Option String)
  (tenant_id : TenantId) (asset : AssetModel) (execution_id : Uuid)
  (partition_context : Option PartitionExecutionContext)

/-- Neither executor starts a process with another program. -/
def NoInjection : Prop :=
  (∀ command, execute_asset_python_inner config tenant_id asset execution_id = .ok command →
    Inert unicode_identifier local_tokens asset command) ∧
  ∀ command,
    execute_fetched to_json asset.id tenant_id partition_context asset = .ok (some command) →
      Inert unicode_identifier python_tokens asset command

/-- One of the texts has a NUL character. -/
def CarriesNul (texts : List String) : Prop := ∃ text ∈ texts, '\x00' ∈ text.toList

/-- The local executor does not accept the names, or the process cannot be given its arguments. -/
def RefusedLocally : Prop :=
  (∃ module ∈ asset.compute_fn_module,
    validate_python_identifier module "compute_fn_module" ≠ .ok ()) ∨
  (∃ function ∈ asset.compute_fn_function,
    validate_python_identifier function "compute_fn_function" ≠ .ok ()) ∨
  CarriesNul (config.python_path :: config.working_dir :: asset.name :: tenant_id ::
    config.env_vars.flatMap fun entry => [entry.1, entry.2])

/-- The worker's process cannot be given its arguments. -/
def RefusedByWorker : Prop :=
  CarriesNul (asset.name :: tenant_id :: asset.compute_fn_module.toList ++
    asset.compute_fn_function.toList ++
    (partition_envs to_json partition_context).flatMap fun entry => [entry.1, entry.2])

end injection

/-! ### Processes that are started -/

theorem carries_nul_iff {texts : List String} :
    (texts.any fun text => text.toList.contains '\x00') = true ↔ CarriesNul texts := by
  simp [CarriesNul]

theorem spawn_eq_ok_iff {command command' : PythonCommand} :
    command.spawn = .ok command' ↔ command = command' ∧ ¬ CarriesNul command.texts := by
  unfold PythonCommand.spawn
  split
  · rename_i h
    rw [carries_nul_iff] at h
    simp [h]
  · rename_i h
    rw [carries_nul_iff] at h
    simp [h]

@[simp] theorem carriesNul_nil : ¬ CarriesNul [] := by simp [CarriesNul]

@[simp] theorem carriesNul_cons {text : String} {texts : List String} :
    CarriesNul (text :: texts) ↔ '\x00' ∈ text.toList ∨ CarriesNul texts := by
  simp [CarriesNul]

@[simp] theorem carriesNul_append {texts texts' : List String} :
    CarriesNul (texts ++ texts') ↔ CarriesNul texts ∨ CarriesNul texts' := by
  simp [CarriesNul, or_and_right, exists_or]

theorem nul_notMem_uuid (u : Uuid) : '\x00' ∉ u.to_string.toList := by
  have hdigit : ∀ d, Uuid.hex_digit d ≠ '\x00' := by decide
  rw [Uuid.toList_to_string, List.mem_map]
  rintro ⟨_ | i, -, hchar⟩
  · cases hchar
  · exact hdigit _ hchar

/-- Names that pass the validation are free of NUL characters. -/
theorem nul_notMem_of_validate {identifier identifier_type : String}
    (h : validate_python_identifier identifier identifier_type = .ok ()) :
    '\x00' ∉ identifier.toList := by
  have hpattern : python_identifier_pattern identifier = true := by
    unfold validate_python_identifier at h
    split_ifs at h with hempty hlength hpattern hdots
    · simpa using hpattern
  intro hmem
  unfold python_identifier_pattern at hpattern
  split at hpattern
  · cases hpattern
  · rename_i c cs hchars
    rw [hchars] at hmem
    simp only [Bool.and_eq_true, List.all_eq_true] at hpattern
    rcases List.mem_cons.mp hmem with rfl | hmem
    · exact absurd hpattern.1 (by decide)
    · exact absurd (hpattern.2 _ hmem) (by decide)

section runs

variable {unicode_identifier : String → Bool} {config : LocalExecutorConfig}
  {to_json : PartitionExecutionContext → Option String} {tenant_id : TenantId} {asset : AssetModel}
  {execution_id : Uuid} {partition_context : Option PartitionExecutionContext}

theorem local_texts_carryNul_iff {module function : String} :
    CarriesNul (local_command config tenant_id asset execution_id module function).texts ↔
      '\x00' ∈ module.toList ∨ '\x00' ∈ function.toList ∨
        CarriesNul (config.python_path :: config.working_dir :: asset.name :: tenant_id ::
          config.env_vars.flatMap fun entry => [entry.1, entry.2]) := by
  have hfill : '\x00' ∈ (local_python_code.fill module function asset.name).toList ↔
      '\x00' ∈ module.toList ∨ '\x00' ∈ function.toList ∨ '\x00' ∈ asset.name.toList :=
    (local_reads fun _ => false).mem_fill_iff
  have hfixed : ∀ text ∈ ["-c", "SERVO_EXECUTION_ID", "SERVO_ASSET_ID", "SERVO_ASSET_NAME",
      "SERVO_TENANT_ID"], '\x00' ∉ text.toList := by decide
  simp only [List.forall_mem_cons, List.not_mem_nil, false_implies, implies_true, and_true]
    at hfixed
  obtain ⟨hflag, hexecution, hasset, hname, htenant⟩ := hfixed
  have huuid := nul_notMem_uuid
  simp only [PythonCommand.texts, local_command, List.cons_append, Option.toList_some,
    List.nil_append, List.flatMap_append, List.flatMap_cons, List.flatMap_nil, carriesNul_cons,
    carriesNul_append, carriesNul_nil, hfill, huuid, hflag, hexecution, hasset, hname, htenant,
    false_or, or_false]
  grind

theorem execute_inner_eq_ok_iff {command : PythonCommand} :
    execute_asset_python_inner config tenant_id asset execution_id = .ok command ↔
      ∃ module ∈ asset.compute_fn_module, ∃ function ∈ asset.compute_fn_function,
        validate_python_identifier module "compute_fn_module" = .ok () ∧
        validate_python_identifier function "compute_fn_function" = .ok () ∧
        command = local_command config tenant_id asset execution_id module function ∧
        ¬ CarriesNul command.texts := by
  have hcolumn : ∀ {column : Option String} {field what name : String},
      compute_fn asset column field what = .ok name ↔ column = some name := by
    intro column field what name
    cases column <;> simp [compute_fn]
  unfold execute_asset_python_inner
  constructor
  · intro h
    obtain ⟨module, hmodule, h⟩ := Fallible.bind_eq_ok_iff.mp h
    obtain ⟨function, hfunction, h⟩ := Fallible.bind_eq_ok_iff.mp h
    obtain ⟨⟨⟩, hvalid, h⟩ := Fallible.bind_eq_ok_iff.mp h
    obtain ⟨⟨⟩, hvalid', h⟩ := Fallible.bind_eq_ok_iff.mp h
    refine ⟨module, hcolumn.mp hmodule, function, hcolumn.mp hfunction, hvalid, hvalid', ?_⟩
    -- what is left is whether the process starts
    split at h
    · rename_i child hspawn
      cases h
      obtain ⟨rfl, hnul⟩ := spawn_eq_ok_iff.mp hspawn
      exact ⟨rfl, hnul⟩
    · cases h
  · rintro ⟨module, hmodule, function, hfunction, hvalid, hvalid', rfl, hnul⟩
    rw [hcolumn.mpr hmodule, Fallible.ok_bind, hcolumn.mpr hfunction, Fallible.ok_bind, hvalid,
      Fallible.ok_bind, hvalid', Fallible.ok_bind, spawn_eq_ok_iff.mpr ⟨rfl, hnul⟩]
    rfl

theorem worker_texts_carryNul_iff {module function : String} :
    CarriesNul (python_command to_json asset.id tenant_id partition_context asset.name module
      function).texts ↔
      '\x00' ∈ module.toList ∨ '\x00' ∈ function.toList ∨
        CarriesNul (asset.name :: tenant_id ::
          (partition_envs to_json partition_context).flatMap fun entry => [entry.1, entry.2]) := by
  have hfill : '\x00' ∈ (python_code.fill module function asset.name).toList ↔
      '\x00' ∈ module.toList ∨ '\x00' ∈ function.toList ∨ '\x00' ∈ asset.name.toList :=
    (python_reads fun _ => false).mem_fill_iff
  have hfixed : ∀ text ∈ ["-c", "python3", "SERVO_ASSET_ID", "SERVO_ASSET_NAME",
      "SERVO_TENANT_ID"], '\x00' ∉ text.toList := by decide
  simp only [List.forall_mem_cons, List.not_mem_nil, false_implies, implies_true, and_true]
    at hfixed
  obtain ⟨hflag, hprogram, hasset, hname, htenant⟩ := hfixed
  have huuid := nul_notMem_uuid
  simp only [PythonCommand.texts, python_command, List.cons_append, Option.toList_none,
    List.nil_append, List.flatMap_cons, carriesNul_cons, hfill, huuid, hflag, hprogram, hasset,
    hname, htenant, false_or]
  grind

theorem execute_fetched_eq_some_iff {command : PythonCommand} :
    execute_fetched to_json asset.id tenant_id partition_context asset = .ok (some command) ↔
      ∃ module ∈ asset.compute_fn_module, ∃ function ∈ asset.compute_fn_function,
        command = python_command to_json asset.id tenant_id partition_context asset.name module
          function ∧ ¬ CarriesNul command.texts := by
  have hrun : ∀ {module function : String}, execute_python_asset to_json asset.id tenant_id
      partition_context asset.name module function = .ok command ↔
        command = python_command to_json asset.id tenant_id partition_context asset.name module
          function ∧ ¬ CarriesNul command.texts := by
    intro module function
    unfold execute_python_asset
    split
    · rename_i child hspawn
      obtain ⟨rfl, hnul⟩ := spawn_eq_ok_iff.mp hspawn
      constructor
      · intro h
        cases h
        exact ⟨rfl, hnul⟩
      · rintro ⟨rfl, -⟩
        rfl
    · rename_i e hspawn
      refine ⟨fun h => (nomatch h), ?_⟩
      rintro ⟨rfl, hnul⟩
      rw [spawn_eq_ok_iff.mpr ⟨rfl, hnul⟩] at hspawn
      cases hspawn
  unfold execute_fetched
  cases hmodule : asset.compute_fn_module with
  | none => simp
  | some module =>
    cases hfunction : asset.compute_fn_function with
    | none => simp
    | some function =>
      rw [Fallible.map_eq_ok_iff]
      simp [hrun]

/-! ### When nothing is injected -/

theorem inert_iff {t : Segments String} {tokens : Segments (List Token)}
    {opened opened' : List Char}
    (hreads : PythonLexer.Reads unicode_identifier t tokens opened opened')
    {command : PythonCommand} {module function : String}
    (hargs : command.args = ["-c", t.fill module function asset.name])
    (hmodule : asset.compute_fn_module = some module)
    (hfunction : asset.compute_fn_function = some function) :
    Inert unicode_identifier tokens asset command ↔ Fits unicode_identifier asset := by
  have hfits : Fits unicode_identifier asset ↔ is_dotted_name unicode_identifier module = true ∧
      is_dotted_name unicode_identifier function = true ∧ is_quotable asset.name = true := by
    simp [Fits, hmodule, hfunction]
  rw [hfits, ← hreads.tokenize_fill_iff]
  constructor
  · intro ⟨code, module', function', hcode, hmodule', hfunction', htokens⟩
    rw [hmodule] at hmodule'
    rw [hfunction] at hfunction'
    cases hmodule'
    cases hfunction'
    rw [hargs] at hcode
    cases hcode
    exact htokens
  · intro htokens
    exact ⟨_, module, function, hargs, hmodule, hfunction, htokens⟩

section present

variable {module function : String} (hmodule : asset.compute_fn_module = some module)
  (hfunction : asset.compute_fn_function = some function)

include hmodule hfunction

/-- The local executor starts a process unless it refuses. -/
theorem starts_locally_iff :
    (∃ command, execute_asset_python_inner config tenant_id asset execution_id = .ok command) ↔
      ¬ RefusedLocally config tenant_id asset := by
  have hrefused : RefusedLocally config tenant_id asset ↔
      validate_python_identifier module "compute_fn_module" ≠ .ok () ∨
        validate_python_identifier function "compute_fn_function" ≠ .ok () ∨
        CarriesNul (config.python_path :: config.working_dir :: asset.name :: tenant_id ::
          config.env_vars.flatMap fun entry => [entry.1, entry.2]) := by
    simp [RefusedLocally, hmodule, hfunction]
  rw [hrefused, not_or, not_or, not_not, not_not]
  constructor
  · intro ⟨command, h⟩
    obtain ⟨m, hm, f, hf, hvalid, hvalid', rfl, hnul⟩ := execute_inner_eq_ok_iff.mp h
    rw [hmodule] at hm
    rw [hfunction] at hf
    cases hm
    cases hf
    rw [local_texts_carryNul_iff, not_or, not_or] at hnul
    exact ⟨hvalid, hvalid', hnul.2.2⟩
  · intro ⟨hvalid, hvalid', hnul⟩
    refine ⟨_, execute_inner_eq_ok_iff.mpr
      ⟨module, hmodule, function, hfunction, hvalid, hvalid', rfl, ?_⟩⟩
    rw [local_texts_carryNul_iff, not_or, not_or]
    exact ⟨nul_notMem_of_validate hvalid, nul_notMem_of_validate hvalid', hnul⟩

/-- And the worker does. -/
theorem starts_on_worker_iff :
    (∃ command, execute_fetched to_json asset.id tenant_id partition_context asset =
      .ok (some command)) ↔ ¬ RefusedByWorker to_json tenant_id asset partition_context := by
  have hrefused : RefusedByWorker to_json tenant_id asset partition_context ↔
      '\x00' ∈ module.toList ∨ '\x00' ∈ function.toList ∨
        CarriesNul (asset.name :: tenant_id ::
          (partition_envs to_json partition_context).flatMap fun entry => [entry.1, entry.2]) := by
    simp only [RefusedByWorker, hmodule, hfunction, Option.toList_some, List.cons_append,
      List.nil_append, carriesNul_cons]
    grind
  rw [hrefused, ← worker_texts_carryNul_iff]
  constructor
  · intro ⟨command, h⟩
    obtain ⟨m, hm, f, hf, rfl, hnul⟩ := execute_fetched_eq_some_iff.mp h
    rw [hmodule] at hm
    rw [hfunction] at hf
    cases hm
    cases hf
    exact hnul
  · intro hnul
    exact ⟨_, execute_fetched_eq_some_iff.mpr ⟨module, hmodule, function, hfunction, rfl, hnul⟩⟩

end present

theorem inert_of_local {command : PythonCommand}
    (h : execute_asset_python_inner config tenant_id asset execution_id = .ok command) :
    Inert unicode_identifier local_tokens asset command ↔ Fits unicode_identifier asset := by
  obtain ⟨module, hmodule, function, hfunction, -, -, rfl, -⟩ := execute_inner_eq_ok_iff.mp h
  exact inert_iff (local_reads unicode_identifier) rfl hmodule hfunction

theorem inert_of_worker {command : PythonCommand}
    (h : execute_fetched to_json asset.id tenant_id partition_context asset = .ok (some command)) :
    Inert unicode_identifier python_tokens asset command ↔ Fits unicode_identifier asset := by
  obtain ⟨module, hmodule, function, hfunction, rfl, -⟩ := execute_fetched_eq_some_iff.mp h
  exact inert_iff (python_reads unicode_identifier) rfl hmodule hfunction

end runs

section claims

variable (unicode_identifier : String → Bool) (config : LocalExecutorConfig)
  (to_json : PartitionExecutionContext → Option String) (tenant_id : TenantId) (asset : AssetModel)
  (execution_id : Uuid) (partition_context : Option PartitionExecutionContext)

/-- The programs are inert exactly if the texts fit into the gaps, or neither executor starts
    one. -/
theorem no_injection_iff :
    NoInjection unicode_identifier config to_json tenant_id asset execution_id partition_context ↔
      Fits unicode_identifier asset ∨
        RefusedLocally config tenant_id asset ∧
          RefusedByWorker to_json tenant_id asset partition_context := by
  by_cases hfits : Fits unicode_identifier asset
  · refine iff_of_true ⟨fun command h => ?_, fun command h => ?_⟩ (.inl hfits)
    · exact (inert_of_local h).mpr hfits
    · exact (inert_of_worker h).mpr hfits
  · -- there are names, since nothing else has to fit
    obtain ⟨module, hmodule, function, hfunction⟩ : ∃ module,
        asset.compute_fn_module = some module ∧
          ∃ function, asset.compute_fn_function = some function := by
      unfold Fits at hfits
      push Not at hfits
      obtain ⟨module, hmodule, function, hfunction, -⟩ := hfits
      exact ⟨module, hmodule, function, hfunction⟩
    have hlocal : (∀ command,
        execute_asset_python_inner config tenant_id asset execution_id = .ok command →
          Inert unicode_identifier local_tokens asset command) ↔
        ¬ ∃ command,
          execute_asset_python_inner config tenant_id asset execution_id = .ok command := by
      constructor
      · intro h ⟨command, hstart⟩
        exact hfits ((inert_of_local hstart).mp (h command hstart))
      · intro h command hstart
        exact absurd ⟨command, hstart⟩ h
    have hworker : (∀ command,
        execute_fetched to_json asset.id tenant_id partition_context asset = .ok (some command) →
          Inert unicode_identifier python_tokens asset command) ↔
        ¬ ∃ command, execute_fetched to_json asset.id tenant_id partition_context asset =
          .ok (some command) := by
      constructor
      · intro h ⟨command, hstart⟩
        exact hfits ((inert_of_worker hstart).mp (h command hstart))
      · intro h command hstart
        exact absurd ⟨command, hstart⟩ h
    rw [NoInjection, hlocal, hworker, starts_locally_iff hmodule hfunction,
      starts_on_worker_iff hmodule hfunction, not_not, not_not, or_iff_right hfits]

end claims

/-- An asset with an expression in its name. The quotes end the literals around it. -/
def expression_asset : AssetModel :=
  ⟨1, "\" + __import__(\"os\").getcwd() + \"", none, "table", none, [], none, some "jobs",
    some "run", some "acme", 0, 0⟩

set_option maxRecDepth 4000 in
/-- Storage takes the asset, and the local executor runs the expression. -/
theorem asset_name_is_executed :
    expression_asset.new_row "acme" = .ok expression_asset ∧
      ¬ NoInjection (fun _ => false) ⟨"python3", ".", []⟩ (fun _ => none) "acme" expression_asset 2
        none ∧
      ((tokenize (fun _ => false) (local_python_code.fill "jobs" "run" expression_asset.name)).any
        (·.contains (.NAME "__import__"))) = true := by
  refine ⟨by decide +kernel, fun h => ?_, ?_⟩
  · -- the process starts, but the name has quotes
    have hnul : ¬ CarriesNul (local_command ⟨"python3", ".", []⟩ "acme" expression_asset 2 "jobs"
        "run").texts := by
      rw [local_texts_carryNul_iff, ← carries_nul_iff]
      decide +kernel
    have hstart : execute_asset_python_inner ⟨"python3", ".", []⟩ "acme" expression_asset 2 =
        .ok (local_command ⟨"python3", ".", []⟩ "acme" expression_asset 2 "jobs" "run") :=
      execute_inner_eq_ok_iff.mpr
        ⟨"jobs", rfl, "run", rfl, by decide +kernel, by decide +kernel, rfl, hnul⟩
    have hfits := (inert_of_local hstart).mp (h.1 _ hstart)
    have hquotable := (hfits "jobs" rfl "run" rfl).2.2
    revert hquotable
    decide +kernel
  · -- the program is read up to the name, and from there on character by character
    have hreads := local_reads fun _ => false
    have hassignment : local_python_code.assignment.toList = _ := toList_literal _ rfl
    have hcall : local_python_code.call.toList = _ := toList_literal _ rfl
    have hsuccess : local_python_code.success.toList = _ :=
      toList_append_of (toList_append_of (toList_literal _ rfl) (toList_literal _ rfl))
        (toList_literal _ rfl)
    have hfailure : local_python_code.failure.toList = _ :=
      toList_append_of (toList_literal _ rfl) (toList_literal _ rfl)
    rw [tokenize, hreads.lines_fill (by decide) (by decide), run_append_of_run hreads.head,
      hassignment, hcall, hsuccess, hfailure]
    decide +kernel

end Servo.Worker
