import Servo.Worker.Checks
import Servo.Worker.WorkflowExecutor

/-! # Which Checks Block

    The worker halts if a blocking check has failed. By the rules of the core,
    of the storage and of the Python SDK the same results block only if such a
    check has the severity `error`. All four leave alone a check that could
    not be evaluated. So they agree exactly if no blocking check fails or one
    of those that fail has the severity `error`.
-/

namespace Servo.Checks

open CheckValidator Quality

variable {F : Type}

/-! ### The four rules -/

/-- A row as a `CheckResult`. -/
def CheckResultModel.to_core (row : CheckResultModel F) : Option CheckResult := do
  let outcome ← CheckOutcome.of_text row.outcome
  let severity ← CheckSeverity.of_text row.severity
  return ⟨row.check_id, outcome, severity, row.blocking⟩

/-- `execute_workflow` halts. -/
def worker_halts (results : List (CheckResultModel F)) : Bool := (halts_on results).isSome

/-- `CheckExecutionSummary` of the results has blocking failures. -/
def core_blocks (results : List (CheckResultModel F)) : Bool :=
  has_blocking_failures (results.filterMap CheckResultModel.to_core)

/-- There are blocking failures among the stored results. -/
def storage_blocks (execution_id : Uuid) (tenant_id : TenantId)
    (results : List (CheckResultModel F)) : Bool :=
  !(get_blocking_check_failures results execution_id tenant_id).isEmpty

/-- `validate` of the Python SDK finds a result with `should_block`. -/
def python_blocks (results : List (CheckResultModel F)) : Bool :=
  (results.filterMap CheckResultModel.to_core).any fun result =>
    PythonCheckResult.should_block result.blocking result.outcome result.severity

/-- The four rules agree on the results of a run of the checks; and all of them leave alone a
    result of a check that could not be evaluated. -/
structure DecisionsAgree (execution_id : Uuid) (tenant_id : TenantId)
    (results : List (CheckResultModel F)) : Prop where
  halts : worker_halts results = true ↔ core_blocks results = true ∧
    storage_blocks execution_id tenant_id results = true ∧ python_blocks results = true
  skipped : ∀ result ∈ results, result.outcome = "skipped" → worker_halts [result] = false ∧
    core_blocks [result] = false ∧ storage_blocks execution_id tenant_id [result] = false ∧
    python_blocks [result] = false

section rules
variable {results : List (CheckResultModel F)}

/-- A row as `execute_workflow` reads it. -/
def CheckResultModel.as_read (get_check_name : Uuid → String) (row : CheckResultModel F) :
    Servo.Worker.CheckResultModel where
  check_name := get_check_name row.check_id
  outcome :=
    if row.outcome = "passed" then .passed
    else if row.outcome = "failed" then .failed
    else if row.outcome = "skipped" then .skipped else .error
  blocking := row.blocking
  error_message := row.error_message

/-- The blocking failure in a run of `execute_workflow` is the result on which it halts. -/
theorem blocking_failure_as_read (asset_id : Uuid) (get_check_name : Uuid → String) :
    Servo.Worker.blocking_failure asset_id (results.map (·.as_read get_check_name)) =
      (halts_on results).map fun row =>
        Servo.Worker.blocking_check_failure asset_id (row.error_message.getD "Check failed") := by
  unfold Servo.Worker.blocking_failure halts_on
  have hread : ∀ row : CheckResultModel F,
      ((row.as_read get_check_name).blocking &&
        (row.as_read get_check_name).outcome = .failed) =
        (row.blocking && row.outcome = "failed") := by
    intro row
    unfold CheckResultModel.as_read
    by_cases hfailed : row.outcome = "failed"
    · simp [hfailed]
    · by_cases hpassed : row.outcome = "passed"
      · simp [hpassed]
      · by_cases hskipped : row.outcome = "skipped" <;> simp [hfailed, hpassed, hskipped]
  rw [List.find?_map, Option.map_map]
  congr 1
  exact congrArg (results.find? ·) (funext hread)

theorem worker_halts_iff : worker_halts results = true ↔
    ∃ row ∈ results, row.blocking = true ∧ row.outcome = "failed" := by
  unfold worker_halts halts_on
  simp [List.find?_isSome]

/-- A row blocks by the rule of the storage. -/
def Blocks (row : CheckResultModel F) : Prop :=
  row.blocking = true ∧ (row.outcome = "failed" ∨ row.outcome = "error") ∧ row.severity = "error"

theorem severity_of_text_error_iff {text : String} :
    CheckSeverity.of_text text = some .Error ↔ text = "error" := by
  constructor
  · intro h
    unfold CheckSeverity.of_text at h
    split at h
    · cases h
    split at h
    · cases h
    split at h
    · next heq => exact heq
    · cases h
  · rintro rfl
    rfl

theorem outcome_of_text_failure {text : String} {outcome : CheckOutcome}
    (h : CheckOutcome.of_text text = some outcome) :
    outcome.is_failure = true ↔ text = "failed" ∨ text = "error" := by
  unfold CheckOutcome.of_text at h
  split at h
  · next heq =>
    cases h
    subst heq
    decide
  split at h
  · next heq =>
    cases h
    subst heq
    decide
  split at h
  · next heq =>
    cases h
    subst heq
    decide
  split at h
  · next heq =>
    cases h
    subst heq
    decide
  · cases h

/-- A row blocks by the rule of the core exactly if it does by that of the storage. -/
theorem should_block_iff (row : CheckResultModel F) :
    (∃ result, row.to_core = some result ∧ result.should_block = true) ↔ Blocks row := by
  unfold CheckResultModel.to_core
  constructor
  · intro ⟨result, hcore, hblock⟩
    obtain ⟨outcome, houtcome, hcore⟩ := Option.bind_eq_some_iff.mp hcore
    obtain ⟨severity, hseverity, hcore⟩ := Option.bind_eq_some_iff.mp hcore
    cases hcore
    simp only [CheckResult.should_block, Bool.and_eq_true] at hblock
    obtain ⟨⟨hblocking, hfailure⟩, hcan⟩ := hblock
    refine ⟨hblocking, (outcome_of_text_failure houtcome).mp hfailure, ?_⟩
    cases severity with
    | Error => exact severity_of_text_error_iff.mp hseverity
    | Info => cases hcan
    | Warning => cases hcan
  · intro ⟨hblocking, houtcome, hseverity⟩
    rcases houtcome with houtcome | houtcome
    · rw [houtcome, hseverity, hblocking]
      exact ⟨_, rfl, rfl⟩
    · rw [houtcome, hseverity, hblocking]
      exact ⟨_, rfl, rfl⟩

theorem core_blocks_iff : core_blocks results = true ↔ ∃ row ∈ results, Blocks row := by
  unfold core_blocks
  rw [has_blocking_failures_iff]
  constructor
  · intro ⟨result, hmem, hblock⟩
    obtain ⟨row, hrow, hcore⟩ := List.mem_filterMap.mp hmem
    exact ⟨row, hrow, (should_block_iff row).mp ⟨result, hcore, hblock⟩⟩
  · intro ⟨row, hrow, hblocks⟩
    obtain ⟨result, hcore, hblock⟩ := (should_block_iff row).mpr hblocks
    exact ⟨result, List.mem_filterMap.mpr ⟨row, hrow, hcore⟩, hblock⟩

/-- The rule of the Python SDK is that of the core. -/
theorem python_blocks_eq : python_blocks results = core_blocks results := by
  rw [Bool.eq_iff_iff, core_blocks, has_blocking_failures_iff, python_blocks, List.any_eq_true]
  simp only [python_should_block_eq]

/-- The storage is asked about results that it shows. -/
theorem storage_blocks_iff {execution_id : Uuid} {tenant_id : TenantId}
    (hshown : ∀ row ∈ results, row.execution_id = execution_id ∧ row.tenant_id = some tenant_id) :
    storage_blocks execution_id tenant_id results = true ↔ ∃ row ∈ results, Blocks row := by
  unfold storage_blocks get_blocking_check_failures
  rw [Bool.not_eq_true', List.isEmpty_eq_false_iff_exists_mem]
  simp only [List.mem_insertionSort, List.mem_filter, Bool.and_eq_true, Bool.or_eq_true,
    decide_eq_true_eq]
  refine exists_congr fun row => and_congr_right fun hrow => ?_
  obtain ⟨hexecution, htenant⟩ := hshown row hrow
  unfold Blocks
  simp [hexecution, htenant, visible_to, and_assoc]

end rules

/-! ### The results of a run -/

section run
variable [F64 F] {worker : Worker F} {asset_data : AssetOutput F} {db : Metadata}
  {asset_id execution_id : Uuid} {tenant_id : TenantId} {stamp : AssetCheckModel → Stamp}
  {fault : Option StorageError} {stored stored' results : List (CheckResultModel F)}

/-- The check has been evaluated, and the data fail it. -/
def Fails (worker : Worker F) (asset_data : AssetOutput F) (check : AssetCheckModel) : Prop :=
  ∃ result, validate_check worker.libraries asset_data (worker.value_of check.check_type) =
      some result ∧
    ¬ (result.error_message.isSome = true ∧ result.failed_count = none) ∧ result.passed = false

omit [F64 F] in
theorem outcome_str_outcome_of (result : ValidationResult F) : (outcome_of result).outcome_str =
    if result.error_message.isSome && result.failed_count.isNone then "skipped"
    else if result.passed then "passed" else "failed" := by
  unfold outcome_of
  split
  · rfl
  · split <;> rfl

omit [F64 F] in
/-- The text of an outcome. -/
theorem outcome_str_of (result : ValidationResult F) :
    ((outcome_of result).outcome_str = "failed" ↔
      ¬ (result.error_message.isSome = true ∧ result.failed_count = none) ∧
        result.passed = false) ∧
      (outcome_of result).outcome_str ≠ "error" := by
  rw [outcome_str_outcome_of]
  by_cases hskipped : result.error_message.isSome = true ∧ result.failed_count = none
  · simp [hskipped]
  · have hnot : ¬ (result.error_message.isSome && result.failed_count.isNone) = true := by
      simpa using hskipped
    rw [if_neg hnot]
    cases hpassed : result.passed
    · simp [hskipped]
    · simp

/-- The row of a check has its severity and blocking flag, and says whether it fails. -/
theorem check_result_row {check : AssetCheckModel} {row : CheckResultModel F}
    (h : check_result worker asset_data execution_id asset_id tenant_id stamp check = some row) :
    row.execution_id = execution_id ∧ row.tenant_id = some tenant_id ∧
      row.severity = check.severity ∧ row.blocking = check.blocking ∧
      (row.outcome = "failed" ↔ Fails worker asset_data check) ∧ row.outcome ≠ "error" := by
  obtain ⟨outcome, houtcome, rfl⟩ := Option.map_eq_some_iff.mp h
  obtain ⟨result, hresult, rfl⟩ := Option.map_eq_some_iff.mp houtcome
  obtain ⟨hfailed, herror⟩ := outcome_str_of result
  refine ⟨rfl, rfl, rfl, rfl, ?_, herror⟩
  rw [hfailed]
  constructor
  · intro ⟨hevaluated, hpassed⟩
    exact ⟨result, hresult, hevaluated, hpassed⟩
  · intro ⟨result', hresult', hfails⟩
    obtain rfl : result = result' := Option.some.inj (hresult.symm.trans hresult')
    exact hfails

/-- What the checks return are the results of the enabled checks of the asset. -/
theorem results_of_run
    (h : run_asset_checks worker asset_data db asset_id execution_id tenant_id stamp fault stored =
      some (.ok (results, stored'))) :
    List.Forall₂ (fun check row => check_result worker asset_data execution_id asset_id tenant_id
      stamp check = some row) (db.list_asset_checks tenant_id asset_id true) results := by
  obtain ⟨results', hresults, h⟩ := Option.map_eq_some_iff.mp h
  have heq : results' = results := by
    split at h
    · next hnil =>
      cases h
      exact hnil
    · obtain ⟨stored'', -, heq⟩ := Fallible.map_eq_ok_iff.mp h
      cases heq
      rfl
  exact heq ▸ Fallible.forall₂_of_mapM hresults

variable {checks : List AssetCheckModel}

/-- What holds of some row in terms of its check. -/
theorem exists_row_iff
    (h : List.Forall₂ (fun check row => check_result worker asset_data execution_id asset_id
      tenant_id stamp check = some row) checks results)
    {P : CheckResultModel F → Prop} {Q : AssetCheckModel → Prop}
    (hiff : ∀ check row, check_result worker asset_data execution_id asset_id tenant_id stamp
      check = some row → (P row ↔ Q check)) :
    (∃ row ∈ results, P row) ↔ ∃ check ∈ checks, Q check := by
  induction h with
  | nil => simp
  | cons hrow _ ih =>
    simp only [List.exists_mem_cons_iff, ih, hiff _ _ hrow]

/-- The worker halts on a blocking check that fails. -/
theorem worker_halts_run_iff
    (h : List.Forall₂ (fun check row => check_result worker asset_data execution_id asset_id
      tenant_id stamp check = some row) checks results) :
    worker_halts results = true ↔
      ∃ check ∈ checks, check.blocking = true ∧ Fails worker asset_data check := by
  rw [worker_halts_iff]
  refine exists_row_iff h fun check row hrow => ?_
  obtain ⟨-, -, -, hblocking, hfailed, -⟩ := check_result_row hrow
  rw [hblocking, hfailed]

/-- The other rules block on one that also has the severity `error`. -/
theorem blocks_run_iff
    (h : List.Forall₂ (fun check row => check_result worker asset_data execution_id asset_id
      tenant_id stamp check = some row) checks results) :
    (∃ row ∈ results, Blocks row) ↔ ∃ check ∈ checks, check.blocking = true ∧
      Fails worker asset_data check ∧ check.severity = "error" := by
  refine exists_row_iff h fun check row hrow => ?_
  obtain ⟨-, -, hseverity, hblocking, hfailed, herror⟩ := check_result_row hrow
  unfold Blocks
  rw [hblocking, hfailed, hseverity, or_iff_left herror]

omit [F64 F] in
/-- No rule counts a result that is skipped. -/
theorem not_counted_of_skipped {row : CheckResultModel F} (hrow : row.execution_id = execution_id ∧
    row.tenant_id = some tenant_id) (hskipped : row.outcome = "skipped") :
    worker_halts [row] = false ∧ core_blocks [row] = false ∧
      storage_blocks execution_id tenant_id [row] = false ∧ python_blocks [row] = false := by
  have hblocks : ¬ ∃ r ∈ [row], Blocks r := by
    rintro ⟨r, hr, -, houtcome, -⟩
    rw [List.mem_singleton.mp hr, hskipped] at houtcome
    revert houtcome
    decide
  have hshown : ∀ r ∈ [row], r.execution_id = execution_id ∧ r.tenant_id = some tenant_id := by
    intro r hr
    rw [List.mem_singleton.mp hr]
    exact hrow
  have hcore : core_blocks [row] = false := by
    rw [← Bool.not_eq_true, core_blocks_iff]
    exact hblocks
  refine ⟨?_, hcore, ?_, python_blocks_eq.trans hcore⟩
  · rw [← Bool.not_eq_true, worker_halts_iff]
    rintro ⟨r, hr, -, houtcome⟩
    rw [List.mem_singleton.mp hr, hskipped] at houtcome
    revert houtcome
    decide
  · rw [← Bool.not_eq_true, storage_blocks_iff hshown]
    exact hblocks

/-- **The four decisions agree** exactly if no blocking check fails, or one that fails has the
    severity `error`. -/
theorem decisions_agree_iff
    (h : run_asset_checks worker asset_data db asset_id execution_id tenant_id stamp fault stored =
      some (.ok (results, stored'))) :
    DecisionsAgree execution_id tenant_id results ↔
      (∀ check ∈ db.list_asset_checks tenant_id asset_id true, check.blocking = true →
        ¬ Fails worker asset_data check) ∨
      ∃ check ∈ db.list_asset_checks tenant_id asset_id true, check.blocking = true ∧
        Fails worker asset_data check ∧ check.severity = "error" := by
  have hrows := results_of_run h
  -- storage looks at the rows of one execution and one tenant, and these are all of them
  have hshown : ∀ row ∈ results, row.execution_id = execution_id ∧
      row.tenant_id = some tenant_id := by
    have hnone := (exists_row_iff (P := fun row => ¬ (row.execution_id = execution_id ∧
      row.tenant_id = some tenant_id)) (Q := fun _ => False) hrows fun check row hrow => by
        obtain ⟨hexecution, htenant, -⟩ := check_result_row hrow
        simp [hexecution, htenant])
    intro row hrow
    by_contra hnot
    obtain ⟨-, -, hfalse⟩ := hnone.mp ⟨row, hrow, hnot⟩
    exact hfalse
  have hskipped : ∀ row ∈ results, row.outcome = "skipped" → worker_halts [row] = false ∧
      core_blocks [row] = false ∧ storage_blocks execution_id tenant_id [row] = false ∧
      python_blocks [row] = false :=
    fun row hrow => not_counted_of_skipped (hshown row hrow)
  have hhalts := worker_halts_run_iff hrows
  have hblocks := blocks_run_iff hrows
  constructor
  · rintro ⟨hagree, -⟩
    by_cases hhalt : worker_halts results = true
    · exact .inr (hblocks.mp (core_blocks_iff.mp (hagree.mp hhalt).1))
    · exact .inl fun check hcheck hblocking hfails =>
        hhalt (hhalts.mpr ⟨check, hcheck, hblocking, hfails⟩)
  · intro hcondition
    refine ⟨?_, hskipped⟩
    -- the three other rules say the same; the worker also counts the severities beside `error`
    rw [python_blocks_eq, storage_blocks_iff hshown, core_blocks_iff, hhalts, hblocks]
    constructor
    · intro ⟨check, hcheck, hblocking, hfails⟩
      rcases hcondition with hnone | hsome
      · exact absurd hfails (hnone check hcheck hblocking)
      · exact ⟨hsome, hsome, hsome⟩
    · rintro ⟨⟨check, hcheck, hblocking, hfails, -⟩, -⟩
      exact ⟨check, hcheck, hblocking, hfails⟩

end run

/-! ### A check of the row count -/

/-- The output of an asset must not be empty. -/
def has_rows (severity : String) : AssetCheckModel where
  id := 1
  name := "has_rows"
  description := none
  asset_id := 7
  check_type := json_object [("min", "1"), ("type", json_string "row_count")]
  severity
  blocking := true
  enabled := true
  tags := []
  owner := none
  tenant_id := some "acme"
  created_at := 0
  updated_at := 0

def checked (severity : String) : Metadata :=
  { Metadata.empty with asset_checks := ⟨[has_rows severity], by simp, by simp⟩ }

theorem perm_id (l : List String) : (id l).Perm l := .refl l

/-- A worker that reads the type of this check. -/
def row_counter : Worker Int where
  libraries := ⟨fun _ => .error "unsupported", fun _ => "unknown variant", json_string,
    ⟨id, perm_id⟩⟩
  value_of _ := .object [("min", .number (.int 1)), ("type", .string "row_count")]
  redact_json value := value

def stamp_zero (_ : AssetCheckModel) : Stamp := ⟨5, 0, 0⟩

theorem empty_output_fails (severity : String) :
    Fails row_counter AssetOutput.empty (has_rows severity) :=
  ⟨_, rfl, fun h => absurd h.2 (by decide), rfl⟩

theorem error_check_halts : ∃ results stored,
    run_asset_checks row_counter AssetOutput.empty (checked "error") 7 3 "acme" stamp_zero none
      [] = some (.ok (results, stored)) ∧
    worker_halts results = true ∧ DecisionsAgree 3 "acme" results := by
  refine ⟨_, _, rfl, rfl, ?_⟩
  have hrun : run_asset_checks row_counter AssetOutput.empty (checked "error") 7 3 "acme"
      stamp_zero none [] = some (.ok (_, _)) := rfl
  refine (decisions_agree_iff hrun).mpr ?_
  exact .inr ⟨has_rows "error", by decide, rfl, empty_output_fails _, rfl⟩

theorem warning_check_halts : ∃ results stored,
    run_asset_checks row_counter AssetOutput.empty (checked "warning") 7 3 "acme" stamp_zero none
      [] = some (.ok (results, stored)) ∧
    worker_halts results = true ∧ core_blocks results = false ∧
    storage_blocks 3 "acme" results = false ∧ python_blocks results = false ∧
    ¬ DecisionsAgree 3 "acme" results := by
  refine ⟨_, _, rfl, rfl, rfl, rfl, rfl, ?_⟩
  rintro ⟨hagree, -⟩
  cases (hagree.mp rfl).1

end Servo.Checks
