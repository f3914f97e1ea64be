import Servo.Core.StrMethods
import Servo.Core.Value
import Servo.Framework.Encoding
import Servo.Framework.LoggedCalls
import Servo.Framework.Text
import Servo.Framework.Utf8
import Servo.Runtime.ChildOutput
import Servo.Runtime.Orchestrator
import Servo.Runtime.PythonCommand
import Servo.Storage.MetadataChanges
import Servo.Worker.CodeInjection

/-! # The Outcome of a Local Run

    `execute_with_idempotency` as one program: the execution is created, its
    assets run one after the other, each in a child process, and what comes of
    it is written to the row. The message of an asset that has failed ends with
    the last 500 bytes of what its child has written.

    Where the cut is not between two characters, slicing panics: nothing more
    is written, and the row is left in `running`. This is the only way in which
    a run is not recorded.
-/

namespace Servo.LocalOutcome

open Encoding (Bytes)
open Procedure

/-! ### The program -/

/-- Why a computation does not return a value. -/
inductive Stop where
  | error (e : RuntimeError)
  | panicked
  deriving DecidableEq

/-- How a child process ends. Without an exit code, a signal has ended it. -/
inductive ChildOutcome where
  | not_spawned (error : String)
  | exited (code : Option Int) (stdout stderr : Bytes)
  | io_error (error : String)
  | timed_out
  deriving DecidableEq

/-- What a run depends on beside the database and Python. -/
structure Setting where
  tenant_id : TenantId
  /-- Has the execution been cancelled when the run looks for the `n`-th time? -/
  cancelled : Nat → Bool
  /-- The storage calls that fail though nothing is wrong with them. -/
  faults : Nat → Option (Fault StorageError)
  /-- The clock when the execution is made up, and twice for each change of its row. -/
  created_at : DateTime
  now : Nat → DateTime × DateTime

/-- `LocalExecutor`. -/
structure Executor (F : Type) extends Setting where
  config : LocalExecutorConfig
  timeout_seconds : Nat
  child : PythonCommand → ChildOutcome
  /-- `serde_json::from_str`. -/
  from_str : String → Option (Value F)

abbrev World : Type := Logged Metadata StorageError

abbrev Program : Type → Type := Procedure World Stop

/-- `truncate_end`. -/
def truncate_end (s : String) (max_len : Nat) : Except Stop String :=
  if s.utf8ByteSize ≤ max_len then .ok s
  else
    match slice (s.utf8ByteSize - max_len) s.utf8ByteSize s with
    | some last => .ok ("..." ++ last)
    | none => .error .panicked

/-- `String::from_utf8_lossy`, of what has been read of a stream. -/
def read_lossy (written : Bytes) : String :=
  String.ofList (Utf8.lossy (written.take ChildOutput.MAX_OUTPUT_SIZE))

def local_error : LocalRunError → RuntimeError
  | .Execution m => .Execution m
  | .NotFound m => .NotFound m
  | .Timeout m => .Timeout m

def internal (context : String) (e : StorageError) : Stop :=
  .error (.Internal (context ++ ": " ++ e.to_string))

namespace Executor

variable {F : Type} (executor : Executor F)

/-- The error message in what the child has written to stderr. -/
def error_msg (stderr : String) : String :=
  match executor.from_str stderr with
  | some (.object members) =>
    match members.lookup "error" with
    | some (.string text) => text
    | _ => stderr
  | _ => stderr

/-- The error of an asset whose child has exited with another status than zero. -/
def failure (asset : AssetModel) (code : Option Int) (stdout stderr : String) :
    Except Stop Unit := do
  let last_stdout ← truncate_end stdout 500
  let last_stderr ← truncate_end stderr 500
  throw (.error (.Execution ("Asset '" ++ asset.name ++ "' failed (exit code " ++
    toString (code.getD (-1)) ++ "):\n" ++ executor.error_msg stderr ++
    "\n\nStdout (last 500 chars):\n" ++ last_stdout ++
    "\n\nStderr (last 500 chars):\n" ++ last_stderr)))

/-- `execute_asset_python`. -/
def execute_asset_python (execution_id : Uuid) (asset : AssetModel) : Except Stop Unit :=
  match execute_asset_python_inner executor.config executor.tenant_id asset execution_id with
  | .error e => .error (.error (local_error e))
  | .ok command =>
    match executor.child command with
    | .not_spawned e => .error (.error (.Execution ("Failed to spawn Python process for asset '" ++
        asset.name ++ "': " ++ e ++ "\nVerify that '" ++ executor.config.python_path ++
        "' is installed and accessible.")))
    | .exited code stdout stderr =>
      if code = some 0 then .ok ()
      else executor.failure asset code (read_lossy stdout) (read_lossy stderr)
    | .io_error e => .error (.error (.Execution ("I/O error during asset '" ++ asset.name ++
        "' execution: " ++ e)))
    | .timed_out => .error (.error (.Timeout ("Asset '" ++ asset.name ++ "' timed out after " ++
        toString executor.timeout_seconds ++ " seconds.\n\nThis usually means:\n" ++
        "1. The Python function is hanging (check for infinite loops)\n" ++
        "2. The function is processing too much data\n" ++
        "3. The timeout is too aggressive (current: " ++ toString executor.timeout_seconds ++
        "s)\n\nConsider increasing timeout_seconds in LocalExecutorConfig.")))

end Executor

namespace Setting

variable (setting : Setting)

def check_cancelled (n : Nat) : Except Stop Unit :=
  if setting.cancelled n then .error (.error (.Execution "Execution was cancelled")) else .ok ()

def storage {α : Type} (op : Metadata → Except StorageError (α × Metadata)) :
    Procedure World StorageError α :=
  logged setting.faults (atomic op)

/-- The row as `update_execution_state` writes it back. -/
def updated (state : String) (error_message : Option String) (now : DateTime × DateTime)
    (execution : ExecutionModel) : ExecutionModel :=
  { execution with
    updated_at := now.1
    started_at := if state = "running" then some now.2 else execution.started_at
    completed_at :=
      if state = "succeeded" ∨ state = "failed" ∨ state = "cancelled" then some now.2
      else execution.completed_at
    error_message := error_message.or execution.error_message }

def get_execution (execution_id : Uuid) : Program ExecutionModel :=
  map_error (internal "Failed to get execution")
    (setting.storage fun db =>
      (db.get_execution setting.tenant_id execution_id).map fun execution => (execution, db))

def update_execution_state (execution_id : Uuid) (state : String) (error_message : Option String)
    (now : DateTime × DateTime) : Program Unit := do
  let execution ← setting.get_execution execution_id
  map_error (internal "Failed to update execution")
    (setting.storage fun db =>
      (db.update_execution setting.tenant_id state
        (updated state error_message now execution)).map fun db => ((), db))

/-- Update final state based on result. A panic unwinds without doing so. -/
def record (execution_id : Uuid) : Except Stop ExecutionResult → Program Unit
  | .ok _ => setting.update_execution_state execution_id "succeeded" none (setting.now 1)
  | .error (.error e) =>
    setting.update_execution_state execution_id "failed" (some e.to_string) (setting.now 1)
  | .error .panicked => fail .panicked

/-- The row of a new execution; its state is passed beside it. -/
def new_execution (workflow_id execution_id : Uuid) (idempotency_key : Option String) :
    ExecutionModel where
  id := execution_id
  workflow_id := workflow_id
  state := .pending
  tenant_id := some setting.tenant_id
  idempotency_key := idempotency_key
  started_at := none
  completed_at := none
  error_message := none
  created_at := setting.created_at
  updated_at := setting.created_at

/-- Return existing execution. -/
def return_existing (execution_id : Uuid) : Program ExecutionResult := do
  let existing ← setting.get_execution execution_id
  return ⟨execution_id, existing.state = .succeeded, existing.error_message⟩

/-- What follows when the workflow has run. -/
def finish (execution_id : Uuid) (result : Except Stop ExecutionResult) :
    Program ExecutionResult := do
  setting.record execution_id result
  lift result

section run

-- The subprocess of an asset
variable (execute_asset_python : Uuid → AssetModel → Except Stop Unit)

/-- The loop over the assets, from the one with this index. -/
def execute_assets (execution_id : Uuid) (index : Nat) : List AssetModel → Except Stop Unit
  | [] => .ok ()
  | asset :: assets => do
    setting.check_cancelled (index + 1)
    execute_asset_python execution_id asset
    execute_assets execution_id (index + 1) assets

/-- What follows when the assets have been read. -/
def run_assets (execution_id : Uuid) (assets : List AssetModel) : Program ExecutionResult := do
  lift (setting.execute_assets execute_asset_python execution_id 0 assets)
  return ⟨execution_id, true, none⟩

/-- What follows when the workflow has been found. -/
def run_found (workflow_id execution_id : Uuid) : Program ExecutionResult := do
  let assets ← map_error (internal "Failed to get workflow assets")
    (setting.storage fun db => .ok (db.get_workflow_assets setting.tenant_id workflow_id, db))
  setting.run_assets execute_asset_python execution_id assets

def run_workflow_locally (workflow_id execution_id : Uuid) : Program ExecutionResult := do
  lift (setting.check_cancelled 0)
  let _ ← map_error (fun e => .error (.NotFound ("Workflow not found: " ++ e.to_string)))
    (setting.storage fun db =>
      (db.get_workflow setting.tenant_id workflow_id).map fun workflow => (workflow, db))
  setting.run_found execute_asset_python workflow_id execution_id

/-- What follows when a new execution is there. -/
def run_created (workflow_id execution_id : Uuid) : Program ExecutionResult := do
  setting.update_execution_state execution_id "running" none (setting.now 0)
  let result ← attempt (setting.run_workflow_locally execute_asset_python workflow_id execution_id)
  setting.finish execution_id result

/-- `execute_with_idempotency`, with the id that it makes up. -/
def execute_with_idempotency (workflow_id : Uuid) (idempotency_key : Option String)
    (execution_id : Uuid) : Program ExecutionResult := do
  let created ← map_error (internal "Failed to create execution")
    (setting.storage fun db =>
      (db.create_execution_or_get_existing setting.tenant_id "pending"
        (setting.new_execution workflow_id execution_id idempotency_key)).map
          fun created => (created.2, created.1))
  if created.2 then setting.run_created execute_asset_python workflow_id created.1
  else setting.return_existing created.1

end run

end Setting

def Executor.execute_with_idempotency {F : Type} (executor : Executor F) :
    Uuid → Option String → Uuid → Program ExecutionResult :=
  executor.toSetting.execute_with_idempotency executor.execute_asset_python

/-! ### What the children do -/

section assets
variable {F : Type} (executor : Executor F) (execution_id : Uuid)

/-- The child of the asset is started, and its exit status is zero. -/
def Succeeds (asset : AssetModel) : Prop :=
  ∃ command stdout stderr,
    execute_asset_python_inner executor.config executor.tenant_id asset execution_id =
      .ok command ∧ executor.child command = .exited (some 0) stdout stderr

/-- A text whose last 500 bytes begin between two characters. -/
def Cuttable (text : String) : Prop :=
  text.utf8ByteSize ≤ 500 ∨ is_char_boundary (text.utf8ByteSize - 500) text = true

/-- If the child of the asset exits with another status than zero, what it has written can be
    cut. -/
def FailsCuttably (asset : AssetModel) : Prop :=
  ∀ command code stdout stderr,
    execute_asset_python_inner executor.config executor.tenant_id asset execution_id =
      .ok command → executor.child command = .exited code stdout stderr → code ≠ some 0 →
        Cuttable (read_lossy stdout) ∧ Cuttable (read_lossy stderr)

/-- An asset that is reached fails cuttably. -/
def AllCuttable (assets : List AssetModel) : Prop :=
  ∀ before asset after, assets = before ++ asset :: after →
    (∀ earlier ∈ before, Succeeds executor execution_id earlier) →
      FailsCuttably executor execution_id asset

/-- `truncate_end` panics exactly where the text cannot be cut. -/
theorem truncate_end_cases (s : String) :
    (Cuttable s ∧ ∃ last, truncate_end s 500 = .ok last) ∨
      ¬ Cuttable s ∧ truncate_end s 500 = .error .panicked := by
  unfold truncate_end Cuttable
  by_cases hsize : s.utf8ByteSize ≤ 500
  · rw [if_pos hsize]
    exact .inl ⟨.inl hsize, s, rfl⟩
  · rw [if_neg hsize, slice_size rfl, is_char_boundary]
    cases split_at (s.utf8ByteSize - 500) s.toList with
    | none =>
      right
      constructor
      · intro hcut
        rcases hcut with hle | hsome
        · exact hsize hle
        · cases hsome
      · rfl
    | some parts => exact .inl ⟨.inr rfl, _, rfl⟩

/-- The message of a failed asset panics exactly where one of the two texts cannot be cut. -/
theorem failure_cases (asset : AssetModel) (code : Option Int) (stdout stderr : String) :
    ((Cuttable stdout ∧ Cuttable stderr) ∧
        ∃ e, executor.failure asset code stdout stderr = .error (.error e)) ∨
      ¬ (Cuttable stdout ∧ Cuttable stderr) ∧
        executor.failure asset code stdout stderr = .error .panicked := by
  unfold Executor.failure
  obtain ⟨hstdout, last_stdout, hlast⟩ | ⟨hstdout, hlast⟩ := truncate_end_cases stdout
  · rw [hlast]
    obtain ⟨hstderr, last_stderr, hlast'⟩ | ⟨hstderr, hlast'⟩ := truncate_end_cases stderr
    · rw [hlast']
      exact .inl ⟨⟨hstdout, hstderr⟩, _, rfl⟩
    · rw [hlast']
      exact .inr ⟨fun hboth => hstderr hboth.2, rfl⟩
  · rw [hlast]
    exact .inr ⟨fun hboth => hstdout hboth.1, rfl⟩

/-- An asset whose child has exited. -/
theorem execute_asset_python_of_exited {asset : AssetModel} {command : PythonCommand}
    {code : Option Int} {stdout stderr : Bytes}
    (hcommand : execute_asset_python_inner executor.config executor.tenant_id asset
      execution_id = .ok command) (hchild : executor.child command = .exited code stdout stderr) :
    executor.execute_asset_python execution_id asset =
      if code = some 0 then .ok ()
      else executor.failure asset code (read_lossy stdout) (read_lossy stderr) := by
  unfold Executor.execute_asset_python
  simp only [hcommand, hchild]

/-- What comes of one asset. -/
inductive AssetOutcome (asset : AssetModel) : Except Stop Unit → Prop where
  | succeeded (h : Succeeds executor execution_id asset) : AssetOutcome asset (.ok ())
  | failed {e : RuntimeError} (h : ¬ Succeeds executor execution_id asset)
      (hcut : FailsCuttably executor execution_id asset) : AssetOutcome asset (.error (.error e))
  | panicked (h : ¬ Succeeds executor execution_id asset)
      (hcut : ¬ FailsCuttably executor execution_id asset) : AssetOutcome asset (.error .panicked)

/-- Without an exit status there is nothing to cut. -/
theorem failed_of_not_exited {asset : AssetModel} {e : RuntimeError}
    (h : ∀ command code stdout stderr,
      execute_asset_python_inner executor.config executor.tenant_id asset execution_id =
        .ok command → executor.child command ≠ .exited code stdout stderr) :
    AssetOutcome executor execution_id asset (.error (.error e)) := by
  apply AssetOutcome.failed
  · intro hsucceeds
    obtain ⟨command, stdout, stderr, hcommand, hchild⟩ := hsucceeds
    exact h command _ _ _ hcommand hchild
  · intro command code stdout stderr hcommand hchild
    exact absurd hchild (h command code stdout stderr hcommand)

theorem execute_asset_python_spec (asset : AssetModel) :
    AssetOutcome executor execution_id asset
      (executor.execute_asset_python execution_id asset) := by
  unfold Executor.execute_asset_python
  cases hinner : execute_asset_python_inner executor.config executor.tenant_id asset
      execution_id with
  | error e =>
    apply failed_of_not_exited
    intro command code stdout stderr hcommand
    rw [hinner] at hcommand
    cases hcommand
  | ok command =>
    have hsame : ∀ command', execute_asset_python_inner executor.config executor.tenant_id asset
        execution_id = .ok command' → command' = command := by
      intro command' hcommand
      rw [hinner] at hcommand
      cases hcommand
      rfl
    cases hchild : executor.child command with
    | not_spawned e | io_error e | timed_out =>
      simp only [hchild]
      apply failed_of_not_exited
      intro command' code stdout stderr hcommand hexited
      rw [hsame command' hcommand, hchild] at hexited
      cases hexited
    | exited code stdout stderr =>
      by_cases hcode : code = some 0
      · subst hcode
        simp only [hchild, if_true]
        exact .succeeded ⟨command, stdout, stderr, hinner, hchild⟩
      · have hnot : ¬ Succeeds executor execution_id asset := by
          intro hsucceeds
          obtain ⟨command', stdout', stderr', hcommand, hexited⟩ := hsucceeds
          rw [hsame command' hcommand, hchild] at hexited
          cases hexited
          exact hcode rfl
        have hiff : FailsCuttably executor execution_id asset ↔
            Cuttable (read_lossy stdout) ∧ Cuttable (read_lossy stderr) := by
          constructor
          · intro hcut
            exact hcut command code stdout stderr hinner hchild hcode
          · intro hcut command' code' stdout' stderr' hcommand hexited _
            rw [hsame command' hcommand, hchild] at hexited
            cases hexited
            exact hcut
        simp only [hchild, if_neg hcode]
        obtain ⟨hcut, e, hfails⟩ | ⟨hcut, hpanics⟩ :=
          failure_cases executor asset code (read_lossy stdout) (read_lossy stderr)
        · rw [hfails]
          exact .failed hnot (hiff.mpr hcut)
        · rw [hpanics]
          exact .panicked hnot (mt hiff.mp hcut)

/-- What comes of the assets of a workflow. -/
inductive RunOutcome (assets : List AssetModel) : Except Stop Unit → Prop where
  | succeeded (h : ∀ asset ∈ assets, Succeeds executor execution_id asset)
      (hcut : AllCuttable executor execution_id assets) : RunOutcome assets (.ok ())
  | failed {e : RuntimeError} (h : ¬ ∀ asset ∈ assets, Succeeds executor execution_id asset)
      (hcut : AllCuttable executor execution_id assets) : RunOutcome assets (.error (.error e))
  | panicked (h : ¬ ∀ asset ∈ assets, Succeeds executor execution_id asset)
      (hcut : ¬ AllCuttable executor execution_id assets) : RunOutcome assets (.error .panicked)

variable {executor execution_id}

theorem failsCuttably_of_succeeds {asset : AssetModel}
    (h : Succeeds executor execution_id asset) : FailsCuttably executor execution_id asset := by
  obtain ⟨command, stdout, stderr, hcommand, hchild⟩ := h
  intro command' code stdout' stderr' hcommand' hchild' hcode
  rw [hcommand] at hcommand'
  cases hcommand'
  rw [hchild] at hchild'
  cases hchild'
  exact absurd rfl hcode

/-- The first asset is always reached, the others if it succeeds. -/
theorem allCuttable_cons_iff {asset : AssetModel} {assets : List AssetModel} :
    AllCuttable executor execution_id (asset :: assets) ↔
      FailsCuttably executor execution_id asset ∧
        (Succeeds executor execution_id asset → AllCuttable executor execution_id assets) := by
  constructor
  · intro h
    constructor
    · exact h [] asset assets rfl (by simp)
    · intro hsucceeds before later after hassets hbefore
      apply h (asset :: before) later after (by rw [hassets]; rfl)
      intro earlier hearlier
      rcases List.mem_cons.mp hearlier with rfl | hearlier
      · exact hsucceeds
      · exact hbefore earlier hearlier
  · intro h before later after hassets hbefore
    cases before with
    | nil =>
      cases hassets
      exact h.1
    | cons first before =>
      cases hassets
      apply h.2 (hbefore asset List.mem_cons_self) before later after rfl
      intro earlier hearlier
      exact hbefore earlier (List.mem_cons_of_mem _ hearlier)

theorem execute_assets_spec (hnot_cancelled : ∀ n, executor.cancelled n = false) (index : Nat)
    (assets : List AssetModel) :
    RunOutcome executor execution_id assets
      (executor.execute_assets executor.execute_asset_python execution_id index assets) := by
  induction assets generalizing index with
  | nil =>
    apply RunOutcome.succeeded
    · simp
    · intro before asset after hassets
      cases before <;> cases hassets
  | cons asset assets ih =>
    have hcheck : executor.check_cancelled (index + 1) = .ok () := by
      simp [Setting.check_cancelled, hnot_cancelled]
    have hasset := execute_asset_python_spec executor execution_id asset
    unfold Setting.execute_assets
    rw [hcheck]
    cases hresult : executor.execute_asset_python execution_id asset with
    | ok u =>
      rw [hresult] at hasset
      cases hasset with
      | succeeded hsucceeds =>
        have hrest := ih (index + 1)
        show RunOutcome _ _ _ (executor.execute_assets executor.execute_asset_python execution_id
          (index + 1) assets)
        cases hrun : executor.execute_assets executor.execute_asset_python execution_id (index + 1)
            assets with
        | ok u =>
          rw [hrun] at hrest
          cases hrest with
          | succeeded hall hcut =>
            exact .succeeded (List.forall_mem_cons.mpr ⟨hsucceeds, hall⟩)
              (allCuttable_cons_iff.mpr ⟨failsCuttably_of_succeeds hsucceeds, fun _ => hcut⟩)
        | error stop =>
          rw [hrun] at hrest
          cases hrest with
          | failed hall hcut =>
            exact .failed (fun h => hall (List.forall_mem_cons.mp h).2)
              (allCuttable_cons_iff.mpr ⟨failsCuttably_of_succeeds hsucceeds, fun _ => hcut⟩)
          | panicked hall hcut =>
            exact .panicked (fun h => hall (List.forall_mem_cons.mp h).2)
              (fun h => hcut ((allCuttable_cons_iff.mp h).2 hsucceeds))
    | error stop =>
      rw [hresult] at hasset
      cases hasset with
      | failed hnot hcut =>
        exact .failed (fun h => hnot (List.forall_mem_cons.mp h).1)
          (allCuttable_cons_iff.mpr ⟨hcut, fun h => absurd h hnot⟩)
      | panicked hnot hcut =>
        exact .panicked (fun h => hnot (List.forall_mem_cons.mp h).1)
          (fun h => hcut (allCuttable_cons_iff.mp h).1)

end assets

/-! ### Children that write text -/

/-- The UTF-8 of a text. -/
def utf8 (text : String) : Bytes := text.toList.flatMap String.utf8EncodeChar

/-- What a child has written as text is read as that text. -/
theorem read_lossy_utf8 {text : String}
    (hsize : (utf8 text).length ≤ ChildOutput.MAX_OUTPUT_SIZE) : read_lossy (utf8 text) = text := by
  unfold read_lossy
  rw [List.take_of_length_le hsize, utf8, Utf8.lossy_encode, String.ofList_toList]

/-- Every place in an ASCII text is between two characters. -/
theorem split_at_ascii {text : List Char} (hascii : ∀ c ∈ text, c.utf8Size = 1) {index : Nat}
    (hindex : index ≤ text.length) : (split_at index text).isSome = true := by
  induction text generalizing index with
  | nil =>
    obtain rfl := Nat.le_zero.mp hindex
    rfl
  | cons c text ih =>
    cases index with
    | zero => rfl
    | succ index =>
      have hsize : c.utf8Size = 1 := hascii c List.mem_cons_self
      have hrest : ∀ d ∈ text, d.utf8Size = 1 := fun d hd => hascii d (List.mem_cons_of_mem _ hd)
      rw [split_at, if_neg (Nat.succ_ne_zero index), if_pos (by omega), Option.isSome_map, hsize]
      exact ih hrest (Nat.le_of_succ_le_succ hindex)

theorem cuttable_of_ascii {text : String} (hascii : ∀ c ∈ text.toList, c.utf8Size = 1) :
    Cuttable text := by
  have hsize : text.utf8ByteSize = text.toList.length := by
    have hlist := Text.utf8ByteSize_of_ascii text.toList hascii
    rwa [String.ofList_toList] at hlist
  right
  apply split_at_ascii hascii
  omega

/-- The bytes of an ASCII text, of which some are read. -/
structure IsAscii (written : Bytes) (text : String) : Prop where
  bytes : written = utf8 text
  ascii : ∀ c ∈ text.toList, c.utf8Size = 1

/-- Reading stops between two characters. -/
theorem IsAscii.take {written : Bytes} {text : String} (h : IsAscii written text) (n : Nat) :
    written.take n = (text.toList.take n).flatMap String.utf8EncodeChar := by
  obtain ⟨rfl, hascii⟩ := h
  unfold utf8
  generalize text.toList = chars at hascii
  induction chars generalizing n with
  | nil => simp
  | cons c rest ih =>
    cases n with
    | zero => simp
    | succ n =>
      have hlength : (String.utf8EncodeChar c).length = 1 := by
        rw [String.length_utf8EncodeChar, hascii c List.mem_cons_self]
      obtain ⟨byte, hbyte⟩ := List.length_eq_one_iff.mp hlength
      have hrest := ih n fun d hd => hascii d (List.mem_cons_of_mem _ hd)
      rw [List.flatMap_cons, List.take_succ_cons, List.flatMap_cons, hbyte, ← hrest]
      rfl

theorem IsAscii.cuttable {written : Bytes} {text : String} (h : IsAscii written text) :
    Cuttable (read_lossy written) := by
  apply cuttable_of_ascii
  unfold read_lossy
  rw [h.take, Utf8.lossy_encode, String.toList_ofList]
  intro c hc
  exact h.ascii c (List.mem_of_mem_take hc)

/-- Children that write ASCII never make a run panic. -/
theorem allCuttable_of_ascii {F : Type} {executor : Executor F} {execution_id : Uuid}
    (hascii : ∀ command code stdout stderr, executor.child command = .exited code stdout stderr →
      ∃ out err, IsAscii stdout out ∧ IsAscii stderr err)
    (assets : List AssetModel) : AllCuttable executor execution_id assets := by
  intro before asset after _ _ command code stdout stderr _ hchild _
  obtain ⟨out, err, hout, herr⟩ := hascii command code stdout stderr hchild
  exact ⟨hout.cuttable, herr.cuttable⟩

/-! ### What the storage does -/

section storage
variable {setting : Setting} {execute_asset_python : Uuid → AssetModel → Except Stop Unit}
  {w : World} {execution_id : Uuid} {row : ExecutionModel}

/-- The tenant sees this row of the execution. -/
def Stands (setting : Setting) (db : Metadata) (execution_id : Uuid) (row : ExecutionModel) :
    Prop :=
  db.executions.find? execution_id = some row ∧ row.visible_to setting.tenant_id = true

/-- The tables differ in the executions only. -/
def OnlyExecutions (db db' : Metadata) : Prop := ∃ executions, db' = { db with executions }

theorem keeps_clean_storage {α : Type} (op : Metadata → Except StorageError (α × Metadata)) :
    Keeps Clean (setting.storage op) :=
  keeps_clean_logged setting.faults (atomic op)

theorem keeps_clean_update (state : String) (message : Option String)
    (now : DateTime × DateTime) :
    Keeps Clean (setting.update_execution_state execution_id state message now) := by
  apply Keeps.bind Clean.trans
  · exact Keeps.map_error _ (keeps_clean_storage _)
  · intro execution
    exact Keeps.map_error _ (keeps_clean_storage _)

theorem keeps_clean_record (result : Except Stop ExecutionResult) :
    Keeps Clean (setting.record execution_id result) := by
  cases result with
  | ok result => exact keeps_clean_update _ _ _
  | error stop =>
    cases stop with
    | error e => exact keeps_clean_update _ _ _
    | panicked => exact Keeps.lift Clean.refl _

theorem keeps_clean_run_assets (assets : List AssetModel) :
    Keeps Clean (setting.run_assets execute_asset_python execution_id assets) := by
  apply Keeps.bind Clean.trans (Keeps.lift Clean.refl _)
  intro _
  exact Keeps.pure Clean.refl _

theorem keeps_clean_run_found (workflow_id : Uuid) :
    Keeps Clean (setting.run_found execute_asset_python workflow_id execution_id) := by
  apply Keeps.bind Clean.trans (Keeps.map_error _ (keeps_clean_storage _))
  exact keeps_clean_run_assets

theorem keeps_clean_run (workflow_id : Uuid) :
    Keeps Clean (setting.run_workflow_locally execute_asset_python workflow_id execution_id) := by
  apply Keeps.bind Clean.trans (Keeps.lift Clean.refl _)
  intro _
  apply Keeps.bind Clean.trans (Keeps.map_error _ (keeps_clean_storage _))
  intro _
  exact keeps_clean_run_found workflow_id

theorem keeps_clean_finish (result : Except Stop ExecutionResult) :
    Keeps Clean (setting.finish execution_id result) := by
  apply Keeps.bind Clean.trans (keeps_clean_record result)
  intro _
  exact Keeps.lift Clean.refl _

theorem keeps_clean_run_created (workflow_id : Uuid) :
    Keeps Clean (setting.run_created execute_asset_python workflow_id execution_id) := by
  apply Keeps.bind Clean.trans (keeps_clean_update _ _ _)
  intro _
  apply Keeps.bind Clean.trans (Keeps.attempt (keeps_clean_run workflow_id))
  exact keeps_clean_finish

theorem keeps_clean_return_existing : Keeps Clean (setting.return_existing execution_id) := by
  apply Keeps.bind Clean.trans (Keeps.map_error _ (keeps_clean_storage _))
  intro existing
  exact Keeps.pure Clean.refl _

/-- A storage call that is answered, in front of what its answer is used for. -/
theorem bind_storage_of_no_errors {α β : Type} {f : StorageError → Stop}
    {op : Metadata → Except StorageError (α × Metadata)} {k : α → Program β}
    (hk : ∀ a, Keeps Clean (k a))
    (h : ((map_error f (setting.storage op) >>= k) w).2.errors = []) :
    ∃ a w', op w.remote.state = .ok (a, w'.remote.state) ∧
      (map_error f (setting.storage op) >>= k) w = k a w' :=
  bind_logged_of_no_errors op hk h

/-- The row that the tenant sees is the one that is read. -/
theorem get_execution_of_stands {execution : ExecutionModel} {db db' : Metadata}
    (hstands : Stands setting db execution_id row)
    (h : (db.get_execution setting.tenant_id execution_id).map (fun execution => (execution, db)) =
      .ok (execution, db')) : execution = row ∧ db' = db := by
  have hfound : db.get_execution setting.tenant_id execution_id = .ok row := by
    have hvisible : (some row).filter (·.visible_to setting.tenant_id) = some row :=
      Option.filter_some_pos hstands.2
    unfold Metadata.get_execution Executions.get_execution
    rw [hstands.1, hvisible]
  rw [hfound] at h
  cases h
  exact ⟨rfl, rfl⟩

/-- A change of the row. -/
theorem update_execution_of_stands {execution : ExecutionModel} {db db' : Metadata}
    {text : String} {state : ExecutionState} (hstands : Stands setting db execution_id row)
    (hid : execution.id = execution_id) (hstate : validate_execution_state text = .ok state)
    (h : (db.update_execution setting.tenant_id text execution).map (fun db => ((), db)) =
      .ok ((), db')) :
    Stands setting db' execution_id (row.updatedTo { execution with state }) ∧
      OnlyExecutions db db' := by
  unfold Metadata.update_execution at h
  rw [hstate] at h
  cases hupdate : db.executions.update_execution { execution with state } setting.tenant_id with
  | error e =>
    simp only [bind, Except.bind, hupdate] at h
    cases h
  | ok executions =>
    simp only [bind, Except.bind, hupdate] at h
    cases h
    obtain ⟨before, hbefore, hfind⟩ := Executions.update_execution_eq_ok hupdate
    have hsame : before = row := by
      have hrow : db.executions.find? execution.id = some row := by
        rw [hid]
        exact hstands.1
      rw [hrow] at hbefore
      cases hbefore
      rfl
    refine ⟨⟨?_, hstands.2⟩, executions, rfl⟩
    rw [← hsame, ← hid]
    exact (hfind execution.id).trans (if_pos rfl)

/-- A change of state goes through where no storage call fails. -/
theorem update_execution_state_spec {text : String} {state : ExecutionState}
    {message : Option String} {now : DateTime × DateTime}
    (hstands : Stands setting w.remote.state execution_id row)
    (hstate : validate_execution_state text = .ok state)
    (hno_errors :
      (setting.update_execution_state execution_id text message now w).2.errors = []) :
    ∃ row' w', setting.update_execution_state execution_id text message now w = (.ok (), w') ∧
      Stands setting w'.remote.state execution_id row' ∧ row'.state = state ∧
      row'.error_message = message.or row.error_message ∧
      OnlyExecutions w.remote.state w'.remote.state := by
  unfold Setting.update_execution_state Setting.get_execution at hno_errors ⊢
  obtain ⟨execution, w₁, hfound, hgoes⟩ := bind_storage_of_no_errors
    (fun _ => Keeps.map_error _ (keeps_clean_storage _)) hno_errors
  obtain ⟨hrow, hsame⟩ := get_execution_of_stands hstands hfound
  subst hrow
  rw [hgoes] at hno_errors ⊢
  obtain ⟨_, w₂, hwrite, hwritten⟩ := map_error_logged_of_no_errors _ hno_errors
  rw [hsame] at hwritten
  have hid : (Setting.updated text message now execution).id = execution_id :=
    (Executions.id_of_find? hstands.1 : execution.id = execution_id)
  obtain ⟨hafter, honly⟩ := update_execution_of_stands hstands hid hstate hwritten
  exact ⟨_, w₂, hwrite, hafter, rfl, rfl, honly⟩

/-- A new execution is there, pending and without a message. -/
theorem create_execution_spec {db db' : Metadata} {workflow_id : Uuid}
    {idempotency_key : Option String} {id : Uuid}
    (h : db.create_execution_or_get_existing setting.tenant_id "pending"
      (setting.new_execution workflow_id execution_id idempotency_key) = .ok (db', id, true)) :
    id = execution_id ∧ OnlyExecutions db db' ∧
      ∃ row, Stands setting db' execution_id row ∧ row.error_message = none := by
  unfold Metadata.create_execution_or_get_existing at h
  obtain ⟨state, hstate, h⟩ := Fallible.bind_eq_ok_iff.mp h
  obtain ⟨column, hcolumn, h⟩ := Fallible.bind_eq_ok_iff.mp h
  obtain ⟨⟨executions, id', was_created⟩, hcreate, h⟩ := Fallible.bind_eq_ok_iff.mp h
  obtain ⟨_, -, h⟩ := Fallible.bind_eq_ok_iff.mp h
  cases h
  rw [tenant_column_eq_ok hcolumn] at hcreate
  obtain ⟨-, hid, -, hfind⟩ | ⟨hexisting, -⟩ := Executions.create_execution_eq_ok hcreate
  · have hid' : id = execution_id := hid
    have hfound := (hfind id).trans (if_pos rfl)
    rw [hid'] at hfound
    exact ⟨hid', ⟨executions, rfl⟩, _, ⟨hfound, by simp [ExecutionModel.visible_to]⟩, rfl⟩
  · cases hexisting

/-- Where no storage call fails, a run of a workflow is that of its assets, and changes
    nothing. -/
theorem run_workflow_locally_spec {workflow_id : Uuid} {workflow : WorkflowModel}
    (hnot_cancelled : ∀ n, setting.cancelled n = false)
    (hworkflow : w.remote.state.get_workflow setting.tenant_id workflow_id = .ok workflow)
    (hno_errors : (setting.run_workflow_locally execute_asset_python workflow_id execution_id
      w).2.errors = []) :
    ∃ w', w'.remote.state = w.remote.state ∧
      setting.run_workflow_locally execute_asset_python workflow_id execution_id w =
        ((setting.execute_assets execute_asset_python execution_id 0
          (w.remote.state.get_workflow_assets setting.tenant_id workflow_id)).map
            fun _ => ⟨execution_id, true, none⟩, w') := by
  have hcheck : (lift (setting.check_cancelled 0) : Program Unit) w = (.ok (), w) := by
    simp [lift, Setting.check_cancelled, hnot_cancelled]
  unfold Setting.run_workflow_locally at hno_errors ⊢
  rw [bind_apply_ok hcheck] at hno_errors ⊢
  obtain ⟨found, w₁, hfound, hgoes⟩ := bind_storage_of_no_errors
    (fun _ => keeps_clean_run_found workflow_id) hno_errors
  rw [hgoes] at hno_errors ⊢
  unfold Setting.run_found at hno_errors ⊢
  obtain ⟨assets, w₂, hassets, hgoes'⟩ := bind_storage_of_no_errors
    keeps_clean_run_assets hno_errors
  rw [hworkflow] at hfound
  simp only [Fallible.map_ok, Except.ok.injEq, Prod.mk.injEq] at hfound hassets
  rw [← hfound.2] at hassets
  refine ⟨w₂, hassets.2.symm, ?_⟩
  rw [hgoes', hassets.1]
  cases hrun : setting.execute_assets execute_asset_python execution_id 0 assets with
  | ok u => exact bind_apply_ok (lift_eq_ok_iff.mpr ⟨hrun, rfl⟩)
  | error stop => exact bind_apply_error (lift_eq_error_iff.mpr ⟨hrun, rfl⟩)

/-- A new execution goes to `running`, its assets run, and what comes of them is recorded. -/
theorem execute_with_idempotency_spec {workflow_id : Uuid} {workflow : WorkflowModel}
    {idempotency_key : Option String} {db : Metadata}
    (hworkflow : w.remote.state.get_workflow setting.tenant_id workflow_id = .ok workflow)
    (hnot_cancelled : ∀ n, setting.cancelled n = false)
    (hcreated : w.remote.state.create_execution_or_get_existing setting.tenant_id "pending"
      (setting.new_execution workflow_id execution_id idempotency_key) =
        .ok (db, execution_id, true))
    (hno_errors : (setting.execute_with_idempotency execute_asset_python workflow_id
      idempotency_key execution_id w).2.errors = []) :
    ∃ row w', Stands setting w'.remote.state execution_id row ∧
      setting.execute_with_idempotency execute_asset_python workflow_id idempotency_key
          execution_id w =
        setting.finish execution_id
          ((setting.execute_assets execute_asset_python execution_id 0
            (w.remote.state.get_workflow_assets setting.tenant_id workflow_id)).map
              fun _ => ⟨execution_id, true, none⟩) w' := by
  have hnext : ∀ created : Uuid × Bool, Keeps Clean
      (if created.2 then setting.run_created execute_asset_python workflow_id created.1
        else setting.return_existing created.1) := by
    intro created
    cases created.2 with
    | true => exact keeps_clean_run_created workflow_id
    | false => exact keeps_clean_return_existing
  unfold Setting.execute_with_idempotency at hno_errors ⊢
  obtain ⟨created, w₁, hdone, hgoes⟩ := bind_storage_of_no_errors hnext hno_errors
  rw [hgoes] at hno_errors ⊢
  rw [hcreated] at hdone
  simp only [Fallible.map_ok, Except.ok.injEq, Prod.mk.injEq] at hdone
  obtain ⟨hcreated_id, hdb⟩ := hdone
  rw [← hcreated_id] at hno_errors ⊢
  simp only [if_true] at hno_errors ⊢
  obtain ⟨-, ⟨executions, honly⟩, row, hstands, -⟩ := create_execution_spec hcreated
  rw [hdb] at hstands honly
  -- the row goes to `running`
  have hupdate_ok := no_errors_of_bind (fun _ => by
    apply Keeps.bind Clean.trans (Keeps.attempt (keeps_clean_run workflow_id))
    exact keeps_clean_finish) hno_errors
  obtain ⟨row', w₂, hupdate, hstands', -, -, executions', honly'⟩ :=
    update_execution_state_spec hstands rfl hupdate_ok
  unfold Setting.run_created at hno_errors ⊢
  rw [bind_apply_ok hupdate] at hno_errors ⊢
  -- the assets run
  have hrun_ok := no_errors_of_bind keeps_clean_finish hno_errors
  have hworkflow' : w₂.remote.state.get_workflow setting.tenant_id workflow_id =
      .ok workflow := by
    rw [honly', honly]
    exact hworkflow
  have hassets : w₂.remote.state.get_workflow_assets setting.tenant_id workflow_id =
      w.remote.state.get_workflow_assets setting.tenant_id workflow_id := by
    rw [honly', honly]
    rfl
  obtain ⟨w₃, hsame, hrun⟩ := run_workflow_locally_spec hnot_cancelled hworkflow' hrun_ok
  rw [hassets] at hrun
  rw [← hsame] at hstands'
  exact ⟨row', w₃, hstands', bind_apply_ok (attempt_eq_ok_iff.mpr hrun)⟩

end storage

/-! ### The outcome -/

/-- The run returns, and the row says whether every asset has succeeded. -/
structure Recorded {F : Type} (executor : Executor F) (assets : List AssetModel)
    (execution_id : Uuid) (outcome : Except Stop ExecutionResult × World) : Prop where
  returns : outcome.1 ≠ .error .panicked
  row : ∃ row, outcome.2.remote.state.executions.find? execution_id = some row ∧
    ((∀ asset ∈ assets, Succeeds executor execution_id asset) → row.state = .succeeded) ∧
    ((¬ ∀ asset ∈ assets, Succeeds executor execution_id asset) →
      row.state = .failed ∧ row.error_message ≠ none)

section outcome
variable {F : Type} {executor : Executor F} {w : World} {execution_id workflow_id : Uuid}
  {workflow : WorkflowModel}

/-- The result of a run is recorded, unless it is a panic. -/
theorem finish_spec {row : ExecutionModel} {assets : List AssetModel}
    {run : Except Stop Unit} (hstands : Stands executor.toSetting w.remote.state execution_id row)
    (hrun : RunOutcome executor execution_id assets run)
    (hno_errors : (executor.finish execution_id
      (run.map fun _ => ⟨execution_id, true, none⟩) w).2.errors = []) :
    Recorded executor assets execution_id
      (executor.finish execution_id (run.map fun _ => ⟨execution_id, true, none⟩) w) ↔
        AllCuttable executor execution_id assets := by
  have hrecord_ok := no_errors_of_bind (fun _ => Keeps.lift Clean.refl _) hno_errors
  cases hrun with
  | succeeded hall hcut =>
    obtain ⟨row', w', hrecord, hafter, hstate, -, -⟩ :=
      update_execution_state_spec hstands rfl hrecord_ok
    have hfinish : executor.finish execution_id (.ok ⟨execution_id, true, none⟩) w =
        (.ok ⟨execution_id, true, none⟩, w') := bind_apply_ok hrecord
    simp only [Fallible.map_ok, hfinish, hcut, iff_true]
    constructor
    · intro h
      cases h
    · exact ⟨row', hafter.1, fun _ => hstate, fun hnot => absurd hall hnot⟩
  | @failed e hall hcut =>
    obtain ⟨row', w', hrecord, hafter, hstate, hmessage, -⟩ :=
      update_execution_state_spec hstands rfl hrecord_ok
    have hfinish : executor.finish execution_id (.error (.error e)) w =
        (.error (.error e), w') := bind_apply_ok hrecord
    simp only [Fallible.map_error, hfinish, hcut, iff_true]
    constructor
    · intro h
      cases h
    · refine ⟨row', hafter.1, fun h => absurd h hall, fun _ => ⟨hstate, ?_⟩⟩
      rw [hmessage]
      exact Option.some_ne_none _
  | panicked hall hcut =>
    have hfinish : executor.finish execution_id (.error .panicked) w = (.error .panicked, w) :=
      rfl
    simp only [Fallible.map_error, hfinish, hcut, iff_false]
    intro hrecorded
    exact hrecorded.returns rfl

/-- **A local run is recorded** exactly if the first asset that does not succeed, if its child
    has exited, has written what can be cut 500 bytes before its end. -/
theorem local_run_recorded_iff {idempotency_key : Option String} {db : Metadata}
    (hworkflow : w.remote.state.get_workflow executor.tenant_id workflow_id = .ok workflow)
    (hnot_cancelled : ∀ n, executor.cancelled n = false)
    (hcreated : w.remote.state.create_execution_or_get_existing executor.tenant_id "pending"
      (executor.new_execution workflow_id execution_id idempotency_key) =
        .ok (db, execution_id, true))
    (hno_errors : (executor.execute_with_idempotency workflow_id idempotency_key execution_id
      w).2.errors = []) :
    Recorded executor (w.remote.state.get_workflow_assets executor.tenant_id workflow_id)
      execution_id
      (executor.execute_with_idempotency workflow_id idempotency_key execution_id w) ↔
        AllCuttable executor execution_id
          (w.remote.state.get_workflow_assets executor.tenant_id workflow_id) := by
  obtain ⟨row, w', hstands, hgoes⟩ :=
    execute_with_idempotency_spec hworkflow hnot_cancelled hcreated hno_errors
  have hexecute : executor.execute_with_idempotency workflow_id idempotency_key execution_id w =
      _ := hgoes
  rw [hexecute] at hno_errors ⊢
  exact finish_spec hstands (execute_assets_spec hnot_cancelled 0 _) hno_errors

end outcome

/-! ### One asset -/

def one_asset : AssetModel :=
  ⟨1, "orders", none, "table", none, [], none, some "pipeline", some "orders", some "a", 0, 0⟩

def one_workflow : WorkflowModel :=
  ⟨2, "nightly", none, none, [], some "a", 1, none, none, none, none, none, none, 0, 0⟩

/-- A workflow with one asset, before anything has been run. -/
def one_world : World where
  remote := ⟨{
    assets := ⟨[one_asset], by decide, by decide⟩
    workflows := ⟨[one_workflow], by decide, by decide⟩
    executions := Table.empty _ _
    asset_dependencies := Table.empty _ _
    asset_checks := Table.empty _ _
    workflow_assets := ⟨[⟨3, 2, 1, 0⟩], by decide, by decide⟩ }, 0⟩
  errors := []

/-- An executor all of whose children end like this. -/
def one_executor (outcome : ChildOutcome) : Executor Int where
  tenant_id := "a"
  config := ⟨"python3", ".", []⟩
  timeout_seconds := 3600
  cancelled := fun _ => false
  child := fun _ => outcome
  from_str := fun _ => none
  faults := fun _ => none
  created_at := 0
  now := fun _ => (0, 0)

/-- Two bytes for each of 250 letters, and one for the line end. -/
def accented : String := String.ofList (List.replicate 250 'é' ++ ['\n'])

theorem one_created (outcome : ChildOutcome) :
    ∃ db, one_world.remote.state.create_execution_or_get_existing "a" "pending"
      ((one_executor outcome).new_execution 2 4 none) = .ok (db, 4, true) := by
  have hcreated : (one_world.remote.state.create_execution_or_get_existing "a" "pending"
      ((one_executor outcome).new_execution 2 4 none)).map (·.2) = .ok (4, true) := by
    have hrow : (one_executor outcome).new_execution 2 4 none =
        (one_executor .timed_out).new_execution 2 4 none := rfl
    rw [hrow]
    decide +kernel
  obtain ⟨⟨db, created⟩, hdb, rfl⟩ := Fallible.map_eq_ok_iff.mp hcreated
  exact ⟨db, hdb⟩

/-- The child is started. -/
theorem one_command (outcome : ChildOutcome) :
    ∃ command, execute_asset_python_inner (one_executor outcome).config
      (one_executor outcome).tenant_id one_asset 4 = .ok command := by
  refine ⟨_, Worker.execute_inner_eq_ok_iff.mpr ⟨"pipeline", rfl, "orders", rfl, by decide +kernel,
    by decide +kernel, rfl, ?_⟩⟩
  have hconfig : (one_executor outcome).config = ⟨"python3", ".", []⟩ := rfl
  have htenant : (one_executor outcome).tenant_id = "a" := rfl
  rw [Worker.local_texts_carryNul_iff, hconfig, htenant]
  simp only [Worker.carriesNul_cons, List.flatMap_nil, Worker.carriesNul_nil]
  decide +kernel

/-- Only what comes of the one asset matters. -/
theorem execute_one_eq {outcome : ChildOutcome} {result : Except Stop Unit}
    (h : (one_executor outcome).execute_asset_python 4 one_asset = result) :
    (one_executor outcome).execute_with_idempotency 2 none 4 one_world =
      (one_executor outcome).toSetting.execute_with_idempotency (fun id asset =>
        if id = 4 ∧ asset = one_asset then result
        else (one_executor outcome).execute_asset_python id asset) 2 none 4 one_world := by
  have hsame : (one_executor outcome).execute_asset_python =
      fun id asset => if id = 4 ∧ asset = one_asset then result
        else (one_executor outcome).execute_asset_python id asset := by
    funext id asset
    split
    · next hone => rw [hone.1, hone.2, h]
    · rfl
  rw [← hsame]
  rfl

theorem successful_run_recorded :
    Recorded (one_executor (.exited (some 0) [] []))
        (one_world.remote.state.get_workflow_assets "a" 2) 4
        ((one_executor (.exited (some 0) [] [])).execute_with_idempotency 2 none 4 one_world) ↔
      AllCuttable (one_executor (.exited (some 0) [] [])) 4
        (one_world.remote.state.get_workflow_assets "a" 2) := by
  obtain ⟨command, hcommand⟩ := one_command (.exited (some 0) [] [])
  have hasset : (one_executor (.exited (some 0) [] [])).execute_asset_python 4 one_asset =
      .ok () :=
    execute_asset_python_of_exited _ _ hcommand rfl
  have hno_errors : ((one_executor (.exited (some 0) [] [])).execute_with_idempotency 2 none 4
      one_world).2.errors = [] := by
    rw [execute_one_eq hasset]
    decide +kernel
  obtain ⟨db, hcreated⟩ := one_created (.exited (some 0) [] [])
  exact @local_run_recorded_iff Int (one_executor (.exited (some 0) [] [])) one_world 4 2
    one_workflow none db (by decide +kernel) (fun _ => rfl) hcreated hno_errors

theorem accented_toList : accented.toList = List.replicate 250 'é' ++ ['\n'] :=
  String.toList_ofList

theorem accented_not_cuttable : ¬ Cuttable accented := by
  have hsize : accented.utf8ByteSize = 501 := by decide +kernel
  unfold Cuttable is_char_boundary
  rw [hsize, accented_toList]
  decide

/-- The child exits with status 1 and has written 501 bytes, the first two of which are one
    character. -/
theorem failed_run_panics :
    ¬ ∀ (executor : Executor Int) (w : World) (workflow_id execution_id : Uuid)
      (idempotency_key : Option String) (workflow : WorkflowModel) (db : Metadata),
      w.remote.state.get_workflow executor.tenant_id workflow_id = .ok workflow →
      (∀ n, executor.cancelled n = false) →
      w.remote.state.create_execution_or_get_existing executor.tenant_id "pending"
        (executor.new_execution workflow_id execution_id idempotency_key) =
          .ok (db, execution_id, true) →
      (executor.execute_with_idempotency workflow_id idempotency_key execution_id w).2.errors =
        [] →
      Recorded executor (w.remote.state.get_workflow_assets executor.tenant_id workflow_id)
        execution_id
        (executor.execute_with_idempotency workflow_id idempotency_key execution_id w) := by
  intro hall
  obtain ⟨command, hcommand⟩ := one_command (.exited (some 1) (utf8 accented) [])
  have hwritten : read_lossy (utf8 accented) = accented := by
    apply read_lossy_utf8
    rw [utf8, accented_toList]
    decide +kernel
  have hasset : (one_executor (.exited (some 1) (utf8 accented) [])).execute_asset_python 4
      one_asset = .error .panicked := by
    have hexited := execute_asset_python_of_exited _ _ hcommand rfl
    rw [hwritten] at hexited
    obtain ⟨hcut, -⟩ | ⟨-, hpanics⟩ := failure_cases
      (one_executor (.exited (some 1) (utf8 accented) [])) one_asset (some 1) accented
      (read_lossy [])
    · exact absurd hcut.1 accented_not_cuttable
    · exact hexited.trans hpanics
  obtain ⟨db, hcreated⟩ := one_created (.exited (some 1) (utf8 accented) [])
  have hrun := execute_one_eq hasset
  have hno_errors : ((one_executor (.exited (some 1) (utf8 accented) [])).execute_with_idempotency
      2 none 4 one_world).2.errors = [] := by
    rw [hrun]
    decide +kernel
  have hpanics : ((one_executor (.exited (some 1) (utf8 accented) [])).execute_with_idempotency
      2 none 4 one_world).1 = .error .panicked := by
    rw [hrun]
    decide +kernel
  have hrecorded := hall (one_executor (.exited (some 1) (utf8 accented) [])) one_world 2 4
    none one_workflow db (by decide +kernel) (fun _ => rfl) hcreated hno_errors
  exact hrecorded.returns hpanics

end Servo.LocalOutcome
