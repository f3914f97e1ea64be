import Servo.Core.TaskPayload
import Servo.Runtime.PythonCommand

/-! # The Python Subprocess of a Worker

    `execute_asset` fetches an asset and runs its Python function, if it has
    one, with a program of the worker's own. Nothing that is pasted into the
    program is validated.
-/

namespace Servo.Worker

open PythonLexer

/-- `ExecutionError`, as far as the execution of an asset returns it. -/
inductive ExecutionError where
  | Storage (message : String)
  | Internal (message : String)
  deriving DecidableEq

/-- The fixed texts of the program; `\x7b` and `\x7d` are braces. -/
def python_code : Segments String where
  head := "\nimport sys\nimport json\ntry:\n    from "
  assignment := "\n    result = "
  call := "()\n    # Output as JSON for parsing\n" ++
    "    output = \x7b\"status\": \"success\", \"asset\": \""
  success := "\", \"result\": str(result) if result is not None else None\x7d\n" ++
    "    print(json.dumps(output))\nexcept Exception as e:\n    import traceback\n" ++
    "    error_output = \x7b\"status\": \"error\", \"asset\": \""
  failure := "\", \"error\": str(e), \"traceback\": traceback.format_exc()\x7d\n" ++
    "    print(json.dumps(error_output), file=sys.stderr)\n    sys.exit(1)\n"

section execution

-- `serde_json::to_string` of a partition context, whose maps have no order
variable (to_json : PartitionExecutionContext → Option String)

/-- The variables that tell the process about the partition. -/
def partition_envs (partition_context : Option PartitionExecutionContext) :
    List (String × String) :=
  match partition_context with
  | none => []
  | some ctx =>
    match to_json ctx with
    | none => []
    | some ctx_json =>
      [("SERVO_PARTITION_CONTEXT", ctx_json), ("SERVO_PARTITION_KEY", ctx.partition_key)]

variable (asset_id : Uuid) (tenant_id : TenantId)
  (partition_context : Option PartitionExecutionContext)

def python_command (asset_name module function : String) : PythonCommand where
  program := "python3"
  args := ["-c", python_code.fill module function asset_name]
  current_dir := none
  envs := [("SERVO_ASSET_ID", asset_id.to_string), ("SERVO_ASSET_NAME", asset_name),
    ("SERVO_TENANT_ID", tenant_id)] ++ partition_envs to_json partition_context

def execute_python_asset (asset_name module function : String) :
    Except ExecutionError PythonCommand :=
  match (python_command to_json asset_id tenant_id partition_context asset_name module
    function).spawn with
  | .ok child => .ok child
  | .error e => .error (.Internal ("Failed to spawn Python process: " ++ e))

/-- Without a function, there are sample data and no process. -/
def execute_fetched (asset : AssetModel) : Except ExecutionError (Option PythonCommand) :=
  match asset.compute_fn_module, asset.compute_fn_function with
  | some module, some function =>
    (execute_python_asset to_json asset_id tenant_id partition_context asset.name module
      function).map some
  | _, _ => .ok none

def execute_asset (db : Metadata) : Except ExecutionError (Option PythonCommand) :=
  match db.get_asset tenant_id asset_id with
  | .ok asset => execute_fetched to_json asset_id tenant_id partition_context asset
  | .error e => .error (.Storage ("Failed to fetch asset: " ++ e.to_string))

end execution

/-! ### The tokens of the program -/

def python_tokens : Segments (List Token) where
  head := [.NAME "import", .NAME "sys", .NEWLINE, .NAME "import", .NAME "json", .NEWLINE,
    .NAME "try", .OP ":", .NEWLINE, .INDENT, .NAME "from"]
  assignment := [.NEWLINE, .NAME "result", .OP "="]
  call := [.OP "(", .OP ")", .NEWLINE, .NAME "output", .OP "=", .OP "\x7b", literal "status",
    .OP ":", literal "success", .OP ",", literal "asset", .OP ":"]
  success := [.OP ",", literal "result", .OP ":", .NAME "str", .OP "(", .NAME "result", .OP ")",
    .NAME "if", .NAME "result", .NAME "is", .NAME "not", .NAME "None", .NAME "else", .NAME "None",
    .OP "\x7d", .NEWLINE, .NAME "print", .OP "(", .NAME "json", .OP ".", .NAME "dumps", .OP "(",
    .NAME "output", .OP ")", .OP ")", .NEWLINE, .DEDENT,
    .NAME "except", .NAME "Exception", .NAME "as", .NAME "e", .OP ":", .NEWLINE, .INDENT,
    .NAME "import", .NAME "traceback", .NEWLINE, .NAME "error_output", .OP "=", .OP "\x7b",
    literal "status", .OP ":", literal "error", .OP ",", literal "asset", .OP ":"]
  failure := [.OP ",", literal "error", .OP ":", .NAME "str", .OP "(", .NAME "e", .OP ")", .OP ",",
    literal "traceback", .OP ":", .NAME "traceback", .OP ".", .NAME "format_exc", .OP "(", .OP ")",
    .OP "\x7d", .NEWLINE, .NAME "print", .OP "(", .NAME "json", .OP ".", .NAME "dumps", .OP "(",
    .NAME "error_output", .OP ")", .OP ",", .NAME "file", .OP "=", .NAME "sys", .OP ".",
    .NAME "stderr", .OP ")", .NEWLINE, .NAME "sys", .OP ".", .NAME "exit", .OP "(", .NUMBER "1",
    .OP ")", .NEWLINE]

set_option maxRecDepth 4000 in
theorem python_reads (unicode_identifier : String → Bool) :
    PythonLexer.Reads unicode_identifier python_code python_tokens ['\x7b'] ['\x7b'] := by
  have hhead : python_code.head.toList = _ := toList_literal _ rfl
  have hassignment : python_code.assignment.toList = _ := toList_literal _ rfl
  have hcall : python_code.call.toList = _ :=
    toList_append_of (toList_literal _ rfl) (toList_literal _ rfl)
  have hsuccess : python_code.success.toList = _ :=
    toList_append_of (toList_append_of (toList_literal _ rfl) (toList_literal _ rfl))
      (toList_literal _ rfl)
  have hfailure : python_code.failure.toList = _ :=
    toList_append_of (toList_literal _ rfl) (toList_literal _ rfl)
  refine ⟨?_, ?_, ?_, ?_, ?_, ⟨'\n', _, hassignment, by decide⟩, ⟨'(', _, hcall, by decide⟩,
    ⟨_, hsuccess⟩, ⟨_, hfailure⟩, ?_, ?_⟩
  · rw [hhead]
    rfl
  · intro before
    rw [hassignment]
    rfl
  · intro before
    rw [hcall]
    rfl
  · intro before
    rw [hsuccess]
    rfl
  · intro before
    rw [hfailure]
    rfl
  · rw [hfailure]
    rfl
  · simp only [List.forall_mem_cons, List.not_mem_nil, false_implies, implies_true, and_true,
      hhead, hassignment, hcall, hsuccess, hfailure]
    decide

end Servo.Worker
