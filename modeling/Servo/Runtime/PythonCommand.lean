import Servo.Framework.PythonTemplate
import Servo.Runtime.LocalExecutor
import Mathlib.Data.List.Infix

/-! # The Python Subprocess of a Local Run

    `execute_asset_python_inner` validates the names of the module and of the
    function, pastes them and the name of the asset into a program, and starts
    Python with it. The name of the asset is not validated.

    The model ends where the process starts; the command is what it returns.
-/

namespace Servo

open PythonLexer

/-! ### Commands -/

/-- `tokio::process::Command`. -/
structure PythonCommand where
  program : String
  args : List String
  current_dir : Option String
  envs : List (String × String)
  deriving DecidableEq

namespace PythonCommand

def texts (command : PythonCommand) : List String :=
  command.program :: command.args ++ command.current_dir.toList ++
    command.envs.flatMap fun entry => [entry.1, entry.2]

/-- A process cannot be given a text with a NUL character. -/
def spawn (command : PythonCommand) : Except String PythonCommand :=
  if command.texts.any fun text => text.toList.contains '\x00' then
    .error "nul byte found in provided data"
  else .ok command

end PythonCommand

/-! ### Validation -/

/-- `PYTHON_IDENTIFIER_PATTERN`: a letter or underscore, then letters, digits, underscores and
    dots, all of them ASCII. -/
def python_identifier_pattern (identifier : String) : Bool :=
  match identifier.toList with
  | [] => false
  | c :: cs =>
    (c.isAlpha || c = '_') && cs.all fun d => d.isAlpha || d.isDigit || d = '_' || d = '.'

def dangerous_chars : List Char :=
  [';', '|', '&', '$', '\x60', '(', ')', '\x7b', '\x7d', '<', '>', '\\', '\n', '\r']

def validate_python_identifier (identifier identifier_type : String) : Except LocalRunError Unit :=
  if identifier = "" then
    .error (.Execution ("Invalid " ++ identifier_type ++ ": cannot be empty"))
  else if 256 < identifier.utf8ByteSize then
    .error (.Execution ("Invalid " ++ identifier_type ++
      ": exceeds maximum length of 256 characters"))
  else if ¬ python_identifier_pattern identifier then
    .error (.Execution ("Invalid " ++ identifier_type ++ ": '" ++ identifier ++
      "' contains invalid characters. Must start with letter or underscore and contain only " ++
      "letters, digits, underscores, and dots."))
  else if ['.', '.'] <:+: identifier.toList then
    .error (.Execution ("Invalid " ++ identifier_type ++ ": '" ++ identifier ++
      "' contains path traversal sequence '..'"))
  else
    match dangerous_chars.find? (· ∈ identifier.toList) with
    | some c => .error (.Execution ("Invalid " ++ identifier_type ++ ": '" ++ identifier ++
        "' contains forbidden character '" ++ String.singleton c ++ "'"))
    | none => .ok ()

/-! ### The program -/

/-- The fixed texts of the program; `\x7b` and `\x7d` are braces. -/
def local_python_code : Segments String where
  head := "\nimport sys\nimport json\n\ntry:\n    from "
  assignment := "\n    result = "
  call := "()\n    print(json.dumps(\x7b\"status\": \"success\", \"asset\": \""
  success := "\", \"result\": str(result) if result is not None else None\x7d))\n" ++
    "except Exception as e:\n    import traceback\n" ++
    "    print(json.dumps(\x7b\"status\": \"error\", \"asset\": \""
  failure := "\", \"error\": str(e), \"traceback\": traceback.format_exc()\x7d), " ++
    "file=sys.stderr)\n    sys.exit(1)\n"

/-- `LocalExecutorConfig`, without the timeout. -/
structure LocalExecutorConfig where
  python_path : String
  working_dir : String
  env_vars : List (String × String)

section inner

variable (config : LocalExecutorConfig) (tenant_id : TenantId) (asset : AssetModel)
  (execution_id : Uuid)

/-- The name in one of the asset's columns. -/
def compute_fn (column : Option String) (field what : String) : Except LocalRunError String :=
  match column with
  | some name => .ok name
  | none => .error (.Execution ("Asset '" ++ asset.name ++ "' has no " ++ field ++
      " - cannot execute.\nSet " ++ field ++ " in the asset definition to specify the Python " ++
      what ++ "."))

def local_command (module function : String) : PythonCommand where
  program := config.python_path
  args := ["-c", local_python_code.fill module function asset.name]
  current_dir := some config.working_dir
  envs := config.env_vars ++
    [("SERVO_EXECUTION_ID", execution_id.to_string), ("SERVO_ASSET_ID", asset.id.to_string),
      ("SERVO_ASSET_NAME", asset.name), ("SERVO_TENANT_ID", tenant_id)]

def execute_asset_python_inner : Except LocalRunError PythonCommand := do
  let module ← compute_fn asset asset.compute_fn_module "compute_fn_module" "module"
  let function ← compute_fn asset asset.compute_fn_function "compute_fn_function" "function"
  validate_python_identifier module "compute_fn_module"
  validate_python_identifier function "compute_fn_function"
  match (local_command config tenant_id asset execution_id module function).spawn with
  | .ok child => return child
  | .error e => throw (.Execution ("Failed to spawn Python process for asset '" ++ asset.name ++
      "': " ++ e ++ "\nVerify that '" ++ config.python_path ++ "' is installed and accessible."))

end inner

/-! ### The tokens of the program -/

/-- A literal between double quotes. -/
def literal (body : String) : Token := .STRING "" '"' false body

def local_tokens : Segments (List Token) where
  head := [.NAME "import", .NAME "sys", .NEWLINE, .NAME "import", .NAME "json", .NEWLINE,
    .NAME "try", .OP ":", .NEWLINE, .INDENT, .NAME "from"]
  assignment := [.NEWLINE, .NAME "result", .OP "="]
  call := [.OP "(", .OP ")", .NEWLINE, .NAME "print", .OP "(", .NAME "json", .OP ".",
    .NAME "dumps", .OP "(", .OP "\x7b", literal "status", .OP ":", literal "success", .OP ",",
    literal "asset", .OP ":"]
  success := [.OP ",", literal "result", .OP ":", .NAME "str", .OP "(", .NAME "result", .OP ")",
    .NAME "if", .NAME "result", .NAME "is", .NAME "not", .NAME "None", .NAME "else", .NAME "None",
    .OP "\x7d", .OP ")", .OP ")", .NEWLINE, .DEDENT,
    .NAME "except", .NAME "Exception", .NAME "as", .NAME "e", .OP ":", .NEWLINE, .INDENT,
    .NAME "import", .NAME "traceback", .NEWLINE, .NAME "print", .OP "(", .NAME "json", .OP ".",
    .NAME "dumps", .OP "(", .OP "\x7b", literal "status", .OP ":", literal "error", .OP ",",
    literal "asset", .OP ":"]
  failure := [.OP ",", literal "error", .OP ":", .NAME "str", .OP "(", .NAME "e", .OP ")", .OP ",",
    literal "traceback", .OP ":", .NAME "traceback", .OP ".", .NAME "format_exc", .OP "(", .OP ")",
    .OP "\x7d", .OP ")", .OP ",", .NAME "file", .OP "=", .NAME "sys", .OP ".", .NAME "stderr",
    .OP ")", .NEWLINE, .NAME "sys", .OP ".", .NAME "exit", .OP "(", .NUMBER "1", .OP ")",
    .NEWLINE]

set_option maxRecDepth 4000 in
theorem local_reads (unicode_identifier : String → Bool) :
    Reads unicode_identifier local_python_code local_tokens ['\x7b', '(', '(']
      ['\x7b', '(', '('] := by
  have hhead : local_python_code.head.toList = _ := toList_literal _ rfl
  have hassignment : local_python_code.assignment.toList = _ := toList_literal _ rfl
  have hcall : local_python_code.call.toList = _ := toList_literal _ rfl
  have hsuccess : local_python_code.success.toList = _ :=
    toList_append_of (toList_append_of (toList_literal _ rfl) (toList_literal _ rfl))
      (toList_literal _ rfl)
  have hfailure : local_python_code.failure.toList = _ :=
    toList_append_of (toList_literal _ rfl) (toList_literal _ rfl)
  refine ⟨?_, ?_, ?_, ?_, ?_, ⟨'\n', _, hassignment, by decide⟩, ⟨'(', _, hcall, by decide⟩,
    ⟨_, hsuccess⟩, ⟨_, hfailure⟩, ?_, ?_⟩
  · rw [hhead]
    rfl
  · intro before
    rw [hassignment]
    rfl
  · intro before
    rw [hcall]
    rfl
  · intro before
    rw [hsuccess]
    rfl
  · intro before
    rw [hfailure]
    rfl
  · rw [hfailure]
    rfl
  · simp only [List.forall_mem_cons, List.not_mem_nil, false_implies, implies_true, and_true,
      hhead, hassignment, hcall, hsuccess, hfailure]
    decide

end Servo
