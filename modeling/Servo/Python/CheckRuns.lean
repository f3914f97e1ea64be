import Servo.Python.CheckRegistry

/-! # Local Runs of Checks

    `run_checks_for_asset` calls the checks of an asset one after the other. A
    check that raises is to be one result among the others: the wrapper of the
    check turns what is raised into a `CheckExecutionError`, and the runner
    turns that into a result with the status `ERROR`.

    The wrapper of `@asset_check` lets a `ServoValidationError` pass, which it
    also raises itself, and the runner does not know this class. Then no
    result is left of the whole run.
-/

namespace Servo.Python

open Quality (CheckSeverity)

variable {F Data T : Type}

/-! ### Exceptions -/

/-- A class of exceptions, by what it derives from. -/
structure ExceptionClass where
  /-- `__name__`. -/
  name : String
  /-- It derives from `Exception`, and not only from `BaseException`. -/
  is_exception : Bool
  /-- It derives from `ServoValidationError`. -/
  is_validation_error : Bool
  /-- It derives from `CheckExecutionError`. -/
  is_execution_error : Bool
  validation_derives : is_validation_error = true → is_exception = true
  execution_derives : is_execution_error = true → is_exception = true

namespace ExceptionClass

def ServoValidationError : ExceptionClass :=
  ⟨"ServoValidationError", true, true, false, fun _ => rfl, fun _ => rfl⟩

def CheckExecutionError : ExceptionClass :=
  ⟨"CheckExecutionError", true, false, true, fun _ => rfl, fun _ => rfl⟩

end ExceptionClass

/-- An exception that has been raised. -/
inductive Raised where
  | printed (cls : ExceptionClass) (text : String)
  /-- Its `__str__` raises. -/
  | unprinted (cls : ExceptionClass) (failure : Raised)

namespace Raised

def cls : Raised → ExceptionClass
  | printed cls _ => cls
  | unprinted cls _ => cls

/-- `str(e)`. -/
def str : Raised → Except Raised String
  | printed _ text => .ok text
  | unprinted _ failure => .error failure

@[simp] theorem cls_printed (c : ExceptionClass) (text : String) : (printed c text).cls = c := rfl

@[simp] theorem str_printed (c : ExceptionClass) (text : String) :
    (printed c text).str = .ok text := rfl

end Raised

/-- `ServoError.__str__`, where the details are texts; `repr` is that of a text. -/
def servo_text (repr : String → String) (message : String) (details : List (String × String)) :
    String :=
  message ++ " - Details: \x7b" ++
    ", ".intercalate (details.map fun d => repr d.1 ++ ": " ++ repr d.2) ++ "\x7d"

/-! ### Checks that can be called -/

/-- `CheckResult`, with all that the wrappers and the runner set. -/
structure LocalResult (T : Type) extends CheckResult where
  severity : CheckSeverity
  asset_name : String
  blocking : Bool
  duration_ms : Option T

namespace LocalResult

/-- `CheckResult.success`. -/
def success (check_name asset_name : String) (duration_ms : T) : LocalResult T where
  check_name := check_name
  status := .Passed
  severity := .Error
  asset_name := asset_name
  blocking := true
  message := none
  rows_checked := none
  rows_failed := some 0
  duration_ms := some duration_ms

/-- `CheckResult.failure`. -/
def failure (check_name asset_name message : String) (severity : CheckSeverity) (blocking : Bool)
    (duration_ms : T) : LocalResult T where
  check_name := check_name
  status := .Failed
  severity := severity
  asset_name := asset_name
  blocking := blocking
  message := some message
  rows_checked := none
  rows_failed := none
  duration_ms := some duration_ms

end LocalResult

/-- What a function under `@asset_check` returns. -/
inductive Returned (T : Type) where
  | result (result : LocalResult T)
  | bool (value : Bool)
  /-- An object of any other type. -/
  | other (type_name : String)

/-- `AssetCheck`. The function is called once in a run, so what it does is one outcome. -/
structure AssetCheck (Data T : Type) where
  func : Data → Except Raised (Returned T)
  name : String
  asset : String
  severity : CheckSeverity
  blocking : Bool

/-- `_InlineCheckCallable`. -/
structure InlineCheckCallable (Data T : Type) where
  func : Data → Except Raised (LocalResult T)
  name : String
  asset : String

inductive CheckCallable (Data T : Type) where
  | asset_check (check : AssetCheck Data T)
  | inline_check (check : InlineCheckCallable Data T)

section calls

variable (repr : String → String) (elapsed : T)

/-- What is raised in place of an `Exception`. Its text is asked for on the way. -/
def execution_error (check_name asset_name : String) (e : Raised) : Raised :=
  match e.str with
  | .ok text => .printed .CheckExecutionError
      (servo_text repr ("Check '" ++ check_name ++ "' raised an exception: " ++ text)
        [("check_name", check_name), ("asset_name", asset_name), ("original_error", text),
          ("error_type", e.cls.name)])
  | .error failure => failure

namespace AssetCheck

variable (self : AssetCheck Data T)

/-- The definition that `__init__` registers. -/
def definition (function_name module : String) (description : Option String) :
    RegisteredCheck F where
  name := self.name
  check_type := "custom"
  description := description
  parameters := []
  column := none
  asset_name := self.asset
  severity := self.severity
  blocking := self.blocking
  function_name := function_name
  module := module

/-- The types that a check may return. -/
def result_of : Returned T → Except Raised (LocalResult T)
  | .result result => .ok { result with duration_ms := some elapsed }
  | .bool true => .ok (.success self.name self.asset elapsed)
  | .bool false => .ok (.failure self.name self.asset ("Check '" ++ self.name ++ "' failed")
      self.severity self.blocking elapsed)
  | .other type_name => .error (.printed .ServoValidationError
      (servo_text repr ("Check function must return bool or CheckResult, got " ++ type_name)
        [("field", "return_type"), ("value", repr type_name)]))

/-- The `except` clauses. -/
def handle (e : Raised) : Raised :=
  if e.cls.is_validation_error then e
  else if e.cls.is_exception then execution_error repr self.name self.asset e
  else e

/-- `__call__`. -/
def call (data : Data) : Except Raised (LocalResult T) :=
  (self.func data >>= self.result_of repr elapsed).mapError (self.handle repr)

end AssetCheck

/-- `__call__`. -/
def InlineCheckCallable.call (self : InlineCheckCallable Data T) (data : Data) :
    Except Raised (LocalResult T) :=
  ((self.func data).map fun result => { result with duration_ms := some elapsed }).mapError
    fun e => if e.cls.is_exception then execution_error repr self.name self.asset e else e

def CheckCallable.call : CheckCallable Data T → Data → Except Raised (LocalResult T)
  | .asset_check check => check.call repr elapsed
  | .inline_check check => check.call repr elapsed

end calls

/-! ### The registry of checks that can be called -/

/-- The registry with `_check_callables`. Every decorator registers a check together with what
    is to be called for it. -/
structure CallableRegistry (F Data T : Type) extends CheckRegistry F where
  callables : List (String × CheckCallable Data T)
  callable : ∀ d ∈ checks, ∃ c, callables.lookup d.name = some c

namespace CallableRegistry

def empty : CallableRegistry F Data T := ⟨.empty, [], fun _ h => by cases h⟩

theorem callable_of_mem {registry : CallableRegistry F Data T} {asset_name : String}
    {d : RegisteredCheck F} (h : d ∈ registry.get_checks_for_asset asset_name) :
    ∃ c, registry.callables.lookup d.name = some c := by
  rw [CheckRegistry.get_checks_for_asset_eq] at h
  exact registry.callable d (List.mem_filter.mp h).1

/-- Looking up in a dict that has grown. -/
theorem lookup_append_isSome {entries : List (String × CheckCallable Data T)} {name : String}
    {entry : String × CheckCallable Data T}
    (h : (∃ c, entries.lookup name = some c) ∨ entry.1 = name) :
    ∃ c, (entries ++ [entry]).lookup name = some c := by
  rw [List.lookup_append]
  cases hfound : entries.lookup name with
  | some c => exact ⟨c, rfl⟩
  | none =>
    rcases h with h | h
    · rw [hfound] at h
      obtain ⟨c, hc⟩ := h
      cases hc
    · obtain ⟨key, c⟩ := entry
      subst h
      exact ⟨c, by simp⟩

/-- `_register_check`. -/
def register (registry : CallableRegistry F Data T) (d : RegisteredCheck F)
    (c : CheckCallable Data T) : Except ServoValidationError (CallableRegistry F Data T) :=
  match h : registry.register_check d with
  | .error e => .error e
  | .ok checks => .ok {
      checks with
      callables := registry.callables ++ [(d.name, c)]
      callable := by
        intro d' hd'
        rcases CheckRegistry.register_check_cases d with hnew | hold
        · obtain ⟨-, registry', hregistry, hchecks⟩ := hnew
          rw [h] at hregistry
          cases hregistry
          rw [hchecks, List.mem_append] at hd'
          apply lookup_append_isSome
          rcases hd' with hd' | hd'
          · exact .inl (registry.callable d' hd')
          · exact .inr (by rw [List.mem_singleton.mp hd'])
        · obtain ⟨-, e, he⟩ := hold
          rw [h] at he
          cases he }

end CallableRegistry

/-! ### The runner -/

section run

variable (repr : String → String) (elapsed : String → T)

/-- The result for a check that raised. -/
def error_result (asset_name : String) (d : RegisteredCheck F) (message : String) :
    LocalResult T where
  check_name := d.name
  status := .Error
  severity := d.severity
  asset_name := asset_name
  blocking := d.blocking
  message := some message
  rows_checked := none
  rows_failed := none
  duration_ms := none

/-- The `except` clause of the loop. -/
def report (asset_name : String) (d : RegisteredCheck F) (e : Raised) :
    Except Raised (LocalResult T) :=
  if e.cls.is_execution_error then e.str.map (error_result asset_name d) else .error e

/-- One turn of the loop, for a check with something to call. -/
def run_check (asset_name : String) (d : RegisteredCheck F) (c : CheckCallable Data T)
    (data : Data) : Except Raised (LocalResult T) :=
  match c.call repr (elapsed d.name) data with
  | .ok result => .ok result
  | .error e => report asset_name d e

variable (registry : CallableRegistry F Data T) (asset_name : String) (data : Data)

/-- The loop over the checks. -/
def append_result (results : List (LocalResult T)) (d : RegisteredCheck F) :
    Except Raised (List (LocalResult T)) :=
  match registry.callables.lookup d.name with
  | some c => (run_check repr elapsed asset_name d c data).map fun result => results ++ [result]
  | none => .ok results

/-- `run_checks_for_asset`. -/
def run_checks_for_asset : Except Raised (List (LocalResult T)) :=
  (registry.get_checks_for_asset asset_name).foldlM
    (append_result repr elapsed registry asset_name data) []

end run

/-! ### One result for each check -/

section run

variable {repr : String → String} {elapsed : String → T}

/-- What a check raises. -/
def CheckCallable.Raises : CheckCallable Data T → Data → Raised → Prop
  | .asset_check check, data, e => check.func data = .error e
  | .inline_check check, data, e => check.func data = .error e

/-- The result that stands for a check of an asset in the run. -/
inductive Answers (elapsed : String → T) (asset_name : String) (d : RegisteredCheck F)
    (data : Data) : CheckCallable Data T → LocalResult T → Prop where
  | result {check : AssetCheck Data T} {result : LocalResult T}
      (returns : check.func data = .ok (.result result)) :
      Answers elapsed asset_name d data (.asset_check check)
        { result with duration_ms := some (elapsed d.name) }
  | passed {check : AssetCheck Data T} (returns : check.func data = .ok (.bool true)) :
      Answers elapsed asset_name d data (.asset_check check)
        (.success check.name check.asset (elapsed d.name))
  | failed {check : AssetCheck Data T} (returns : check.func data = .ok (.bool false)) :
      Answers elapsed asset_name d data (.asset_check check)
        (.failure check.name check.asset ("Check '" ++ check.name ++ "' failed") check.severity
          check.blocking (elapsed d.name))
  | inline_result {check : InlineCheckCallable Data T} {result : LocalResult T}
      (returns : check.func data = .ok result) :
      Answers elapsed asset_name d data (.inline_check check)
        { result with duration_ms := some (elapsed d.name) }
  /-- The check is reported with its own name, severity and blocking. -/
  | error {c : CheckCallable Data T} {e : Raised} (raises : c.Raises data e) (message : String) :
      Answers elapsed asset_name d data c (error_result asset_name d message)

/-- The run has a result for each check of the asset, in their order. -/
def Total (repr : String → String) (elapsed : String → T) (registry : CallableRegistry F Data T)
    (asset_name : String) (data : Data) : Prop :=
  ∃ results, run_checks_for_asset repr elapsed registry asset_name data = .ok results ∧
    List.Forall₂ (fun d result => ∃ c, registry.callables.lookup d.name = some c ∧
      Answers elapsed asset_name d data c result)
      (registry.get_checks_for_asset asset_name) results

/-! ### Which exceptions are contained -/

namespace Raised

/-- The exception has a text. -/
def Printed (e : Raised) : Prop := ∃ text, e.str = .ok text

/-- The runner makes a result of it. -/
def Caught (e : Raised) : Prop := e.cls.is_execution_error = true ∧ e.Printed

/-- A `CheckExecutionError` can be made of it, or asking for its text raises one. -/
def Wrapped (e : Raised) : Prop := e.Printed ∨ ∃ failure, e.str = .error failure ∧ failure.Caught

end Raised

/-- Neither an object of another type nor an exception gets out of the check. -/
def CheckCallable.Contained : CheckCallable Data T → Data → Prop
  | .asset_check check, data =>
    (∀ type_name, check.func data ≠ .ok (.other type_name)) ∧
      ∀ e, check.func data = .error e →
        (e.cls.is_validation_error = true → e.Caught) ∧
          (e.cls.is_validation_error = false → e.cls.is_exception = true ∧ e.Wrapped)
  | .inline_check check, data =>
    ∀ e, check.func data = .error e → e.cls.is_exception = true ∧ e.Wrapped

theorem report_eq_ok_iff {asset_name : String} {d : RegisteredCheck F} {e : Raised}
    {result : LocalResult T} : report asset_name d e = .ok result ↔
      e.cls.is_execution_error = true ∧
        ∃ text, e.str = .ok text ∧ error_result asset_name d text = result := by
  unfold report
  by_cases h : e.cls.is_execution_error = true
  · simp [h, Fallible.map_eq_ok_iff]
  · simp [h]

theorem exists_report_iff {asset_name : String} {d : RegisteredCheck F} {e : Raised} :
    (∃ result : LocalResult T, report asset_name d e = .ok result) ↔ e.Caught := by
  simp only [report_eq_ok_iff]
  constructor
  · intro h
    obtain ⟨_, hcls, text, htext, -⟩ := h
    exact ⟨hcls, text, htext⟩
  · intro h
    obtain ⟨hcls, text, htext⟩ := h
    exact ⟨_, hcls, text, htext, rfl⟩

/-- An exception for which a `CheckExecutionError` is raised. -/
theorem caught_execution_error_iff {check_name asset_name : String} {e : Raised} :
    (execution_error repr check_name asset_name e).Caught ↔ e.Wrapped := by
  unfold execution_error Raised.Wrapped Raised.Printed
  cases h : e.str with
  | ok text =>
    apply iff_of_true
    · exact ⟨rfl, _, rfl⟩
    · exact .inl ⟨text, rfl⟩
  | error failure => simp

/-- What gets past the `except` clauses of `AssetCheck`. -/
theorem caught_handle_iff {check : AssetCheck Data T} {e : Raised} :
    (check.handle repr e).Caught ↔
      (e.cls.is_validation_error = true → e.Caught) ∧
        (e.cls.is_validation_error = false → e.cls.is_exception = true ∧ e.Wrapped) := by
  unfold AssetCheck.handle
  by_cases hvalidation : e.cls.is_validation_error = true
  · simp [hvalidation]
  · by_cases hexception : e.cls.is_exception = true
    · simp [hvalidation, hexception, caught_execution_error_iff]
    · -- only an `Exception` can be a `CheckExecutionError`
      have hnot : ¬ e.Caught := fun h => hexception (e.cls.execution_derives h.1)
      simp [hvalidation, hexception, hnot]

section check

variable {asset_name : String} {d : RegisteredCheck F} {c : CheckCallable Data T} {data : Data}

theorem run_check_of_ok {result : LocalResult T}
    (h : c.call repr (elapsed d.name) data = .ok result) :
    run_check repr elapsed asset_name d c data = .ok result := by
  unfold run_check
  rw [h]

theorem run_check_of_error {e : Raised} (h : c.call repr (elapsed d.name) data = .error e) :
    run_check repr elapsed asset_name d c data = report asset_name d e := by
  unfold run_check
  rw [h]

/-! The calls by what the function does. -/

variable {check : AssetCheck Data T} {inline : InlineCheckCallable Data T} {time : T} {e : Raised}

theorem call_of_returned {returned : Returned T} (h : check.func data = .ok returned) :
    (CheckCallable.asset_check check).call repr time data =
      (check.result_of repr time returned).mapError (check.handle repr) := by
  simp [CheckCallable.call, AssetCheck.call, h]

theorem call_of_raised (h : check.func data = .error e) :
    (CheckCallable.asset_check check).call repr time data = .error (check.handle repr e) := by
  simp [CheckCallable.call, AssetCheck.call, h, Except.mapError]

theorem inline_call_of_result {result : LocalResult T} (h : inline.func data = .ok result) :
    (CheckCallable.inline_check inline).call repr time data =
      .ok { result with duration_ms := some time } := by
  simp [CheckCallable.call, InlineCheckCallable.call, h, Except.mapError]

theorem inline_call_of_raised (h : inline.func data = .error e) :
    (CheckCallable.inline_check inline).call repr time data =
      .error (if e.cls.is_exception then execution_error repr inline.name inline.asset e
        else e) := by
  simp [CheckCallable.call, InlineCheckCallable.call, h, Except.mapError]

/-- The runner has a result for a check from which nothing gets out, and for no other. -/
theorem exists_run_check_iff :
    (∃ result, run_check repr elapsed asset_name d c data = .ok result) ↔ c.Contained data := by
  cases c with
  | asset_check check =>
    unfold CheckCallable.Contained
    cases hfunc : check.func data with
    | ok returned =>
      have hcall := @call_of_returned _ _ repr data check (elapsed d.name) returned hfunc
      cases returned with
      | result result =>
        apply iff_of_true
        · exact ⟨_, run_check_of_ok hcall⟩
        · simp [hfunc]
      | bool value =>
        apply iff_of_true
        · cases value with
          | true => exact ⟨_, run_check_of_ok hcall⟩
          | false => exact ⟨_, run_check_of_ok hcall⟩
        · simp [hfunc]
      | other type_name =>
        -- the wrapper lets pass what it has raised itself
        apply iff_of_false
        · rw [run_check_of_error hcall, exists_report_iff]
          intro h
          cases h.1
        · simp [hfunc]
    | error e =>
      rw [run_check_of_error (call_of_raised hfunc), exists_report_iff, caught_handle_iff]
      simp [hfunc]
  | inline_check inline =>
    unfold CheckCallable.Contained
    cases hfunc : inline.func data with
    | ok result =>
      apply iff_of_true
      · exact ⟨_, run_check_of_ok (inline_call_of_result hfunc)⟩
      · simp [hfunc]
    | error e =>
      rw [run_check_of_error (inline_call_of_raised hfunc), exists_report_iff]
      by_cases hexception : e.cls.is_exception = true
      · simp [hfunc, hexception, caught_execution_error_iff]
      · have hnot : ¬ e.Caught := fun h => hexception (e.cls.execution_derives h.1)
        simp [hfunc, hexception, hnot]

/-- It is the check's own result, or reports what the check raised. -/
theorem answers_of_run_check {result : LocalResult T}
    (h : run_check repr elapsed asset_name d c data = .ok result) :
    Answers elapsed asset_name d data c result := by
  cases c with
  | asset_check check =>
    cases hfunc : check.func data with
    | ok returned =>
      have hcall := @call_of_returned _ _ repr data check (elapsed d.name) returned hfunc
      cases returned with
      | result result =>
        rw [run_check_of_ok hcall] at h
        cases h
        exact .result hfunc
      | bool value =>
        cases value with
        | true =>
          rw [run_check_of_ok hcall] at h
          cases h
          exact .passed hfunc
        | false =>
          rw [run_check_of_ok hcall] at h
          cases h
          exact .failed hfunc
      | other type_name =>
        rw [run_check_of_error hcall] at h
        cases (exists_report_iff.mp ⟨_, h⟩).1
    | error e =>
      have hraises : (CheckCallable.asset_check check).Raises data e := hfunc
      rw [run_check_of_error (call_of_raised hfunc)] at h
      obtain ⟨-, text, -, rfl⟩ := report_eq_ok_iff.mp h
      exact .error hraises text
  | inline_check inline =>
    cases hfunc : inline.func data with
    | ok result =>
      rw [run_check_of_ok (inline_call_of_result hfunc)] at h
      cases h
      exact .inline_result hfunc
    | error e =>
      have hraises : (CheckCallable.inline_check inline).Raises data e := hfunc
      rw [run_check_of_error (inline_call_of_raised hfunc)] at h
      obtain ⟨-, text, -, rfl⟩ := report_eq_ok_iff.mp h
      exact .error hraises text

end check

/-- The result of a turn of the loop that finds something to call. -/
def Gives (repr : String → String) (elapsed : String → T) (registry : CallableRegistry F Data T)
    (asset_name : String) (data : Data) (d : RegisteredCheck F) (result : LocalResult T) : Prop :=
  ∃ c, registry.callables.lookup d.name = some c ∧
    run_check repr elapsed asset_name d c data = .ok result

/-- The loop never comes to a check that cannot be called. -/
theorem run_checks_eq_ok_iff {registry : CallableRegistry F Data T} {asset_name : String}
    {data : Data} {results : List (LocalResult T)} :
    run_checks_for_asset repr elapsed registry asset_name data = .ok results ↔
      List.Forall₂ (Gives repr elapsed registry asset_name data)
        (registry.get_checks_for_asset asset_name) results := by
  have hstep : ∀ d ∈ registry.get_checks_for_asset asset_name,
      ∀ ys zs, append_result repr elapsed registry asset_name data ys d = .ok zs ↔
        ∃ result, Gives repr elapsed registry asset_name data d result ∧ zs = ys ++ [result] := by
    intro d hd ys zs
    obtain ⟨c, hc⟩ := registry.callable_of_mem hd
    simp only [append_result, Gives, hc, Option.some.injEq, exists_eq_left',
      Fallible.map_eq_ok_iff, @eq_comm _ zs]
  unfold run_checks_for_asset
  rw [Fallible.foldlM_append_eq_ok_iff hstep]
  simp

/-- **A run has a result for each check** exactly if nothing gets out of any of them. -/
theorem run_checks_total_iff (repr : String → String) (elapsed : String → T)
    (registry : CallableRegistry F Data T) (asset_name : String) (data : Data) :
    Total repr elapsed registry asset_name data ↔
      ∀ d ∈ registry.get_checks_for_asset asset_name, ∀ c,
        registry.callables.lookup d.name = some c → c.Contained data := by
  constructor
  · intro h d hd c hc
    obtain ⟨results, hrun, -⟩ := h
    obtain ⟨result, c', hc', hresult⟩ :=
      Fallible.exists_forall₂_iff.mp ⟨results, run_checks_eq_ok_iff.mp hrun⟩ d hd
    rw [hc] at hc'
    cases hc'
    exact exists_run_check_iff.mp ⟨result, hresult⟩
  · intro h
    have hgives : ∀ d ∈ registry.get_checks_for_asset asset_name,
        ∃ result, Gives repr elapsed registry asset_name data d result := by
      intro d hd
      obtain ⟨c, hc⟩ := registry.callable_of_mem hd
      obtain ⟨result, hresult⟩ := exists_run_check_iff.mpr (h d hd c hc)
      exact ⟨result, c, hc, hresult⟩
    obtain ⟨results, hresults⟩ := Fallible.exists_forall₂_iff.mpr hgives
    refine ⟨results, run_checks_eq_ok_iff.mpr hresults, hresults.imp ?_⟩
    intro d result hresult
    obtain ⟨c, hc, hresult⟩ := hresult
    exact ⟨c, hc, answers_of_run_check hresult⟩

end run

/-- A check that returns a text. -/
def returns_text : AssetCheck Unit Unit where
  func _ := .ok (.other "str")
  name := "returns_text"
  asset := "orders"
  severity := .Error
  blocking := true

/-- A check that passes. -/
def passes : AssetCheck Unit Unit := { returns_text with
  func := fun _ => .ok (.bool true)
  name := "passes" }

/-- The check that passes is registered first, and its result is lost all the same. -/
theorem run_checks_raises : ∃ registry : CallableRegistry Int Unit Unit,
    (CallableRegistry.empty.register (passes.definition "passes" "shop" none)
        (.asset_check passes) >>= fun registry =>
      registry.register (returns_text.definition "returns_text" "shop" none)
        (.asset_check returns_text)) = .ok registry ∧
      (registry.get_checks_for_asset "orders").map (·.name) = ["passes", "returns_text"] ∧
      (∃ text, run_checks_for_asset (fun text => "'" ++ text ++ "'") (fun _ => ()) registry
        "orders" () = .error (.printed .ServoValidationError text)) ∧
      ¬ Total (fun text => "'" ++ text ++ "'") (fun _ => ()) registry "orders" () := by
  refine ⟨_, rfl, rfl, ⟨_, rfl⟩, ?_⟩
  intro h
  obtain ⟨results, hrun, -⟩ := h
  cases hrun

end Servo.Python
