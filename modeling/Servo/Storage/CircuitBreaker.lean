import Mathlib.Algebra.Group.Nat.Defs
import Mathlib.Logic.Function.Basic
import Servo.Framework.System
import Servo.Framework.Text

/-! # The Circuit Breaker

    `DatabaseCircuitBreaker::call` enters the lock twice: before the function
    is executed, to find out whether the call is admitted, and afterwards, to
    record the result. In between other calls come and go, and a call may be
    dropped at any of its awaits, in which case nothing is recorded.

    `breaker_system` has one label for each of these steps and for the time
    that passes. Any number of calls may be under way; `ι` names them.
-/

namespace Servo

open LTS

/-! ### Configuration -/

/-- `CircuitBreakerConfig`; the timeout is in nanoseconds. -/
structure CircuitBreakerConfig where
  failure_threshold : Nat
  half_open_timeout : Nat
  deriving DecidableEq

/-- `Duration::from_secs`. -/
def from_secs (secs : Nat) : Nat := secs * 1000000000

def CircuitBreakerConfig.default : CircuitBreakerConfig where
  failure_threshold := 5 -- 5 consecutive failures
  half_open_timeout := from_secs 30

/-- Load configuration from environment variables with validation. -/
def CircuitBreakerConfig.from_env (env : String → Option String) (dependency : String) :
    CircuitBreakerConfig :=
  let failure_threshold :=
    ((env s!"SERVO_CB_{dependency.toUpper}_FAILURE_THRESHOLD").bind
      (Text.parse_unsigned (2 ^ 32))).getD 5
  let half_open_timeout_secs :=
    ((env s!"SERVO_CB_{dependency.toUpper}_HALF_OPEN_TIMEOUT_SECS").bind
      (Text.parse_unsigned (2 ^ 64))).getD 30
  { failure_threshold := if failure_threshold = 0 then 5 else failure_threshold
    half_open_timeout :=
      from_secs (if half_open_timeout_secs = 0 then 30 else half_open_timeout_secs) }

/-- What is loaded is valid, whatever the environment. -/
theorem CircuitBreakerConfig.from_env_valid (env : String → Option String) (dependency : String) :
    0 < (from_env env dependency).failure_threshold ∧
      (from_env env dependency).failure_threshold < 2 ^ 32 ∧
      0 < (from_env env dependency).half_open_timeout := by
  unfold from_env from_secs
  generalize hthreshold : ((env s!"SERVO_CB_{dependency.toUpper}_FAILURE_THRESHOLD").bind
    (Text.parse_unsigned (2 ^ 32))) = threshold
  generalize ((env s!"SERVO_CB_{dependency.toUpper}_HALF_OPEN_TIMEOUT_SECS").bind
    (Text.parse_unsigned (2 ^ 64))) = secs
  have hlt : threshold.getD 5 < 2 ^ 32 := by
    cases threshold with
    | none => decide
    | some value =>
      obtain ⟨text, -, hparse⟩ := Option.bind_eq_some_iff.mp hthreshold
      exact Text.parse_unsigned_lt hparse
  refine ⟨?_, ?_, ?_⟩
  · show 0 < if threshold.getD 5 = 0 then 5 else threshold.getD 5
    split <;> omega
  · show (if threshold.getD 5 = 0 then 5 else threshold.getD 5) < 2 ^ 32
    split
    · decide
    · exact hlt
  · show 0 < (if secs.getD 30 = 0 then 30 else secs.getD 30) * 1000000000
    split <;> omega

/-! ### The state of the breaker -/

inductive CircuitState where
  | Closed
  | Open
  deriving DecidableEq

structure CircuitBreakerState where
  state : CircuitState
  consecutive_failures : Nat
  last_failure_time : Option Nat
  /-- Guard to prevent multiple concurrent half-open probes. -/
  half_open_probe_in_progress : Bool
  deriving DecidableEq

inductive CircuitBreakerError (E : Type) where
  | CircuitOpen
  | Failure (error : E)
  deriving DecidableEq

namespace CircuitBreakerState

def new : CircuitBreakerState where
  state := .Closed
  consecutive_failures := 0
  last_failure_time := none
  half_open_probe_in_progress := false

/-- The first critical section of `call`: whether the call is a half-open probe, or `none` if it
    is rejected. -/
def enter (config : CircuitBreakerConfig) (now : Nat) (breaker : CircuitBreakerState) :
    Option (Bool × CircuitBreakerState) :=
  if breaker.state = .Open then
    -- Check if enough time has passed to try again (half-open)
    match breaker.last_failure_time with
    | some last_failure =>
      if now - last_failure < config.half_open_timeout then none
      else if breaker.half_open_probe_in_progress then none
      else some (true, { breaker with half_open_probe_in_progress := true })
    | none => some (false, breaker)
  else some (false, breaker)

/-- Success: reset failure count and close circuit. -/
def on_success : CircuitBreakerState := new

/-- Failure. The counter is a `u32`. -/
def on_failure (config : CircuitBreakerConfig) (now : Nat) (is_half_open_probe : Bool)
    (breaker : CircuitBreakerState) : CircuitBreakerState :=
  let consecutive_failures := (breaker.consecutive_failures + 1) % 2 ^ 32
  { state :=
      if config.failure_threshold ≤ consecutive_failures ∧ breaker.state = .Closed then .Open
      else breaker.state
    consecutive_failures
    last_failure_time := some now
    half_open_probe_in_progress :=
      if is_half_open_probe then false else breaker.half_open_probe_in_progress }

/-- The second critical section of `call`. -/
def record {T E : Type} (config : CircuitBreakerConfig) (now : Nat) (is_half_open_probe : Bool)
    (result : Except E T) (breaker : CircuitBreakerState) : CircuitBreakerState :=
  match result with
  | .ok _ => on_success
  | .error _ => on_failure config now is_half_open_probe breaker

/-- Check if the circuit breaker is currently open. -/
def is_open (config : CircuitBreakerConfig) (now : Nat) (breaker : CircuitBreakerState) : Bool :=
  breaker.state = .Open &&
    (breaker.last_failure_time.map fun t => decide (now - t < config.half_open_timeout)).getD
      false

section state
variable {config : CircuitBreakerConfig} {now : Nat} {breaker : CircuitBreakerState}

/-- A call is admitted as a probe only if none is in progress. -/
theorem enter_probe {breaker' : CircuitBreakerState}
    (h : breaker.enter config now = some (true, breaker')) :
    breaker.half_open_probe_in_progress = false ∧
      breaker' = { breaker with half_open_probe_in_progress := true } := by
  unfold enter at h
  split at h
  · split at h
    · simp only [Option.ite_none_left_eq_some, Option.some.injEq, Prod.mk.injEq, true_and] at h
      obtain ⟨-, hflag, rfl⟩ := h
      exact ⟨by simpa using hflag, rfl⟩
    · cases h
  · cases h

/-- And as any other call without a change. -/
theorem enter_normal {breaker' : CircuitBreakerState}
    (h : breaker.enter config now = some (false, breaker')) : breaker' = breaker := by
  unfold enter at h
  split at h
  · split at h
    · simp at h
    · cases h
      rfl
  · cases h
    rfl

/-- Without a probe in progress the timeout is all that a call has to wait for. -/
theorem enter_isSome_of_no_probe (hflag : breaker.half_open_probe_in_progress = false)
    (htimeout : ∀ last_failure, breaker.last_failure_time = some last_failure →
      config.half_open_timeout ≤ now - last_failure) :
    (breaker.enter config now).isSome = true := by
  unfold enter
  split
  · split
    · next last_failure hlast =>
      have hle := htimeout last_failure hlast
      rw [if_neg (by omega), hflag]
      rfl
    · rfl
  · rfl

variable {T E : Type} {is_half_open_probe : Bool}

/-- The guard after a result has been recorded: a success clears it, and so does a probe. -/
theorem record_guard (result : Except E T) :
    (breaker.record config now is_half_open_probe result).half_open_probe_in_progress =
      (breaker.half_open_probe_in_progress && !is_half_open_probe && !result.toBool) := by
  cases result with
  | ok value => simp [record, on_success, new, Except.toBool]
  | error error => cases is_half_open_probe <;> simp [record, on_failure, Except.toBool]

end state

end CircuitBreakerState

/-! ### Concurrent calls -/

/-- A call, from the first critical section to its end. -/
inductive BreakerCall (T E : Type) where
  | waiting
  | executing (is_half_open_probe : Bool)
  | returned (is_half_open_probe : Bool) (result : Except E T)
  | finished (result : Except (CircuitBreakerError E) T)
  | dropped

namespace BreakerCall
variable {T E : Type}

/-- A half-open probe that is still executing its function. -/
def executes_probe : BreakerCall T E → Bool
  | .executing is_half_open_probe => is_half_open_probe
  | _ => false

/-- A half-open probe that has not recorded its result yet. -/
def is_live_probe : BreakerCall T E → Bool
  | .executing is_half_open_probe => is_half_open_probe
  | .returned is_half_open_probe _ => is_half_open_probe
  | _ => false

/-- A call that has been admitted and has not recorded its result yet. -/
def in_flight : BreakerCall T E → Bool
  | .executing _ => true
  | .returned _ _ => true
  | _ => false

end BreakerCall

/-- The breaker, the clock and the calls. -/
structure BreakerCalls (ι T E : Type) where
  now : Nat
  breaker : CircuitBreakerState
  calls : ι → BreakerCall T E

inductive CallLabel (ι T E : Type) where
  /-- The first critical section. -/
  | enter (id : ι)
  /-- The function returns. -/
  | resolve (id : ι) (result : Except E T)
  /-- The second critical section. -/
  | record (id : ι)
  /-- The future is dropped at one of its awaits. -/
  | drop (id : ι)
  | tick (elapsed : Nat)

namespace BreakerCalls
variable {ι T E : Type} [DecidableEq ι]

/-- The call `id` is now `call`. -/
def set (s : BreakerCalls ι T E) (id : ι) (call : BreakerCall T E) : BreakerCalls ι T E :=
  { s with calls := Function.update s.calls id call }

def next (config : CircuitBreakerConfig) (s : BreakerCalls ι T E) :
    CallLabel ι T E → Option (BreakerCalls ι T E)
  | .enter id =>
    match s.calls id with
    | .waiting =>
      match s.breaker.enter config s.now with
      | some (is_half_open_probe, breaker) =>
        some ({ s with breaker }.set id (.executing is_half_open_probe))
      | none => some (s.set id (.finished (.error .CircuitOpen)))
    | _ => none
  | .resolve id result =>
    match s.calls id with
    | .executing is_half_open_probe => some (s.set id (.returned is_half_open_probe result))
    | _ => none
  | .record id =>
    match s.calls id with
    | .returned is_half_open_probe result =>
      some ({ s with breaker := s.breaker.record config s.now is_half_open_probe result }.set id
        (.finished (result.mapError .Failure)))
    | _ => none
  | .drop id => if (s.calls id).in_flight then some (s.set id .dropped) else none
  | .tick elapsed => some { s with now := s.now + elapsed }

def init (s : BreakerCalls ι T E) : Prop :=
  s.breaker = .new ∧ ∀ id, s.calls id = .waiting

end BreakerCalls

/-- Any number of calls of one breaker. -/
def breaker_system (ι T E : Type) [DecidableEq ι] (config : CircuitBreakerConfig) :
    System (BreakerCalls ι T E) (CallLabel ι T E) where
  init := BreakerCalls.init
  next := BreakerCalls.next config

/-! ### What one step does -/

namespace BreakerCalls
variable {ι T E : Type} [DecidableEq ι] {config : CircuitBreakerConfig}

section set
variable (s : BreakerCalls ι T E) (id : ι) (call : BreakerCall T E)

@[simp] theorem set_breaker : (s.set id call).breaker = s.breaker := rfl

@[simp] theorem set_now : (s.set id call).now = s.now := rfl

@[simp] theorem set_calls_self : (s.set id call).calls id = call := by simp [set]

theorem set_calls_of_ne {id' : ι} (h : id' ≠ id) : (s.set id call).calls id' = s.calls id' := by
  simp [set, h]

end set

/-- What one step does to the breaker and to the calls. -/
inductive Stepped (config : CircuitBreakerConfig) (s : BreakerCalls ι T E) :
    CallLabel ι T E → BreakerCalls ι T E → Prop where
  | admitted {id : ι} {is_half_open_probe : Bool} {breaker : CircuitBreakerState}
      (hcall : s.calls id = .waiting)
      (henter : s.breaker.enter config s.now = some (is_half_open_probe, breaker)) :
      Stepped config s (.enter id) ({ s with breaker }.set id (.executing is_half_open_probe))
  | rejected {id : ι} (hcall : s.calls id = .waiting)
      (henter : s.breaker.enter config s.now = none) :
      Stepped config s (.enter id) (s.set id (.finished (.error .CircuitOpen)))
  | resolved {id : ι} {is_half_open_probe : Bool} {result : Except E T}
      (hcall : s.calls id = .executing is_half_open_probe) :
      Stepped config s (.resolve id result) (s.set id (.returned is_half_open_probe result))
  | recorded {id : ι} {is_half_open_probe : Bool} {result : Except E T}
      (hcall : s.calls id = .returned is_half_open_probe result) :
      Stepped config s (.record id)
        ({ s with breaker := s.breaker.record config s.now is_half_open_probe result }.set id
          (.finished (result.mapError .Failure)))
  | dropped {id : ι} (hcall : (s.calls id).in_flight = true) :
      Stepped config s (.drop id) (s.set id .dropped)
  | ticked {elapsed : Nat} : Stepped config s (.tick elapsed) { s with now := s.now + elapsed }

theorem stepped_of_next {s s' : BreakerCalls ι T E} {l : CallLabel ι T E}
    (h : s.next config l = some s') : Stepped config s l s' := by
  cases l with
  | enter id =>
    simp only [next] at h
    split at h
    · next hcall =>
      split at h
      · next henter =>
        cases h
        exact .admitted hcall henter
      · next henter =>
        cases h
        exact .rejected hcall henter
    · cases h
  | resolve id result =>
    simp only [next] at h
    split at h
    · next hcall =>
      cases h
      exact .resolved hcall
    · cases h
  | record id =>
    simp only [next] at h
    split at h
    · next hcall =>
      cases h
      exact .recorded hcall
    · cases h
  | drop id =>
    simp only [next] at h
    split at h
    · next hcall =>
      cases h
      exact .dropped hcall
    · cases h
  | tick elapsed =>
    cases h
    exact .ticked

end BreakerCalls

end Servo
