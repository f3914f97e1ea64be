import Servo.CloudGcp.Scheduler
import Servo.Framework.Projection
import Servo.Storage.BreakerCounts

/-! # Calls of the Cloud Tasks API

    `call_cloud_tasks_api` sends a request through the circuit breaker, up to
    three times. What the breaker takes for a failure is an `Err` of `send`,
    and that is a transport error: a response is `Ok` whatever its status.
    The policy, `should_trip_breaker`, is only asked afterwards, for the log.

    Any number of calls may be under way. Each attempt is a call of the
    breaker of its own, so that a run, seen from the breaker, is a run of
    `breaker_system`.
-/

namespace Servo

open LTS

namespace CloudTasks

/-! ### Responses and errors -/

def is_success (status : Nat) : Bool := 200 ≤ status && status < 300

def is_client_error (status : Nat) : Bool := 400 ≤ status && status < 500

def is_server_error (status : Nat) : Bool := 500 ≤ status && status < 600

/-- A response, as far as it is read. -/
structure HttpResponse where
  status : Nat
  /-- The header `retry-after`, if it is there and a text. -/
  retry_after : Option String
  body : String
  /-- What is at `name` in the body, if that is JSON. -/
  task_name : Except String (Option String)

/-- `reqwest::Error`. -/
structure ReqwestError where
  status : Option Nat
  is_timeout : Bool
  is_connect : Bool
  is_request : Bool
  message : String

/-- Helper to extract status code from an error. -/
def extract_status (error : ReqwestError) : Option Nat := error.status

/-- Helper to check if error is network-related. -/
def is_network_error (error : ReqwestError) : Bool :=
  error.is_timeout || error.is_connect || error.is_request

/-- Classifies whether an error should trip the circuit breaker. -/
def should_trip_breaker (status : Option Nat) (is_network_error : Bool) : Bool :=
  -- Network errors always trip the breaker
  if is_network_error then true
  else
    match status with
    | some status =>
      -- 5xx server errors
      if is_server_error status then true
      -- 429 rate limit
      else if status = 429 then true
      -- 4xx client errors (except 429), other status codes
      else false
    | none => false

/-- Whether what a request has come to should trip the breaker. -/
def trips : Except ReqwestError HttpResponse → Bool
  | .ok response => should_trip_breaker (some response.status) false
  | .error error => should_trip_breaker (extract_status error) (is_network_error error)

/-! ### One call -/

def MAX_RETRIES : Nat := 3
def INITIAL_BACKOFF_MS : Nat := 100

/-- `Duration::from_millis`. -/
def from_millis (millis : Nat) : Nat := millis * 1000000

/-- `call_cloud_tasks_api`, between two of its awaits. -/
inductive ApiCall where
  /-- Before the next attempt. -/
  | ready (attempt backoff_ms : Nat)
  /-- In the circuit breaker. -/
  | calling (attempt backoff_ms : Nat)
  | sleeping (attempt backoff_ms wake_at : Nat)
  | returned (result : Except GcpError String)
  | dropped

/-- The header as a number of milliseconds. -/
def retry_after_ms (response : HttpResponse) : Option Nat :=
  (response.retry_after.bind (Text.parse_unsigned (2 ^ 64))).map fun secs => secs * 1000 % 2 ^ 64

section after
variable (display : Nat → String) (random now attempt backoff_ms : Nat)

/-- What a response leads to; `random` is for the jitter. -/
def after_response (response : HttpResponse) : ApiCall :=
  let status := display response.status
  let body := response.body
  if is_success response.status then
    match response.task_name with
    | .error e => .returned (.error (.Api s!"Failed to parse response: {e}"))
    | .ok none => .returned (.error (.Api "No task name in response"))
    | .ok (some task_name) => .returned (.ok task_name)
  -- Rate limit (429) - retry with Retry-After header if available
  else if response.status = 429 then
    if MAX_RETRIES ≤ attempt then
      .returned (.error (.Api (s!"Cloud Tasks API failed after {MAX_RETRIES} attempts " ++
        s!"due to rate limiting. Last response: {status} - {body}")))
    else
      let backoff_ms' := if (retry_after_ms response).isNone then backoff_ms * 2 else backoff_ms
      .sleeping attempt backoff_ms'
        (now + from_millis ((retry_after_ms response).getD backoff_ms))
  -- Other client errors (4xx) - don't retry
  else if is_client_error response.status then
    .returned (.error (.Api s!"Cloud Tasks API returned {status}: {body}"))
  -- Server error (5xx) - retry with backoff
  else if is_server_error response.status then
    if MAX_RETRIES ≤ attempt then
      .returned (.error (.Api (s!"Cloud Tasks API failed after {MAX_RETRIES} attempts. " ++
        s!"Last response: {status} - {body}")))
    else
      let jitter := random % (backoff_ms / 2)
      .sleeping attempt (backoff_ms * 2) (now + from_millis (backoff_ms + jitter))
  else .returned (.error (.Api s!"Unexpected status from Cloud Tasks API: {status} - {body}"))

/-- Handle circuit breaker result. -/
def after_call (result : Except (CircuitBreakerError ReqwestError) HttpResponse) : ApiCall :=
  match result with
  | .ok response => after_response display random now attempt backoff_ms response
  | .error .CircuitOpen => .returned (.error (.Api "Cloud Tasks API circuit breaker is open"))
  | .error (.Failure e) => .returned (.error (.Internal ("HTTP request failed: " ++ e.message)))

end after

/-! ### Any number of calls -/

/-- The breaker, and the calls of the API. The breaker is called by a call and an attempt. -/
structure State where
  api : BreakerCalls (Nat × Nat) HttpResponse ReqwestError
  calls : Nat → ApiCall

inductive Label where
  | enter (call : Nat)
  /-- `send` returns. -/
  | send (call : Nat) (result : Except ReqwestError HttpResponse)
  | record (call random : Nat)
  | wake (call : Nat)
  | drop (call : Nat)
  | tick (elapsed : Nat)

/-- Where a call is after its breaker has taken a step. -/
def State.settle (display : Nat → String) (random call attempt backoff_ms : Nat) (s : State)
    (api : BreakerCalls (Nat × Nat) HttpResponse ReqwestError) : State where
  api
  calls := Function.update s.calls call <|
    match api.calls (call, attempt) with
    | .finished result => after_call display random api.now attempt backoff_ms result
    | _ => .calling attempt backoff_ms

def State.next (config : CircuitBreakerConfig) (display : Nat → String) (s : State) :
    Label → Option State
  | .enter call =>
    match s.calls call with
    | .ready attempt backoff_ms =>
      (s.api.next config (.enter (call, attempt + 1))).map
        (s.settle display 0 call (attempt + 1) backoff_ms)
    | _ => none
  | .send call result =>
    match s.calls call with
    | .calling attempt _ =>
      (s.api.next config (.resolve (call, attempt) result)).map fun api => { s with api }
    | _ => none
  | .record call random =>
    match s.calls call with
    | .calling attempt backoff_ms =>
      (s.api.next config (.record (call, attempt))).map
        (s.settle display random call attempt backoff_ms)
    | _ => none
  | .wake call =>
    match s.calls call with
    | .sleeping attempt backoff_ms wake_at =>
      if wake_at ≤ s.api.now then
        some { s with calls := Function.update s.calls call (.ready attempt backoff_ms) }
      else none
    | _ => none
  | .drop call =>
    match s.calls call with
    | .calling attempt _ =>
      (s.api.next config (.drop (call, attempt))).map fun api =>
        { api, calls := Function.update s.calls call .dropped }
    | .sleeping _ _ _ => some { s with calls := Function.update s.calls call .dropped }
    | _ => none
  | .tick elapsed => (s.api.next config (.tick elapsed)).map fun api => { s with api }

def State.init (s : State) : Prop :=
  s.api.init ∧ ∀ call, s.calls call = .ready 0 INITIAL_BACKOFF_MS

/-- The configuration of the queue's breaker. -/
def breaker_config (env : String → Option String) : CircuitBreakerConfig :=
  .from_env env "cloud_tasks"

/-- The calls of one `CloudTasksQueue`. -/
def cloud_tasks_system (env : String → Option String) (display : Nat → String) :
    System State Label where
  init := State.init
  next := State.next (breaker_config env) display

/-! ### Seen from the breaker -/

/-- The step of the breaker that a step contains. -/
def breaker_label (st : Step State Label) :
    Option (CallLabel (Nat × Nat) HttpResponse ReqwestError) :=
  match st.label with
  | .enter call =>
    match st.pre.calls call with
    | .ready attempt _ => some (.enter (call, attempt + 1))
    | _ => none
  | .send call result =>
    match st.pre.calls call with
    | .calling attempt _ => some (.resolve (call, attempt) result)
    | _ => none
  | .record call _ =>
    match st.pre.calls call with
    | .calling attempt _ => some (.record (call, attempt))
    | _ => none
  | .wake _ => none
  | .drop call =>
    match st.pre.calls call with
    | .calling attempt _ => some (.drop (call, attempt))
    | _ => none
  | .tick elapsed => some (.tick elapsed)

/-- The steps of the breaker in a run. -/
def breaker_steps (tr : List (Step State Label)) :
    List (BreakerCalls.BreakerStep (Nat × Nat) HttpResponse ReqwestError) :=
  project State.api breaker_label tr

section run
variable {env : String → Option String} {display : Nat → String} {tr : List (Step State Label)}
  {s : State}

/-- A step takes the step of the breaker that it contains, and leaves the breaker alone if it
    contains none. -/
theorem breaker_cases {s' : State} {l : Label}
    (hs : s.next (breaker_config env) display l = some s') :
    (∃ l', breaker_label ⟨s, l, s'⟩ = some l' ∧
      s.api.next (breaker_config env) l' = some s'.api) ∨
    (breaker_label ⟨s, l, s'⟩ = none ∧ s'.api = s.api) := by
  cases l with
  | enter call =>
    simp only [State.next] at hs
    split at hs
    · next hcall =>
      obtain ⟨api, hapi, rfl⟩ := Option.map_eq_some_iff.mp hs
      exact .inl ⟨_, by simp only [breaker_label, hcall], hapi⟩
    · cases hs
  | send call result =>
    simp only [State.next] at hs
    split at hs
    · next hcall =>
      obtain ⟨api, hapi, rfl⟩ := Option.map_eq_some_iff.mp hs
      exact .inl ⟨_, by simp only [breaker_label, hcall], hapi⟩
    · cases hs
  | record call random =>
    simp only [State.next] at hs
    split at hs
    · next hcall =>
      obtain ⟨api, hapi, rfl⟩ := Option.map_eq_some_iff.mp hs
      exact .inl ⟨_, by simp only [breaker_label, hcall], hapi⟩
    · cases hs
  | wake call =>
    simp only [State.next] at hs
    split at hs
    · split at hs
      · cases hs
        exact .inr ⟨rfl, rfl⟩
      · cases hs
    · cases hs
  | drop call =>
    simp only [State.next] at hs
    split at hs
    · next hcall =>
      obtain ⟨api, hapi, rfl⟩ := Option.map_eq_some_iff.mp hs
      exact .inl ⟨_, by simp only [breaker_label, hcall], hapi⟩
    · next hcall =>
      -- a call that sleeps between two attempts is not in the breaker
      cases hs
      exact .inr ⟨by simp only [breaker_label, hcall], rfl⟩
    · cases hs
  | tick elapsed =>
    simp only [State.next] at hs
    obtain ⟨api, hapi, rfl⟩ := Option.map_eq_some_iff.mp hs
    exact .inl ⟨_, rfl, hapi⟩

theorem breaker_step {s' : State} {l : Label}
    {l' : CallLabel (Nat × Nat) HttpResponse ReqwestError}
    (hs : s.next (breaker_config env) display l = some s')
    (hlabel : breaker_label ⟨s, l, s'⟩ = some l') :
    s.api.next (breaker_config env) l' = some s'.api := by
  rcases breaker_cases hs with ⟨l₁, hlabel₁, hnext⟩ | ⟨hnone, -⟩
  · rw [hlabel] at hlabel₁
    cases hlabel₁
    exact hnext
  · rw [hnone] at hlabel
    cases hlabel

theorem breaker_stutter {s' : State} {l : Label}
    (hs : s.next (breaker_config env) display l = some s')
    (hlabel : breaker_label ⟨s, l, s'⟩ = none) : s'.api = s.api := by
  rcases breaker_cases hs with ⟨l₁, hlabel₁, -⟩ | ⟨-, hsame⟩
  · rw [hlabel] at hlabel₁
    cases hlabel₁
  · exact hsame

/-- A run, seen from the breaker, is a run of the breaker. -/
theorem breaker_run (h : Run (cloud_tasks_system env display) tr s) :
    Run (breaker_system (Nat × Nat) HttpResponse ReqwestError (breaker_config env))
      (breaker_steps tr) s.api := by
  refine h.project (fun s hinit => ?_) (fun s l s' l' => breaker_step)
    fun s l s' => breaker_stutter
  exact And.left hinit

/-- **The breaker counts the tripping failures**, and opens when they reach the threshold, exactly
    as long as each result is an error if it trips and only then. -/
theorem counts_tripping_failures_iff (h : Run (cloud_tasks_system env display) tr s) :
    Along (BreakerCalls.CountsTripping (breaker_config env) trips) (breaker_steps tr) ↔
      Along (fun _ st => BreakerCalls.CountedRightly trips st) (breaker_steps tr) :=
  BreakerCalls.counts_tripping_iff (CircuitBreakerConfig.from_env_valid env "cloud_tasks").1
    (breaker_run h)

/-- No call has been made. -/
def quiet : State := ⟨⟨0, .new, fun _ => .waiting⟩, fun _ => .ready 0 INITIAL_BACKOFF_MS⟩

theorem quiet_init (env : String → Option String) (display : Nat → String) :
    (cloud_tasks_system env display).init quiet := ⟨⟨rfl, fun _ => rfl⟩, fun _ => rfl⟩

def status_line (status : Nat) : String := status.repr

def answer (status : Nat) : Except ReqwestError HttpResponse :=
  .ok ⟨status, none, "", .error "expected value"⟩

def refused : Except ReqwestError HttpResponse :=
  .error ⟨none, false, true, true, "error sending request"⟩

/-- A request is rejected, and two do not reach the service. -/
def bad_connection : List Label :=
  [.enter 0, .send 0 (answer 404), .record 0 0, .enter 1, .enter 2, .send 1 refused, .record 1 0,
    .send 2 refused, .record 2 0]

theorem bad_connection_opens : ∃ tr s,
    Run (cloud_tasks_system (fun _ => some "2") status_line) tr s ∧
    s.api.breaker.state = .Open ∧
    Along (BreakerCalls.CountsTripping (breaker_config fun _ => some "2") trips)
      (breaker_steps tr) := by
  obtain ⟨tr, s, hrun, htest⟩ :=
    (cloud_tasks_system (fun _ => some "2") status_line).exists_run_of_replay bad_connection
      (fun tr s => along_test (fun _ st => decide (BreakerCalls.CountedRightly trips st))
        (breaker_steps tr) && decide (s.api.breaker.state = .Open)) (quiet_init _ _)
      (by decide +kernel)
  rw [Bool.and_eq_true, decide_eq_true_eq] at htest
  refine ⟨tr, s, hrun, htest.2, (counts_tripping_failures_iff hrun).mpr ?_⟩
  exact (along_of_test htest.1).mono fun _ _ h => of_decide_eq_true h

/-- The service answers all three attempts of a call with an error. -/
def unavailable : List Label :=
  [.enter 0, .send 0 (answer 503), .record 0 0, .tick (from_millis 100), .wake 0,
    .enter 0, .send 0 (answer 503), .record 0 0, .tick (from_millis 200), .wake 0,
    .enter 0, .send 0 (answer 503), .record 0 0]

theorem unavailable_is_not_counted : ∃ tr s,
    Run (cloud_tasks_system (fun _ => some "3") status_line) tr s ∧
    s.api.breaker.consecutive_failures = 0 ∧ s.api.breaker.state = .Closed ∧
    BreakerCalls.trailing trips (BreakerCalls.outcomes (breaker_steps tr)) = 3 ∧
    ¬ Along (BreakerCalls.CountsTripping (breaker_config fun _ => some "3") trips)
      (breaker_steps tr) := by
  obtain ⟨tr, s, hrun, htest⟩ :=
    (cloud_tasks_system (fun _ => some "3") status_line).exists_run_of_replay unavailable
      (fun tr s => decide (s.api.breaker.consecutive_failures = 0) &&
        decide (s.api.breaker.state = .Closed) &&
        decide (BreakerCalls.trailing trips (BreakerCalls.outcomes (breaker_steps tr)) = 3))
      (quiet_init _ _) (by decide +kernel)
  simp only [Bool.and_eq_true, decide_eq_true_eq] at htest
  obtain ⟨⟨hcount, hclosed⟩, htrailing⟩ := htest
  refine ⟨tr, s, hrun, hcount, hclosed, htrailing, fun hcounts => ?_⟩
  have hcounter := BreakerCalls.counter_of_along (breaker_run hrun) hcounts
  omega

end run

/-! ### Which results are counted rightly -/

/-- A response is never counted; it would have to be, if its status is 429 or a 5xx. -/
theorem trips_response_iff (response : HttpResponse) :
    trips (.ok response) = true ↔
      is_server_error response.status = true ∨ response.status = 429 := by
  unfold trips should_trip_breaker
  simp only [Bool.false_eq_true, if_false]
  by_cases hserver : is_server_error response.status = true
  · simp [hserver]
  · simp [hserver]

/-- An error of the transport is always counted; timeouts, failed connections and failed requests
    have to be. -/
theorem trips_of_network_error {error : ReqwestError} (h : is_network_error error = true) :
    trips (.error error) = true := by
  show should_trip_breaker (extract_status error) (is_network_error error) = true
  unfold should_trip_breaker
  rw [if_pos h]

end CloudTasks

end Servo
