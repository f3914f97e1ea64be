import Servo.Framework.KeyedMachines
import Servo.Worker.TaskTransport

/-! # Rate Limits of the Tenants

    The worker limits how many requests it takes of a tenant. Both handlers
    consult the limiter of the tenant once they have authenticated a request,
    and the limiter of a tenant is made when it is consulted first.

    So tenants cannot use up the limits of each other, and requests that are
    not authenticated do not use up any: what the worker takes of a tenant is
    what a limiter would admit that sees nothing but the authenticated requests
    of this tenant.

    The limiters themselves are those of `governor`, which is a parameter.
-/

namespace Servo.RateLimiter

open KeyedMachines TaskTransport Encoding

/-! ### The limiters -/

/-- `Quota` of `governor`: the size of a burst, and the time that one request needs. -/
structure Quota where
  max_burst : Nat
  replenish_1_per : Nat

/-- `Quota::per_second`, in nanoseconds. -/
def Quota.per_second (max_burst : Nat) : Quota := ⟨max_burst, 1000000000 / max_burst⟩

/-- A limiter of `governor`, by its states: how one is made at a time, and whether it admits a
    request at a time. -/
structure Governor (σ : Type) where
  direct : Quota → Nat → σ
  check : σ → Nat → Bool × σ

/-- `TenantRateLimiterConfig`; zero is rejected when it is loaded. -/
structure TenantRateLimiterConfig where
  requests_per_second : Nat
  positive : 0 < requests_per_second

/-- `RateLimitError`, of a tenant. -/
inductive RateLimitError where
  | TenantLimitExceeded (tenant_id : String) (limit_per_second : Nat)
  deriving DecidableEq

section

variable {σ : Type} (governor : Governor σ) (config : TenantRateLimiterConfig)

/-- The limiter of a tenant. -/
def limiter : Machine σ Nat Bool where
  start := governor.direct (Quota.per_second config.requests_per_second)
  step := governor.check

/-- `check_tenant`: get or create the limiter of the tenant, and check it. -/
def check_tenant (limiters : List (String × σ)) (tenant_id : String) (now : Nat) :
    Except RateLimitError Unit × List (String × σ) :=
  let checked := feed (limiter governor config) limiters tenant_id now
  (if checked.1 then .ok ()
    else .error (.TenantLimitExceeded tenant_id config.requests_per_second), checked.2)

/-! ### The handlers -/

/-- `SchedulerPayload`. -/
structure SchedulerPayload where
  workflow_id : Uuid
  tenant_id : String
  triggered_by : String
  deriving DecidableEq

/-- `SchedulerExecuteError`. -/
inductive SchedulerExecuteError where
  | MissingOidcToken
  | InvalidOidcToken
  | WorkflowIdMismatch
  | RateLimitExceeded (error : RateLimitError)
  deriving DecidableEq

/-- What `scheduler_execute_handler` does before it consults the limiter. -/
def authenticate_scheduler (state : AppState) (workflow_id : Uuid)
    (authorization : Option String) (payload : SchedulerPayload) :
    Except SchedulerExecuteError SchedulerPayload := do
  if state.oidc_enabled then
    match authorization with
    | none => throw .MissingOidcToken
    | some auth_header =>
      match strip_bearer auth_header with
      | none => throw .InvalidOidcToken
      | some token => if state.validate_token token then pure () else throw .InvalidOidcToken
  -- Validate payload workflow_id matches path
  if payload.workflow_id ≠ workflow_id then throw .WorkflowIdMismatch
  return payload

/-- What `execute_handler` does before it consults the limiter. -/
def authenticate (hmac : String → Bytes → Bytes) (serde : SerdeJson) (state : AppState)
    (request : Request) : Except ExecuteError TaskPayload := do
  validate_oidc state request
  validate_hmac hmac state request
  decode_payload serde request.body

/-- Per-tenant rate limiting (after auth, before expensive work). -/
def limited {ε α : Type} (limiters : List (String × σ)) (now : Nat) (authenticated : Except ε α)
    (tenant_id : α → String) (exceeded : RateLimitError → ε) :
    Except ε α × List (String × σ) :=
  match authenticated with
  | .error e => (.error e, limiters)
  | .ok payload =>
    let checked := check_tenant governor config limiters (tenant_id payload) now
    match checked.1 with
    | .error e => (.error (exceeded e), checked.2)
    | .ok () => (.ok payload, checked.2)

/-- A request to the worker, with the state it is handled in, and the time. What the state says of
    limits is not used. -/
inductive Arrival where
  | execute (state : AppState) (request : Request) (now : Nat)
  | scheduler_execute (state : AppState) (workflow_id : Uuid) (authorization : Option String)
      (payload : SchedulerPayload) (now : Nat)

/-- What a handler returns. -/
inductive Response where
  | execute (result : Except ExecuteError TaskPayload)
  | scheduler_execute (result : Except SchedulerExecuteError SchedulerPayload)

/-- The request is executed. -/
def Response.accepted : Response → Bool
  | .execute result => result.toOption.isSome
  | .scheduler_execute result => result.toOption.isSome

def Arrival.now : Arrival → Nat
  | .execute _ _ now => now
  | .scheduler_execute _ _ _ _ now => now

variable (hmac : String → Bytes → Bytes) (serde : SerdeJson)

/-- The tenant of a request, once the request is authenticated. -/
def Arrival.tenant? : Arrival → Option String
  | .execute state request _ => (authenticate hmac serde state request).toOption.map (·.tenant_id)
  | .scheduler_execute state workflow_id authorization payload _ =>
    (authenticate_scheduler state workflow_id authorization payload).toOption.map (·.tenant_id)

/-- `execute_handler` and `scheduler_execute_handler`, with the limiters of the worker. -/
def handle (limiters : List (String × σ)) : Arrival → Response × List (String × σ)
  | .execute state request now =>
    let result := limited governor config limiters now (authenticate hmac serde state request)
      (·.tenant_id) fun _ => .RateLimitExceeded
    (.execute result.1, result.2)
  | .scheduler_execute state workflow_id authorization payload now =>
    let result := limited governor config limiters now
      (authenticate_scheduler state workflow_id authorization payload) (·.tenant_id)
      .RateLimitExceeded
    (.scheduler_execute result.1, result.2)

/-- The responses to requests, in the order in which they reach the limiters. -/
def handle_all : List (String × σ) → List Arrival → List Response
  | _, [] => []
  | limiters, arrival :: arrivals =>
    (handle governor config hmac serde limiters arrival).1 ::
      handle_all (handle governor config hmac serde limiters arrival).2 arrivals

/-- The limiters after that. -/
def limiters_after : List (String × σ) → List Arrival → List (String × σ)
  | limiters, [] => limiters
  | limiters, arrival :: arrivals =>
    limiters_after (handle governor config hmac serde limiters arrival).2 arrivals

end

/-! ### One request -/

section

variable {σ : Type} {governor : Governor σ} {config : TenantRateLimiterConfig}
  {hmac : String → Bytes → Bytes} {serde : SerdeJson}

/-- The handler that is modelled with one decision for each tenant is this one, when the decision
    is that of the limiters. -/
theorem execute_handler_eq (limiters : List (String × σ)) (state : AppState) (request : Request)
    (now : Nat) :
    execute_handler hmac serde
        { state with check_tenant := fun tenant_id =>
            (check_tenant governor config limiters tenant_id now).1.toOption.isSome } request =
      (limited governor config limiters now (authenticate hmac serde state request)
        (·.tenant_id) fun _ => .RateLimitExceeded).1 := by
  show (do
    validate_oidc state request
    validate_hmac hmac state request
    let payload ← decode_payload serde request.body
    if (check_tenant governor config limiters payload.tenant_id now).1.toOption.isSome
    then return payload else throw ExecuteError.RateLimitExceeded) = _
  unfold authenticate limited
  cases validate_oidc state request with
  | error e => rfl
  | ok _ =>
    cases validate_hmac hmac state request with
    | error e => rfl
    | ok _ =>
      cases decode_payload serde request.body with
      | error e => rfl
      | ok payload =>
        simp only [bind, Except.bind]
        cases (check_tenant governor config limiters payload.tenant_id now).1 with
        | error e => rfl
        | ok _ => rfl

/-- What is done with a request that is not authenticated, and with one that is: then the limiter
    of the tenant is fed, and decides. -/
theorem limited_cases {ε α : Type} (limiters : List (String × σ)) (now : Nat)
    (authenticated : Except ε α) (tenant_id : α → String) (exceeded : RateLimitError → ε) :
    (authenticated.toOption.map tenant_id = none ∧
        (limited governor config limiters now authenticated tenant_id
          exceeded).1.toOption.isSome = false ∧
        (limited governor config limiters now authenticated tenant_id exceeded).2 = limiters) ∨
      ∃ tenant, authenticated.toOption.map tenant_id = some tenant ∧
        (limited governor config limiters now authenticated tenant_id
            exceeded).1.toOption.isSome =
          (feed (limiter governor config) limiters tenant now).1 ∧
        (limited governor config limiters now authenticated tenant_id exceeded).2 =
          (feed (limiter governor config) limiters tenant now).2 := by
  cases authenticated with
  | error e => exact .inl ⟨rfl, rfl, rfl⟩
  | ok payload =>
    refine .inr ⟨tenant_id payload, rfl, ?_⟩
    unfold limited check_tenant
    cases hfeed : (feed (limiter governor config) limiters (tenant_id payload) now).1 with
    | true => simp [hfeed, Except.toOption]
    | false => simp [hfeed, Except.toOption]

/-- Both handlers do the same, each with its own errors. -/
theorem handle_cases (limiters : List (String × σ)) (arrival : Arrival) :
    (arrival.tenant? hmac serde = none ∧
        (handle governor config hmac serde limiters arrival).1.accepted = false ∧
        (handle governor config hmac serde limiters arrival).2 = limiters) ∨
      ∃ tenant_id, arrival.tenant? hmac serde = some tenant_id ∧
        (handle governor config hmac serde limiters arrival).1.accepted =
          (feed (limiter governor config) limiters tenant_id arrival.now).1 ∧
        (handle governor config hmac serde limiters arrival).2 =
          (feed (limiter governor config) limiters tenant_id arrival.now).2 := by
  cases arrival with
  | execute state request now =>
    exact limited_cases limiters now (authenticate hmac serde state request) _ _
  | scheduler_execute state workflow_id authorization payload now =>
    exact limited_cases limiters now
      (authenticate_scheduler state workflow_id authorization payload) _ _

/-! ### All requests -/

/-- What is decided of the requests of a tenant. -/
def decisions (hmac : String → Bytes → Bytes) (serde : SerdeJson) (tenant_id : String)
    (handled : List (Arrival × Response)) : List Bool :=
  (handled.filter fun h => h.1.tenant? hmac serde = some tenant_id).map (·.2.accepted)

/-- The times of the authenticated requests of a tenant. -/
def times (hmac : String → Bytes → Bytes) (serde : SerdeJson) (tenant_id : String)
    (arrivals : List Arrival) : List Nat :=
  (arrivals.filter fun arrival => arrival.tenant? hmac serde = some tenant_id).map (·.now)

/-- From any limiters on, a tenant is decided on as if its limiter were alone. -/
theorem decisions_handle_all (tenant_id : String) (arrivals : List Arrival)
    (limiters : List (String × σ)) :
    decisions hmac serde tenant_id
        (arrivals.zip (handle_all governor config hmac serde limiters arrivals)) =
      alone (limiter governor config) (limiters.lookup tenant_id)
        (times hmac serde tenant_id arrivals) := by
  induction arrivals generalizing limiters with
  | nil => rfl
  | cons arrival arrivals ih =>
    rw [handle_all, List.zip_cons_cons]
    obtain ⟨hnone, _, hlimiters⟩ | ⟨tenant_id', hsome, hdecision, hlimiters⟩ :=
      @handle_cases σ governor config hmac serde limiters arrival
    · -- no limiter is consulted
      have hne : ¬ arrival.tenant? hmac serde = some tenant_id := by
        rw [hnone]
        nofun
      rw [hlimiters]
      simp only [decisions, times, List.filter_cons, hne, decide_false, Bool.false_eq_true,
        if_false]
      exact ih limiters
    · by_cases heq : tenant_id' = tenant_id
      · subst heq
        rw [hlimiters]
        simp only [decisions, times, List.filter_cons, hsome, decide_true, if_true, List.map_cons,
          alone_cons, hdecision, feed_fst]
        rw [← lookup_feed_self]
        exact congrArg _ (ih _)
      · -- the limiter of another tenant
        have hne : ¬ arrival.tenant? hmac serde = some tenant_id := by
          rw [hsome]
          simpa using heq
        rw [hlimiters]
        simp only [decisions, times, List.filter_cons, hne, decide_false, Bool.false_eq_true,
          if_false]
        rw [← lookup_feed_of_ne limiters (Ne.symm heq) arrival.now]
        exact ih _

/-- A request that is not authenticated is not executed. -/
theorem rejected_handle_all (arrivals : List Arrival) (limiters : List (String × σ)) :
    ∀ h ∈ arrivals.zip (handle_all governor config hmac serde limiters arrivals),
      h.1.tenant? hmac serde = none → h.2.accepted = false := by
  induction arrivals generalizing limiters with
  | nil => exact fun _ hmem => absurd hmem List.not_mem_nil
  | cons arrival arrivals ih =>
    intro h hmem hnone
    rw [handle_all, List.zip_cons_cons, List.mem_cons] at hmem
    obtain rfl | hrest := hmem
    · obtain ⟨_, hrejected, _⟩ | ⟨tenant_id, hsome, _⟩ :=
        @handle_cases σ governor config hmac serde limiters arrival
      · exact hrejected
      · rw [hsome] at hnone
        cases hnone
    · exact ih _ h hrest hnone

theorem keys_limiters_after (arrivals : List Arrival) {limiters : List (String × σ)}
    (h : (limiters.map Prod.fst).Nodup) :
    ((limiters_after governor config hmac serde limiters arrivals).map Prod.fst).Nodup ∧
      ∀ tenant_id, tenant_id ∈
          (limiters_after governor config hmac serde limiters arrivals).map Prod.fst ↔
        tenant_id ∈ limiters.map Prod.fst ∨
          ∃ arrival ∈ arrivals, arrival.tenant? hmac serde = some tenant_id := by
  induction arrivals generalizing limiters with
  | nil => exact ⟨h, by simp [limiters_after]⟩
  | cons arrival arrivals ih =>
    rw [limiters_after]
    simp only [List.exists_mem_cons_iff]
    obtain ⟨hnone, _, hlimiters⟩ | ⟨tenant_id', hsome, _, hlimiters⟩ :=
      @handle_cases σ governor config hmac serde limiters arrival
    · rw [hlimiters, hnone]
      simpa using ih h
    · rw [hlimiters, hsome]
      obtain ⟨hnodup, hmem⟩ := ih (nodup_feed h tenant_id' arrival.now)
      refine ⟨hnodup, ?_⟩
      intro tenant_id
      rw [hmem, mem_keys_feed, Option.some.injEq, or_assoc, eq_comm]

end

end Servo.RateLimiter
