import Servo.Core.TaskPayload
import Servo.Framework.Encoding

/-! # From the Queue to the Worker

    `CloudTasksQueue::enqueue` writes a task as JSON, signs the JSON, and hands
    its base64 text to Cloud Tasks as the body of a request.
    `execute_handler` of the worker verifies the signature over the body it
    receives, decodes the body from base64, and reads the JSON.

    Cloud Tasks may deliver the text as it stands, or the bytes it encodes. In
    the first case the signature is verified over another byte string than the
    one that was signed; in the second the body is JSON already, which base64
    does not decode. So a task arrives only if two different byte strings have
    the same authentication code.

    HMAC-SHA256 and `serde_json` are parameters.
-/

namespace Servo.TaskTransport

open Encoding

/-- `serde_json`, for task payloads. -/
structure SerdeJson where
  to_string : TaskPayload → Bytes
  from_slice : Bytes → Option TaskPayload

section

-- HMAC-SHA256 of a message under a secret
variable (hmac : String → Bytes → Bytes)

/-! ### Signatures -/

/-- `sign_payload`. -/
def sign_payload (payload : Bytes) (secret : String) : String := hex_encode (hmac secret payload)

/-- `SecurityError`. -/
inductive SecurityError where
  | InvalidFormat
  | VerificationFailed
  | MissingSignature
  deriving DecidableEq

/-- `verify_signature` of the worker. -/
def verify_signature (payload : Bytes) (signature_hex : String) (secret : String) :
    Except SecurityError Unit :=
  match hex_decode signature_hex with
  | none => .error .InvalidFormat
  | some signature_bytes =>
    if hmac secret payload = signature_bytes then .ok () else .error .VerificationFailed

/-! ### The queue -/

/-- The HTTP request of a task in Cloud Tasks. -/
structure HttpTask where
  url : String
  content_type : String
  x_servo_signature : String
  body : Bytes
  deriving DecidableEq

/-- The task that `create_cloud_task` sends to the Cloud Tasks API. -/
def create_cloud_task (target_url hmac_signature : String) (payload : Bytes) : HttpTask where
  url := target_url
  content_type := "application/json"
  x_servo_signature := hmac_signature
  body := base64_encode payload

/-- The task that results from `enqueue`. -/
def enqueue (serde : SerdeJson) (hmac_secret worker_url : String) (execution_id workflow_id : Uuid)
    (tenant_id : String) (idempotency_key : Option String) (execution_plan : List Uuid)
    (partition_context : Option PartitionExecutionContext) : HttpTask :=
  let payload : TaskPayload :=
    ⟨execution_id, workflow_id, tenant_id, idempotency_key, execution_plan, partition_context⟩
  let payload_bytes := serde.to_string payload
  -- Sign payload with HMAC for integrity verification
  let signature := sign_payload hmac payload_bytes hmac_secret
  create_cloud_task (worker_url ++ "/execute") signature payload_bytes

/-! ### Delivery -/

/-- What Cloud Tasks delivers of the body of a task. -/
inductive Delivery where
  | verbatim
  | decoded
  deriving DecidableEq

/-- The request the worker receives. -/
structure Request where
  authorization : Option String
  x_servo_signature : Option String
  body : Bytes
  deriving DecidableEq

/-- Cloud Tasks adds its OIDC token. -/
def deliver (delivery : Delivery) (token : String) (task : HttpTask) : Option Request :=
  let body : Option Bytes :=
    match delivery with
    | .verbatim => some task.body
    | .decoded => base64_decode task.body
  body.map fun body => ⟨some ("Bearer " ++ token), some task.x_servo_signature, body⟩

/-! ### The worker -/

/-- `ExecuteError`. -/
inductive ExecuteError where
  | MissingOidcToken
  | InvalidOidcToken
  | MissingSignature
  | InvalidSignature
  | InvalidPayload (message : String)
  | RateLimitExceeded
  deriving DecidableEq

/-- `AppState`, as far as the handler looks at it. -/
structure AppState where
  oidc_enabled : Bool
  validate_token : String → Bool
  /-- `get_all_valid_secrets`. -/
  valid_secrets : List String
  check_tenant : String → Bool

/-- What follows `"Bearer "`. -/
def strip_bearer (auth_header : String) : Option String :=
  if auth_header.toList.take 7 = "Bearer ".toList then
    some (String.ofList (auth_header.toList.drop 7))
  else none

/-- OIDC validation (caller identity). -/
def validate_oidc (state : AppState) (request : Request) : Except ExecuteError Unit :=
  if state.oidc_enabled then
    match request.authorization with
    | none => .error .MissingOidcToken
    | some auth_header =>
      match strip_bearer auth_header with
      | none => .error .InvalidOidcToken
      | some token => if state.validate_token token then .ok () else .error .InvalidOidcToken
  else .ok ()

/-- HMAC validation (payload integrity), with any valid secret. -/
def validate_hmac (state : AppState) (request : Request) : Except ExecuteError Unit :=
  match request.x_servo_signature with
  | none => .error .MissingSignature
  | some signature =>
    if state.valid_secrets.any (fun secret =>
        (verify_signature hmac request.body signature secret).toOption.isSome) then .ok ()
    else .error .InvalidSignature

/-- Decode base64 payload, and deserialize JSON. -/
def decode_payload (serde : SerdeJson) (body : Bytes) : Except ExecuteError TaskPayload :=
  match base64_decode body with
  | none => .error (.InvalidPayload "Invalid base64 encoding")
  | some decoded =>
    match serde.from_slice decoded with
    | none => .error (.InvalidPayload "Invalid JSON")
    | some payload => .ok payload

/-- `execute_handler`: the payload that is handed to `execute`. -/
def execute_handler (serde : SerdeJson) (state : AppState) (request : Request) :
    Except ExecuteError TaskPayload := do
  validate_oidc state request
  validate_hmac hmac state request
  let payload ← decode_payload serde request.body
  -- Per-tenant rate limiting (after auth, before expensive work)
  if state.check_tenant payload.tenant_id then return payload
  else throw .RateLimitExceeded

/-- The payload arrives at the worker, under one of the two deliveries. -/
def Arrives (serde : SerdeJson) (state : AppState) (hmac_secret worker_url token : String)
    (payload : TaskPayload) : Prop :=
  ∃ delivery request,
    deliver delivery token (enqueue hmac serde hmac_secret worker_url payload.execution_id
      payload.workflow_id payload.tenant_id payload.idempotency_key payload.execution_plan
      payload.partition_context) = some request ∧
    execute_handler hmac serde state request = .ok payload

/-- The worker takes requests with this token for this tenant. -/
def AppState.admits (state : AppState) (token tenant_id : String) : Bool :=
  (!state.oidc_enabled || state.validate_token token) && state.check_tenant tenant_id

/-- A secret of the worker gives the base64 text the code that the queue has given the JSON
    text. -/
def Collision (serde : SerdeJson) (state : AppState) (hmac_secret : String)
    (payload : TaskPayload) : Prop :=
  ∃ secret ∈ state.valid_secrets,
    hmac secret (base64_encode (serde.to_string payload)) =
      hmac hmac_secret (serde.to_string payload)

end

/-! ### What arrives -/

section

variable {hmac : String → Bytes → Bytes} {serde : SerdeJson} {state : AppState}
  {hmac_secret worker_url token : String} {payload : TaskPayload} {request : Request}

/-- A signature is valid for the byte strings that have its code. -/
theorem verify_signature_isSome_iff (body message : Bytes) (secret : String) :
    (verify_signature hmac body (sign_payload hmac message hmac_secret) secret).toOption.isSome =
      true ↔ hmac secret body = hmac hmac_secret message := by
  rw [verify_signature, sign_payload, hex_decode_encode]
  by_cases hcode : hmac secret body = hmac hmac_secret message
  · simp [hcode, Except.toOption]
  · simp [hcode, Except.toOption]

theorem strip_bearer_append (token : String) : strip_bearer ("Bearer " ++ token) = some token := by
  have hlength : "Bearer ".toList.length = 7 := by decide
  have htake : "Bearer ".toList.take 7 = "Bearer ".toList := by decide
  have hdrop : "Bearer ".toList.drop 7 = [] := by decide
  rw [strip_bearer, String.toList_append, List.take_append_of_le_length (by rw [hlength]),
    List.drop_append_of_le_length (by rw [hlength]), if_pos htake, hdrop, List.nil_append,
    String.ofList_toList]

theorem validate_oidc_bearer_iff (h : request.authorization = some ("Bearer " ++ token)) :
    validate_oidc state request = .ok () ↔
      (!state.oidc_enabled || state.validate_token token) = true := by
  rw [validate_oidc, h]
  simp only [strip_bearer_append]
  by_cases hoidc : state.oidc_enabled = true
  · by_cases htoken : state.validate_token token = true
    · simp [hoidc, htoken]
    · simp [hoidc, htoken]
  · simp [hoidc]

/-- The handler accepts a request exactly if each of its checks does. -/
theorem execute_handler_eq_ok_iff : execute_handler hmac serde state request = .ok payload ↔
    validate_oidc state request = .ok () ∧ validate_hmac hmac state request = .ok () ∧
      decode_payload serde request.body = .ok payload ∧
      state.check_tenant payload.tenant_id = true := by
  unfold execute_handler
  cases hoidc : validate_oidc state request with
  | error e => simp [bind, Except.bind]
  | ok _ =>
    cases hhmac : validate_hmac hmac state request with
    | error e => simp [bind, Except.bind]
    | ok _ =>
      cases hdecode : decode_payload serde request.body with
      | error e => simp [bind, Except.bind]
      | ok decoded =>
        by_cases htenant : state.check_tenant decoded.tenant_id = true
        · simp only [bind, Except.bind, htenant, if_true, pure, Except.pure, true_and]
          constructor
          · intro h
            cases h
            exact ⟨rfl, htenant⟩
          · exact fun h => h.1
        · simp only [bind, Except.bind, htenant, true_and]
          constructor
          · intro h
            cases h
          · intro ⟨h, htenant'⟩
            cases h
            exact absurd htenant' htenant

theorem validate_hmac_iff {body message : Bytes} {authorization : Option String} :
    validate_hmac hmac state
        ⟨authorization, some (sign_payload hmac message hmac_secret), body⟩ = .ok () ↔
      ∃ secret ∈ state.valid_secrets, hmac secret body = hmac hmac_secret message := by
  have hany : state.valid_secrets.any (fun secret => (verify_signature hmac body
      (sign_payload hmac message hmac_secret) secret).toOption.isSome) = true ↔
      ∃ secret ∈ state.valid_secrets, hmac secret body = hmac hmac_secret message := by
    rw [List.any_eq_true]
    simp only [verify_signature_isSome_iff]
  rw [validate_hmac, ← hany]
  dsimp only
  split
  · next hvalid => exact iff_of_true rfl hvalid
  · next hinvalid => exact iff_of_false (by simp) hinvalid

/-- JSON is not base64: its first byte is none of the symbols. -/
theorem base64_decode_json (hbrace : (serde.to_string payload).head? = some 123) :
    base64_decode (serde.to_string payload) = none := by
  cases htext : serde.to_string payload with
  | nil =>
    rw [htext] at hbrace
    cases hbrace
  | cons c text =>
    rw [htext] at hbrace
    cases hbrace
    exact base64_decode_of_head (by decide)

/-- The handler accepts the base64 text of a task exactly if it admits the request, and the
    signature of the JSON text is a signature of its base64 text as well. -/
theorem accepts_verbatim_iff (hround : serde.from_slice (serde.to_string payload) = some payload) :
    execute_handler hmac serde state ⟨some ("Bearer " ++ token),
        some (sign_payload hmac (serde.to_string payload) hmac_secret),
        base64_encode (serde.to_string payload)⟩ = .ok payload ↔
      state.admits token payload.tenant_id = true ∧
        Collision hmac serde state hmac_secret payload := by
  have hdecode : decode_payload serde (base64_encode (serde.to_string payload)) = .ok payload := by
    simp only [decode_payload, base64_decode_encode, hround]
  rw [execute_handler_eq_ok_iff, validate_oidc_bearer_iff rfl, validate_hmac_iff, hdecode,
    AppState.admits, Bool.and_eq_true]
  constructor
  · rintro ⟨hoidc, hcollision, -, htenant⟩
    exact ⟨⟨hoidc, htenant⟩, hcollision⟩
  · intro ⟨⟨hoidc, htenant⟩, hcollision⟩
    exact ⟨hoidc, hcollision, rfl, htenant⟩

/-- A task that arrives has been delivered verbatim: the decoded body is JSON text, which the
    handler cannot decode once more. -/
theorem accepts_verbatim_of_arrives (hbrace : (serde.to_string payload).head? = some 123)
    (h : Arrives hmac serde state hmac_secret worker_url token payload) :
    execute_handler hmac serde state ⟨some ("Bearer " ++ token),
      some (sign_payload hmac (serde.to_string payload) hmac_secret),
      base64_encode (serde.to_string payload)⟩ = .ok payload := by
  obtain ⟨delivery, request, hdeliver, hhandler⟩ := h
  cases delivery with
  | verbatim =>
    cases hdeliver
    exact hhandler
  | decoded =>
    obtain ⟨body, hbody, rfl⟩ := Option.map_eq_some_iff.mp hdeliver
    have hdecoded : base64_decode (base64_encode (serde.to_string payload)) = some body := hbody
    have hjson : body = serde.to_string payload :=
      Option.some.inj (hdecoded.symm.trans (base64_decode_encode _))
    have hpayload := (execute_handler_eq_ok_iff.mp hhandler).2.2.1
    rw [hjson, decode_payload, base64_decode_json hbrace] at hpayload
    cases hpayload

/-- A signed task arrives exactly if the worker admits the request, and the signature of the
    JSON text is a signature of its base64 text as well. -/
theorem arrives_iff_collision (hbrace : (serde.to_string payload).head? = some 123)
    (hround : serde.from_slice (serde.to_string payload) = some payload) :
    Arrives hmac serde state hmac_secret worker_url token payload ↔
      state.admits token payload.tenant_id = true ∧
        Collision hmac serde state hmac_secret payload := by
  constructor
  · intro harrives
    exact (accepts_verbatim_iff hround).mp (accepts_verbatim_of_arrives hbrace harrives)
  · intro hcollision
    exact ⟨.verbatim, _, rfl, (accepts_verbatim_iff hround).mpr hcollision⟩

end

/-! ### One task -/

/-- Execution `1` of workflow `7`. -/
def one_payload : TaskPayload := ⟨1, 7, "tenant", none, [], none⟩

def utf8 (text : String) : Bytes := text.toUTF8.data.toList

/-- The JSON text of `one_payload`. -/
def one_json : Bytes := utf8 ("\x7b\"execution_id\":\"00000000-0000-0000-0000-000000000001\"," ++
  "\"workflow_id\":\"00000000-0000-0000-0000-000000000007\",\"tenant_id\":\"tenant\"," ++
  "\"idempotency_key\":null,\"execution_plan\":[]\x7d")

/-- The JSON text of a payload, and the payload of its JSON text. -/
def table_serde (json : Bytes) (payload : TaskPayload) : SerdeJson where
  to_string := fun _ => json
  from_slice := fun text => if text = json then some payload else none

theorem table_serde_writes (json : Bytes) (payload : TaskPayload) :
    (table_serde json payload).to_string payload = json := rfl

theorem table_serde_reads (json : Bytes) (payload : TaskPayload) :
    (table_serde json payload).from_slice ((table_serde json payload).to_string payload) =
      some payload := if_pos rfl

def one_serde : SerdeJson := table_serde one_json one_payload

def one_secret : String := "0123456789abcdef0123456789abcdef"

/-- The values of HMAC-SHA256 under `one_secret` for the JSON text and for its base64 text. -/
def one_hmac (secret : String) (message : Bytes) : Bytes :=
  if secret = one_secret && message = one_json then
    [59, 146, 204, 47, 194, 12, 133, 245, 243, 98, 95, 137, 197, 170, 143, 164,
      208, 146, 224, 222, 13, 182, 192, 218, 146, 84, 171, 94, 38, 197, 231, 240]
  else if secret = one_secret && message = base64_encode one_json then
    [126, 140, 30, 31, 72, 242, 198, 76, 241, 119, 29, 134, 176, 21, 227, 108,
      159, 4, 246, 105, 6, 176, 203, 18, 71, 151, 174, 178, 31, 14, 7, 198]
  else []

/-- A worker that shares the secret, asks for no OIDC token, and has no rate limit. -/
def one_worker : AppState := ⟨false, fun _ => false, [one_secret], fun _ => true⟩

theorem one_json_starts : (one_serde.to_string one_payload).head? = some 123 := by decide +kernel

theorem one_json_reads : one_serde.from_slice (one_serde.to_string one_payload) =
    some one_payload := table_serde_reads one_json one_payload

theorem one_codes_differ :
    one_hmac one_secret (base64_encode one_json) ≠ one_hmac one_secret one_json := by
  decide +kernel

theorem one_collision_free :
    ¬ Collision one_hmac one_serde one_worker one_secret one_payload := by
  intro ⟨secret, hsecret, hcollision⟩
  have hjson : one_serde.to_string one_payload = one_json :=
    table_serde_writes one_json one_payload
  rw [List.mem_singleton.mp hsecret, hjson] at hcollision
  exact one_codes_differ hcollision

/-- The task does not arrive, for want of a collision. -/
theorem one_task_needs_collision :
    ¬ Arrives one_hmac one_serde one_worker one_secret "https://worker" "token" one_payload :=
  fun harrives =>
    one_collision_free ((arrives_iff_collision one_json_starts one_json_reads).mp harrives).2

/-- A signed task is rejected by a worker that shares the secret, delivered either way. -/
theorem signed_task_rejected :
    ¬ ∀ (hmac : String → Bytes → Bytes) (serde : SerdeJson) (state : AppState)
      (hmac_secret worker_url token : String) (payload : TaskPayload),
      (serde.to_string payload).head? = some 123 →
      serde.from_slice (serde.to_string payload) = some payload →
      hmac_secret ∈ state.valid_secrets → state.admits token payload.tenant_id = true →
      Arrives hmac serde state hmac_secret worker_url token payload := by
  intro hall
  have harrives : Arrives one_hmac one_serde one_worker one_secret "https://worker" "token"
      one_payload :=
    hall _ _ _ _ _ _ _ one_json_starts one_json_reads List.mem_cons_self rfl
  have haccepts := accepts_verbatim_of_arrives one_json_starts harrives
  obtain ⟨-, hcollision⟩ := (accepts_verbatim_iff one_json_reads).mp haccepts
  exact one_collision_free hcollision

end Servo.TaskTransport
