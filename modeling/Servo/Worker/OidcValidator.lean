import Servo.Framework.SharedCache

/-! # OIDC Tokens at the Worker

    `OidcValidator::validate_token` verifies the token of a request with a
    public key of the issuer. It keeps the key set of the issuer for an hour,
    and fetches it again when the set has expired or lacks the key that a token
    names. Requests are validated concurrently, and none waits for a fetch of
    another.

    So a key that the issuer withdraws is accepted for a while: as long as the
    set is kept, and as long as its fetch may have taken before. No token is
    accepted later than that, in no order of the requests, and also if the
    issuer cannot be reached.

    `jsonwebtoken` is a parameter, as are the sets the issuer publishes and the
    clock of the day.
-/

namespace Servo.Oidc

open LTS SharedCache

/-! ### Tokens and keys -/

/-- JWKS cache TTL (1 hour), in nanoseconds. -/
def JWKS_TTL : Nat := 3600000000000

/-- The timeout of a request for the key set (10 seconds). -/
def FETCH_TIMEOUT : Nat := 10000000000

/-- `Claims`. -/
structure Claims where
  iss : String
  aud : String
  exp : Int
  iat : Int
  nbf : Option Int
  email : String
  deriving DecidableEq

/-- A key of a set: the `kid` of its common parameters, and the rest. -/
structure Jwk where
  key_id : Option String
  parameters : String
  deriving DecidableEq

/-- `OidcConfig`, as far as it is used here. -/
structure OidcConfig where
  enabled : Bool
  issuer : String
  expected_audience : String

/-- What is used of `jsonwebtoken`; errors by their texts. -/
structure JsonWebToken (Key : Type) where
  /-- The `kid` of the header. -/
  decode_header : String → Except String (Option String)
  from_jwk : Jwk → Except String Key
  /-- `decode` at a time, with a validation for an audience and an issuer. -/
  decode : String → Key → String → String → Int → Except String Claims

/-- The key of a set that a token names. -/
def find_key (keys : List Jwk) (kid : String) : Option Jwk :=
  keys.find? fun k => k.key_id = some kid

/-- `verify_claims`. -/
def verify_claims (now : Int) (claims : Claims) : Except String Unit :=
  if claims.exp < now then
    .error ("Token expired (exp: " ++ toString claims.exp ++ ", now: " ++ toString now ++ ")")
  else if claims.nbf.any (fun nbf => now < nbf) then
    .error ("Token not yet valid (nbf: " ++ toString (claims.nbf.getD 0) ++ ", now: " ++
      toString now ++ ")")
  -- An issue time far from now is only warned of
  else if claims.email = "" then .error "Token missing 'email' claim"
  else .ok ()

theorem verify_claims_eq_ok_iff {now : Int} {claims : Claims} :
    verify_claims now claims = .ok () ↔
      now ≤ claims.exp ∧ (∀ nbf, claims.nbf = some nbf → nbf ≤ now) ∧ claims.email ≠ "" := by
  unfold verify_claims
  by_cases hexp : claims.exp < now
  · have hnle : ¬ now ≤ claims.exp := by omega
    simp [hexp, hnle]
  · have hle : now ≤ claims.exp := by omega
    cases hnbf : claims.nbf with
    | none => by_cases hemail : claims.email = "" <;> simp [hexp, hle, hemail]
    | some nbf =>
      by_cases hlt : now < nbf
      · have hnle : ¬ nbf ≤ now := by omega
        simp [hexp, hlt, hnle]
      · have hbegun : nbf ≤ now := by omega
        by_cases hemail : claims.email = "" <;> simp [hexp, hlt, hle, hbegun, hemail]

section

variable {Key : Type} (jwt : JsonWebToken Key) (config : OidcConfig)

/-- What `validate_token` does before it looks for the key: the `kid` of the token. -/
def token_kid (token : String) : Except String String :=
  if config.enabled then
    match jwt.decode_header token with
    | .error e => .error ("Invalid token header: " ++ e)
    | .ok none => .error "Token missing 'kid' (Key ID)"
    | .ok (some kid) => .ok kid
  else .error "OIDC validation is disabled"

/-- What it does once it has a key set, at a time of the day. -/
def verify (now : Int) (keys : List Jwk) (token kid : String) : Except String Claims :=
  match find_key keys kid with
  | none => .error ("Key ID '" ++ kid ++ "' not found in JWKS")
  | some jwk =>
    match jwt.from_jwk jwk with
    | .error e => .error ("Failed to create decoding key: " ++ e)
    | .ok key =>
      match jwt.decode token key config.expected_audience config.issuer now with
      | .error e => .error ("Token validation failed: " ++ e)
      | .ok claims =>
        match verify_claims now claims with
        | .error e => .error e
        | .ok () => .ok claims

/-- A token is valid at a time of the day, by a key of the set. -/
structure Valid (now : Int) (keys : List Jwk) (token kid : String) (claims : Claims) : Prop where
  signed : ∃ jwk key, find_key keys kid = some jwk ∧ jwt.from_jwk jwk = .ok key ∧
    jwt.decode token key config.expected_audience config.issuer now = .ok claims
  unexpired : now ≤ claims.exp
  begun : ∀ nbf, claims.nbf = some nbf → nbf ≤ now
  email : claims.email ≠ ""

theorem verify_eq_ok_iff {now : Int} {keys : List Jwk} {token kid : String} {claims : Claims} :
    verify jwt config now keys token kid = .ok claims ↔
      Valid jwt config now keys token kid claims := by
  constructor
  · intro h
    unfold verify at h
    split at h
    · cases h
    · next jwk hfind =>
      split at h
      · cases h
      · next key hkey =>
        split at h
        · cases h
        · next claims' hdecode =>
          split at h
          · cases h
          · next hclaims =>
            cases h
            obtain ⟨hunexpired, hbegun, hemail⟩ := verify_claims_eq_ok_iff.mp hclaims
            exact ⟨⟨jwk, key, hfind, hkey, hdecode⟩, hunexpired, hbegun, hemail⟩
  · intro hvalid
    obtain ⟨jwk, key, hfind, hkey, hdecode⟩ := hvalid.signed
    have hclaims := verify_claims_eq_ok_iff.mpr
      ⟨hvalid.unexpired, hvalid.begun, hvalid.email⟩
    simp only [verify, hfind, hkey, hdecode, hclaims]

/-! ### The key set -/

/-- `JwksCache`. -/
structure JwksCache where
  keys : List Jwk
  fetched_at : Nat

/-- `is_expired`. -/
def JwksCache.is_expired (self : JwksCache) (now : Nat) : Bool := JWKS_TTL < now - self.fetched_at

/-- A token that names a key. -/
structure NamedKey where
  token : String
  kid : String
  header : token_kid jwt config token = .ok kid

variable (published : Nat → List Jwk)

/-- `get_jwks`, for a token, and `fetch_and_cache_jwks`, which does not look into the cache: an
    answer is the set that the issuer publishes at a time between the request and now. -/
def get_jwks : Policy (Option (NamedKey jwt config)) JwksCache Nat where
  serves := fun now cached request =>
    match request with
    | none => false
    | some named => !cached.is_expired now && (find_key cached.keys named.kid).isSome
  entry := fun _ sent now read_at =>
    if sent ≤ read_at ∧ read_at ≤ now ∧ now ≤ sent + FETCH_TIMEOUT then
      some ⟨published read_at, now⟩
    else none
  -- The lock is not awaited
  interruptible := false

abbrev system : System (SharedCache.State (Option (NamedKey jwt config)) JwksCache)
    (Label (Option (NamedKey jwt config)) Nat) :=
  SharedCache.system (get_jwks jwt config published)

abbrev Event : Type := SharedCache.Event (Option (NamedKey jwt config)) JwksCache Nat

/-- The token that is accepted in a step, with its claims: verification follows at once when the
    key set is there. The clock of the day is that of the host, at each time. -/
def accepted? (clock : Nat → Int) (st : Event jwt config) :
    Option (NamedKey jwt config × Claims) :=
  match returned? (get_jwks jwt config published) st with
  | some (some named, cached) =>
    (verify jwt config (clock st.pre.now) cached.keys named.token named.kid).toOption.map
      fun claims => (named, claims)
  | _ => none

end

/-! ### What is accepted -/

section

variable {Key : Type} {jwt : JsonWebToken Key} {config : OidcConfig} {published : Nat → List Jwk}
  {clock : Nat → Int} {newer older : List (Event jwt config)} {st : Event jwt config}
  {s : SharedCache.State (Option (NamedKey jwt config)) JwksCache}

/-- The set was published at a time, and arrived soon after. -/
structure Fetched (published : Nat → List Jwk) (now : Nat) (cached : JwksCache) (read_at : Nat) :
    Prop where
  keys : cached.keys = published read_at
  before : read_at ≤ cached.fetched_at
  in_time : cached.fetched_at ≤ read_at + FETCH_TIMEOUT
  past : cached.fetched_at ≤ now

theorem fetched_of_entry {request : Option (NamedKey jwt config)} {sent now read_at : Nat}
    {cached : JwksCache}
    (h : (get_jwks jwt config published).entry request sent now read_at = some cached) :
    Fetched published now cached read_at ∧ cached.fetched_at = now := by
  simp only [get_jwks] at h
  split at h
  · next harrives =>
    cases h
    obtain ⟨hsent, hread, htime⟩ := harrives
    refine ⟨⟨rfl, hread, ?_, Nat.le_refl _⟩, rfl⟩
    show now ≤ read_at + FETCH_TIMEOUT
    omega
  · cases h

theorem made_fetched :
    Made (get_jwks jwt config published) fun _ now cached => ∃ read_at,
      Fetched published now cached read_at where
  made := fun _ _ _ _ _ _ hentry => ⟨_, (fetched_of_entry hentry).1⟩
  later := by
    intro _ now now' cached hle h
    obtain ⟨read_at, hkeys, hbefore, hin_time, hpast⟩ := h
    exact ⟨read_at, hkeys, hbefore, hin_time, Nat.le_trans hpast hle⟩

/-- The key set a token is verified with is at most as old as it is kept, and fetched, for. -/
theorem valid_of_accepted (h : Run (system jwt config published) (newer ++ st :: older) s)
    {named : NamedKey jwt config} {claims : Claims}
    (haccepted : accepted? jwt config published clock st = some (named, claims)) :
    ∃ read_at, read_at ≤ st.pre.now ∧ st.pre.now ≤ read_at + FETCH_TIMEOUT + JWKS_TTL ∧
      Valid jwt config (clock st.pre.now) (published read_at) named.token named.kid claims := by
  unfold accepted? at haccepted
  split at haccepted
  · next named' cached hreturned =>
    obtain ⟨claims', hverify, heq⟩ := Option.map_eq_some_iff.mp haccepted
    cases heq
    have hok : verify jwt config (clock st.pre.now) cached.keys named.token named.kid =
        .ok claims := by
      cases hres : verify jwt config (clock st.pre.now) cached.keys named.token named.kid with
      | error e => rw [hres] at hverify; cases hverify
      | ok claims' =>
        rw [hres] at hverify
        cases hverify
        rfl
    have hvalid := (verify_eq_ok_iff jwt config).mp hok
    have hsource := returned_of_run made_fetched h hreturned
    by_cases hlook : ∀ c request', st.label ≠ .look c request'
    · -- the set has just been fetched
      obtain ⟨sent, read_at, _, hentry⟩ := (hsource.own hlook).2 rfl
      obtain ⟨hfetched, hnow⟩ := fetched_of_entry hentry
      have hin_time := hfetched.in_time
      have hbefore := hfetched.before
      rw [hnow] at hin_time hbefore
      exact ⟨read_at, hbefore, by omega, hfetched.keys ▸ hvalid⟩
    · -- the set is from the cache, and has not expired
      obtain ⟨c, request', hlabel⟩ : ∃ c request', st.label = .look c request' := by
        simpa using hlook
      have hserves := hsource.looked c request' hlabel
      have hunexpired : st.pre.now ≤ JWKS_TTL + cached.fetched_at := by
        simp [get_jwks, JwksCache.is_expired] at hserves
        exact hserves.1
      obtain ⟨_, _, read_at, hfetched⟩ := hsource.made
      have hin_time := hfetched.in_time
      have hbefore := hfetched.before
      have hpast := hfetched.past
      exact ⟨read_at, by omega, by omega, hfetched.keys ▸ hvalid⟩
  · cases haccepted

/-- **Accepted tokens are valid**: in every run, whatever requests come in between, a token is
    accepted only if it is valid by a key of its name that the issuer published at most an hour
    and ten seconds ago. -/
theorem accepted_tokens_valid {tr : List (Event jwt config)}
    (h : Run (system jwt config published) tr s) (hmem : st ∈ tr)
    {named : NamedKey jwt config} {claims : Claims}
    (haccepted : accepted? jwt config published clock st = some (named, claims)) :
    config.enabled = true ∧ jwt.decode_header named.token = .ok (some named.kid) ∧
      ∃ read_at, read_at ≤ st.pre.now ∧ st.pre.now ≤ read_at + FETCH_TIMEOUT + JWKS_TTL ∧
        Valid jwt config (clock st.pre.now) (published read_at) named.token named.kid claims := by
  obtain ⟨newer, older, rfl⟩ := List.append_of_mem hmem
  have hheader := named.header
  unfold token_kid at hheader
  split at hheader
  · next henabled =>
    split at hheader
    · cases hheader
    · cases hheader
    · next kid hkid =>
      cases hheader
      exact ⟨henabled, hkid, valid_of_accepted h haccepted⟩
  · cases hheader

end

/-! ### Keys that are withdrawn -/

/-- A key that the issuer has withdrawn is not accepted any more when this time has passed since,
    whatever the library, the issuer, and the requests are. -/
def EffectiveAfter (span : Nat) : Prop :=
  ∀ (Key : Type) (jwt : JsonWebToken Key) (config : OidcConfig) (published : Nat → List Jwk)
    (clock : Nat → Int) (tr : List (Event jwt config))
    (s : SharedCache.State (Option (NamedKey jwt config)) JwksCache),
    Run (system jwt config published) tr s → ∀ (withdrawn : Nat) (kid : String),
    (∀ t, withdrawn ≤ t → find_key (published t) kid = none) →
    ∀ st ∈ tr, ∀ named claims, accepted? jwt config published clock st = some (named, claims) →
      named.kid = kid → st.pre.now < withdrawn + span

/-! A token that is accepted for as long as possible. -/

def one_token : String := "header.claims.signature"

def one_key : Jwk := ⟨some "key", "n, e"⟩

def one_claims : Claims := ⟨"issuer", "worker", 10000, 0, none, "tasks@example.com"⟩

/-- The token is read, and verified by its key. -/
def one_jwt : JsonWebToken Jwk where
  decode_header := fun token =>
    if token = one_token then .ok (some "key") else .error "InvalidToken"
  from_jwk := .ok
  decode := fun token key audience issuer now =>
    if token = one_token ∧ key = one_key ∧ audience = one_claims.aud ∧ issuer = one_claims.iss ∧
      now ≤ one_claims.exp then .ok one_claims
    else .error "InvalidSignature"

def one_config : OidcConfig := ⟨true, "issuer", "worker"⟩

def one_named : NamedKey one_jwt one_config := ⟨one_token, "key", rfl⟩

/-- The key is withdrawn right after the beginning. -/
def at_first (t : Nat) : List Jwk := if t = 0 then [one_key] else []

/-- The clock of the day, in seconds. -/
def seconds (now : Nat) : Int := now / 1000000000

def nobody : SharedCache.State (Option (NamedKey one_jwt one_config)) JwksCache :=
  ⟨0, none, fun _ => .idle⟩

/-- The set arrives as late as it can. -/
def late_set : JwksCache := ⟨[one_key], FETCH_TIMEOUT⟩

/-- The set has been kept as long as it can. -/
def kept : SharedCache.State (Option (NamedKey one_jwt one_config)) JwksCache :=
  ⟨FETCH_TIMEOUT + JWKS_TTL, some late_set, fun _ => .idle⟩

theorem run_kept : ∃ tr, Run (system one_jwt one_config at_first) tr kept := by
  have hinit : Run (system one_jwt one_config at_first) [] nobody := .init ⟨rfl, fun _ => rfl⟩
  have hmiss : hit (get_jwks one_jwt one_config at_first) nobody (some one_named) = none := rfl
  have hentry : (get_jwks one_jwt one_config at_first).entry (some one_named) 0
      (0 + FETCH_TIMEOUT) 0 = some late_set := by
    simp [get_jwks, at_first, late_set]
  obtain ⟨tr, hrun, _⟩ := run_fetch (c := 0) hinit rfl hmiss hentry
  have hrun' : Run (system one_jwt one_config at_first) (tr ++ [])
      ⟨FETCH_TIMEOUT, some late_set, fun _ => .idle⟩ := by
    simpa [nobody] using hrun
  exact ⟨_, hrun'.step (.tick JWKS_TTL) rfl⟩

theorem step_kept :
    SharedCache.step (get_jwks one_jwt one_config at_first) kept (.look 0 (some one_named)) =
      some (kept, some (some one_named, late_set)) := by
  simp [SharedCache.step, hit, get_jwks, kept, late_set, JwksCache.is_expired, find_key, one_key,
    one_named, FETCH_TIMEOUT, JWKS_TTL, Option.filter]

theorem kept_accepts :
    accepted? one_jwt one_config at_first seconds ⟨kept, .look 0 (some one_named), kept⟩ =
      some (one_named, one_claims) := by
  have hreturned : returned? (get_jwks one_jwt one_config at_first)
      ⟨kept, .look 0 (some one_named), kept⟩ = some (some one_named, late_set) := by
    rw [returned?, step_kept]
    rfl
  have hverify : verify one_jwt one_config (seconds kept.now) late_set.keys one_named.token
      one_named.kid = .ok one_claims := by
    rfl
  simp only [accepted?, hreturned, hverify]
  rfl

/-- The last moment at which the token is accepted. -/
theorem exists_late_acceptance : ∃ tr s, Run (system one_jwt one_config at_first) tr s ∧
    ∃ st ∈ tr, accepted? one_jwt one_config at_first seconds st = some (one_named, one_claims) ∧
      st.pre.now = FETCH_TIMEOUT + JWKS_TTL := by
  obtain ⟨tr, hrun⟩ := run_kept
  have hnext : (system one_jwt one_config at_first).next kept (.look 0 (some one_named)) =
      some kept := by
    rw [next_eq, step_kept]
    rfl
  exact ⟨_, _, hrun.step _ hnext, _, List.mem_cons_self, kept_accepts, rfl⟩

/-- It is accepted with the key that was published at the beginning. -/
theorem accepted_tokens_valid_late : ∃ read_at, read_at ≤ FETCH_TIMEOUT + JWKS_TTL ∧
    Valid one_jwt one_config (seconds (FETCH_TIMEOUT + JWKS_TTL)) (at_first read_at) one_token
      "key" one_claims := by
  obtain ⟨tr, s, hrun, st, hmem, haccepted, hnow⟩ := exists_late_acceptance
  obtain ⟨_, _, read_at, hbefore, _, hvalid⟩ := accepted_tokens_valid hrun hmem haccepted
  rw [hnow] at hbefore hvalid
  exact ⟨read_at, hbefore, hvalid⟩

/-- **A withdrawal takes effect** when the time has passed that a set is kept and its fetch may
    take, and not before. -/
theorem effective_after_iff (span : Nat) :
    EffectiveAfter span ↔ FETCH_TIMEOUT + JWKS_TTL ≤ span := by
  constructor
  · intro heffective
    obtain ⟨tr, s, hrun, st, hmem, haccepted, hnow⟩ := exists_late_acceptance
    have hwithdrawn : ∀ t, 1 ≤ t → find_key (at_first t) "key" = none := by
      intro t ht
      have hne : t ≠ 0 := by omega
      simp [at_first, hne, find_key]
    have hlt := heffective _ _ _ _ _ _ _ hrun 1 "key" hwithdrawn st hmem _ _ haccepted rfl
    omega
  · intro hspan Key jwt config published clock tr s hrun withdrawn kid hwithdrawn st hmem named
      claims haccepted hkid
    obtain ⟨newer, older, rfl⟩ := List.append_of_mem hmem
    obtain ⟨read_at, _, htime, hvalid⟩ := valid_of_accepted hrun haccepted
    obtain ⟨jwk, _, hfind, _⟩ := hvalid.signed
    -- the key was still published when the set was read
    have hread : read_at < withdrawn := by
      by_contra hle
      rw [hkid, hwithdrawn read_at (by omega)] at hfind
      cases hfind
    omega

end Servo.Oidc
