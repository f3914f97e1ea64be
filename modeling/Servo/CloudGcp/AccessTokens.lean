import Servo.Framework.SharedCache
import Mathlib.Data.Set.Subsingleton

/-! # Access Tokens for the Google Cloud APIs

    `GcpAuth::get_access_token` keeps one access token for all its callers and
    fetches a new one when that has expired. A token is taken to expire five
    minutes before it does, so that a caller has time to use it.

    The cache is not told which scope a token was fetched for. Callers are given
    tokens for the scope they ask for as long as all of them ask for the same
    one.
-/

namespace Servo.GcpAuth

open LTS SharedCache

/-! ### Tokens -/

/-- Nanoseconds in a second. -/
def SECOND : Nat := 1000000000

/-- What an `Instant` stays below: its seconds are 64-bit integers with a sign. -/
def INSTANT_END : Nat := 9223372036854775808 * SECOND

/-- `Instant + Duration`, for whole seconds; the addition panics when it overflows. -/
def instant_add (instant seconds : Nat) : Option Nat :=
  if instant + seconds * SECOND < INSTANT_END then some (instant + seconds * SECOND) else none

theorem of_instant_add {instant seconds sum : Nat} (h : instant_add instant seconds = some sum) :
    sum = instant + seconds * SECOND := by
  unfold instant_add at h
  split at h
  · exact (Option.some.inj h).symm
  · cases h

/-- `AuthMode`. -/
inductive AuthMode where
  | ServiceAccount
  | MetadataServer
  deriving DecidableEq

/-- The timeout of the HTTP client, in seconds. -/
def AuthMode.timeout : AuthMode → Nat
  | .ServiceAccount => 30
  -- Short timeout for metadata server
  | .MetadataServer => 5

/-- `TokenResponse`, and what the token endpoint knows of the token besides. -/
structure TokenResponse where
  access_token : String
  expires_in : Nat
  /-- The scope the token is good for. -/
  scope : String
  issued_at : Nat
  deriving DecidableEq

/-- The end of the token's life. -/
def TokenResponse.valid_until (response : TokenResponse) : Nat :=
  response.issued_at + response.expires_in * SECOND

/-- `AccessToken`, with the response it was in. -/
structure AccessToken where
  token : TokenResponse
  expires_at : Nat
  deriving DecidableEq

/-- `is_expired`. -/
def AccessToken.is_expired (self : AccessToken) (now : Nat) : Bool := self.expires_at ≤ now

/-- A response can arrive at a time, on a request that was sent at another: the token has been
    issued in between, the client has not given up, and a service account asks for the scope. -/
def Arrives (mode : AuthMode) (scope : String) (sent now : Nat) (response : TokenResponse) :
    Prop :=
  sent ≤ response.issued_at ∧ response.issued_at ≤ now ∧ now ≤ sent + mode.timeout * SECOND ∧
    (mode = .ServiceAccount → response.scope = scope)

instance (mode : AuthMode) (scope : String) (sent now : Nat) (response : TokenResponse) :
    Decidable (Arrives mode scope sent now response) :=
  inferInstanceAs (Decidable (_ ∧ _))

/-- What `fetch_access_token_via_jwt` and `fetch_access_token_from_metadata` make of a
    response. -/
def fetch_access_token (mode : AuthMode) (scope : String) (sent now : Nat)
    (response : TokenResponse) : Option AccessToken :=
  if Arrives mode scope sent now response then
    -- Calculate expiration (subtract 5 minutes for safety margin)
    let expires_in := response.expires_in - 300
    (instant_add now expires_in).map fun expires_at => ⟨response, expires_at⟩
  else none

theorem of_fetch_access_token {mode : AuthMode} {scope : String} {sent now : Nat}
    {response : TokenResponse} {token : AccessToken}
    (h : fetch_access_token mode scope sent now response = some token) :
    Arrives mode scope sent now token.token ∧
      token.expires_at = now + (token.token.expires_in - 300) * SECOND := by
  unfold fetch_access_token at h
  split at h
  · next harrives =>
    obtain ⟨expires_at, hadd, rfl⟩ := Option.map_eq_some_iff.mp h
    exact ⟨harrives, of_instant_add hadd⟩
  · cases h

/-! ### The cache -/

/-- `get_access_token`: the scope is not looked at in the cache, and another caller may take the
    lock before a new token is written. -/
def get_access_token (mode : AuthMode) : Policy String AccessToken TokenResponse where
  serves := fun now token _ => !token.is_expired now
  entry := fetch_access_token mode
  interruptible := true

abbrev system (mode : AuthMode) :
    System (SharedCache.State String AccessToken) (Label String TokenResponse) :=
  SharedCache.system (get_access_token mode)

/-- A call of the cache. -/
abbrev Event : Type := SharedCache.Event String AccessToken TokenResponse

/-- What a step returns to the caller: the scope asked for, and the token. -/
abbrev returned? (mode : AuthMode) (st : Event) : Option (String × AccessToken) :=
  SharedCache.returned? (get_access_token mode) st

/-- What is known of a token that was fetched for a scope. -/
structure Fetched (mode : AuthMode) (scope : String) (now : Nat) (token : AccessToken) :
    Prop where
  issued : token.token.issued_at ≤ now
  in_time : token.expires_at ≤ token.token.issued_at + mode.timeout * SECOND +
    (token.token.expires_in - 300) * SECOND
  after : now < token.expires_at → 300 < token.token.expires_in
  scope : mode = .ServiceAccount → token.token.scope = scope

theorem made_fetched (mode : AuthMode) : Made (get_access_token mode) (Fetched mode) where
  made := by
    intro scope sent now response token hle hentry
    obtain ⟨⟨hsent, hissued, hnow, hscope⟩, hexpires⟩ := of_fetch_access_token hentry
    refine ⟨hissued, by omega, ?_, hscope⟩
    intro hlt
    rw [hexpires] at hlt
    by_contra hle'
    rw [Nat.sub_eq_zero_of_le (by omega)] at hlt
    omega
  later := by
    intro scope now now' token hle hfetched
    obtain ⟨hissued, hin_time, hafter, hscope⟩ := hfetched
    exact ⟨by omega, hin_time, fun hlt => hafter (by omega), hscope⟩

variable {mode : AuthMode} {newer older : List Event} {st : Event}
  {s : SharedCache.State String AccessToken} {scope : String} {token : AccessToken}

/-- **A token from the cache is good for more than 270 seconds**, and for more than 295 where
    the metadata server issues them: the margin, less the time the response may take. Whatever a
    call returns has been issued before. -/
theorem cached_token_lives (h : Run (system mode) (newer ++ st :: older) s)
    (hreturned : returned? mode st = some (scope, token)) :
    token.token.issued_at ≤ st.pre.now ∧
      ∀ c, st.label = .look c scope →
        st.pre.now + (300 - mode.timeout) * SECOND < token.token.valid_until := by
  have hsource := returned_of_run (made_fetched mode) h hreturned
  obtain ⟨scope', _, hfetched⟩ := hsource.made
  refine ⟨hfetched.issued, ?_⟩
  intro c hlook
  have hlive : st.pre.now < token.expires_at := by
    simpa [get_access_token, AccessToken.is_expired] using hsource.looked c scope hlook
  have hlong := hfetched.after hlive
  have hin_time := hfetched.in_time
  unfold TokenResponse.valid_until
  unfold SECOND at *
  cases mode with
  | ServiceAccount =>
    simp only [AuthMode.timeout] at hin_time ⊢
    omega
  | MetadataServer =>
    simp only [AuthMode.timeout] at hin_time ⊢
    omega

/-! ### A token from the cache -/

/-- What the endpoint grants at the beginning, for an hour. -/
def hour_token (scope : String) : TokenResponse := ⟨"token", 3600, scope, 0⟩

/-- Nobody has called yet. -/
def unused : SharedCache.State String AccessToken := ⟨0, none, fun _ => .idle⟩

/-- What the cache holds when a call has fetched a token for a scope. -/
def cached_token (scope : String) : AccessToken := ⟨hour_token scope, 3300 * SECOND⟩

/-- The cache then. -/
def filled (scope : String) : SharedCache.State String AccessToken :=
  ⟨0, some (cached_token scope), fun _ => .idle⟩

theorem receive_hour_token (scope : String) :
    fetch_access_token .ServiceAccount scope 0 0 (hour_token scope) =
      some (cached_token scope) := by
  have harrives : Arrives .ServiceAccount scope 0 0 (hour_token scope) := by
    simp [Arrives, hour_token]
  have hlt : 0 + 3300 * SECOND < INSTANT_END := by
    unfold SECOND INSTANT_END SECOND
    omega
  have hadd : instant_add 0 3300 = some (3300 * SECOND) := by
    unfold instant_add
    rw [if_pos hlt, Nat.zero_add]
  unfold fetch_access_token
  rw [if_pos harrives]
  have hlifetime : (hour_token scope).expires_in - 300 = 3300 := by simp [hour_token]
  simp only [hlifetime, hadd, Option.map_some]
  rfl

/-- A run in which a call has filled the cache, and looked for its own scope only. -/
theorem run_filled (scope : String) :
    ∃ tr, Run (system .ServiceAccount) tr (filled scope) ∧
      ∀ scope', Asked tr scope' → scope' = scope := by
  have hinit : Run (system .ServiceAccount) [] unused := .init ⟨rfl, fun _ => rfl⟩
  have hmiss : hit (get_access_token .ServiceAccount) unused scope = none := rfl
  have hentry : (get_access_token .ServiceAccount).entry scope 0 (0 + 0) (hour_token scope) =
      some (cached_token scope) := receive_hour_token scope
  obtain ⟨tr, hrun, hasked⟩ := run_fetch (c := 0) hinit rfl hmiss hentry
  rw [List.append_nil] at hrun
  exact ⟨tr, hrun, hasked⟩

/-- Whatever scope another call asks for, it is given the token. -/
theorem look_filled (scope scope' : String) :
    SharedCache.step (get_access_token .ServiceAccount) (filled scope) (.look 1 scope') =
      some (filled scope, some (scope', cached_token scope)) := by
  simp [SharedCache.step, hit, get_access_token, filled, cached_token, AccessToken.is_expired,
    SECOND, Option.filter]

/-- A second call is given the token of the first. -/
theorem cached_token_lives_second_call : ∃ st : Event,
    st.label = .look 1 "scope" ∧
      st.pre.now + (300 - AuthMode.timeout .ServiceAccount) * SECOND <
        (hour_token "scope").valid_until := by
  obtain ⟨tr, hrun, _⟩ := run_filled "scope"
  have hstep := look_filled "scope" "scope"
  have hnext : (system .ServiceAccount).next (filled "scope") (.look 1 "scope") =
      some (filled "scope") := by
    rw [next_eq, hstep]
    rfl
  have hreturned : returned? .ServiceAccount ⟨filled "scope", .look 1 "scope", filled "scope"⟩ =
      some ("scope", cached_token "scope") := by
    rw [returned?, SharedCache.returned?, hstep]
    rfl
  have hrun' : Run (system .ServiceAccount)
      ([] ++ ⟨filled "scope", .look 1 "scope", filled "scope"⟩ :: tr) (filled "scope") :=
    hrun.step _ hnext
  exact ⟨_, rfl, (cached_token_lives hrun' hreturned).2 1 rfl⟩

/-! ### Scopes -/

/-- In every run of a service account in which the callers ask for these scopes, they are given
    tokens for the scopes they ask for. -/
def ServesScopes (scopes : Set String) : Prop :=
  ∀ tr s, Run (system .ServiceAccount) tr s → (∀ scope, Asked tr scope → scope ∈ scopes) →
    ∀ st ∈ tr, ∀ scope token, returned? .ServiceAccount st = some (scope, token) →
      token.token.scope = scope

/-- A request that a step returns an entry for has been made. -/
theorem asked_of_returned (h : Run (system mode) (newer ++ st :: older) s)
    (hreturned : returned? mode st = some (scope, token)) : Asked (st :: older) scope := by
  obtain ⟨pre, l, post⟩ := st
  obtain ⟨hpast, hnext⟩ := h.at_step
  have hinv := inv_of_run (made_fetched mode) hpast
  obtain ⟨returned, hstep⟩ := step_of_next hnext
  have heq : returned = some (scope, token) := by
    rw [returned?, SharedCache.returned?, hstep] at hreturned
    exact hreturned
  subst heq
  have hstepped : Stepped (get_access_token mode) pre l post (some (scope, token)) :=
    stepped_of_step hinv.atomic hstep
  cases hstepped with
  | @served c _ _ hcell hserves => exact ⟨_, List.mem_cons_self, c, rfl⟩
  | refreshed hcall hentry => exact (hinv.fetching _ _ _ hcall).2.cons _
  | stored hinterruptible hcall => exact (hinv.holding _ _ _ hcall).1.cons _

/-- **The cache serves the scopes its callers ask for** exactly if there is at most one: the
    scope of a token is not looked at when it is taken from the cache. -/
theorem serves_scopes_iff (scopes : Set String) : ServesScopes scopes ↔ scopes.Subsingleton := by
  constructor
  · intro hserves scope hscope scope' hscope'
    obtain ⟨tr, hrun, hasked⟩ := run_filled scope
    have hstep := look_filled scope scope'
    have hnext : (system .ServiceAccount).next (filled scope) (.look 1 scope') =
        some (filled scope) := by
      rw [next_eq, hstep]
      rfl
    apply hserves _ _ (hrun.step _ hnext) ?_ _ List.mem_cons_self scope'
      (cached_token scope)
    · rw [returned?, SharedCache.returned?, hstep]
      rfl
    · intro scope'' h
      obtain ⟨st, hmem, c, hlabel⟩ := h
      rcases List.mem_cons.mp hmem with rfl | hpast
      · cases hlabel
        exact hscope'
      · rw [hasked scope'' ⟨st, hpast, c, hlabel⟩]
        exact hscope
  · intro hone tr s hrun hscopes st hmem scope token hreturned
    obtain ⟨newer, older, rfl⟩ := List.append_of_mem hmem
    have holder : ∀ scope', Asked (st :: older) scope' → scope' ∈ scopes := by
      intro scope' h
      obtain ⟨st', hmem', hlook⟩ := h
      exact hscopes scope' ⟨st', List.mem_append_right _ hmem', hlook⟩
    obtain ⟨scope', hasked, hfetched⟩ := (returned_of_run (made_fetched _) hrun hreturned).made
    rw [hfetched.scope rfl]
    exact hone (holder scope' (hasked.cons st)) (holder scope (asked_of_returned hrun hreturned))

end Servo.GcpAuth
