import Servo.Framework.System
import Servo.Framework.Text
import Mathlib.Data.List.Basic
import Mathlib.Logic.Function.Basic

/-! # Rotation of the HMAC Secret

    `SecretManager` keeps the secrets that signatures are verified with. A
    refresh fetches the version `latest` and one version more, the previous
    one, so that a rotation does not invalidate what was signed just before
    it. The previous version is fetched as version `1`.

    So the two versions of a first rotation are kept, and from the third
    version on the predecessor of the latest one is lost, unless its value is
    that of one of the two versions that are fetched.
-/

namespace Servo.SecretManager

open LTS

/-! ### Secrets -/

/-- Minimum secret length in bytes. -/
def MIN_SECRET_LENGTH : Nat := 32

/-- Secret refresh interval, in seconds. -/
def REFRESH_INTERVAL : Int := 300

/-- `SecretVersion`. -/
structure SecretVersion where
  value : String
  version : String
  fetched_at : Int
  deriving DecidableEq

/-- `validate_secret`, an error by its text. -/
def validate_secret (secret : String) : Except String Unit :=
  if secret.utf8ByteSize < MIN_SECRET_LENGTH then
    .error ("Secret is too short: " ++ toString secret.utf8ByteSize ++ " bytes (minimum " ++
      toString MIN_SECRET_LENGTH ++ ")")
  else if secret.toList.all (fun c => secret.toList.head? = some c) then
    .error "Secret has insufficient entropy (all same character)"
  else .ok ()

/-- The value of version `n` of the secret; versions count from 1. -/
def version_value? (versions : List String) (n : Nat) : Option String :=
  if n = 0 then none else versions[n - 1]?

/-! ### The system -/

/-- Who refreshes. -/
inductive Caller where
  | refresh_secrets
  | get_valid_secrets
  deriving DecidableEq

/-- Where a process stands. -/
inductive Pc where
  | idle
  /-- `get_valid_secrets`: check if refresh is needed. -/
  | checking
  | fetching_latest (caller : Caller)
  /-- After `latest` has been resolved to version `n`. -/
  | fetching_previous (caller : Caller) (n : Nat) (latest : SecretVersion)
  /-- Update valid secrets; whether the second fetch has succeeded. -/
  | storing (caller : Caller) (n : Nat) (complete : Bool) (new_secrets : List SecretVersion)
  /-- `get_valid_secrets`: read the cached values. -/
  | reading
  deriving DecidableEq

abbrev ProcessId : Type := Nat

structure State where
  /-- The versions in Secret Manager, the first one first. -/
  versions : List String
  now : Int
  valid_secrets : List SecretVersion
  last_refresh : Int
  processes : ProcessId → Pc

inductive Label where
  /-- A version is added. -/
  | rotate (value : String)
  | tick (seconds : Nat)
  | refresh_secrets (p : ProcessId)
  | get_valid_secrets (p : ProcessId)
  | check (p : ProcessId)
  /-- `fetch_secret_version("latest")`, which resolves to a version or fails. -/
  | fetch_latest (p : ProcessId) (result : Except String Nat)
  /-- `fetch_secret_version("1")`. -/
  | fetch_previous (p : ProcessId) (result : Except String Unit)
  | store (p : ProcessId)
  | read (p : ProcessId)

def State.goto (s : State) (p : ProcessId) (pc : Pc) : State :=
  { s with processes := Function.update s.processes p pc }

/-- `fetch_secret_version` of version `n`, when it succeeds. -/
def State.fetch (s : State) (n : Nat) : Option SecretVersion :=
  (version_value? s.versions n).map fun value => ⟨value, toString n, s.now⟩

/-- What follows a refresh: `get_valid_secrets` goes on with what is cached, also after an
    error. -/
def Caller.next : Caller → Pc
  | .refresh_secrets => .idle
  | .get_valid_secrets => .reading

/-- The secrets a refresh stores, when both fetches succeed. -/
def new_secrets (latest previous : SecretVersion) : List SecretVersion :=
  if previous.version ≠ latest.version then
    match validate_secret previous.value with
    -- Previous secret version is invalid, ignoring
    | .error _ => [latest]
    | .ok () => [latest, previous]
  else [latest]

/-- One request to Secret Manager, or one access to the cache. -/
def next (s : State) : Label → Option State
  | .rotate value =>
    match validate_secret value with
    | .ok () => some { s with versions := s.versions ++ [value] }
    | .error _ => none
  | .tick seconds => some { s with now := s.now + seconds }
  | .refresh_secrets p =>
    match s.processes p with
    | .idle => some (s.goto p (.fetching_latest .refresh_secrets))
    | _ => none
  | .get_valid_secrets p =>
    match s.processes p with
    | .idle => some (s.goto p .checking)
    | _ => none
  | .check p =>
    match s.processes p with
    | .checking =>
      some (s.goto p (if REFRESH_INTERVAL < s.now - s.last_refresh then
        .fetching_latest .get_valid_secrets else .reading))
    | _ => none
  | .fetch_latest p result =>
    match s.processes p with
    | .fetching_latest caller =>
      match result with
      | .error _ => some (s.goto p caller.next)
      | .ok n =>
        match s.fetch n with
        | some latest =>
          match validate_secret latest.value with
          | .error _ => some (s.goto p caller.next)
          | .ok () => some (s.goto p (.fetching_previous caller n latest))
        -- no such version
        | none => none
    | _ => none
  | .fetch_previous p result =>
    match s.processes p with
    | .fetching_previous caller n latest =>
      match result with
      -- Don't fail if it doesn't exist
      | .error _ => some (s.goto p (.storing caller n false [latest]))
      | .ok () =>
        match s.fetch 1 with
        | some previous =>
          some (s.goto p (.storing caller n true (new_secrets latest previous)))
        | none => none
    | _ => none
  | .store p =>
    match s.processes p with
    | .storing caller _ _ new_secrets =>
      some { s.goto p caller.next with valid_secrets := new_secrets, last_refresh := s.now }
    | _ => none
  | .read p =>
    match s.processes p with
    | .reading => some (s.goto p .idle)
    | _ => none

/-- No version yet, an empty cache, and nobody at work; the first access is to refresh. -/
def system : System State Label where
  init := fun s => s.versions = [] ∧ s.valid_secrets = [] ∧
    s.last_refresh = s.now - REFRESH_INTERVAL ∧ ∀ p, s.processes p = .idle
  next := next

/-- A step of the system. -/
abbrev Event : Type := Step State Label

/-! ### Seamless rotation -/

/-- What `get_valid_secrets` returns of the cache. -/
def State.values (s : State) : List String := s.valid_secrets.map (·.value)

/-- The version `latest` was resolved to by the refresh that a step completes, none of whose
    fetches has failed. -/
def refreshed? (st : Event) : Option Nat :=
  match st.label with
  | .store p =>
    match st.pre.processes p with
    | .storing _ n true _ => some n
    | _ => none
  | _ => none

/-- The cache holds version `n` and its predecessor. -/
def Seamless (s : State) (n : Nat) : Prop :=
  ∀ k, k = n ∨ k + 1 = n ∧ 1 ≤ k → ∃ value ∈ s.values, version_value? s.versions k = some value

/-- A predecessor of version `n` is one of the two versions that are fetched, or has the value
    of one of them. -/
def predecessor_fetched (versions : List String) (n : Nat) : Bool :=
  n ≤ 2 || version_value? versions (n - 1) = version_value? versions n ||
    version_value? versions (n - 1) = version_value? versions 1

/-- The cache changes in the step with which a refresh returns `Ok`, and in no other. -/
def KeepsCache (st : Event) : Prop :=
  (∀ p, st.label ≠ .store p) → st.post.valid_secrets = st.pre.valid_secrets

/-! ### What is fetched -/

variable {s s' : State} {l : Label} {tr : List Event}

/-- A version keeps its value when versions are added. -/
theorem version_value?_append {versions : List String} {n : Nat} {value : String}
    (h : version_value? versions n = some value) (added : String) :
    version_value? (versions ++ [added]) n = some value := by
  unfold version_value? at h ⊢
  split at h
  · cases h
  · next hn =>
    have hlt : n - 1 < versions.length := (List.getElem?_eq_some_iff.mp h).1
    rw [if_neg hn, List.getElem?_append_left hlt]
    exact h

/-- There is a version before each version but the first. -/
theorem version_value?_pred {versions : List String} {n : Nat} {value : String}
    (h : version_value? versions n = some value) (hn : 2 ≤ n) :
    ∃ value', version_value? versions (n - 1) = some value' := by
  unfold version_value? at h ⊢
  rw [if_neg (by omega)] at h ⊢
  have hlt : n - 1 < versions.length := (List.getElem?_eq_some_iff.mp h).1
  exact ⟨_, List.getElem?_eq_getElem (by omega)⟩

theorem mem_of_version_value? {versions : List String} {n : Nat} {value : String}
    (h : version_value? versions n = some value) : value ∈ versions := by
  unfold version_value? at h
  split at h
  · cases h
  · exact List.mem_of_getElem? h

/-- `fetched` is version `n` of the secret. -/
def IsVersion (versions : List String) (n : Nat) (fetched : SecretVersion) : Prop :=
  version_value? versions n = some fetched.value ∧ fetched.version = toString n

theorem isVersion_of_fetch {n : Nat} {fetched : SecretVersion} (h : s.fetch n = some fetched) :
    IsVersion s.versions n fetched := by
  obtain ⟨value, hvalue, rfl⟩ := Option.map_eq_some_iff.mp h
  exact ⟨hvalue, rfl⟩

/-- The values that are stored: those of `latest` and of version 1. -/
def FetchedValues (versions : List String) (n : Nat) (values : List String) : Prop :=
  ∃ latest first, version_value? versions n = some latest ∧
    version_value? versions 1 = some first ∧ values = if n = 1 then [latest] else [latest, first]

theorem fetchedValues_new_secrets {versions : List String} {n : Nat}
    {latest previous : SecretVersion} (hlatest : IsVersion versions n latest)
    (hprevious : IsVersion versions 1 previous)
    (hvalid : validate_secret previous.value = .ok ()) :
    FetchedValues versions n ((new_secrets latest previous).map (·.value)) := by
  refine ⟨latest.value, previous.value, hlatest.1, hprevious.1, ?_⟩
  -- versions are compared as texts
  have hversion : previous.version = latest.version ↔ n = 1 := by
    rw [hlatest.2, hprevious.2]
    constructor
    · exact fun h => (Text.nat_repr_injective h).symm
    · exact fun h => by rw [h]
  unfold new_secrets
  by_cases hn : n = 1
  · rw [if_neg (not_not.mpr (hversion.mpr hn)), if_pos hn]
    rfl
  · rw [if_pos (mt hversion.mp hn), if_neg hn, hvalid]
    rfl

/-- All versions are valid, and a refresh carries what it has fetched. -/
structure Inv (s : State) : Prop where
  valid : ∀ value ∈ s.versions, validate_secret value = .ok ()
  fetching : ∀ p caller n latest, s.processes p = .fetching_previous caller n latest →
    IsVersion s.versions n latest
  storing : ∀ p caller n secrets, s.processes p = .storing caller n true secrets →
    FetchedValues s.versions n (secrets.map (·.value))

/-- A process goes on, and carries what it has fetched. -/
theorem Inv.goto (hinv : Inv s) (p : ProcessId) {pc : Pc}
    (hfetching : ∀ caller n latest, pc = .fetching_previous caller n latest →
      IsVersion s.versions n latest)
    (hstoring : ∀ caller n secrets, pc = .storing caller n true secrets →
      FetchedValues s.versions n (secrets.map (·.value))) : Inv (s.goto p pc) := by
  refine ⟨hinv.valid, fun q caller n latest hq => ?_, fun q caller n secrets hq => ?_⟩
  · by_cases hqp : q = p
    · subst hqp
      exact hfetching caller n latest (by simpa [State.goto] using hq)
    · exact hinv.fetching q caller n latest (by simpa [State.goto, hqp] using hq)
  · by_cases hqp : q = p
    · subst hqp
      exact hstoring caller n secrets (by simpa [State.goto] using hq)
    · exact hinv.storing q caller n secrets (by simpa [State.goto, hqp] using hq)

/-- After a refresh, a process carries nothing. -/
theorem Inv.next (hinv : Inv s) (p : ProcessId) (caller : Caller) :
    Inv (s.goto p caller.next) := by
  cases caller with
  | refresh_secrets => exact hinv.goto p (by simp [Caller.next]) (by simp [Caller.next])
  | get_valid_secrets => exact hinv.goto p (by simp [Caller.next]) (by simp [Caller.next])

theorem inv_step (hinv : Inv s) (h : next s l = some s') : Inv s' := by
  unfold SecretManager.next at h
  split at h
  · -- a version is added
    next value =>
    split at h
    · next hvalid =>
      cases h
      refine ⟨fun value' hmem => ?_, fun p caller n latest hpc => ?_,
        fun p caller n secrets hpc => ?_⟩
      · rcases List.mem_append.mp hmem with hold | hnew
        · exact hinv.valid value' hold
        · rw [List.mem_singleton.mp hnew]
          exact hvalid
      · obtain ⟨hvalue, hversion⟩ := hinv.fetching p caller n latest hpc
        exact ⟨version_value?_append hvalue value, hversion⟩
      · obtain ⟨latest, first, hlatest, hfirst, hvalues⟩ := hinv.storing p caller n secrets hpc
        exact ⟨latest, first, version_value?_append hlatest value,
          version_value?_append hfirst value, hvalues⟩
    · cases h
  · cases h
    exact ⟨hinv.valid, hinv.fetching, hinv.storing⟩
  · split at h <;> cases h
    exact hinv.goto _ (by simp) (by simp)
  · split at h <;> cases h
    exact hinv.goto _ (by simp) (by simp)
  · -- check if refresh is needed
    split at h <;> cases h
    refine hinv.goto _ (fun caller n latest hpc => ?_) (fun caller n secrets hpc => ?_)
    · split at hpc <;> cases hpc
    · split at hpc <;> cases hpc
  · -- `latest` is fetched
    split at h
    · split at h
      · cases h; exact hinv.next _ _
      · split at h
        · next latest hfetch =>
          split at h
          · cases h; exact hinv.next _ _
          · cases h
            refine hinv.goto _ (fun caller n latest' hpc => ?_) (by simp)
            cases hpc
            exact isVersion_of_fetch hfetch
        · cases h
    · cases h
  · -- version 1 is fetched
    next p result =>
    split at h
    · next caller n latest hpc =>
      split at h
      · cases h
        exact hinv.goto _ (by simp) (by simp)
      · split at h
        · next previous hfetch =>
          cases h
          refine hinv.goto _ (by simp) (fun caller' n' secrets hsecrets => ?_)
          cases hsecrets
          have hprevious := isVersion_of_fetch hfetch
          exact fetchedValues_new_secrets (hinv.fetching p caller n latest hpc) hprevious
            (hinv.valid _ (mem_of_version_value? hprevious.1))
        · cases h
    · cases h
  · -- the cache is written
    next p =>
    split at h
    · next caller n complete secrets hpc =>
      cases h
      have hnext := hinv.next p caller
      exact ⟨hnext.valid, hnext.fetching, hnext.storing⟩
    · cases h
  · split at h <;> cases h
    exact hinv.goto _ (by simp) (by simp)

theorem inv_of_run (h : Run system tr s) : Inv s := by
  refine h.invariant (P := Inv) (fun s hinit => ?_) (fun _ _ _ hinv hs => inv_step hinv hs)
  obtain ⟨hversions, -, -, hidle⟩ := hinit
  refine ⟨?_, ?_, ?_⟩
  · rw [hversions]
    intro value hmem
    cases hmem
  · intro p caller n latest hpc
    rw [hidle] at hpc
    cases hpc
  · intro p caller n secrets hpc
    rw [hidle] at hpc
    cases hpc

/-! ### All runs -/

/-- The stored values contain the two newest versions exactly if the predecessor is fetched. -/
theorem seamless_iff_of_fetched {n : Nat} (h : FetchedValues s.versions n s.values) :
    Seamless s n ↔ predecessor_fetched s.versions n = true := by
  obtain ⟨latest, first, hlatest, hfirst, hvalues⟩ := h
  have hpos : n ≠ 0 := by
    intro hzero
    rw [hzero] at hlatest
    cases hlatest
  have hmem : latest ∈ s.values := by
    rw [hvalues]
    split <;> exact List.mem_cons_self
  by_cases hn : n = 1
  · subst hn
    refine ⟨fun _ => rfl, fun _ k hk => ?_⟩
    rcases hk with rfl | ⟨hk, hk'⟩
    · exact ⟨latest, hmem, hlatest⟩
    · omega
  · obtain ⟨value, hvalue⟩ := version_value?_pred hlatest (by omega)
    rw [if_neg hn] at hvalues
    have hpred : Seamless s n ↔ value = latest ∨ value = first := by
      constructor
      · intro hseamless
        obtain ⟨value', hmem', hvalue'⟩ := hseamless (n - 1) (Or.inr (by omega))
        rw [hvalue] at hvalue'
        cases hvalue'
        simpa [hvalues] using hmem'
      · rintro hor k (rfl | ⟨hk, -⟩)
        · exact ⟨latest, hmem, hlatest⟩
        · obtain rfl : k = n - 1 := by omega
          exact ⟨value, by simpa [hvalues] using hor, hvalue⟩
    rw [hpred, predecessor_fetched, hvalue, hlatest, hfirst]
    simp only [Bool.or_eq_true, decide_eq_true_eq, Option.some.injEq]
    constructor
    · exact fun hor => hor.elim (fun h => Or.inl (Or.inr h)) Or.inr
    · rintro ((hle | h) | h)
      · -- version 1 is the predecessor of version 2
        obtain rfl : n = 2 := by omega
        rw [hvalue] at hfirst
        exact Or.inr (Option.some.inj hfirst)
      · exact Or.inl h
      · exact Or.inr h

/-- A refresh that completes stores what it has fetched. -/
theorem fetched_of_refreshed {st : Event} {n : Nat} (hinv : Inv st.pre)
    (h : next st.pre st.label = some st.post) (hrefreshed : refreshed? st = some n) :
    FetchedValues st.post.versions n st.post.values := by
  unfold refreshed? at hrefreshed
  split at hrefreshed
  · next p hlabel =>
    split at hrefreshed
    · next caller n' secrets hpc =>
      cases hrefreshed
      simp only [SecretManager.next, hlabel, hpc, Option.some.injEq] at h
      rw [← h]
      exact hinv.storing p caller _ secrets hpc
    · cases hrefreshed
  · cases hrefreshed

/-- Other steps leave the cache alone. -/
theorem valid_secrets_of_next (h : next s l = some s') (hl : ∀ p, l ≠ .store p) :
    s'.valid_secrets = s.valid_secrets := by
  cases l with
  | store p => exact absurd rfl (hl p)
  | rotate value =>
    simp only [SecretManager.next] at h
    split at h <;> cases h
    rfl
  | tick seconds =>
    cases h
    rfl
  | fetch_latest p result =>
    simp only [SecretManager.next] at h
    repeat' split at h
    all_goals first | cases h; rfl | cases h
  | fetch_previous p result =>
    simp only [SecretManager.next] at h
    repeat' split at h
    all_goals first | cases h; rfl | cases h
  | _ =>
    simp only [SecretManager.next] at h
    split at h <;> cases h
    rfl

/-- A refresh that fetches all it asks for keeps the predecessor of the latest version exactly
    if the version it fetches as the previous one is that predecessor, or has its value; and
    one that fails leaves the cache alone. -/
theorem refresh_seamless_iff (h : Run system tr s) : ∀ st ∈ tr, KeepsCache st ∧
    ∀ n, refreshed? st = some n →
      (Seamless st.post n ↔ predecessor_fetched st.post.versions n = true) := by
  intro st hst
  obtain ⟨newer, older, rfl⟩ := List.append_of_mem hst
  obtain ⟨hrun, hnext⟩ := h.at_step
  refine ⟨fun hlabel => valid_secrets_of_next hnext hlabel, fun n hrefreshed => ?_⟩
  exact seamless_iff_of_fetched (fetched_of_refreshed (inv_of_run hrun) hnext hrefreshed)

/-! ### The second and the third version -/

/-- A secret manager that has just been created. -/
def new_manager : State := ⟨[], 0, [], -300, fun _ => .idle⟩

theorem init_new_manager : system.init new_manager := ⟨rfl, rfl, rfl, fun _ => rfl⟩

/-- A secret of 32 bytes. -/
def secret (c : Char) : String := String.ofList ('s' :: List.replicate 31 c)

/-- A refresh of process 0, with `latest` resolved to version `n`. -/
def refresh (n : Nat) : List Label :=
  [.refresh_secrets 0, .fetch_latest 0 (.ok n), .fetch_previous 0 (.ok ()), .store 0]

/-- The newest step completes a refresh to version `n`. -/
def refreshed_test (n : Nat) (tr : List Event) (s : State) : Bool :=
  last_step_test (fun st _ => refreshed? st = some n) tr && s.versions.length = n

/-- After the first rotation, the secret before it is still accepted. -/
theorem second_version_seamless : ∃ tr s, Run system tr s ∧ ∃ st ∈ tr,
    refreshed? st = some 2 ∧ Seamless st.post 2 := by
  obtain ⟨tr, s, hrun, htest⟩ := system.exists_run_of_replay
    (.rotate (secret 'a') :: refresh 1 ++ .rotate (secret 'b') :: refresh 2)
    (refreshed_test 2) init_new_manager (by decide +kernel)
  rw [refreshed_test, Bool.and_eq_true] at htest
  obtain ⟨st, past, rfl, hlast⟩ := cons_of_last_step_test htest.1
  have hrefreshed : refreshed? st = some 2 := of_decide_eq_true hlast
  have hiff := (refresh_seamless_iff hrun st List.mem_cons_self).2 2 hrefreshed
  exact ⟨_, s, hrun, st, List.mem_cons_self, hrefreshed, hiff.mpr rfl⟩

/-- Seamless rotation, for all refreshes of a run. -/
def AlwaysSeamless (tr : List Event) : Prop :=
  ∀ st ∈ tr, KeepsCache st ∧ ∀ n, refreshed? st = some n → Seamless st.post n

/-- The newest step completes a refresh to version 3 that has lost version 2. -/
def second_version_lost (tr : List Event) : Bool :=
  last_step_test (fun st _ => refreshed? st = some 3 &&
    st.post.versions = [secret 'a', secret 'b', secret 'c'] &&
    !st.post.values.contains (secret 'b')) tr

/-- After the second rotation, the secret before it is not accepted any more. -/
theorem third_version_not_seamless :
    ¬ ∀ (tr : List Event) (s : State), Run system tr s → AlwaysSeamless tr := by
  intro hall
  obtain ⟨tr, s, hrun, htest⟩ := system.exists_run_of_replay
    (.rotate (secret 'a') :: .rotate (secret 'b') :: refresh 2 ++
      .rotate (secret 'c') :: refresh 3)
    (fun tr _ => second_version_lost tr) init_new_manager (by decide +kernel)
  obtain ⟨st, past, rfl, hlast⟩ := cons_of_last_step_test htest
  simp only [Bool.and_eq_true, decide_eq_true_eq, Bool.not_eq_true'] at hlast
  obtain ⟨⟨hrefreshed, hversions⟩, hlost⟩ := hlast
  obtain ⟨value, hmem, hvalue⟩ :=
    (hall _ s hrun st List.mem_cons_self).2 3 hrefreshed 2 (Or.inr ⟨rfl, by decide⟩)
  rw [hversions] at hvalue
  obtain rfl : secret 'b' = value := Option.some.inj hvalue
  rw [List.contains_eq_mem, decide_eq_false_iff_not] at hlost
  exact hlost hmem

end Servo.SecretManager
