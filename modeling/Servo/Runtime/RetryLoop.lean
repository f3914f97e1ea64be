import Mathlib.Data.Nat.Find
import Mathlib.Data.List.Infix

/-! # Retries

    `execute_with_retry` calls an operation until it succeeds or fails for
    good, until it has been called as often as the policy has it, or until the
    time is up. The delays before the calls are random, and computed with
    floating-point numbers; here they are arbitrary, and so are the outcomes of
    the operation and the readings of the clock.

    The loop is left after the first call after which one of these holds
    (`loop_eq`), and whatever else is true of it follows from that.
-/

namespace Servo.Retry

/-! ### Errors -/

/-- `servo_runtime::Error`, whole. -/
inductive Error where
  | Execution (message : String)
  | NotFound (message : String)
  | InvalidState (message : String)
  | TenantViolation (message : String)
  | Timeout (message : String)
  | RetryExhausted (message : String)
  | ConcurrencyLimitExceeded (message : String)
  | Internal (message : String)
  deriving DecidableEq

/-- Check if an error is retryable. -/
def is_retryable : Error → Bool
  | .Internal msg =>
    -- Beyond ASCII, only the Kelvin sign and the dotted I become letters of ASCII; there is no k in
    -- the words, and the dot that stays behind the i is in none of them
    let msg_lower := msg.toList.map Char.toLower
    "connection".toList <:+: msg_lower || "timeout".toList <:+: msg_lower ||
      "pool".toList <:+: msg_lower || "transient".toList <:+: msg_lower
  | .Timeout _ => true
  | .Execution _ => false
  | .NotFound _ => false
  | .InvalidState _ => false
  | .TenantViolation _ => false
  | .RetryExhausted _ => false
  | .ConcurrencyLimitExceeded _ => false

/-! ### The loop -/

/-- `RetryPolicy`; times are in nanoseconds. What the delays are computed from is left out. -/
structure RetryPolicy where
  max_attempts : UInt32
  max_elapsed : Nat
  deriving DecidableEq

/-- Check if total elapsed time exceeds `max_elapsed`. -/
def RetryPolicy.is_elapsed_exceeded (policy : RetryPolicy) (start now : Nat) : Bool :=
  policy.max_elapsed ≤ now - start

/-- What has become of the operation: the value returned, the number of calls, and the delays
    between them. -/
structure Attempts (T : Type) where
  result : Except Error T
  calls : Nat
  delays : List Nat

section loop

-- The outcome of each call, the clock when the loop is entered and when it is read after each
-- call, and `calculate_delay`
variable {T : Type} (policy : RetryPolicy) (outcomes : Nat → Except Error T) (start : Nat)
  (now : Nat → Nat) (calculate_delay : UInt32 → Nat)

/-- The loop of `execute_with_retry` after `calls` calls, for at most `fuel` more. -/
def loop : Nat → Nat → UInt32 → Option (Attempts T)
  | 0, _, _ => none
  | fuel + 1, calls, attempt =>
    match outcomes calls with
    | .ok result => some ⟨.ok result, calls + 1, []⟩
    | .error e =>
      let attempt := attempt + 1
      -- Check if error is retryable - bail out early on permanent errors
      if is_retryable e = false then some ⟨.error e, calls + 1, []⟩
      -- Check if we should give up
      else if policy.max_attempts ≤ attempt then some ⟨.error e, calls + 1, []⟩
      else if policy.is_elapsed_exceeded start (now calls) then some ⟨.error e, calls + 1, []⟩
      else
        -- Calculate delay and wait (attempt - 1 for 0-indexed delay calculation)
        (loop fuel (calls + 1) attempt).map fun attempts =>
          { attempts with delays := calculate_delay (attempt - 1) :: attempts.delays }

/-- `execute_with_retry`, with at most `fuel` calls. -/
def execute_with_retry (fuel : Nat) : Option (Attempts T) :=
  loop policy outcomes start now calculate_delay fuel 0 0

/-! ### When it is left -/

/-- A success, or an error that is not retryable. -/
def is_final : Except Error T → Bool
  | .ok _ => true
  | .error e => !is_retryable e

/-- The loop is left after the call `n`, counted from zero. -/
def leaves (n : Nat) : Bool :=
  is_final (outcomes n) || policy.max_attempts.toNat ≤ n + 1 ||
    policy.is_elapsed_exceeded start (now n)

/-- The last attempt that the policy allows is the last. -/
theorem exists_leaves : ∃ n, leaves policy outcomes start now n = true := by
  refine ⟨policy.max_attempts.toNat - 1, ?_⟩
  have hlast : policy.max_attempts.toNat ≤ policy.max_attempts.toNat - 1 + 1 := by omega
  simp [leaves, hlast]

end loop

section

variable {T : Type} {policy : RetryPolicy} {outcomes : Nat → Except Error T} {start : Nat}
  {now : Nat → Nat} {calculate_delay : UInt32 → Nat} {fuel n : Nat} {attempt : UInt32}

/-- The attempts are counted without overflow, up to the limit. -/
theorem limit_le_iff (hattempt : attempt.toNat = n)
    (hbound : n = 0 ∨ n < policy.max_attempts.toNat) :
    policy.max_attempts ≤ attempt + 1 ↔ policy.max_attempts.toNat ≤ n + 1 := by
  have hlimit := policy.max_attempts.toNat_lt
  have hsum : (attempt + 1).toNat = n + 1 := by
    rw [UInt32.toNat_add, hattempt, UInt32.toNat_one]
    omega
  rw [UInt32.le_iff_toNat_le, hsum]

/-- A call after which the loop is left. -/
theorem loop_of_leaves (hattempt : attempt.toNat = n)
    (hbound : n = 0 ∨ n < policy.max_attempts.toNat)
    (hleaves : leaves policy outcomes start now n = true) :
    loop policy outcomes start now calculate_delay (fuel + 1) n attempt =
      some ⟨outcomes n, n + 1, []⟩ := by
  unfold loop
  unfold leaves is_final at hleaves
  cases houtcome : outcomes n with
  | ok result => rfl
  | error e =>
    simp only [houtcome] at hleaves ⊢
    by_cases hretryable : is_retryable e = false
    · rw [if_pos hretryable]
    · rw [if_neg hretryable]
      by_cases hlimit : policy.max_attempts.toNat ≤ n + 1
      · rw [if_pos ((limit_le_iff hattempt hbound).mpr hlimit)]
      · rw [if_neg (mt (limit_le_iff hattempt hbound).mp hlimit)]
        have helapsed : policy.is_elapsed_exceeded start (now n) = true := by
          simpa [hretryable, hlimit] using hleaves
        rw [if_pos helapsed]

/-- It goes on only after an error that can be retried, with attempts and time left. -/
theorem retryable_of_stays (hstays : leaves policy outcomes start now n = false) :
    ∃ e, outcomes n = .error e ∧ is_retryable e = true ∧ n + 1 < policy.max_attempts.toNat ∧
      policy.is_elapsed_exceeded start (now n) = false := by
  unfold leaves at hstays
  simp only [Bool.or_eq_false_iff, decide_eq_false_iff_not] at hstays
  obtain ⟨⟨hnot_final, hlimit⟩, helapsed⟩ := hstays
  cases houtcome : outcomes n with
  | ok result =>
    rw [houtcome] at hnot_final
    cases hnot_final
  | error e =>
    have hretryable : is_retryable e = true := by
      rw [houtcome] at hnot_final
      simpa [is_final] using hnot_final
    exact ⟨e, rfl, hretryable, Nat.lt_of_not_le hlimit, helapsed⟩

/-- A call after which it goes on. -/
theorem loop_of_stays (hattempt : attempt.toNat = n)
    (hbound : n = 0 ∨ n < policy.max_attempts.toNat)
    (hstays : leaves policy outcomes start now n = false) :
    loop policy outcomes start now calculate_delay (fuel + 1) n attempt =
      (loop policy outcomes start now calculate_delay fuel (n + 1) (attempt + 1)).map
        fun attempts =>
          { attempts with delays := calculate_delay attempt :: attempts.delays } := by
  obtain ⟨e, houtcome, hretryable, hnext, helapsed⟩ := retryable_of_stays hstays
  have hlimit : ¬ policy.max_attempts ≤ attempt + 1 := by
    intro hle
    exact absurd ((limit_le_iff hattempt hbound).mp hle) (Nat.not_le_of_lt hnext)
  rw [loop, houtcome]
  simp only
  rw [if_neg (ne_false_of_eq_true hretryable), if_neg hlimit,
    if_neg (ne_true_of_eq_false helapsed), UInt32.add_sub_cancel]

/-- The delays before the calls after `n`, up to `last`. -/
def waits (calculate_delay : UInt32 → Nat) (n last : Nat) : List Nat :=
  (List.range' n (last - n)).map fun k => calculate_delay (UInt32.ofNat k)

theorem waits_self (n : Nat) : waits calculate_delay n n = [] := by
  rw [waits, Nat.sub_self, List.range'_zero, List.map_nil]

theorem waits_of_lt {last : Nat} (h : n < last) :
    waits calculate_delay n last =
      calculate_delay (UInt32.ofNat n) :: waits calculate_delay (n + 1) last := by
  have hsub : last - n = last - (n + 1) + 1 := by omega
  rw [waits, hsub, List.range'_succ, List.map_cons, waits]

/-- **The loop ends with the first call after which it is left**, if it may make this many. -/
theorem loop_eq {last : Nat} (hleaves : leaves policy outcomes start now last = true)
    (hstays : ∀ m, m < last → leaves policy outcomes start now m = false)
    (hattempt : attempt.toNat = n) (hbound : n = 0 ∨ n < policy.max_attempts.toNat)
    (hle : n ≤ last) (hfuel : last < n + fuel) :
    loop policy outcomes start now calculate_delay fuel n attempt =
      some ⟨outcomes last, last + 1, waits calculate_delay n last⟩ := by
  induction fuel generalizing n attempt with
  | zero => omega
  | succ fuel ih =>
    by_cases hlast : n = last
    · subst hlast
      rw [waits_self]
      exact loop_of_leaves hattempt hbound hleaves
    · have hlt : n < last := by omega
      obtain ⟨_, _, _, hnext, _⟩ := retryable_of_stays (hstays n hlt)
      have hcount : (attempt + 1).toNat = n + 1 := by
        have hlimit := policy.max_attempts.toNat_lt
        rw [UInt32.toNat_add, hattempt, UInt32.toNat_one]
        omega
      have hofNat : UInt32.ofNat n = attempt := by
        rw [← hattempt, UInt32.ofNat_toNat]
      have hrest := ih hcount (.inr hnext) (by omega) (by omega)
      rw [loop_of_stays hattempt hbound (hstays n hlt), hrest, waits_of_lt hlt, hofNat]
      rfl

/-! ### The law -/

/-- What is true of the operation's calls when the loop has returned. -/
structure RetryLaw (policy : RetryPolicy) (outcomes : Nat → Except Error T) (start : Nat)
    (now : Nat → Nat) (calculate_delay : UInt32 → Nat) (attempts : Attempts T) : Prop where
  called : 0 < attempts.calls
  calls_le : attempts.calls ≤ max 1 policy.max_attempts.toNat
  /-- The last outcome is returned. -/
  returns : attempts.result = outcomes (attempts.calls - 1)
  /-- The first success, or error that is not retryable, is the last call. -/
  stops : ∀ n, n < attempts.calls → is_final (outcomes n) = true → attempts.calls = n + 1
  retried : ∀ n, n + 1 < attempts.calls → ∃ e, outcomes n = .error e ∧ is_retryable e = true
  gave_up : ∀ e, attempts.result = .error e → is_retryable e = true →
    attempts.calls < policy.max_attempts.toNat →
      policy.is_elapsed_exceeded start (now (attempts.calls - 1)) = true
  /-- There is one delay between two calls. -/
  delays : attempts.delays = waits calculate_delay 0 (attempts.calls - 1)

/-- The loop returns, however many more calls it were allowed, and the law holds of what it has
    done. -/
theorem execute_with_retry_law (policy : RetryPolicy) (outcomes : Nat → Except Error T)
    (start : Nat) (now : Nat → Nat) (calculate_delay : UInt32 → Nat) :
    ∃ attempts : Attempts T, RetryLaw policy outcomes start now calculate_delay attempts ∧
      ∀ fuel, max 1 policy.max_attempts.toNat ≤ fuel →
        execute_with_retry policy outcomes start now calculate_delay fuel = some attempts := by
  obtain ⟨last, hleaves, hstays⟩ : ∃ last, leaves policy outcomes start now last = true ∧
      ∀ m, m < last → leaves policy outcomes start now m = false := by
    have hex := exists_leaves policy outcomes start now
    refine ⟨Nat.find hex, Nat.find_spec hex, ?_⟩
    intro m hm
    exact Bool.eq_false_iff.mpr (Nat.find_min hex hm)
  have hlast : last + 1 ≤ max 1 policy.max_attempts.toNat := by
    by_contra hlate
    -- the attempt before would have been the last that the policy allows
    have hbefore := hstays (last - 1) (by omega)
    have hlimit : policy.max_attempts.toNat ≤ last - 1 + 1 := by omega
    simp [leaves, hlimit] at hbefore
  refine ⟨⟨outcomes last, last + 1, waits calculate_delay 0 last⟩, ?_, ?_⟩
  · constructor
    · exact Nat.succ_pos last
    · exact hlast
    · rfl
    · intro n hn hfinal
      by_cases hlt : n < last
      · obtain ⟨e, houtcome, hretryable, _⟩ := retryable_of_stays (hstays n hlt)
        rw [houtcome] at hfinal
        simp [is_final, hretryable] at hfinal
      · have heq : n = last := by
          simp only at hn
          omega
        rw [heq]
    · intro n hn
      obtain ⟨e, houtcome, hretryable, _⟩ :=
        retryable_of_stays (hstays n (Nat.lt_of_succ_lt_succ hn))
      exact ⟨e, houtcome, hretryable⟩
    · intro e he hretryable hfew
      have hresult : outcomes last = .error e := he
      have hlimit : ¬ policy.max_attempts.toNat ≤ last + 1 := Nat.not_le_of_lt hfew
      simpa [leaves, is_final, hresult, hretryable, hlimit] using hleaves
    · rfl
  · intro fuel hfuel
    exact loop_eq hleaves hstays UInt32.toNat_zero (.inl rfl) (Nat.zero_le last) (by omega)

end

/-- Without a single attempt the operation is called all the same. -/
example : (execute_with_retry ⟨0, 0⟩ (fun _ => (.error (.Timeout "") : Except Error Unit)) 0 id
    (fun _ => 0) 1).map (·.calls) = some 1 := by
  decide

end Servo.Retry
