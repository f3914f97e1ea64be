import Servo.Storage.BreakerCounts
import Servo.Storage.HalfOpenProbes

/-! # The Invariant of the Breaker

    The four fields of the breaker are updated in two critical sections, by
    calls that were admitted in either mode, long ago perhaps. What they keep
    in every run:

    * an open breaker knows when it has failed last, so that nothing but a
      probe is ever admitted while it is open;
    * a closed breaker has counted fewer failures than the threshold;
    * a probe is in progress only while the breaker is open.

    That an open breaker has counted as many failures as the threshold holds
    too, until the counter overflows: failures are counted on while the breaker
    is open, and the counter is a `u32`.
-/

namespace Servo

open LTS

/-! ### The state of the breaker -/

namespace CircuitBreakerState

/-- What holds of the breaker whatever it has counted. -/
structure Framed (config : CircuitBreakerConfig) (breaker : CircuitBreakerState) : Prop where
  knows_failure : breaker.state = .Open → breaker.last_failure_time ≠ none
  below : breaker.state = .Closed → breaker.consecutive_failures < config.failure_threshold
  guarded : breaker.half_open_probe_in_progress = true → breaker.state = .Open

/-- The representation invariant: an open breaker has also counted enough failures. -/
structure Consistent (config : CircuitBreakerConfig) (breaker : CircuitBreakerState) : Prop
    extends Framed config breaker where
  reached : breaker.state = .Open → config.failure_threshold ≤ breaker.consecutive_failures

variable {config : CircuitBreakerConfig} {breaker : CircuitBreakerState} {now : Nat}

theorem framed_new (hthreshold : 0 < config.failure_threshold) : Framed config .new where
  knows_failure := by
    intro hopen
    cases hopen
  below := fun _ => hthreshold
  guarded := by
    intro hguard
    cases hguard

theorem consistent_new (hthreshold : 0 < config.failure_threshold) : Consistent config .new where
  toFramed := framed_new hthreshold
  reached := by
    intro hopen
    cases hopen

/-- A call that is admitted changes the guard at most. -/
theorem enter_fields {is_half_open_probe : Bool} {breaker' : CircuitBreakerState}
    (h : breaker.enter config now = some (is_half_open_probe, breaker')) :
    breaker'.state = breaker.state ∧
      breaker'.consecutive_failures = breaker.consecutive_failures ∧
      breaker'.last_failure_time = breaker.last_failure_time := by
  cases is_half_open_probe with
  | false =>
    obtain rfl := enter_normal h
    exact ⟨rfl, rfl, rfl⟩
  | true =>
    obtain ⟨-, rfl⟩ := enter_probe h
    exact ⟨rfl, rfl, rfl⟩

/-- Only an open breaker admits a probe. -/
theorem open_of_enter_probe {breaker' : CircuitBreakerState}
    (h : breaker.enter config now = some (true, breaker')) : breaker.state = .Open := by
  by_contra hclosed
  unfold enter at h
  rw [if_neg hclosed] at h
  cases h

/-- A breaker that knows its last failure admits no other call while it is open. -/
theorem closed_of_enter_normal {breaker' : CircuitBreakerState}
    (hknows : breaker.state = .Open → breaker.last_failure_time ≠ none)
    (h : breaker.enter config now = some (false, breaker')) : breaker.state = .Closed := by
  cases hstate : breaker.state with
  | Closed => rfl
  | Open =>
    unfold enter at h
    rw [if_pos hstate] at h
    split at h
    · next last_failure hlast =>
      split at h
      · cases h
      · split at h <;> cases h
    · next hlast => exact absurd hlast (hknows hstate)

theorem framed_enter {is_half_open_probe : Bool} {breaker' : CircuitBreakerState}
    (h : breaker.enter config now = some (is_half_open_probe, breaker'))
    (hinv : Framed config breaker) : Framed config breaker' := by
  obtain ⟨hstate, hcount, hlast⟩ := enter_fields h
  constructor
  · rw [hstate, hlast]
    exact hinv.knows_failure
  · rw [hstate, hcount]
    exact hinv.below
  · intro hguard
    rw [hstate]
    cases is_half_open_probe with
    | true => exact open_of_enter_probe h
    | false =>
      obtain rfl := enter_normal h
      exact hinv.guarded hguard

/-- A failure leaves the breaker open if it was, and otherwise opens it at the threshold. -/
theorem framed_on_failure (hinv : Framed config breaker) (is_half_open_probe : Bool) :
    Framed config (breaker.on_failure config now is_half_open_probe) where
  knows_failure := fun _ => Option.some_ne_none now
  below := by
    intro hclosed
    simp only [on_failure] at hclosed ⊢
    split at hclosed
    · cases hclosed
    · next hstays =>
      by_contra hreached
      exact hstays ⟨Nat.le_of_not_lt hreached, hclosed⟩
  guarded := by
    intro hguard
    -- whoever fails, the guard was set before
    have hbefore : breaker.half_open_probe_in_progress = true := by
      cases is_half_open_probe with
      | true => cases hguard
      | false => exact hguard
    have hopen := hinv.guarded hbefore
    simp [on_failure, hopen]

theorem framed_record {T E : Type} (hthreshold : 0 < config.failure_threshold)
    (hinv : Framed config breaker) (is_half_open_probe : Bool) (result : Except E T) :
    Framed config (breaker.record config now is_half_open_probe result) := by
  cases result with
  | ok value => exact framed_new hthreshold
  | error error => exact framed_on_failure hinv is_half_open_probe

/-- The next failure overflows the counter of an open breaker. -/
def full (breaker : CircuitBreakerState) : Bool :=
  breaker.state = .Open && breaker.consecutive_failures + 1 = 2 ^ 32

/-- A failure keeps an open breaker at the threshold exactly if its counter does not overflow. -/
theorem reached_on_failure_iff (hthreshold : 0 < config.failure_threshold)
    (hlt : breaker.consecutive_failures < 2 ^ 32) (hinv : Consistent config breaker)
    (is_half_open_probe : Bool) :
    ((breaker.on_failure config now is_half_open_probe).state = .Open →
        config.failure_threshold ≤
          (breaker.on_failure config now is_half_open_probe).consecutive_failures) ↔
      breaker.full = false := by
  cases hstate : breaker.state with
  | Closed =>
    have hfull : breaker.full = false := by simp [full, hstate]
    simp only [hfull, iff_true]
    intro hopen
    simp only [on_failure, hstate, and_true] at hopen ⊢
    split at hopen
    · assumption
    · cases hopen
  | Open =>
    have hreached := hinv.reached hstate
    have hopen : (breaker.on_failure config now is_half_open_probe).state = .Open := by
      simp [on_failure, hstate]
    rw [hopen]
    by_cases hwrap : breaker.consecutive_failures + 1 = 2 ^ 32
    · -- with one it is zero, below any threshold
      have hfull : breaker.full = true := by simp [full, hstate, hwrap]
      have hzero : (breaker.on_failure config now is_half_open_probe).consecutive_failures = 0 := by
        simp only [on_failure, hwrap, Nat.mod_self]
      rw [hzero, hfull]
      simp only [forall_const, Bool.true_eq_false, iff_false]
      omega
    · -- without an overflow the counter only grows
      have hfull : breaker.full = false := by
        rw [full, decide_eq_false hwrap, Bool.and_false]
      have hnext : (breaker.on_failure config now is_half_open_probe).consecutive_failures =
          breaker.consecutive_failures + 1 := by
        simp only [on_failure]
        exact Nat.mod_eq_of_lt (by omega)
      rw [hnext, hfull]
      simp only [forall_const, iff_true]
      omega

end CircuitBreakerState

/-! ### Steps -/

namespace BreakerCalls

variable {ι T E : Type} [DecidableEq ι] {config : CircuitBreakerConfig}

open CircuitBreakerState (Framed)

/-- Whoever is admitted as a normal call finds the breaker closed. -/
def AdmitsWhileClosed (st : BreakerStep ι T E) : Prop :=
  ∀ id, st.label = .enter id → st.post.calls id = .executing false → st.pre.breaker.state = .Closed

/-- A failure is recorded that overflows the counter of an open breaker. -/
def overflows (st : BreakerStep ι T E) : Bool :=
  (recorded st).any (fun result => !result.toBool) && st.pre.breaker.full

section step
variable {s s' : BreakerCalls ι T E} {l : CallLabel ι T E}

theorem framed_step (hthreshold : 0 < config.failure_threshold)
    (hinv : Framed config s.breaker) (h : Stepped config s l s') : Framed config s'.breaker := by
  cases h with
  | admitted hcall henter => exact CircuitBreakerState.framed_enter henter hinv
  | recorded hcall => exact CircuitBreakerState.framed_record hthreshold hinv _ _
  | rejected hcall henter => exact hinv
  | resolved hcall => exact hinv
  | dropped hcall => exact hinv
  | ticked => exact hinv

theorem admits_while_closed_step (hinv : Framed config s.breaker) (h : Stepped config s l s') :
    AdmitsWhileClosed (⟨s, l, s'⟩ : BreakerStep ι T E) := by
  intro id hlabel hnormal
  cases h with
  | @admitted id' is_half_open_probe breaker hcall henter =>
    cases hlabel
    have hmode : BreakerCall.executing is_half_open_probe =
        (BreakerCall.executing false : BreakerCall T E) := by
      rw [← hnormal]
      exact (set_calls_self _ id _).symm
    cases hmode
    exact CircuitBreakerState.closed_of_enter_normal hinv.knows_failure henter
  | rejected hcall henter =>
    cases hlabel
    have hmode : (BreakerCall.finished (.error .CircuitOpen) : BreakerCall T E) =
        .executing false := by
      rw [← hnormal]
      exact (set_calls_self _ id _).symm
    cases hmode
  | resolved hcall => cases hlabel
  | recorded hcall => cases hlabel
  | dropped hcall => cases hlabel
  | ticked => cases hlabel

/-- A step that records no result leaves what the breaker has counted. -/
theorem consistent_of_recorded_none (hthreshold : 0 < config.failure_threshold)
    (hinv : s.breaker.Consistent config) (h : Stepped config s l s')
    (hrecorded : recorded ⟨s, l, s'⟩ = none) : s'.breaker.Consistent config := by
  obtain ⟨hstate, hcount⟩ := breaker_of_recorded_none h hrecorded
  refine ⟨framed_step hthreshold hinv.toFramed h, ?_⟩
  rw [hstate, hcount]
  exact hinv.reached

/-- The step lemma: the invariant is kept exactly if the counter does not overflow. -/
theorem consistent_step_iff (hthreshold : 0 < config.failure_threshold)
    (hlt : s.breaker.consecutive_failures < 2 ^ 32) (hinv : s.breaker.Consistent config)
    (h : Stepped config s l s') :
    s'.breaker.Consistent config ↔ overflows (⟨s, l, s'⟩ : BreakerStep ι T E) = false := by
  cases hrecorded : recorded (⟨s, l, s'⟩ : BreakerStep ι T E) with
  | none =>
    simp only [overflows, hrecorded, Option.any_none, Bool.false_and, iff_true]
    exact consistent_of_recorded_none hthreshold hinv h hrecorded
  | some result =>
    obtain ⟨is_half_open_probe, hbreaker⟩ := breaker_of_recorded_some h hrecorded
    have hframed := framed_step hthreshold hinv.toFramed h
    simp only [overflows, hrecorded, Option.any_some]
    rw [hbreaker] at hframed ⊢
    cases result with
    | ok value =>
      -- a success starts afresh
      simp only [Except.toBool, Bool.not_true, Bool.false_and, iff_true]
      exact CircuitBreakerState.consistent_new hthreshold
    | error error =>
      simp only [Except.toBool, Bool.not_false, Bool.true_and]
      have hreached := @CircuitBreakerState.reached_on_failure_iff config s.breaker s.now hthreshold
        hlt hinv is_half_open_probe
      constructor
      · intro hconsistent
        exact hreached.mp hconsistent.reached
      · intro hfull
        exact ⟨hframed, hreached.mpr hfull⟩

end step

/-! ### Runs -/

section run
variable {tr : List (BreakerStep ι T E)} {s : BreakerCalls ι T E}

/-- In every run, also in one whose counter overflows. -/
theorem framed_of_run (hthreshold : 0 < config.failure_threshold)
    (h : Run (breaker_system ι T E config) tr s) : Framed config s.breaker := by
  apply h.invariant (P := fun s => Framed config s.breaker)
  · intro s hinit
    rw [hinit.1]
    exact CircuitBreakerState.framed_new hthreshold
  · intro s l s' hinv hs
    exact framed_step hthreshold hinv (stepped_of_next hs)

/-- **The invariant of the breaker** holds in every state of a run, and every normal call has
    found the breaker closed, exactly if no failure overflows the counter of an open breaker. -/
theorem breaker_consistent_iff (hthreshold : 0 < config.failure_threshold)
    (h : Run (breaker_system ι T E config) tr s) :
    (s.breaker.Consistent config ∧
        Along (fun _ st => st.pre.breaker.Consistent config ∧ AdmitsWhileClosed st) tr) ↔
      Along (fun _ st => overflows st = false) tr := by
  induction h with
  | init hinit =>
    simp only [along_nil, and_true, iff_true]
    rw [hinit.1]
    exact CircuitBreakerState.consistent_new hthreshold
  | @step tr s s' l hrun hs ih =>
    have hstep := stepped_of_next hs
    -- calls are admitted rightly in every run, so that this part is left out of the equivalence
    have hadmits := admits_while_closed_step (framed_of_run hthreshold hrun) hstep
    rw [along_cons, along_cons, ← ih]
    constructor
    · intro hboth
      obtain ⟨hafter, ⟨hbefore, _⟩, hpast⟩ := hboth
      exact ⟨(consistent_step_iff hthreshold (counter_lt hrun) hbefore hstep).mp hafter, hbefore,
        hpast⟩
    · intro hboth
      obtain ⟨hfits, hbefore, hpast⟩ := hboth
      exact ⟨(consistent_step_iff hthreshold (counter_lt hrun) hbefore hstep).mpr hfits,
        ⟨hbefore, hadmits⟩, hpast⟩

end run

/-! ### A breaker that opens at the first failure -/

/-- A late failure is counted while the breaker is open, and a probe is under way. -/
theorem late_failure_consistent : ∃ tr s, Run (breaker_system Nat Unit Unit sensitive) tr s ∧
    s.breaker.half_open_probe_in_progress = true ∧ s.breaker.Consistent sensitive ∧
      Along (fun _ st => st.pre.breaker.Consistent sensitive ∧ AdmitsWhileClosed st) tr := by
  obtain ⟨tr, s, hrun, htest⟩ := (breaker_system Nat Unit Unit sensitive).exists_run_of_replay
    (late_failure ++ [.tick (from_secs 1), .enter 4])
    (fun tr s => along_test (fun _ st => !overflows st) tr &&
      s.breaker.half_open_probe_in_progress) idle_init (by decide +kernel)
  rw [Bool.and_eq_true] at htest
  refine ⟨tr, s, hrun, htest.2, (breaker_consistent_iff (by decide) hrun).mpr ?_⟩
  apply (along_of_test htest.1).mono
  intro _ st hfits
  exact Bool.not_eq_true' _ ▸ hfits

/-- The first `n` calls have failed one after the other. -/
structure AfterFailures (n : Nat) (s : BreakerCalls Nat Unit Unit) : Prop where
  counted : s.breaker.consecutive_failures = n % 2 ^ 32
  unguarded : s.breaker.half_open_probe_in_progress = false
  opened : n = 0 ∨ s.breaker.state = .Open
  past : ∀ t, s.breaker.last_failure_time = some t → t ≤ s.now
  waiting : ∀ id, n ≤ id → s.calls id = .waiting

/-- A call that is admitted and fails at once. -/
theorem run_of_failing_call {tr : List (BreakerStep ι T E)} {s : BreakerCalls ι T E} {id : ι}
    {is_half_open_probe : Bool} {breaker : CircuitBreakerState}
    (h : Run (breaker_system ι T E config) tr s) (hwaiting : s.calls id = .waiting)
    (henter : s.breaker.enter config s.now = some (is_half_open_probe, breaker)) (error : E) :
    ∃ tr' s', Run (breaker_system ι T E config) tr' s' ∧ s'.now = s.now ∧
      s'.breaker = breaker.on_failure config s.now is_half_open_probe ∧
      ∀ id', id' ≠ id → s'.calls id' = s.calls id' := by
  have hadmitted : Run (breaker_system ι T E config) _
      ({ s with breaker }.set id (.executing is_half_open_probe)) :=
    h.step (.enter id) (by simp only [breaker_system, next, hwaiting, henter])
  obtain ⟨s₁, hs₁⟩ : ∃ s₁, s₁ = (({ s with breaker }.set id (.executing is_half_open_probe)).set id
      (.returned is_half_open_probe (.error error)) : BreakerCalls ι T E) := ⟨_, rfl⟩
  have hfailed : Run (breaker_system ι T E config) _ s₁ :=
    hadmitted.step (.resolve id (.error error))
      (by simp only [breaker_system, next, set_calls_self, hs₁])
  have hreturned : s₁.calls id = .returned is_half_open_probe (.error error) := by
    rw [hs₁, set_calls_self]
  have hrecorded : Run (breaker_system ι T E config) _
      ({ s₁ with breaker := s₁.breaker.on_failure config s₁.now is_half_open_probe }.set id
        (.finished (.error (.Failure error)))) :=
    hfailed.step (.record id) (by
      simp only [breaker_system, next, hreturned]
      rfl)
  refine ⟨_, _, hrecorded, ?_, ?_, ?_⟩
  · rw [set_now, hs₁]
    rfl
  · rw [set_breaker, hs₁]
    rfl
  · intro id' hother
    rw [set_calls_of_ne _ _ _ hother, hs₁]
    simp only [set_calls_of_ne _ _ _ hother]

/-- The counter takes every value in turn: a second after each failure the next call is
    admitted. -/
theorem exists_failures (n : Nat) :
    ∃ tr s, Run (breaker_system Nat Unit Unit sensitive) tr s ∧ AfterFailures n s := by
  induction n with
  | zero =>
    refine ⟨[], idle, .init idle_init, rfl, rfl, .inl rfl, ?_, fun _ _ => rfl⟩
    intro t ht
    cases ht
  | succ n ih =>
    obtain ⟨tr, s, hrun, hafter⟩ := ih
    have hlater : Run (breaker_system Nat Unit Unit sensitive) _
        { s with now := s.now + from_secs 1 } :=
      hrun.step (.tick (from_secs 1)) rfl
    -- by then the timeout is over, and there is no probe that would keep the call out
    have hadmitted : (s.breaker.enter sensitive (s.now + from_secs 1)).isSome = true := by
      apply CircuitBreakerState.enter_isSome_of_no_probe hafter.unguarded
      intro t ht
      have hpast := hafter.past t ht
      show from_secs 1 ≤ _
      omega
    obtain ⟨⟨is_half_open_probe, breaker⟩, henter⟩ := Option.isSome_iff_exists.mp hadmitted
    obtain ⟨hstate, hcount, -⟩ := CircuitBreakerState.enter_fields henter
    obtain ⟨tr', s', hrun', hnow, hbreaker, hcalls⟩ :=
      run_of_failing_call hlater (hafter.waiting n (Nat.le_refl n)) henter ()
    refine ⟨tr', s', hrun', ?_, ?_, .inr ?_, ?_, ?_⟩
    · rw [hbreaker]
      simp only [CircuitBreakerState.on_failure, hcount, hafter.counted]
      omega
    · rw [hbreaker]
      cases is_half_open_probe with
      | true => rfl
      | false =>
        obtain rfl := CircuitBreakerState.enter_normal henter
        exact hafter.unguarded
    · -- the first failure opens the breaker
      rw [hbreaker]
      rcases hafter.opened with hfirst | hopen
      · subst hfirst
        cases hclosed : breaker.state <;>
          simp [CircuitBreakerState.on_failure, hcount, hafter.counted, hclosed, sensitive]
      · simp [CircuitBreakerState.on_failure, hstate, hopen]
    · intro t ht
      rw [hbreaker] at ht
      cases ht
      exact Nat.le_of_eq hnow.symm
    · intro id hid
      rw [hcalls id (by omega)]
      exact hafter.waiting id (by omega)

/-- After 2^32 failures the breaker is open, and has counted none. -/
theorem overflowed_breaker_open :
    ¬ ∀ (tr : List (BreakerStep Nat Unit Unit)) (s : BreakerCalls Nat Unit Unit),
      Run (breaker_system Nat Unit Unit sensitive) tr s → s.breaker.Consistent sensitive := by
  intro hall
  obtain ⟨tr, s, hrun, hafter⟩ := exists_failures (2 ^ 32)
  have hopen : s.breaker.state = .Open := hafter.opened.resolve_left (by decide)
  have hreached := (hall tr s hrun).reached hopen
  rw [hafter.counted, Nat.mod_self] at hreached
  exact absurd hreached (by decide)

end BreakerCalls

end Servo
