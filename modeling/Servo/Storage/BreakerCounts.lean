import Servo.Storage.CircuitBreaker

/-! # What the Breaker Counts

    The breaker counts the results that are errors. A policy `trips` says
    which results ought to be counted. The two agree along a run exactly if
    every result that is recorded is an error when it trips and only then;
    the counter is a `u32`, so that the last failure it can hold must not be
    followed by another one.
-/

namespace Servo

open LTS

namespace BreakerCalls

variable {ι T E : Type} [DecidableEq ι] {config : CircuitBreakerConfig}

/-- The steps of the breaker and its calls. -/
abbrev BreakerStep (ι T E : Type) : Type := Step (BreakerCalls ι T E) (CallLabel ι T E)

/-- The result that a step records. -/
def recorded (st : BreakerStep ι T E) : Option (Except E T) :=
  match st.label with
  | .record id =>
    match st.pre.calls id with
    | .returned _ result => some result
    | _ => none
  | _ => none

/-- The results that the breaker has seen, the newest first. -/
def outcomes (tr : List (BreakerStep ι T E)) : List (Except E T) := tr.filterMap recorded

/-- The number of most recent results that trip. -/
def trailing (trips : Except E T → Bool) (results : List (Except E T)) : Nat :=
  (results.takeWhile trips).length

/-- The step opens the circuit. -/
def Opens (st : BreakerStep ι T E) : Prop :=
  st.pre.breaker.state = .Closed ∧ st.post.breaker.state = .Open

/-- After the step the counter is the number of most recent results that trip. The step opens the
    circuit exactly if it records a result and this number reaches the threshold, and never with a
    result that does not trip. -/
structure CountsTripping (config : CircuitBreakerConfig) (trips : Except E T → Bool)
    (past : List (BreakerStep ι T E)) (st : BreakerStep ι T E) : Prop where
  counter : st.post.breaker.consecutive_failures = trailing trips (outcomes (st :: past))
  opens : Opens st ↔ (recorded st).isSome = true ∧ st.pre.breaker.state = .Closed ∧
    config.failure_threshold ≤ trailing trips (outcomes (st :: past))
  spares : ∀ result, recorded st = some result → trips result = false → ¬ Opens st

/-- The result is counted as the policy has it. -/
def CountedRightly (trips : Except E T → Bool) (st : BreakerStep ι T E) : Prop :=
  ∀ result, recorded st = some result →
    if st.pre.breaker.consecutive_failures + 1 < 2 ^ 32 then trips result = !result.toBool
    else trips result = false

instance (trips : Except E T → Bool) (st : BreakerStep ι T E) :
    Decidable (CountedRightly trips st) :=
  match h : recorded st with
  | none => isTrue fun result hresult => by
    rw [h] at hresult
    cases hresult
  | some result => decidable_of_iff
      (if st.pre.breaker.consecutive_failures + 1 < 2 ^ 32 then trips result = !result.toBool
        else trips result = false)
      (by simp [CountedRightly, h])

omit [DecidableEq ι] in
theorem outcomes_cons_of_some {tr : List (BreakerStep ι T E)} {st : BreakerStep ι T E}
    {result : Except E T} (h : recorded st = some result) :
    outcomes (st :: tr) = result :: outcomes tr := by
  unfold outcomes
  rw [List.filterMap_cons_some h]

omit [DecidableEq ι] in
theorem outcomes_cons_of_none {tr : List (BreakerStep ι T E)} {st : BreakerStep ι T E}
    (h : recorded st = none) : outcomes (st :: tr) = outcomes tr := by
  unfold outcomes
  rw [List.filterMap_cons_none h]

theorem trailing_cons (trips : Except E T → Bool) (result : Except E T)
    (results : List (Except E T)) :
    trailing trips (result :: results) =
      if trips result = true then trailing trips results + 1 else 0 := by
  unfold trailing
  rw [List.takeWhile_cons]
  split
  · rw [List.length_cons]
  · rfl

/-- A step that records nothing leaves the state and the counter of the breaker. -/
theorem breaker_of_recorded_none {s s' : BreakerCalls ι T E} {l : CallLabel ι T E}
    (h : Stepped config s l s') (hrecorded : recorded ⟨s, l, s'⟩ = none) :
    s'.breaker.state = s.breaker.state ∧
      s'.breaker.consecutive_failures = s.breaker.consecutive_failures := by
  cases h with
  | admitted hcall henter =>
    rename_i id is_half_open_probe breaker
    cases is_half_open_probe with
    | false =>
      obtain rfl := CircuitBreakerState.enter_normal henter
      exact ⟨rfl, rfl⟩
    | true =>
      obtain ⟨-, rfl⟩ := CircuitBreakerState.enter_probe henter
      exact ⟨rfl, rfl⟩
  | rejected hcall henter => exact ⟨rfl, rfl⟩
  | resolved hcall => exact ⟨rfl, rfl⟩
  | recorded hcall => simp [recorded, hcall] at hrecorded
  | dropped hcall => exact ⟨rfl, rfl⟩
  | ticked => exact ⟨rfl, rfl⟩

/-- A step that records a result counts it. -/
theorem breaker_of_recorded_some {s s' : BreakerCalls ι T E} {l : CallLabel ι T E}
    {result : Except E T} (h : Stepped config s l s')
    (hrecorded : recorded ⟨s, l, s'⟩ = some result) :
    ∃ is_half_open_probe, s'.breaker = s.breaker.record config s.now is_half_open_probe result := by
  cases h with
  | recorded hcall =>
    rename_i id is_half_open_probe result'
    have heq : result' = result := by simpa [recorded, hcall] using hrecorded
    exact ⟨is_half_open_probe, by rw [heq]; rfl⟩
  | admitted hcall henter => cases hrecorded
  | rejected hcall henter => cases hrecorded
  | resolved hcall => cases hrecorded
  | dropped hcall => cases hrecorded
  | ticked => cases hrecorded

/-! ### One step -/

section step
variable {trips : Except E T → Bool} {past : List (BreakerStep ι T E)}
  {s s' : BreakerCalls ι T E} {l : CallLabel ι T E}

/-- The counter is a `u32`. -/
theorem counter_lt_step (h : Stepped config s l s')
    (hlt : s.breaker.consecutive_failures < 2 ^ 32) :
    s'.breaker.consecutive_failures < 2 ^ 32 := by
  cases hrecorded : recorded ⟨s, l, s'⟩ with
  | none => exact (breaker_of_recorded_none h hrecorded).2 ▸ hlt
  | some result =>
    obtain ⟨is_half_open_probe, hbreaker⟩ := breaker_of_recorded_some h hrecorded
    rw [hbreaker]
    cases result with
    | ok value => exact Nat.two_pow_pos 32
    | error error => exact Nat.mod_lt _ (Nat.two_pow_pos 32)

omit [DecidableEq ι] in
/-- The circuit opens when the counter reaches the threshold. -/
theorem opens_iff {result : Except E T} {is_half_open_probe : Bool}
    (hthreshold : 0 < config.failure_threshold)
    (hbreaker : s'.breaker = s.breaker.record config s.now is_half_open_probe result) :
    Opens (⟨s, l, s'⟩ : BreakerStep ι T E) ↔ s.breaker.state = .Closed ∧
      config.failure_threshold ≤ s'.breaker.consecutive_failures := by
  unfold Opens
  refine and_congr_right fun hclosed => ?_
  show s'.breaker.state = .Open ↔ _
  rw [hbreaker]
  cases result with
  | ok value =>
    show CircuitState.Closed = .Open ↔ config.failure_threshold ≤ 0
    have hnot : ¬ config.failure_threshold ≤ 0 := by omega
    simp [hnot]
  | error error =>
    have hclosed' : s.breaker.state = .Closed := hclosed
    simp only [CircuitBreakerState.record, CircuitBreakerState.on_failure, hclosed', and_true]
    split
    · next hle => simp only [hle]
    · next hle => simp only [hle, reduceCtorEq]

/-- The counter follows the policy exactly if the result is counted as the policy has it. -/
theorem counter_eq_iff {result : Except E T} {breaker : CircuitBreakerState} {now : Nat}
    {is_half_open_probe : Bool} (hlt : breaker.consecutive_failures < 2 ^ 32) :
    (breaker.record config now is_half_open_probe result).consecutive_failures =
        (if trips result = true then breaker.consecutive_failures + 1 else 0) ↔
      if breaker.consecutive_failures + 1 < 2 ^ 32 then trips result = !result.toBool
      else trips result = false := by
  cases result with
  | ok value =>
    show 0 = _ ↔ if _ then trips (.ok value) = false else trips (.ok value) = false
    rw [ite_self]
    cases htrips : trips (.ok value) <;> simp
  | error error =>
    show (breaker.consecutive_failures + 1) % 2 ^ 32 = _ ↔
      if _ then trips (.error error) = true else trips (.error error) = false
    by_cases hwrap : breaker.consecutive_failures + 1 < 2 ^ 32
    · rw [if_pos hwrap, Nat.mod_eq_of_lt hwrap]
      cases htrips : trips (.error error) <;> simp
    · -- the counter was full, and starts again at zero
      have hfull : breaker.consecutive_failures + 1 = 2 ^ 32 := by omega
      rw [if_neg hwrap, hfull, Nat.mod_self]
      cases htrips : trips (.error error) <;> simp

/-- The step lemma: where the counter was right, it stays right exactly if the result is counted
    as the policy has it. -/
theorem counts_tripping_step (hthreshold : 0 < config.failure_threshold)
    (hlt : s.breaker.consecutive_failures < 2 ^ 32)
    (hcounter : s.breaker.consecutive_failures = trailing trips (outcomes past))
    (hstep : Stepped config s l s') :
    CountsTripping config trips past ⟨s, l, s'⟩ ↔ CountedRightly trips ⟨s, l, s'⟩ := by
  cases hrecorded : recorded ⟨s, l, s'⟩ with
  | none =>
    obtain ⟨hstate, hcount⟩ := breaker_of_recorded_none hstep hrecorded
    -- nothing is recorded, so nothing opens the circuit
    have hnot : ¬ Opens (⟨s, l, s'⟩ : BreakerStep ι T E) := by
      intro ⟨hclosed, hopen⟩
      have hclosed' : s.breaker.state = .Closed := hclosed
      have hopen' : s'.breaker.state = .Open := hopen
      rw [hstate, hclosed'] at hopen'
      cases hopen'
    constructor
    · intro _ result hresult
      rw [hrecorded] at hresult
      cases hresult
    · intro _
      refine ⟨?_, by simp [hnot, hrecorded], fun _ _ _ => hnot⟩
      rw [outcomes_cons_of_none hrecorded]
      exact hcount.trans hcounter
  | some result =>
    obtain ⟨is_half_open_probe, hbreaker⟩ := breaker_of_recorded_some hstep hrecorded
    have htrailing := trailing_cons trips result (outcomes past)
    rw [← outcomes_cons_of_some hrecorded, ← hcounter] at htrailing
    -- the counter alone decides, and the rest follows from it
    have hright : CountedRightly trips ⟨s, l, s'⟩ ↔
        s'.breaker.consecutive_failures = trailing trips (outcomes (⟨s, l, s'⟩ :: past)) := by
      rw [htrailing, hbreaker, counter_eq_iff hlt]
      constructor
      · exact fun h => h result hrecorded
      · intro h result' hresult'
        obtain rfl : result = result' := Option.some.inj (hrecorded.symm.trans hresult')
        exact h
    rw [hright]
    constructor
    · exact fun h => h.counter
    · intro heq
      have hopens := opens_iff (l := l) hthreshold hbreaker
      rw [heq] at hopens
      refine ⟨heq, by simpa [hrecorded] using hopens, ?_⟩
      intro result' hresult' hspared
      obtain rfl : result = result' := Option.some.inj (hrecorded.symm.trans hresult')
      rw [hopens, htrailing, hspared]
      have hnot : ¬ config.failure_threshold ≤ 0 := by omega
      simp [hnot]

end step

/-! ### Runs -/

section run
variable {trips : Except E T → Bool} {tr : List (BreakerStep ι T E)} {s : BreakerCalls ι T E}

theorem counter_lt (h : Run (breaker_system ι T E config) tr s) :
    s.breaker.consecutive_failures < 2 ^ 32 := by
  refine h.invariant (P := fun s => s.breaker.consecutive_failures < 2 ^ 32) ?_ ?_
  · rintro s ⟨hbreaker, -⟩
    rw [hbreaker]
    exact Nat.two_pow_pos 32
  · exact fun s l s' hlt hs => counter_lt_step (stepped_of_next hs) hlt

/-- Where all steps count as the policy has it, the counter is right at the end. -/
theorem counter_of_along (h : Run (breaker_system ι T E config) tr s)
    (hcounts : Along (CountsTripping config trips) tr) :
    s.breaker.consecutive_failures = trailing trips (outcomes tr) := by
  cases h with
  | init hinit =>
    obtain ⟨hbreaker, -⟩ := hinit
    rw [hbreaker]
    rfl
  | step l hrun hs => exact hcounts.1.counter

/-- **The breaker counts what the policy says**, in every state of a run, exactly if each result
    is counted as the policy has it. -/
theorem counts_tripping_iff (hthreshold : 0 < config.failure_threshold)
    (h : Run (breaker_system ι T E config) tr s) :
    Along (CountsTripping config trips) tr ↔ Along (fun _ st => CountedRightly trips st) tr := by
  induction h with
  | init hinit => exact Iff.rfl
  | step l hrun hs ih =>
    rw [along_cons, along_cons, ih]
    refine and_congr_left fun hpast => ?_
    have hcounter := counter_of_along hrun (ih.mpr hpast)
    exact counts_tripping_step hthreshold (counter_lt hrun) hcounter (stepped_of_next hs)

end run

end BreakerCalls

end Servo
