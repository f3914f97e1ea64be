import Servo.Storage.CircuitBreaker

/-! # Half-Open Probes

    The guard is set when a call is admitted as a probe. It is cleared by a
    probe that has returned and by any success, also by that of a call which
    was admitted before the breaker opened. Two things go wrong with it:

    * it may be cleared while another probe is executing its function, and
      then a second probe is admitted beside it (`two_probes_execute`);
    * nothing clears it for a probe that is dropped, and then no call is ever
      admitted again (`dropped_probe_wedges`).

    In runs without such steps there is at most one probe, and the breaker
    always comes to admit a call.
-/

namespace Servo

open LTS

namespace BreakerCalls

variable {ι T E : Type} [DecidableEq ι] {config : CircuitBreakerConfig}

/-! ### At most one probe -/

/-- At most one call that was admitted as a probe is executing its function. -/
def OneProbe (s : BreakerCalls ι T E) : Prop :=
  ∀ id id', (s.calls id).executes_probe = true → (s.calls id').executes_probe = true → id = id'

/-- The guard is set while a probe is executing its function. -/
def Guarded (s : BreakerCalls ι T E) : Prop :=
  ∀ id, (s.calls id).executes_probe = true → s.breaker.half_open_probe_in_progress = true

/-- A result is recorded that clears the guard, while another probe is executing its function. -/
def ClearsGuardEarly (st : Step (BreakerCalls ι T E) (CallLabel ι T E)) : Prop :=
  ∃ id is_half_open_probe, ∃ result : Except E T, st.label = .record id ∧
    st.pre.calls id = .returned is_half_open_probe result ∧
    (is_half_open_probe = true ∨ result.toBool = true) ∧
    ∃ other, other ≠ id ∧ (st.pre.calls other).executes_probe = true

/-- Where a call has changed, and it executes no probe, the probes are among those before. -/
theorem executes_probe_of_set {s : BreakerCalls ι T E} {id id' : ι} {call : BreakerCall T E}
    (hcall : call.executes_probe = false)
    (h : ((s.set id call).calls id').executes_probe = true) :
    id' ≠ id ∧ (s.calls id').executes_probe = true := by
  by_cases hid : id' = id
  · subst hid
    rw [set_calls_self, hcall] at h
    cases h
  · rw [set_calls_of_ne s id call hid] at h
    exact ⟨hid, h⟩

/-- Calls that stop executing keep both. -/
theorem one_probe_of_set {s : BreakerCalls ι T E} {id : ι} {call : BreakerCall T E}
    (hcall : call.executes_probe = false) (h : OneProbe s) : OneProbe (s.set id call) := by
  intro id₁ id₂ h₁ h₂
  exact h id₁ id₂ (executes_probe_of_set hcall h₁).2 (executes_probe_of_set hcall h₂).2

theorem guarded_of_set {s : BreakerCalls ι T E} {id : ι} {call : BreakerCall T E}
    (hcall : call.executes_probe = false) (h : Guarded s) : Guarded (s.set id call) := by
  intro id' h'
  exact h id' (executes_probe_of_set hcall h').2

/-- The step lemma: the guard keeps a second probe out, as long as it is not cleared early. -/
theorem guarded_step {s s' : BreakerCalls ι T E} {l : CallLabel ι T E}
    (hone : OneProbe s) (hguarded : Guarded s) (hstep : Stepped config s l s')
    (hclear : ¬ ClearsGuardEarly ⟨s, l, s'⟩) : OneProbe s' ∧ Guarded s' := by
  cases hstep with
  | admitted hcall henter =>
    rename_i id is_half_open_probe breaker
    cases is_half_open_probe with
    | false =>
      obtain rfl := CircuitBreakerState.enter_normal henter
      exact ⟨one_probe_of_set rfl hone, guarded_of_set rfl hguarded⟩
    | true =>
      obtain ⟨hflag, rfl⟩ := CircuitBreakerState.enter_probe henter
      -- the guard was clear, so no probe was executing
      have hnone : ∀ id', (s.calls id').executes_probe = false := by
        intro id'
        by_contra hexec
        have hset := hguarded id' (by simpa using hexec)
        rw [hflag] at hset
        cases hset
      have honly : ∀ id', ((s.set id (.executing true)).calls id').executes_probe = true →
          id' = id := by
        intro id' hexec
        by_contra hid
        rw [set_calls_of_ne s id _ hid, hnone id'] at hexec
        cases hexec
      refine ⟨?_, fun _ _ => rfl⟩
      intro id₁ id₂ h₁ h₂
      rw [honly id₁ h₁, honly id₂ h₂]
  | rejected hcall henter => exact ⟨one_probe_of_set rfl hone, guarded_of_set rfl hguarded⟩
  | resolved hcall => exact ⟨one_probe_of_set rfl hone, guarded_of_set rfl hguarded⟩
  | recorded hcall =>
    rename_i id is_half_open_probe result
    refine ⟨one_probe_of_set (s := { s with breaker := _ }) rfl hone, ?_⟩
    intro id' hexec
    obtain ⟨hid, hexec⟩ := executes_probe_of_set
      (s := { s with breaker := s.breaker.record config s.now is_half_open_probe result }) rfl hexec
    rw [set_breaker, CircuitBreakerState.record_guard, hguarded id' hexec]
    -- otherwise the guard would be cleared beside `id'`
    by_contra hcleared
    have hclears : is_half_open_probe = true ∨ result.toBool = true := by
      cases is_half_open_probe <;> simp_all
    exact hclear ⟨id, is_half_open_probe, result, rfl, hcall, hclears, id', hid, hexec⟩
  | dropped hcall => exact ⟨one_probe_of_set rfl hone, guarded_of_set rfl hguarded⟩
  | ticked => exact ⟨hone, hguarded⟩

/-- **At most one half-open probe**, in every run in which the guard is not cleared early. -/
theorem one_probe_executes {tr : List (Step (BreakerCalls ι T E) (CallLabel ι T E))}
    {s : BreakerCalls ι T E} (h : Run (breaker_system ι T E config) tr s)
    (hclear : Along (fun _ st => ¬ ClearsGuardEarly st) tr) : OneProbe s := by
  have hinv : OneProbe s ∧ Guarded s := by
    refine h.along_invariant (P := fun _ s => OneProbe s ∧ Guarded s) ?_ ?_ hclear
    · rintro s ⟨-, hcalls⟩
      have hnone : ∀ id, (s.calls id).executes_probe = false := by
        intro id
        rw [hcalls id]
        rfl
      exact ⟨fun id id' hid => by simp [hnone] at hid, fun id hid => by simp [hnone] at hid⟩
    · intro tr s l s' _ hinv hok hs
      exact guarded_step hinv.1 hinv.2 (stepped_of_next hs) hok
  exact hinv.1

/-- A result that does not clear the guard. -/
def keeps_guard (st : Step (BreakerCalls ι T E) (CallLabel ι T E)) : Bool :=
  match st.label with
  | .record id =>
    match st.pre.calls id with
    | .returned is_half_open_probe result => !is_half_open_probe && !result.toBool
    | _ => true
  | _ => true

omit [DecidableEq ι] in
theorem not_clears_guard_early_of_keeps {st : Step (BreakerCalls ι T E) (CallLabel ι T E)}
    (h : keeps_guard st = true) : ¬ ClearsGuardEarly st := by
  rintro ⟨id, is_half_open_probe, result, hlabel, hcall, hclears, -⟩
  unfold keeps_guard at h
  simp only [hlabel, hcall, Bool.and_eq_true, Bool.not_eq_true'] at h
  rcases hclears with hprobe | hok
  · rw [h.1] at hprobe
    cases hprobe
  · rw [h.2] at hok
    cases hok

/-- A breaker that opens at the first failure. -/
def sensitive : CircuitBreakerConfig := ⟨1, from_secs 1⟩

/-- No call has begun. -/
def idle : BreakerCalls Nat Unit Unit := ⟨0, .new, fun _ => .waiting⟩

theorem idle_init : (breaker_system Nat Unit Unit sensitive).init idle := ⟨rfl, fun _ => rfl⟩

/-- Two calls fail, the second when a probe is executing; another call is rejected. -/
def late_failure : List (CallLabel Nat Unit Unit) :=
  [.enter 0, .enter 1, .resolve 0 (.error ()), .record 0, .tick (from_secs 1), .enter 2,
    .resolve 1 (.error ()), .record 1, .tick (from_secs 1), .enter 3]

theorem late_failure_one_probe : ∃ tr s, Run (breaker_system Nat Unit Unit sensitive) tr s ∧
    (s.calls 2).executes_probe = true ∧ OneProbe s := by
  obtain ⟨tr, s, hrun, htest⟩ := (breaker_system Nat Unit Unit sensitive).exists_run_of_replay
    late_failure (fun tr s => along_test (fun _ st => keeps_guard st) tr &&
      (s.calls 2).executes_probe) idle_init (by decide +kernel)
  rw [Bool.and_eq_true] at htest
  refine ⟨tr, s, hrun, htest.2, one_probe_executes hrun ?_⟩
  exact (along_of_test htest.1).mono fun _ _ => not_clears_guard_early_of_keeps

/-- Three calls are admitted before the first of them fails. While a probe is executing, the
    second succeeds and the third fails. -/
def late_success : List (CallLabel Nat Unit Unit) :=
  [.enter 0, .enter 1, .enter 2, .resolve 0 (.error ()), .record 0, .tick (from_secs 1), .enter 3,
    .resolve 1 (.ok ()), .record 1, .resolve 2 (.error ()), .record 2, .tick (from_secs 1),
    .enter 4]

theorem two_probes_execute : ∃ tr s, Run (breaker_system Nat Unit Unit sensitive) tr s ∧
    (s.calls 3).executes_probe = true ∧ (s.calls 4).executes_probe = true ∧ ¬ OneProbe s := by
  obtain ⟨tr, s, hrun, htest⟩ := (breaker_system Nat Unit Unit sensitive).exists_run_of_replay
    late_success (fun _ s => (s.calls 3).executes_probe && (s.calls 4).executes_probe) idle_init
    (by decide +kernel)
  rw [Bool.and_eq_true] at htest
  refine ⟨tr, s, hrun, htest.1, htest.2, fun hone => ?_⟩
  exact absurd (hone 3 4 htest.1 htest.2) (by decide)

/-! ### The breaker does not wedge -/

/-- While the guard is set there is a probe that has not recorded its result. -/
def ProbeLive (s : BreakerCalls ι T E) : Prop :=
  s.breaker.half_open_probe_in_progress = true → ∃ id, (s.calls id).is_live_probe = true

/-- A probe is dropped for which the guard is set, and no other one is under way. -/
def DropsLastProbe (st : Step (BreakerCalls ι T E) (CallLabel ι T E)) : Prop :=
  st.pre.breaker.half_open_probe_in_progress = true ∧
    ∃ id, st.label = .drop id ∧ (st.pre.calls id).is_live_probe = true ∧
      ∀ other, other ≠ id → (st.pre.calls other).is_live_probe = false

/-- A live probe among the other calls stays one. -/
theorem is_live_probe_of_set {s : BreakerCalls ι T E} {id other : ι} {call : BreakerCall T E}
    (hother : other ≠ id) (h : (s.calls other).is_live_probe = true) :
    ∃ id', ((s.set id call).calls id').is_live_probe = true := by
  refine ⟨other, ?_⟩
  rw [set_calls_of_ne s id call hother]
  exact h

/-- The step lemma: only the end of the last probe leaves none. -/
theorem probe_live_step {s s' : BreakerCalls ι T E} {l : CallLabel ι T E} (hlive : ProbeLive s)
    (hstep : Stepped config s l s') (hdrop : ¬ DropsLastProbe ⟨s, l, s'⟩) : ProbeLive s' := by
  -- a call that was no live probe has changed
  have hframe : ∀ id call, (s.calls id).is_live_probe = false → ProbeLive (s.set id call) := by
    intro id call hcall hset
    obtain ⟨other, hother⟩ := hlive hset
    refine is_live_probe_of_set ?_ hother
    rintro rfl
    rw [hcall] at hother
    cases hother
  cases hstep with
  | admitted hcall henter =>
    rename_i id is_half_open_probe breaker
    cases is_half_open_probe with
    | false =>
      obtain rfl := CircuitBreakerState.enter_normal henter
      exact hframe id _ (by rw [hcall]; rfl)
    | true => exact fun _ => ⟨id, by rw [set_calls_self]; rfl⟩
  | rejected hcall henter => exact hframe _ _ (by rw [hcall]; rfl)
  | resolved hcall =>
    rename_i id is_half_open_probe result
    cases is_half_open_probe with
    | false => exact hframe id _ (by rw [hcall]; rfl)
    | true => exact fun _ => ⟨id, by rw [set_calls_self]; rfl⟩
  | recorded hcall =>
    rename_i id is_half_open_probe result
    intro hset
    rw [set_breaker, CircuitBreakerState.record_guard] at hset
    simp only [Bool.and_eq_true, Bool.not_eq_true'] at hset
    -- the guard is still set, so this call was no probe
    refine hframe id _ ?_ hset.1.1
    rw [hcall]
    exact hset.1.2
  | dropped hcall =>
    rename_i id
    by_cases hprobe : (s.calls id).is_live_probe = true
    · intro hset
      have hothers : ∃ other, other ≠ id ∧ (s.calls other).is_live_probe = true := by
        by_contra hnone
        refine hdrop ⟨hset, id, rfl, hprobe, fun other hother => ?_⟩
        by_contra hlive'
        exact hnone ⟨other, hother, by simpa using hlive'⟩
      obtain ⟨other, hother, hlive'⟩ := hothers
      exact is_live_probe_of_set hother hlive'
    · exact hframe id _ (by simpa using hprobe)
  | ticked => exact hlive

/-- A probe clears the guard with whatever it records. -/
theorem guard_cleared_of_record {s s' : BreakerCalls ι T E} {id : ι}
    (hprobe : (s.calls id).is_live_probe = true) (hs : s.next config (.record id) = some s') :
    s'.breaker.half_open_probe_in_progress = false := by
  cases stepped_of_next hs with
  | recorded hcall =>
    rw [hcall] at hprobe
    obtain rfl := hprobe
    rw [set_breaker, CircuitBreakerState.record_guard]
    simp

/-- After the timeout a call is admitted, if no other one is in flight. -/
theorem admitted_of_no_probe {s : BreakerCalls ι T E} {id : ι}
    (hflag : s.breaker.half_open_probe_in_progress = false)
    (htimeout : ∀ last_failure, s.breaker.last_failure_time = some last_failure →
      config.half_open_timeout ≤ s.now - last_failure)
    (hcall : s.calls id = .waiting) :
    ∃ is_half_open_probe s', s.next config (.enter id) = some s' ∧
      s'.calls id = .executing is_half_open_probe := by
  have hsome := CircuitBreakerState.enter_isSome_of_no_probe hflag htimeout
  obtain ⟨admitted, henter⟩ := Option.isSome_iff_exists.mp hsome
  refine ⟨admitted.1, _, ?_, set_calls_self { s with breaker := admitted.2 } id _⟩
  simp only [next, hcall, henter]

/-- **The breaker never wedges open**, in every run in which the last probe is not dropped. -/
theorem never_wedges {tr : List (Step (BreakerCalls ι T E) (CallLabel ι T E))}
    {s : BreakerCalls ι T E} (h : Run (breaker_system ι T E config) tr s)
    (hdrop : Along (fun _ st => ¬ DropsLastProbe st) tr) :
    (s.breaker.half_open_probe_in_progress = true →
      ∃ id, (s.calls id).is_live_probe = true ∧
        ∀ s₁ s₂ : BreakerCalls ι T E, (s₁.calls id).is_live_probe = true →
          s₁.next config (.record id) = some s₂ →
          s₂.breaker.half_open_probe_in_progress = false) ∧
      (s.breaker.state = .Open →
        (∀ last_failure, s.breaker.last_failure_time = some last_failure →
          config.half_open_timeout ≤ s.now - last_failure) →
        (∀ id, (s.calls id).in_flight = false) →
        ∀ id, s.calls id = .waiting → ∃ is_half_open_probe s',
          s.next config (.enter id) = some s' ∧ s'.calls id = .executing is_half_open_probe) := by
  have hlive : ProbeLive s := by
    refine h.along_invariant (P := fun _ s => ProbeLive s) ?_ ?_ hdrop
    · rintro s ⟨hbreaker, -⟩ hset
      rw [hbreaker] at hset
      cases hset
    · intro tr s l s' _ hlive hok hs
      exact probe_live_step hlive (stepped_of_next hs) hok
  refine ⟨fun hset => ?_, fun _ htimeout hidle id hcall => ?_⟩
  · obtain ⟨id, hprobe⟩ := hlive hset
    exact ⟨id, hprobe, fun s₁ s₂ => guard_cleared_of_record⟩
  · refine admitted_of_no_probe ?_ htimeout hcall
    by_contra hset
    obtain ⟨id', hprobe⟩ := hlive (by simpa using hset)
    have hflight := hidle id'
    cases hcall' : s.calls id' <;> simp_all [BreakerCall.is_live_probe, BreakerCall.in_flight]

/-- A step that drops no call. -/
def drops_nothing (st : Step (BreakerCalls ι T E) (CallLabel ι T E)) : Bool :=
  match st.label with
  | .drop _ => false
  | _ => true

omit [DecidableEq ι] in
theorem not_drops_last_probe_of_nothing {st : Step (BreakerCalls ι T E) (CallLabel ι T E)}
    (h : drops_nothing st = true) : ¬ DropsLastProbe st := by
  rintro ⟨-, id, hlabel, -⟩
  unfold drops_nothing at h
  rw [hlabel] at h
  cases h

/-- A call that has not been admitted is waiting. -/
theorem waiting_of_not_admitted {tr : List (Step (BreakerCalls ι T E) (CallLabel ι T E))}
    {s : BreakerCalls ι T E} (h : Run (breaker_system ι T E config) tr s) {id : ι}
    (henter : ∀ st ∈ tr, st.label ≠ .enter id) : s.calls id = .waiting := by
  refine h.along_invariant (C := fun _ st => st.label ≠ .enter id)
    (P := fun _ s => s.calls id = .waiting) ?_ ?_ ((along_iff_forall _ tr).mpr henter)
  · rintro s ⟨-, hcalls⟩
    exact hcalls id
  intro tr s l s' _ hwaiting hlabel hs
  -- the call of the step is another one
  have hframe : ∀ (s₁ : BreakerCalls ι T E) id' call, s₁.calls = s.calls → id' ≠ id →
      (s₁.set id' call).calls id = .waiting := by
    intro s₁ id' call hcalls hne
    rw [set_calls_of_ne s₁ id' call hne.symm, hcalls, hwaiting]
  cases stepped_of_next hs with
  | admitted hcall henter => exact hframe _ _ _ rfl fun heq => hlabel (by rw [heq])
  | rejected hcall henter => exact hframe _ _ _ rfl fun heq => hlabel (by rw [heq])
  | resolved hcall => exact hframe _ _ _ rfl fun heq => by simp [heq, hwaiting] at hcall
  | recorded hcall => exact hframe _ _ _ rfl fun heq => by simp [heq, hwaiting] at hcall
  | dropped hcall =>
    exact hframe _ _ _ rfl fun heq => by simp [heq, hwaiting, BreakerCall.in_flight] at hcall
  | ticked => exact hwaiting

/-- Where two calls have been admitted and are over, none is in flight. -/
theorem idle_of_two {tr : List (Step (BreakerCalls Nat T E) (CallLabel Nat T E))}
    {s : BreakerCalls Nat T E} (h : Run (breaker_system Nat T E config) tr s)
    (henter : ∀ st ∈ tr, ∀ id, st.label = .enter id → id = 0 ∨ id = 1)
    (hfirst : (s.calls 0).in_flight = false) (hsecond : (s.calls 1).in_flight = false) (id : Nat) :
    (s.calls id).in_flight = false := by
  by_cases hid : id = 0 ∨ id = 1
  · rcases hid with rfl | rfl
    · exact hfirst
    · exact hsecond
  · rw [waiting_of_not_admitted h fun st hmem hlabel => hid (henter st hmem id hlabel)]
    rfl

/-- A call fails, and so does the probe after it. -/
def failed_probe : List (CallLabel Nat Unit Unit) :=
  [.enter 0, .resolve 0 (.error ()), .record 0, .tick (from_secs 1), .enter 1,
    .resolve 1 (.error ()), .record 1, .tick (from_secs 1)]

/-- A call fails, and the probe after it is dropped. -/
def dropped_probe : List (CallLabel Nat Unit Unit) :=
  [.enter 0, .resolve 0 (.error ()), .record 0, .tick (from_secs 1), .enter 1, .drop 1,
    .tick (from_secs 1)]

/-- The circuit is open, its timeout is over, and the calls 0 and 1 have ended. -/
def timed_out (s : BreakerCalls Nat Unit Unit) : Bool :=
  s.breaker.state = .Open && !(s.calls 0).in_flight && !(s.calls 1).in_flight &&
    (s.breaker.last_failure_time.all fun t => decide (sensitive.half_open_timeout ≤ s.now - t))

theorem failed_probe_admits_next : ∃ tr s, Run (breaker_system Nat Unit Unit sensitive) tr s ∧
    s.breaker.state = .Open ∧ ∃ is_half_open_probe s',
      s.next sensitive (.enter 2) = some s' ∧ s'.calls 2 = .executing is_half_open_probe := by
  obtain ⟨tr, s, hrun, hlabels, htest⟩ :=
    (breaker_system Nat Unit Unit sensitive).exists_run_of_schedule failed_probe
      (fun tr s => along_test (fun _ st => drops_nothing st) tr && timed_out s) idle_init
      (by decide +kernel)
  rw [Bool.and_eq_true] at htest
  simp only [timed_out, Bool.and_eq_true, decide_eq_true_eq, Bool.not_eq_true'] at htest
  obtain ⟨hdrops, ⟨⟨hopen, hfirst⟩, hsecond⟩, htimeout⟩ := htest
  have henter : ∀ st ∈ tr, ∀ id, st.label = .enter id → id = 0 ∨ id = 1 := by
    intro st hmem id hlabel
    have hmem' := hlabels st hmem
    rw [hlabel] at hmem'
    simpa [failed_probe] using hmem'
  refine ⟨tr, s, hrun, hopen, ?_⟩
  refine (never_wedges hrun ?_).2 hopen ?_ (idle_of_two hrun henter hfirst hsecond) 2
    (waiting_of_not_admitted hrun fun st hmem hlabel => ?_)
  · exact (along_of_test hdrops).mono fun _ _ => not_drops_last_probe_of_nothing
  · intro last_failure hlast
    simpa [hlast] using htimeout
  · exact absurd (henter st hmem 2 hlabel) (by decide)

theorem dropped_probe_wedges : ∃ tr s, Run (breaker_system Nat Unit Unit sensitive) tr s ∧
    s.breaker.half_open_probe_in_progress = true ∧ s.breaker.state = .Open ∧
    (∀ last_failure, s.breaker.last_failure_time = some last_failure →
      sensitive.half_open_timeout ≤ s.now - last_failure) ∧
    (∀ id, (s.calls id).in_flight = false) ∧
    s.breaker.enter sensitive s.now = none := by
  obtain ⟨tr, s, hrun, hlabels, htest⟩ :=
    (breaker_system Nat Unit Unit sensitive).exists_run_of_schedule dropped_probe
      (fun _ s => s.breaker.half_open_probe_in_progress && timed_out s &&
        decide (s.breaker.enter sensitive s.now = none)) idle_init (by decide +kernel)
  simp only [timed_out, Bool.and_eq_true, decide_eq_true_eq, Bool.not_eq_true'] at htest
  obtain ⟨⟨hset, ⟨⟨hopen, hfirst⟩, hsecond⟩, htimeout⟩, hrejected⟩ := htest
  have henter : ∀ st ∈ tr, ∀ id, st.label = .enter id → id = 0 ∨ id = 1 := by
    intro st hmem id hlabel
    have hmem' := hlabels st hmem
    rw [hlabel] at hmem'
    simpa [dropped_probe] using hmem'
  refine ⟨tr, s, hrun, hset, hopen, ?_, idle_of_two hrun henter hfirst hsecond, hrejected⟩
  intro last_failure hlast
  simpa [hlast] using htimeout

end BreakerCalls

end Servo
