import Mathlib.Data.List.Basic

/-! # Noninterference by Unwinding

    Several callers use one service, a function `exec` from a state and a call
    to the state afterwards and a result. One of them is the observer. What
    the others do is of no consequence to it if its results are the same when
    their calls are purged from the sequence.

    The proof rule follows the classical unwinding: a function `view` keeps of
    a state what the observer can see; the calls of others leave the view as
    it is, and a call of the observer does on the view what it does on the
    state. Here the second half is asked for only where the call is `ok`, and
    a call that is not `ok` is required to tell the difference at once. Then
    the results agree exactly if all calls of the observer are `ok`.
-/

universe u v w

namespace Noninterference

variable {State : Type u} {Call : Type v} {Result : Type w}

/-- What the calls of the observer return. -/
def results (exec : State → Call → State × Result) (mine : Call → Bool) :
    State → List Call → List Result
  | _, [] => []
  | s, call :: calls =>
    if mine call then (exec s call).2 :: results exec mine (exec s call).1 calls
    else results exec mine (exec s call).1 calls

/-- `ok` holds of each call in the state in which it is made. -/
def AtEach (exec : State → Call → State × Result) (ok : State → Call → Prop) :
    State → List Call → Prop
  | _, [] => True
  | s, call :: calls => ok s call ∧ AtEach exec ok (exec s call).1 calls

/-- The conditions on single calls. `Allowed` is what may be assumed of any call, and `Inv`
    an invariant under such calls. -/
structure Unwinding (exec : State → Call → State × Result) (mine : Call → Bool)
    (view : State → State) (Inv : State → Prop) (Allowed ok : State → Call → Prop) : Prop where
  /-- The invariant is kept. -/
  inv : ∀ s call, Inv s → Allowed s call → (mine call = true → ok s call) →
    Inv (exec s call).1
  /-- The calls of others do not change the view. -/
  others : ∀ s call, Inv s → Allowed s call → mine call = false →
    view (exec s call).1 = view s
  /-- The calls of the observer do on the view what they do on the state. -/
  own : ∀ s call, Inv s → Allowed s call → mine call = true → ok s call →
    exec (view s) call = (view (exec s call).1, (exec s call).2)
  /-- Or else they return something else. -/
  differs : ∀ s call, Inv s → Allowed s call → mine call = true → ¬ ok s call →
    (exec (view s) call).2 ≠ (exec s call).2

variable {exec : State → Call → State × Result} {mine : Call → Bool} {view : State → State}
  {Inv : State → Prop} {Allowed ok : State → Call → Prop}

/-- **Unwinding.** The observer's results are those it has without the calls of others exactly
    if each of its calls is `ok`. -/
theorem Unwinding.results_purged_iff (h : Unwinding exec mine view Inv Allowed ok)
    (calls : List Call) (s : State) (hinv : Inv s) (hallowed : AtEach exec Allowed s calls) :
    results exec mine (view s) (calls.filter mine) = results exec mine s calls ↔
      AtEach exec (fun s call => mine call = true → ok s call) s calls := by
  induction calls generalizing s with
  | nil => simp [results, AtEach]
  | cons call calls ih =>
    obtain ⟨hcall, hcalls⟩ := hallowed
    by_cases hmine : mine call = true
    · rw [List.filter_cons_of_pos hmine, results, results, if_pos hmine, if_pos hmine, AtEach]
      by_cases hok : ok s call
      · have hown := h.own s call hinv hcall hmine hok
        have hinv' := h.inv s call hinv hcall fun _ => hok
        rw [hown, List.cons.injEq, ih _ hinv' hcalls]
        simp [hok]
      · have hdiffers := h.differs s call hinv hcall hmine hok
        constructor
        · intro hresults
          exact absurd (List.cons.inj hresults).1 hdiffers
        · intro heach
          exact absurd (heach.1 hmine) hok
    · have hothers := h.others s call hinv hcall (Bool.eq_false_iff.mpr hmine)
      have hinv' := h.inv s call hinv hcall fun hmine' => absurd hmine' hmine
      rw [List.filter_cons_of_neg hmine, results, if_neg hmine, ← hothers, ih _ hinv' hcalls,
        AtEach]
      exact ⟨fun heach => ⟨fun hmine' => absurd hmine' hmine, heach⟩, fun heach => heach.2⟩

/-- A condition at each call, decided. -/
def at_each_test (exec : State → Call → State × Result) (test : State → Call → Bool) :
    State → List Call → Bool
  | _, [] => true
  | s, call :: calls => test s call && at_each_test exec test (exec s call).1 calls

theorem atEach_of_test {test : State → Call → Bool} (h : ∀ s call, test s call = true → ok s call)
    (calls : List Call) (s : State) (htest : at_each_test exec test s calls = true) :
    AtEach exec ok s calls := by
  induction calls generalizing s with
  | nil => trivial
  | cons call calls ih =>
    rw [at_each_test, Bool.and_eq_true] at htest
    exact ⟨h s call htest.1, ih _ htest.2⟩

end Noninterference
