import Servo.Framework.Procedures

/-! # Calls Whose Errors Are Logged

    A party that is called, together with the errors that calls to it have
    returned. The log only grows: where it is empty at the end of a
    computation, it was empty all the time, and every call was answered.
-/

universe u v

namespace Procedure

/-- The other party, and the errors of the calls to it, the newest first. -/
structure Logged (σ : Type u) (ε : Type v) where
  remote : Remote σ
  errors : List ε

section logged
variable {σ : Type u} {ε : Type v} {α : Type u}

/-- A call, the error of which is logged. -/
def logged (faults : Nat → Option (Fault ε)) (op : Procedure σ ε α) :
    Procedure (Logged σ ε) ε α := fun w =>
  match call faults op w.remote with
  | (.ok a, remote) => (.ok a, ⟨remote, w.errors⟩)
  | (.error e, remote) => (.error e, ⟨remote, e :: w.errors⟩)

variable {faults : Nat → Option (Fault ε)} {w : Logged σ ε}

/-- Where nothing has been logged, the call has been answered and carried out. -/
theorem logged_of_no_errors (op : σ → Except ε (α × σ))
    (h : (logged faults (atomic op) w).2.errors = []) :
    ∃ a w', logged faults (atomic op) w = (.ok a, w') ∧
      op w.remote.state = .ok (a, w'.remote.state) := by
  unfold logged at h ⊢
  rcases hcall : call faults (atomic op) w.remote with ⟨e | a, remote⟩
  · rw [hcall] at h
    cases h
  · have hdone := (call_eq_ok_iff.mp hcall).2.1
    exact ⟨a, _, rfl, atomic_eq_ok_iff.mp hdone⟩

/-- The same with the error turned into another one. -/
theorem map_error_logged_of_no_errors {ε' : Type v} {f : ε → ε'} (op : σ → Except ε (α × σ))
    (h : (map_error f (logged faults (atomic op)) w).2.errors = []) :
    ∃ a w', map_error f (logged faults (atomic op)) w = (.ok a, w') ∧
      op w.remote.state = .ok (a, w'.remote.state) := by
  rw [map_error_snd] at h
  obtain ⟨a, w', hcall, hdone⟩ := logged_of_no_errors op h
  exact ⟨a, w', map_error_apply_ok hcall, hdone⟩

end logged

/-! ### The log grows -/

section clean
variable {σ : Type u} {ε : Type v}

/-- What is not in the log afterwards was not there before. -/
def Clean (w w' : Logged σ ε) : Prop := w'.errors = [] → w.errors = []

theorem Clean.refl (w : Logged σ ε) : Clean w w := id

theorem Clean.trans (w₁ w₂ w₃ : Logged σ ε) (h : Clean w₁ w₂) (h' : Clean w₂ w₃) : Clean w₁ w₃ :=
  h ∘ h'

theorem keeps_clean_logged {α : Type u} (faults : Nat → Option (Fault ε)) (op : Procedure σ ε α) :
    Keeps Clean (logged faults op) := by
  intro w h
  unfold logged at h
  rcases hcall : call faults op w.remote with ⟨e | a, remote⟩
  · rw [hcall] at h
    cases h
  · rw [hcall] at h
    exact h

variable {ε' : Type v} {α β : Type u}

/-- Nothing has been logged by the first step either. -/
theorem no_errors_of_bind {x : Procedure (Logged σ ε) ε' α} {f : α → Procedure (Logged σ ε) ε' β}
    {w : Logged σ ε} (hf : ∀ a, Keeps Clean (f a)) (h : ((x >>= f) w).2.errors = []) :
    (x w).2.errors = [] := by
  rcases hx : x w with ⟨e | a, w'⟩
  · rw [bind_apply_error hx] at h
    exact h
  · rw [bind_apply_ok hx] at h
    exact hf a w' h

/-- A call that is answered, in front of what its answer is used for. -/
theorem bind_logged_of_no_errors {faults : Nat → Option (Fault ε)} {f : ε → ε'}
    (op : σ → Except ε (α × σ)) {k : α → Procedure (Logged σ ε) ε' β} {w : Logged σ ε}
    (hk : ∀ a, Keeps Clean (k a))
    (h : ((map_error f (logged faults (atomic op)) >>= k) w).2.errors = []) :
    ∃ a w', op w.remote.state = .ok (a, w'.remote.state) ∧
      (map_error f (logged faults (atomic op)) >>= k) w = k a w' := by
  obtain ⟨a, w', hcall, hdone⟩ := map_error_logged_of_no_errors op (no_errors_of_bind hk h)
  exact ⟨a, w', hdone, bind_apply_ok hcall⟩

end clean

end Procedure
