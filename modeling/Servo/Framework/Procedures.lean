import Servo.Framework.Fallible

/-! # Procedures

    A computation on a state that may fail half way: what it did to the state
    before the failure stays done. A relation that each step keeps, whether it
    succeeds or fails, is kept by the whole.

    * `atomic`: a step that fails without having changed anything.
    * `call`: a step at another party, where the failure may also be one of
      the way there, or of the way back.
    * `zoom`: a computation on a part of the state.
-/

universe u v w

/-- From a state to a result and the state left behind. -/
def Procedure (σ : Type u) (ε : Type v) (α : Type w) : Type (max u v w) := σ → Except ε α × σ

namespace Procedure

section monad
variable {σ : Type u} {ε : Type v} {α β : Type w}

protected def pure (a : α) : Procedure σ ε α := fun s => (.ok a, s)

/-- The first failure ends the computation. -/
protected def bind (x : Procedure σ ε α) (f : α → Procedure σ ε β) : Procedure σ ε β := fun s =>
  match x s with
  | (.ok a, s') => f a s'
  | (.error e, s') => (.error e, s')

instance : Monad (Procedure σ ε) where
  pure := Procedure.pure
  bind := Procedure.bind

/-- A step that does not touch the state. -/
def lift (x : Except ε α) : Procedure σ ε α := fun s => (x, s)

def fail (e : ε) : Procedure σ ε α := lift (.error e)

/-- The same computation with another error. -/
def map_error {ε' : Type v} (f : ε → ε') (x : Procedure σ ε α) : Procedure σ ε' α := fun s =>
  match x s with
  | (.ok a, s') => (.ok a, s')
  | (.error e, s') => (.error (f e), s')

/-- The computation with its outcome as the result, so that a failure can be handled. -/
def attempt {ε' : Type v} (x : Procedure σ ε α) : Procedure σ ε' (Except ε α) := fun s =>
  (.ok (x s).1, (x s).2)

theorem pure_apply (a : α) (s : σ) : (pure a : Procedure σ ε α) s = (.ok a, s) := rfl

theorem pure_eq_iff {a b : α} {s s' : σ} :
    (pure a : Procedure σ ε α) s = (.ok b, s') ↔ a = b ∧ s = s' := by
  rw [pure_apply, Prod.mk.injEq, Except.ok.injEq]

theorem bind_apply_ok {x : Procedure σ ε α} {f : α → Procedure σ ε β} {a : α} {s s' : σ}
    (hx : x s = (.ok a, s')) : (x >>= f) s = f a s' := by
  show Procedure.bind x f s = _
  unfold Procedure.bind
  rw [hx]

theorem bind_apply_error {x : Procedure σ ε α} {f : α → Procedure σ ε β} {e : ε} {s s' : σ}
    (hx : x s = (.error e, s')) : (x >>= f) s = (.error e, s') := by
  show Procedure.bind x f s = _
  unfold Procedure.bind
  rw [hx]

/-- A computation succeeds if its steps do, one after the other. -/
theorem bind_eq_ok_iff {x : Procedure σ ε α} {f : α → Procedure σ ε β} {b : β} {s s' : σ} :
    (x >>= f) s = (.ok b, s') ↔ ∃ a s₁, x s = (.ok a, s₁) ∧ f a s₁ = (.ok b, s') := by
  constructor
  · intro h
    rcases hx : x s with ⟨e | a, s₁⟩
    · rw [bind_apply_error hx] at h
      cases h
    · rw [bind_apply_ok hx] at h
      exact ⟨a, s₁, rfl, h⟩
  · intro ⟨a, s₁, hx, h⟩
    rw [bind_apply_ok hx, h]

/-- It fails at its first step or after it. -/
theorem bind_eq_error_iff {x : Procedure σ ε α} {f : α → Procedure σ ε β} {e : ε} {s s' : σ} :
    (x >>= f) s = (.error e, s') ↔
      x s = (.error e, s') ∨ ∃ a s₁, x s = (.ok a, s₁) ∧ f a s₁ = (.error e, s') := by
  constructor
  · intro h
    rcases hx : x s with ⟨e₁ | a, s₁⟩
    · rw [bind_apply_error hx] at h
      cases h
      exact .inl rfl
    · rw [bind_apply_ok hx] at h
      exact .inr ⟨a, s₁, rfl, h⟩
  · rintro (hx | ⟨a, s₁, hx, h⟩)
    · exact bind_apply_error hx
    · rw [bind_apply_ok hx, h]

/-- The result alone changes nothing. -/
@[simp] theorem bind_pure_snd (x : Procedure σ ε α) (b : β) (s : σ) :
    ((x >>= fun _ => pure b) s).2 = (x s).2 := by
  rcases hx : x s with ⟨e | a, s₁⟩
  · rw [bind_apply_error hx]
  · rw [bind_apply_ok hx, pure_apply]

theorem attempt_eq_ok_iff {ε' : Type v} {x : Procedure σ ε α} {res : Except ε α} {s s' : σ} :
    (attempt x : Procedure σ ε' (Except ε α)) s = (.ok res, s') ↔ x s = (res, s') := by
  unfold attempt
  rcases x s with ⟨res', s₁⟩
  simp

theorem lift_eq_ok_iff {x : Except ε α} {a : α} {s s' : σ} :
    (lift x : Procedure σ ε α) s = (.ok a, s') ↔ x = .ok a ∧ s = s' := by
  unfold lift
  rw [Prod.mk.injEq]

theorem lift_eq_error_iff {x : Except ε α} {e : ε} {s s' : σ} :
    (lift x : Procedure σ ε α) s = (.error e, s') ↔ x = .error e ∧ s = s' := by
  unfold lift
  rw [Prod.mk.injEq]

theorem map_error_eq_ok_iff {ε' : Type v} {f : ε → ε'} {x : Procedure σ ε α} {a : α} {s s' : σ} :
    map_error f x s = (.ok a, s') ↔ x s = (.ok a, s') := by
  unfold map_error
  rcases x s with ⟨e | b, s₁⟩ <;> simp

theorem map_error_eq_error_iff {ε' : Type v} {f : ε → ε'} {x : Procedure σ ε α} {e : ε'}
    {s s' : σ} :
    map_error f x s = (.error e, s') ↔ ∃ e₁, x s = (.error e₁, s') ∧ f e₁ = e := by
  unfold map_error
  rcases x s with ⟨e₁ | b, s₁⟩
  · simp only [Prod.mk.injEq, Except.error.injEq]
    constructor
    · intro ⟨he, hs⟩
      exact ⟨e₁, ⟨rfl, hs⟩, he⟩
    · rintro ⟨_, ⟨rfl, hs⟩, he⟩
      exact ⟨he, hs⟩
  · simp

theorem map_error_apply_ok {ε' : Type v} {f : ε → ε'} {x : Procedure σ ε α} {a : α} {s s' : σ}
    (hx : x s = (.ok a, s')) : map_error f x s = (.ok a, s') :=
  map_error_eq_ok_iff.mpr hx

theorem map_error_apply_error {ε' : Type v} {f : ε → ε'} {x : Procedure σ ε α} {e : ε} {s s' : σ}
    (hx : x s = (.error e, s')) : map_error f x s = (.error (f e), s') :=
  map_error_eq_error_iff.mpr ⟨e, hx, rfl⟩

/-- Another error changes nothing of the state left behind. -/
@[simp] theorem map_error_snd {ε' : Type v} (f : ε → ε') (x : Procedure σ ε α) (s : σ) :
    (map_error f x s).2 = (x s).2 := by
  unfold map_error
  rcases x s with ⟨e | b, s₁⟩ <;> rfl

end monad

/-! ### Transactions and calls -/

section calls
variable {σ : Type u} {ε : Type v} {α : Type u}

/-- A step that is rolled back when it fails. -/
def atomic (op : σ → Except ε (α × σ)) : Procedure σ ε α := fun s =>
  match op s with
  | .ok (a, s') => (.ok a, s')
  | .error e => (.error e, s)

theorem atomic_eq_ok_iff {op : σ → Except ε (α × σ)} {a : α} {s s' : σ} :
    atomic op s = (.ok a, s') ↔ op s = .ok (a, s') := by
  unfold atomic
  rcases op s with e | ⟨b, s₁⟩ <;> simp

theorem atomic_eq_error_iff {op : σ → Except ε (α × σ)} {e : ε} {s s' : σ} :
    atomic op s = (.error e, s') ↔ op s = .error e ∧ s = s' := by
  unfold atomic
  rcases op s with e | ⟨b, s₁⟩ <;> simp

/-- A call that fails though nothing is wrong with it. -/
structure Fault (ε : Type v) where
  error : ε
  /-- It was carried out all the same: only the answer is lost. -/
  carried_out : Bool

/-- Another party, and the number of calls made to it. -/
structure Remote (σ : Type u) where
  state : σ
  calls : Nat

/-- A call to the other party, whose `n`-th call meets the fault `faults n`. -/
def call (faults : Nat → Option (Fault ε)) (op : Procedure σ ε α) : Procedure (Remote σ) ε α :=
  fun r =>
    match faults r.calls with
    | none => ((op r.state).1, ⟨(op r.state).2, r.calls + 1⟩)
    | some fault =>
      (.error fault.error, ⟨if fault.carried_out then (op r.state).2 else r.state, r.calls + 1⟩)

theorem call_eq_ok_iff {faults : Nat → Option (Fault ε)} {op : Procedure σ ε α} {a : α}
    {r r' : Remote σ} :
    call faults op r = (.ok a, r') ↔
      faults r.calls = none ∧ op r.state = (.ok a, r'.state) ∧ r'.calls = r.calls + 1 := by
  unfold call
  cases faults r.calls with
  | some fault => simp
  | none =>
    rcases op r.state with ⟨res, s⟩
    rcases r' with ⟨s', n'⟩
    simp [and_assoc, eq_comm]

/-- The call has been carried out or it has not. -/
theorem call_state (faults : Nat → Option (Fault ε)) (op : Procedure σ ε α) (r : Remote σ) :
    (call faults op r).2.state = r.state ∨ (call faults op r).2.state = (op r.state).2 := by
  unfold call
  cases faults r.calls with
  | none => exact .inr rfl
  | some fault =>
    cases hcarried : fault.carried_out with
    | false => exact .inl (by simp [hcarried])
    | true => exact .inr (by simp [hcarried])

/-- A call whose fault, if it has one, is that the answer is lost. -/
theorem call_carried_out {faults : Nat → Option (Fault ε)} {r : Remote σ} (op : Procedure σ ε α)
    (h : ∀ fault, faults r.calls = some fault → fault.carried_out = true) :
    (call faults op r).2 = ⟨(op r.state).2, r.calls + 1⟩ := by
  unfold call
  cases hfault : faults r.calls with
  | none => rfl
  | some fault => simp [h fault hfault]

@[simp] theorem call_calls (faults : Nat → Option (Fault ε)) (op : Procedure σ ε α)
    (r : Remote σ) : (call faults op r).2.calls = r.calls + 1 := by
  unfold call
  cases faults r.calls <;> rfl

/-- A step that never fails. -/
def total (f : σ → α × σ) : Procedure σ ε α := fun s => (.ok (f s).1, (f s).2)

theorem call_total_eq_ok_iff {faults : Nat → Option (Fault ε)} {f : σ → α × σ} {a : α}
    {r r' : Remote σ} :
    call faults (total f) r = (.ok a, r') ↔
      faults r.calls = none ∧ a = (f r.state).1 ∧ r' = ⟨(f r.state).2, r.calls + 1⟩ := by
  unfold call total
  cases faults r.calls with
  | some fault => simp
  | none => simp [eq_comm]

/-- A call that only reads. -/
theorem call_total_snd {faults : Nat → Option (Fault ε)} {f : σ → α × σ} {r : Remote σ}
    (hreads : (f r.state).2 = r.state) :
    (call faults (total f) r).2 = ⟨r.state, r.calls + 1⟩ := by
  unfold call total
  cases faults r.calls with
  | none => rw [hreads]
  | some fault => simp [hreads]

/-- Such a call fails by a fault only. -/
theorem call_total_eq_error {faults : Nat → Option (Fault ε)} {f : σ → α × σ} {e : ε}
    {r r' : Remote σ} (h : call faults (total f) r = (.error e, r')) :
    ∃ fault, faults r.calls = some fault ∧
      r' = ⟨if fault.carried_out then (f r.state).2 else r.state, r.calls + 1⟩ := by
  unfold call total at h
  cases hfault : faults r.calls with
  | none =>
    rw [hfault] at h
    cases h
  | some fault =>
    rw [hfault] at h
    cases h
    exact ⟨fault, rfl, rfl⟩

end calls

section zoom
variable {σ τ : Type u} {ε : Type v} {α : Type w}

/-- A computation on the part of the state that `get` reads and `set` replaces. -/
def zoom (get : τ → σ) (set : τ → σ → τ) (x : Procedure σ ε α) : Procedure τ ε α := fun t =>
  ((x (get t)).1, set t (x (get t)).2)

theorem zoom_eq_iff {get : τ → σ} {set : τ → σ → τ} {x : Procedure σ ε α} {res : Except ε α}
    {t t' : τ} :
    zoom get set x t = (res, t') ↔ ∃ s, x (get t) = (res, s) ∧ set t s = t' := by
  unfold zoom
  rcases x (get t) with ⟨res', s⟩
  simp only [Prod.mk.injEq]
  constructor
  · intro ⟨hres, hset⟩
    exact ⟨s, ⟨hres, rfl⟩, hset⟩
  · rintro ⟨_, ⟨hres, rfl⟩, hset⟩
    exact ⟨hres, hset⟩

end zoom

/-! ### What is kept -/

/-- The states before and after are related, whether the computation fails or not. -/
def Keeps {σ : Type u} {ε : Type v} {α : Type w} (R : σ → σ → Prop) (x : Procedure σ ε α) : Prop :=
  ∀ s, R s (x s).2

namespace Keeps

variable {σ : Type u} {ε : Type v} {α β γ : Type w} {R : σ → σ → Prop}

theorem lift (hrefl : ∀ s, R s s) (x : Except ε α) : Keeps R (Procedure.lift x : Procedure σ ε α) :=
  hrefl

theorem pure (hrefl : ∀ s, R s s) (a : α) : Keeps R (Pure.pure a : Procedure σ ε α) := hrefl

theorem map_error {ε' : Type v} {x : Procedure σ ε α} (f : ε → ε') (hx : Keeps R x) :
    Keeps R (Procedure.map_error f x) := by
  intro s
  rw [map_error_snd]
  exact hx s

/-- From one state, by the outcome of the first step. -/
theorem bind_cases {x : Procedure σ ε α} {f : α → Procedure σ ε β} {s : σ}
    (herror : ∀ e s₁, x s = (.error e, s₁) → R s s₁)
    (hok : ∀ a s₁, x s = (.ok a, s₁) → R s (f a s₁).2) : R s ((x >>= f) s).2 := by
  rcases hx : x s with ⟨e | a, s₁⟩
  · rw [bind_apply_error hx]
    exact herror e s₁ hx
  · rw [bind_apply_ok hx]
    exact hok a s₁ hx

/-- What follows may use the result of the first step. -/
theorem bind_at (htrans : ∀ s₁ s₂ s₃, R s₁ s₂ → R s₂ s₃ → R s₁ s₃) {x : Procedure σ ε α}
    {f : α → Procedure σ ε β} {s : σ} (hx : R s (x s).2)
    (hf : ∀ a s₁, x s = (.ok a, s₁) → R s₁ (f a s₁).2) : R s ((x >>= f) s).2 := by
  apply bind_cases
  · intro e s₁ hxs
    rw [hxs] at hx
    exact hx
  · intro a s₁ hxs
    rw [hxs] at hx
    exact htrans _ _ _ hx (hf a s₁ hxs)

theorem bind (htrans : ∀ s₁ s₂ s₃, R s₁ s₂ → R s₂ s₃ → R s₁ s₃) {x : Procedure σ ε α}
    {f : α → Procedure σ ε β} (hx : Keeps R x) (hf : ∀ a, Keeps R (f a)) : Keeps R (x >>= f) :=
  fun s => bind_at htrans (hx s) fun a s₁ _ => hf a s₁

theorem attempt {ε' : Type v} {x : Procedure σ ε α} (hx : Keeps R x) :
    Keeps R (Procedure.attempt x : Procedure σ ε' (Except ε α)) := hx

/-- A loop keeps what each round keeps. -/
theorem foldlM (hrefl : ∀ s, R s s) (htrans : ∀ s₁ s₂ s₃, R s₁ s₂ → R s₂ s₃ → R s₁ s₃)
    {f : β → γ → Procedure σ ε β} {items : List γ}
    (hf : ∀ b, ∀ c ∈ items, Keeps R (f b c)) (b : β) : Keeps R (items.foldlM f b) := by
  induction items generalizing b with
  | nil => exact pure hrefl b
  | cons c items ih =>
    rw [List.foldlM_cons]
    exact bind htrans (hf b c List.mem_cons_self)
      fun b' => ih (fun b c hc => hf b c (List.mem_cons_of_mem _ hc)) b'

end Keeps

/-- In a loop that ends well each round counts. -/
theorem foldlM_ok_count {σ : Type u} {ε : Type v} {β γ : Type w} {m : β → Nat}
    {f : β → γ → Procedure σ ε β}
    (hf : ∀ b c s b' s', f b c s = (.ok b', s') → m b' = m b + 1) {items : List γ} {b b' : β}
    {s s' : σ} (h : items.foldlM f b s = (.ok b', s')) : m b' = m b + items.length := by
  induction items generalizing b s with
  | nil =>
    obtain ⟨rfl, -⟩ := pure_eq_iff.mp h
    rfl
  | cons c items ih =>
    rw [List.foldlM_cons] at h
    obtain ⟨b₁, s₁, hfirst, hrest⟩ := bind_eq_ok_iff.mp h
    rw [ih hrest, hf b c s b₁ s₁ hfirst, List.length_cons]
    omega

end Procedure
