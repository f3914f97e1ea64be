import Mathlib.Data.List.Forall2

/-! # Computations that may Fail

    A computation in `Except` succeeds exactly if each of its steps does.
    Two computations that run the same steps on related states correspond
    by `Except.map`, step by step.
-/

universe u v w

namespace Fallible

variable {ε : Type u} {α α' β β' : Type v}

theorem bind_eq_ok_iff {x : Except ε α} {f : α → Except ε β} {b : β} :
    (x >>= f) = .ok b ↔ ∃ a, x = .ok a ∧ f a = .ok b := by
  constructor
  · intro h
    cases x with
    | error e => cases h
    | ok a => exact ⟨a, rfl, h⟩
  · rintro ⟨a, rfl, h⟩
    exact h

theorem map_eq_ok_iff {x : Except ε α} {f : α → β} {b : β} :
    x.map f = .ok b ↔ ∃ a, x = .ok a ∧ f a = b := by
  constructor
  · intro h
    cases x with
    | error e => cases h
    | ok a =>
      cases h
      exact ⟨a, rfl, rfl⟩
  · rintro ⟨a, rfl, rfl⟩
    rfl

@[simp] theorem ok_bind {a : α} {f : α → Except ε β} : (Except.ok a >>= f) = f a := rfl

@[simp] theorem error_bind {e : ε} {f : α → Except ε β} :
    ((Except.error e : Except ε α) >>= f) = .error e := rfl

@[simp] theorem map_ok {a : α} {f : α → β} : (Except.ok a : Except ε α).map f = .ok (f a) := rfl

@[simp] theorem map_error {e : ε} {f : α → β} :
    (Except.error e : Except ε α).map f = .error e := rfl

/-- The first steps correspond by `g`, and so do the rests by `k`. -/
theorem bind_eq_map_bind {x : Except ε α} {x' : Except ε α'} {f : α → Except ε β}
    {f' : α' → Except ε β'} {g : α → α'} {k : β → β'} (hx : x' = x.map g)
    (hf : ∀ a, x = .ok a → f' (g a) = (f a).map k) : (x' >>= f') = (x >>= f).map k := by
  subst hx
  cases x with
  | error e => rfl
  | ok a => exact hf a rfl

/-- The first step is the same. -/
theorem bind_eq_map_bind_same {x : Except ε α} {f : α → Except ε β} {f' : α → Except ε β'}
    {k : β → β'} (hf : ∀ a, x = .ok a → f' a = (f a).map k) :
    (x >>= f') = (x >>= f).map k := by
  cases x with
  | error e => rfl
  | ok a => exact hf a rfl

/-! ### Lists in which every element is mapped, or none -/

/-- The elements of a list that has been mapped. -/
theorem forall₂_of_mapM {α β : Type} {f : α → Option β} {xs : List α} {ys : List β}
    (h : xs.mapM f = some ys) : List.Forall₂ (fun x y => f x = some y) xs ys := by
  induction xs generalizing ys with
  | nil =>
    simp only [List.mapM_nil, pure, Option.some.injEq] at h
    exact h ▸ .nil
  | cons x xs ih =>
    rw [List.mapM_cons] at h
    obtain ⟨y, hy, h⟩ := Option.bind_eq_some_iff.mp h
    obtain ⟨ys', hys, h⟩ := Option.bind_eq_some_iff.mp h
    cases h
    exact .cons hy (ih hys)

theorem mem_of_mapM {α β : Type} {f : α → Option β} {xs : List α} {ys : List β}
    (h : xs.mapM f = some ys) (y : β) : y ∈ ys ↔ ∃ x ∈ xs, f x = some y := by
  have hall := forall₂_of_mapM h
  clear h
  induction hall with
  | nil => simp
  | cons hxy _ ih =>
    simp only [List.mem_cons, ih, exists_eq_or_imp, hxy, Option.some.injEq]
    exact or_congr_left eq_comm

/-- A loop that only checks its elements. -/
theorem forM_eq_ok_iff {α ε : Type} {f : α → Except ε Unit} {xs : List α} :
    xs.forM f = .ok () ↔ ∀ x ∈ xs, f x = .ok () := by
  induction xs with
  | nil => exact iff_of_true rfl (by simp)
  | cons x xs ih =>
    have hcons : (x :: xs).forM f = f x >>= fun _ => xs.forM f := rfl
    rw [hcons, bind_eq_ok_iff, List.forall_mem_cons, ← ih]
    constructor
    · intro h
      obtain ⟨_, hx, hxs⟩ := h
      exact ⟨hx, hxs⟩
    · exact fun h => ⟨(), h⟩

/-- Such a loop raises what its first element that is refused raises. -/
theorem forM_eq_error_iff {α ε : Type} {f : α → Except ε Unit} {xs : List α} {e : ε} :
    xs.forM f = .error e ↔ ∃ before x after, xs = before ++ x :: after ∧
      (∀ y ∈ before, f y = .ok ()) ∧ f x = .error e := by
  induction xs with
  | nil =>
    apply iff_of_false
    · intro h
      cases h
    · simp
  | cons x xs ih =>
    have hcons : (x :: xs).forM f = f x >>= fun _ => xs.forM f := rfl
    rw [hcons]
    cases hx : f x with
    | error e' =>
      rw [error_bind]
      constructor
      · intro h
        cases h
        exact ⟨[], x, xs, rfl, by simp, hx⟩
      · intro h
        obtain ⟨before, y, after, heq, hbefore, hy⟩ := h
        cases before with
        | nil =>
          obtain ⟨rfl, -⟩ := List.cons.inj heq
          rwa [← hx]
        | cons z before =>
          obtain ⟨rfl, -⟩ := List.cons.inj heq
          rw [hbefore x List.mem_cons_self] at hx
          cases hx
    | ok _ =>
      rw [ok_bind, ih]
      constructor
      · intro h
        obtain ⟨before, y, after, rfl, hbefore, hy⟩ := h
        exact ⟨x :: before, y, after, rfl, List.forall_mem_cons.mpr ⟨hx, hbefore⟩, hy⟩
      · intro h
        obtain ⟨before, y, after, heq, hbefore, hy⟩ := h
        cases before with
        | nil =>
          obtain ⟨rfl, -⟩ := List.cons.inj heq
          rw [hx] at hy
          cases hy
        | cons z before =>
          rw [List.cons_append] at heq
          obtain ⟨-, rfl⟩ := List.cons.inj heq
          exact ⟨before, y, after, rfl, (List.forall_mem_cons.mp hbefore).2, hy⟩

/-- A loop that appends what it makes of each element. -/
theorem foldlM_append_eq_ok_iff {α β ε : Type} {step : List β → α → Except ε (List β)}
    {R : α → β → Prop} {xs : List α}
    (hstep : ∀ x ∈ xs, ∀ ys zs, step ys x = .ok zs ↔ ∃ y, R x y ∧ zs = ys ++ [y])
    {ys zs : List β} :
    xs.foldlM step ys = .ok zs ↔ ∃ made, List.Forall₂ R xs made ∧ zs = ys ++ made := by
  induction xs generalizing ys with
  | nil =>
    rw [List.foldlM_nil]
    constructor
    · intro h
      cases h
      exact ⟨[], .nil, by simp⟩
    · intro h
      obtain ⟨made, hmade, rfl⟩ := h
      cases hmade
      simp [pure, Except.pure]
  | cons x xs ih =>
    have hfirst := hstep x List.mem_cons_self
    have hrest := fun {ys} => @ih (fun x' hx' => hstep x' (List.mem_cons_of_mem _ hx')) ys
    rw [List.foldlM_cons, bind_eq_ok_iff]
    constructor
    · intro h
      obtain ⟨ys', hys, h⟩ := h
      obtain ⟨y, hy, rfl⟩ := (hfirst _ _).mp hys
      obtain ⟨made, hmade, rfl⟩ := hrest.mp h
      exact ⟨y :: made, .cons hy hmade, by simp⟩
    · intro h
      obtain ⟨made, hmade, rfl⟩ := h
      cases hmade with
      | @cons _ y _ made hy hmade =>
        refine ⟨ys ++ [y], (hfirst _ _).mpr ⟨y, hy, rfl⟩, ?_⟩
        exact hrest.mpr ⟨made, hmade, by simp⟩

/-- Each element of a list has its partner. -/
theorem exists_forall₂_iff {α β : Type} {R : α → β → Prop} {xs : List α} :
    (∃ ys, List.Forall₂ R xs ys) ↔ ∀ x ∈ xs, ∃ y, R x y := by
  induction xs with
  | nil => exact iff_of_true ⟨[], .nil⟩ (by simp)
  | cons x xs ih =>
    rw [List.forall_mem_cons, ← ih]
    constructor
    · intro h
      obtain ⟨ys, hys⟩ := h
      cases hys with
      | cons hxy hys => exact ⟨⟨_, hxy⟩, _, hys⟩
    · intro h
      obtain ⟨⟨y, hxy⟩, ys, hys⟩ := h
      exact ⟨y :: ys, .cons hxy hys⟩

/-- A list is mapped if each of its elements is. -/
theorem exists_mapM {α β : Type} {f : α → Option β} {xs : List α}
    (h : ∀ x ∈ xs, (f x).isSome) : ∃ ys, xs.mapM f = some ys := by
  induction xs with
  | nil => exact ⟨[], rfl⟩
  | cons x xs ih =>
    obtain ⟨y, hy⟩ := Option.isSome_iff_exists.mp (h x List.mem_cons_self)
    obtain ⟨ys, hys⟩ := ih fun x' hx' => h x' (List.mem_cons_of_mem _ hx')
    exact ⟨y :: ys, by rw [List.mapM_cons, hy, hys]; rfl⟩

/-- Where a step may fail with an error. -/
theorem exists_mapM_eq_ok_iff {α β ε : Type} {f : α → Except ε β} {xs : List α} :
    (∃ ys, xs.mapM f = .ok ys) ↔ ∀ x ∈ xs, ∃ y, f x = .ok y := by
  induction xs with
  | nil => exact iff_of_true ⟨[], rfl⟩ (by simp)
  | cons x xs ih =>
    rw [List.mapM_cons, List.forall_mem_cons, ← ih]
    constructor
    · intro h
      obtain ⟨ys, hys⟩ := h
      obtain ⟨y, hy, hrest⟩ := bind_eq_ok_iff.mp hys
      obtain ⟨zs, hzs, -⟩ := bind_eq_ok_iff.mp hrest
      exact ⟨⟨y, hy⟩, zs, hzs⟩
    · intro h
      obtain ⟨⟨y, hy⟩, zs, hzs⟩ := h
      exact ⟨y :: zs, bind_eq_ok_iff.mpr ⟨y, hy, bind_eq_ok_iff.mpr ⟨zs, hzs, rfl⟩⟩⟩

theorem mapM_eq_some_map {α β : Type} {f : α → Option β} {g : α → β} {xs : List α}
    (h : ∀ x ∈ xs, f x = some (g x)) : xs.mapM f = some (xs.map g) := by
  induction xs with
  | nil => rfl
  | cons x xs ih =>
    rw [List.mapM_cons, h x List.mem_cons_self, ih fun x' hx' => h x' (List.mem_cons_of_mem _ hx')]
    rfl

theorem isSome_mapM_iff {α β : Type} {f : α → Option β} {xs : List α} :
    (xs.mapM f).isSome ↔ ∀ x ∈ xs, (f x).isSome := by
  constructor
  · intro h
    obtain ⟨ys, hys⟩ := Option.isSome_iff_exists.mp h
    have hall := exists_forall₂_iff.mp ⟨ys, forall₂_of_mapM hys⟩
    exact fun x hx => Option.isSome_iff_exists.mpr (hall x hx)
  · intro h
    obtain ⟨ys, hys⟩ := exists_mapM h
    exact Option.isSome_iff_exists.mpr ⟨ys, hys⟩

theorem mapM_eq_some_map_iff {α β : Type} {f : α → Option β} {g : α → β} {xs : List α} :
    xs.mapM f = some (xs.map g) ↔ ∀ x ∈ xs, f x = some (g x) := by
  constructor
  · intro h
    have hall := forall₂_of_mapM h
    rwa [List.forall₂_map_right_iff, List.forall₂_same] at hall
  · exact mapM_eq_some_map

/-- Elements that are mapped under a condition. -/
theorem mapM_ite {α β : Type} {p : α → Prop} [DecidablePred p] {g : α → β} {xs : List α} :
    (xs.mapM fun x => if p x then some (g x) else none) =
      if ∀ x ∈ xs, p x then some (xs.map g) else none := by
  induction xs with
  | nil => rfl
  | cons x xs ih =>
    rw [List.mapM_cons, ih]
    by_cases hx : p x
    · by_cases hxs : ∀ x' ∈ xs, p x'
      · rw [if_pos hx, if_pos hxs, if_pos (List.forall_mem_cons.mpr ⟨hx, hxs⟩)]
        rfl
      · rw [if_pos hx, if_neg hxs, if_neg fun h => hxs (List.forall_mem_cons.mp h).2]
        rfl
    · rw [if_neg hx, if_neg fun h => hx (List.forall_mem_cons.mp h).1]
      rfl

end Fallible
