import Mathlib.Algebra.Order.Ring.Int
import Mathlib.Logic.Relation

/-! # Loops that Count up

    A loop that goes from a first value to the next, and to the next of that,
    until a bound is passed or the loop is left, and lists the values on its
    way. A step may fail, and then the whole loop does. The values have a rank
    that each step raises, so the loop ends, and its values are those that the
    steps reach within the bound.
-/

/-- A step that raises a rank, where it does not fail. -/
structure Stepper (α : Type*) where
  next : α → Option α
  rank : α → Int
  rank_lt : ∀ {a a'}, next a = some a' → rank a < rank a'

namespace Stepper

variable {α : Type*} (s : Stepper α) (stop : Int) (leave : α → Bool)

/-- Repeated steps. -/
def Reaches : α → α → Prop := Relation.ReflTransGen fun a a' => s.next a = some a'

/-- At most `fuel` turns of the loop. -/
def turns : Nat → α → Option (List α)
  | 0, _ => some []
  | fuel + 1, a =>
    if s.rank a ≤ stop ∧ leave a = false then
      (s.next a).bind fun a' => (turns fuel a').map (a :: ·)
    else some []

/-- The turns that are left before the bound is passed, at most. -/
def left (a : α) : Nat := (stop + 1 - s.rank a).toNat

/-- The values of the loop; `none` when a step fails. -/
def loop (a : α) : Option (List α) := s.turns stop leave (s.left stop a) a

/-- More fuel than turns are left makes no difference. -/
theorem turns_eq_of_le : ∀ {fuel fuel' : Nat} {a : α}, s.left stop a ≤ fuel →
    s.left stop a ≤ fuel' → s.turns stop leave fuel a = s.turns stop leave fuel' a := by
  intro fuel
  induction fuel with
  | zero =>
    intro fuel' a hfuel hfuel'
    have hstop : ¬ (s.rank a ≤ stop ∧ leave a = false) := by
      unfold left at hfuel
      omega
    cases fuel' with
    | zero => rfl
    | succ fuel' => rw [turns, turns, if_neg hstop]
  | succ fuel ih =>
    intro fuel' a hfuel hfuel'
    cases fuel' with
    | zero =>
      have hstop : ¬ (s.rank a ≤ stop ∧ leave a = false) := by
        unfold left at hfuel'
        omega
      rw [turns, turns, if_neg hstop]
    | succ fuel' =>
      rw [turns, turns]
      by_cases hgo : s.rank a ≤ stop ∧ leave a = false
      · rw [if_pos hgo, if_pos hgo]
        cases hnext : s.next a with
        | none => rfl
        | some a' =>
          have hlt := s.rank_lt hnext
          have hless : s.left stop a' ≤ fuel := by
            unfold left at hfuel ⊢
            omega
          have hless' : s.left stop a' ≤ fuel' := by
            unfold left at hfuel' ⊢
            omega
          rw [Option.bind_some, Option.bind_some, ih hless hless']
      · rw [if_neg hgo, if_neg hgo]

/-- **The loop equation.** -/
theorem loop_eq (a : α) :
    s.loop stop leave a =
      if s.rank a ≤ stop ∧ leave a = false then
        (s.next a).bind fun a' => (s.loop stop leave a').map (a :: ·)
      else some [] := by
  have hfuel : s.turns stop leave (s.left stop a) a = s.turns stop leave (s.left stop a + 1) a :=
    s.turns_eq_of_le stop leave (le_refl _) (Nat.le_succ _)
  rw [loop, hfuel, turns]
  by_cases hgo : s.rank a ≤ stop ∧ leave a = false
  · rw [if_pos hgo, if_pos hgo]
    cases hnext : s.next a with
    | none => rfl
    | some a' =>
      have hlt := s.rank_lt hnext
      have hless : s.left stop a' ≤ s.left stop a := by
        unfold left
        omega
      rw [Option.bind_some, Option.bind_some, loop,
        s.turns_eq_of_le stop leave hless (le_refl _)]
  · rw [if_neg hgo, if_neg hgo]

/-- Induction along the loop: from the turns after the first to all of them. -/
theorem loop_induction {P : α → Prop}
    (h : ∀ a, (∀ a', s.rank a ≤ stop → s.next a = some a' → P a') → P a) (a : α) : P a := by
  induction hfuel : s.left stop a using Nat.strongRecOn generalizing a with
  | _ fuel ih =>
    refine h a fun a' hstop hnext => ?_
    have hlt := s.rank_lt hnext
    have hless : s.left stop a' < fuel := by
      unfold left at hfuel ⊢
      omega
    exact ih _ hless a' rfl

variable {s stop leave}

theorem Reaches.rank_le {a x : α} (h : s.Reaches a x) : s.rank a ≤ s.rank x := by
  induction h with
  | refl => exact le_refl _
  | tail _ hstep ih => exact ih.trans (s.rank_lt hstep).le

/-- Once it may be left, the loop is not entered again. -/
theorem Reaches.stays_left {a x : α} (h : s.Reaches a x)
    (hmono : ∀ {a a'}, s.next a = some a' → leave a = true → leave a' = true)
    (ha : leave a = true) : leave x = true := by
  induction h with
  | refl => exact ha
  | tail _ hstep ih => exact hmono hstep ih

/-- **The values of a loop** that does not fail: all that the steps reach, within the bound and
    before the loop is left. -/
theorem mem_loop (hmono : ∀ {a a'}, s.next a = some a' → leave a = true → leave a' = true)
    {a : α} {l : List α} (hloop : s.loop stop leave a = some l) (x : α) :
    x ∈ l ↔ s.Reaches a x ∧ s.rank x ≤ stop ∧ leave x = false := by
  induction a using s.loop_induction stop generalizing l with
  | h a ih =>
    rw [loop_eq] at hloop
    by_cases hgo : s.rank a ≤ stop ∧ leave a = false
    · rw [if_pos hgo] at hloop
      obtain ⟨a', hnext, htail⟩ := Option.bind_eq_some_iff.mp hloop
      obtain ⟨rest, hrest, rfl⟩ := Option.map_eq_some_iff.mp htail
      rw [List.mem_cons, ih a' hgo.1 hnext hrest]
      constructor
      · rintro (rfl | ⟨hreach, hx⟩)
        · exact ⟨.refl, hgo⟩
        · exact ⟨.head hnext hreach, hx⟩
      · intro ⟨hreach, hx⟩
        rcases Relation.ReflTransGen.cases_head hreach with rfl | ⟨a'', hstep, hreach'⟩
        · exact .inl rfl
        · rw [hnext] at hstep
          cases hstep
          exact .inr ⟨hreach', hx⟩
    · rw [if_neg hgo] at hloop
      cases hloop
      refine iff_of_false List.not_mem_nil ?_
      intro ⟨hreach, hstop, hleave⟩
      refine hgo ⟨hreach.rank_le.trans hstop, ?_⟩
      by_contra ha
      rw [hreach.stays_left hmono (Bool.eq_true_of_not_eq_false ha)] at hleave
      cases hleave

/-- A loop whose steps do not fail within the bound does not fail. -/
theorem loop_isSome {a : α}
    (h : ∀ x, s.Reaches a x → s.rank x ≤ stop → leave x = false → (s.next x).isSome) :
    (s.loop stop leave a).isSome := by
  induction a using s.loop_induction stop with
  | h a ih =>
    rw [loop_eq]
    by_cases hgo : s.rank a ≤ stop ∧ leave a = false
    · rw [if_pos hgo]
      obtain ⟨a', hnext⟩ := Option.isSome_iff_exists.mp (h a .refl hgo.1 hgo.2)
      obtain ⟨rest, hrest⟩ := Option.isSome_iff_exists.mp
        (ih a' hgo.1 hnext fun x hx => h x (.head hnext hx))
      rw [hnext, Option.bind_some, hrest]
      rfl
    · rw [if_neg hgo]
      rfl

/-- Otherwise it fails. -/
theorem next_isSome_of_loop
    (hmono : ∀ {a a'}, s.next a = some a' → leave a = true → leave a' = true) {a : α}
    (h : (s.loop stop leave a).isSome) {x : α} (hreach : s.Reaches a x) (hstop : s.rank x ≤ stop)
    (hleave : leave x = false) : (s.next x).isSome := by
  induction a using s.loop_induction stop with
  | h a ih =>
    have hgo : s.rank a ≤ stop ∧ leave a = false := by
      refine ⟨hreach.rank_le.trans hstop, ?_⟩
      by_contra ha
      rw [hreach.stays_left hmono (Bool.eq_true_of_not_eq_false ha)] at hleave
      cases hleave
    rw [loop_eq, if_pos hgo] at h
    obtain ⟨values, hvalues⟩ := Option.isSome_iff_exists.mp h
    obtain ⟨a', hnext, htail⟩ := Option.bind_eq_some_iff.mp hvalues
    rcases Relation.ReflTransGen.cases_head hreach with rfl | ⟨a'', hstep, hreach'⟩
    · rw [hnext]
      rfl
    · rw [hnext] at hstep
      cases hstep
      rw [Option.map_eq_some_iff] at htail
      obtain ⟨rest, hrest, -⟩ := htail
      exact ih a' hgo.1 hnext (by rw [hrest]; rfl) hreach'

/-! ### Steps of one size -/

/-- Where every step has the same size, the values reached are a multiple of it away. -/
theorem reaches_iff_of_size {size : Int}
    (hinj : ∀ {a a'}, s.rank a = s.rank a' → a = a')
    (hsize : ∀ {a a'}, s.next a = some a' ↔ s.rank a' = s.rank a + size)
    (hbetween : ∀ {a x}, s.rank a + size ≤ s.rank x → ∃ a', s.rank a' = s.rank a + size)
    (hpos : 0 < size) {a x : α} :
    s.Reaches a x ↔ ∃ k : Nat, s.rank x = s.rank a + k * size := by
  constructor
  · intro h
    induction h with
    | refl => exact ⟨0, by simp⟩
    | tail _ hstep ih =>
      obtain ⟨k, hk⟩ := ih
      refine ⟨k + 1, ?_⟩
      rw [hsize.mp hstep, hk]
      push_cast
      rw [Int.add_mul, Int.one_mul, Int.add_assoc]
  · intro ⟨k, hk⟩
    induction k generalizing a with
    | zero =>
      have hx : x = a := hinj (by rw [hk, Nat.cast_zero, Int.zero_mul, Int.add_zero])
      rw [hx]
      exact .refl
    | succ k ih =>
      have hk' : s.rank x = s.rank a + size + k * size := by
        rw [hk]
        push_cast
        rw [Int.add_mul, Int.one_mul, Int.add_assoc, Int.add_comm size]
      have hmul : 0 ≤ k * size := Int.mul_nonneg (Int.natCast_nonneg k) hpos.le
      obtain ⟨a', ha'⟩ := hbetween (a := a) (x := x) (by omega)
      exact .head (hsize.mpr ha') (ih (by rw [ha', hk']))

end Stepper
