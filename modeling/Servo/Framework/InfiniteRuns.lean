import Servo.Framework.System
import Mathlib.Order.WellFounded

/-! # Infinite Runs

    An infinite execution of a system, as the sequence of its steps, and two
    rules for showing that steps of a kind come to an end:

    * `steps_end_of_rank`: a rank in a well-founded order that no step raises
      is lowered by every step of the kind;
    * `steps_end_of_bound`: there is a bound on how many steps of
      the kind a finite run has.
-/

namespace LTS

universe u v w

variable {State : Type u} {Label : Type v}

/-- An infinite execution. -/
structure InfiniteRun (sys : System State Label) (steps : Nat → Step State Label) : Prop where
  init : sys.init (steps 0).pre
  next : ∀ n, sys.next (steps n).pre (steps n).label = some (steps n).post
  chain : ∀ n, (steps (n + 1)).pre = (steps n).post

/-- The first steps, the newest first. -/
def past (steps : Nat → Step State Label) : Nat → List (Step State Label)
  | 0 => []
  | n + 1 => steps n :: past steps n

/-- What has happened up to some point is a run. -/
theorem InfiniteRun.run_past {sys : System State Label} {steps : Nat → Step State Label}
    (h : InfiniteRun sys steps) (n : Nat) : Run sys (past steps n) (steps n).pre := by
  induction n with
  | zero => exact .init h.init
  | succ n ih =>
    rw [h.chain]
    exact .step (steps n).label ih (h.next n)

theorem forall_past {steps : Nat → Step State Label} {P : Step State Label → Prop}
    (h : ∀ i, P (steps i)) {n : Nat} : ∀ st ∈ past steps n, P st := by
  induction n with
  | zero => exact List.forall_mem_nil _
  | succ n ih => exact List.forall_mem_cons.mpr ⟨h n, ih⟩

theorem mem_past (steps : Nat → Step State Label) {i n : Nat} (h : i < n) :
    steps i ∈ past steps n := by
  induction n, h using Nat.le_induction with
  | base => exact List.mem_cons_self
  | succ n _ ih => exact List.mem_cons_of_mem _ ih

/-- A run goes on with any steps that start where it ends. -/
theorem Run.followed_by {sys : System State Label} {tr : List (Step State Label)} {s : State}
    (h : Run sys tr s) (rest : Nat → Step State Label) (hstart : (rest 0).pre = s)
    (hnext : ∀ n, sys.next (rest n).pre (rest n).label = some (rest n).post)
    (hchain : ∀ n, (rest (n + 1)).pre = (rest n).post) :
    ∃ steps, InfiniteRun sys steps ∧ past steps tr.length = tr ∧
      ∀ n, steps (tr.length + n) = rest n := by
  induction h generalizing rest with
  | init hinit =>
    refine ⟨rest, ⟨by rwa [hstart], hnext, hchain⟩, rfl, fun n => ?_⟩
    rw [List.length_nil, Nat.zero_add]
  | @step tr s s' l hrun hstep ih =>
    let rest' : Nat → Step State Label
      | 0 => ⟨s, l, s'⟩
      | n + 1 => rest n
    obtain ⟨steps, hsteps, hpast, hrest⟩ := ih rest' rfl
      (fun n => by cases n with | zero => exact hstep | succ n => exact hnext n)
      (fun n => by cases n with | zero => exact hstart | succ n => exact hchain n)
    refine ⟨steps, hsteps, ?_, fun n => ?_⟩
    · rw [List.length_cons, past, hpast, show steps tr.length = ⟨s, l, s'⟩ from hrest 0]
    · rw [List.length_cons, Nat.add_assoc, Nat.add_comm 1 n]
      exact hrest (n + 1)

/-- **Ranking rule.** -/
theorem steps_end_of_rank {α : Type w} [Preorder α] [WellFoundedLT α] (rank : Nat → α)
    (kind : Nat → Prop) (n : Nat) (hle : ∀ i, n ≤ i → rank (i + 1) ≤ rank i)
    (hlt : ∀ i, n ≤ i → kind i → rank (i + 1) < rank i) : ∃ m, n ≤ m ∧ ∀ i, m ≤ i → ¬ kind i := by
  by_contra hnever
  have hagain : ∀ m, n ≤ m → ∃ i, m ≤ i ∧ kind i := by
    intro m hm
    by_contra hno
    exact hnever ⟨m, hm, fun i hi hkind => hno ⟨i, hi, hkind⟩⟩
  have hanti : ∀ i j, n ≤ i → i ≤ j → rank j ≤ rank i := by
    intro i j hi hij
    induction j, hij using Nat.le_induction with
    | base => exact le_refl _
    | succ j hj ih => exact (hle j (hi.trans hj)).trans ih
  -- no rank is that of a step from which on there are steps of the kind
  have hnone : ∀ a i, n ≤ i → rank i ≠ a := by
    intro a
    induction a using WellFoundedLT.induction with
    | ind a ih =>
      rintro i hi rfl
      obtain ⟨j, hj, hkind⟩ := hagain i hi
      have hdrop : rank (j + 1) < rank i :=
        (hlt j (hi.trans hj) hkind).trans_le (hanti i j hi hj)
      exact ih (rank (j + 1)) hdrop (j + 1) (hi.trans (hj.trans (Nat.le_succ j))) rfl
  exact hnone (rank n) n le_rfl rfl

/-- **Counting rule.** -/
theorem steps_end_of_bound {steps : Nat → Step State Label} (kind : Step State Label → Bool)
    (bound : Nat) (hbound : ∀ n, (past steps n).countP kind ≤ bound) :
    ∃ m, ∀ i, m ≤ i → kind (steps i) = false := by
  have hcons : ∀ i, (past steps (i + 1)).countP kind =
      (past steps i).countP kind + if kind (steps i) = true then 1 else 0 := by
    intro i
    rw [past, List.countP_cons]
  have hle : ∀ i, 0 ≤ i → bound - (past steps (i + 1)).countP kind ≤
      bound - (past steps i).countP kind := by
    intro i _
    rw [hcons]
    omega
  have hlt : ∀ i, 0 ≤ i → kind (steps i) = true →
      bound - (past steps (i + 1)).countP kind < bound - (past steps i).countP kind := by
    intro i _ hkind
    have hnext := hbound (i + 1)
    rw [hcons, if_pos hkind] at hnext ⊢
    omega
  obtain ⟨m, -, hm⟩ := steps_end_of_rank (fun n => bound - (past steps n).countP kind)
    (fun i => kind (steps i) = true) 0 hle hlt
  exact ⟨m, fun i hi => Bool.eq_false_iff.mpr (hm i hi)⟩

end LTS
