import Servo.Framework.BreadthFirst

/-! # The Tree of a Search

    A search may remember for each node from which node it came to it. As
    long as only nodes that have no parent yet get one, the parents lead back
    from every node that has been found to the root, in as many steps as the
    node has depth.
-/

universe u

namespace BreadthFirst

variable {α : Type u}

/-- The parents lead from the node back to the root, in so many steps. -/
def Ancestry (succ : α → List α) (root : α) (parent : α → Option α) : Nat → α → Prop
  | 0, v => v = root ∧ parent v = none
  | d + 1, v => ∃ w, parent v = some w ∧ v ∈ succ w ∧ Ancestry succ root parent d w

section ancestry
variable {succ : α → List α} {root : α} {parent parent' : α → Option α} {d : Nat} {v : α}

/-- Nodes that had no parent may get one. -/
theorem Ancestry.keep (hroot : parent' root = parent root)
    (hkeep : ∀ v, (parent v).isSome → parent' v = parent v)
    (h : Ancestry succ root parent d v) : Ancestry succ root parent' d v := by
  induction d generalizing v with
  | zero =>
    obtain ⟨rfl, hnone⟩ := h
    exact ⟨rfl, hroot.trans hnone⟩
  | succ d ih =>
    obtain ⟨w, hparent, hmem, hrest⟩ := h
    have hsame := hkeep v (Option.isSome_iff_exists.mpr ⟨w, hparent⟩)
    exact ⟨w, hsame.trans hparent, hmem, ih hrest⟩

theorem Ancestry.steps (h : Ancestry succ root parent d v) : Steps succ d root v := by
  induction d generalizing v with
  | zero => exact h.1.symm
  | succ d ih =>
    obtain ⟨w, -, hmem, hrest⟩ := h
    exact ⟨w, ih hrest, hmem⟩

end ancestry

/-! ### The invariant -/

/-- What holds before each round of a search that is not to find its root again. -/
structure TreeInv (succ : α → List α) (root : α) (visited : α → Prop) (parent : α → Option α)
    (done queue : List (α × Nat)) : Prop where
  inv : Inv succ root (fun _ => True) (· = root) visited done queue
  ancestry : ∀ p ∈ done ++ queue, Ancestry succ root parent p.2 p.1
  root_first : parent root = none
  /-- Only nodes that have been visited have a parent. -/
  parentless : ∀ v, ¬ visited v → parent v = none
  depth_le : ∀ p ∈ queue, p.2 ≤ done.length + 1

section tree
variable {succ : α → List α} {root : α} {visited visited' : α → Prop}
  {parent parent' : α → Option α} {done queue : List (α × Nat)} {new : List α}

/-- The root is looked at first. -/
theorem TreeInv.start (hnodup : new.Nodup) (hnew : ∀ v, v ∈ new ↔ v ∈ succ root ∧ v ≠ root)
    (hvisited : ∀ v, visited v ↔ v = root ∨ v ∈ succ root)
    (hparent : ∀ v ∈ new, parent v = some root) (hnone : ∀ v ∉ new, parent v = none) :
    TreeInv succ root visited parent [] (new.map fun v => (v, 1)) := by
  have hroot : parent root = none := by
    apply hnone
    intro hmem
    exact ((hnew root).mp hmem).2 rfl
  refine ⟨Inv.start (fun v hv => hv) hnodup hnew hvisited, ?_, hroot, ?_, ?_⟩
  · intro p hp
    obtain ⟨v, hv, rfl⟩ := List.mem_map.mp hp
    exact ⟨root, hparent v hv, ((hnew v).mp hv).1, rfl, hroot⟩
  · intro v hv
    apply hnone
    intro hmem
    exact hv ((hvisited v).mpr (.inr ((hnew v).mp hmem).1))
  · intro p hp
    obtain ⟨v, -, rfl⟩ := List.mem_map.mp hp
    exact le_rfl

/-- The front of the queue is looked at, and becomes the parent of what it leads to. -/
theorem TreeInv.look {node : α × Nat}
    (h : TreeInv succ root visited parent done (node :: queue)) (hnodup : new.Nodup)
    (hnew : ∀ v, v ∈ new ↔ v ∈ succ node.1 ∧ ¬ visited v)
    (hvisited : ∀ v, visited' v ↔ visited v ∨ v ∈ succ node.1)
    (hparent : ∀ v ∈ new, parent' v = some node.1) (hkeep : ∀ v ∉ new, parent' v = parent v) :
    TreeInv succ root visited' parent' (done ++ [node])
      (queue ++ new.map fun v => (v, node.2 + 1)) := by
  have hfresh : ∀ v ∈ new, parent v = none := fun v hv => h.parentless v ((hnew v).mp hv).2
  have hroot : root ∉ new := by
    intro hmem
    exact ((hnew root).mp hmem).2 ((h.inv.visited_iff root).mpr (.inl rfl))
  -- what had a parent, or is the root, is as before
  have hold : ∀ {d : Nat} {v : α}, Ancestry succ root parent d v →
      Ancestry succ root parent' d v := by
    intro d v hancestry
    apply hancestry.keep (hkeep root hroot)
    intro w hw
    apply hkeep
    intro hmem
    rw [hfresh w hmem] at hw
    cases hw
  refine ⟨h.inv.look trivial hnodup hnew hvisited, ?_, (hkeep root hroot).trans h.root_first,
    ?_, ?_⟩
  · intro p hp
    have hsplit : p ∈ done ++ node :: queue ∨ p ∈ new.map fun v => (v, node.2 + 1) := by
      simpa [or_assoc] using hp
    rcases hsplit with hp | hp
    · exact hold (h.ancestry p hp)
    · obtain ⟨v, hv, rfl⟩ := List.mem_map.mp hp
      exact ⟨node.1, hparent v hv, ((hnew v).mp hv).1, hold (h.ancestry node (by simp))⟩
  · intro v hv
    have hnot : ¬ visited v := fun hvis => hv ((hvisited v).mpr (.inl hvis))
    have hout : v ∉ new := fun hmem => hv ((hvisited v).mpr (.inr ((hnew v).mp hmem).1))
    rw [hkeep v hout]
    exact h.parentless v hnot
  · intro p hp
    rw [List.length_append, List.length_singleton]
    rcases List.mem_append.mp hp with hp | hp
    · have hle := h.depth_le p (List.mem_cons_of_mem _ hp)
      omega
    · obtain ⟨v, -, rfl⟩ := List.mem_map.mp hp
      exact Nat.succ_le_succ (h.depth_le node List.mem_cons_self)

/-- The root and what has been looked at are all the nodes that can be reached. -/
theorem TreeInv.reached (h : TreeInv succ root visited parent done []) {n : Nat} {v : α}
    (hsteps : Steps succ n root v) : v = root ∨ ∃ d, (v, d) ∈ done := by
  by_cases hzero : n = 0
  · subst hzero
    exact .inl hsteps.symm
  · obtain ⟨d, hdistance, -⟩ := exists_distance (Nat.pos_of_ne_zero hzero) hsteps
    by_cases hroot : v = root
    · exact .inl hroot
    · exact .inr ⟨d, h.inv.found_iff.mpr ⟨hroot, hdistance, fun _ _ _ => trivial⟩⟩

end tree

end BreadthFirst
