import Mathlib.Data.List.Induction
import Mathlib.Data.List.Perm.Basic

/-! # Grouping by a Key

    A dictionary that keeps the order of insertion, with a list under each key.
    A list is grouped by putting its elements under their keys, one after the
    other: then the list of a key is what the list has of that key, in its
    order.
-/

namespace Grouping

variable {κ α : Type} [DecidableEq κ]

/-- One more element under a key, which comes last where it is new. -/
def append_under (k : κ) (x : α) : List (κ × List α) → List (κ × List α)
  | [] => [(k, [x])]
  | (k', xs) :: rest =>
    if k' = k then (k', xs ++ [x]) :: rest else (k', xs) :: append_under k x rest

theorem lookup_append_under (k : κ) (x : α) (k' : κ) (groups : List (κ × List α)) :
    (append_under k x groups).lookup k' =
      if k' = k then some ((groups.lookup k').getD [] ++ [x]) else groups.lookup k' := by
  induction groups with
  | nil =>
    unfold append_under
    rw [List.lookup_cons]
    by_cases hk : k' = k
    · simp [hk]
    · simp [beq_false_of_ne hk, hk]
  | cons group rest ih =>
    obtain ⟨first, xs⟩ := group
    unfold append_under
    by_cases hfirst : first = k
    · rw [if_pos hfirst, List.lookup_cons, List.lookup_cons]
      by_cases hk : k' = k
      · simp [hfirst, hk]
      · have hne : k' ≠ first := hfirst ▸ hk
        simp [beq_false_of_ne hne, hk]
    · rw [if_neg hfirst, List.lookup_cons, List.lookup_cons, ih]
      by_cases hk : k' = first
      · simp [hk, hfirst]
      · simp [beq_false_of_ne hk]

/-- The keys are those that were there, and the new one. -/
theorem mem_keys_append_under {k : κ} {x : α} {k' : κ} {groups : List (κ × List α)} :
    k' ∈ (append_under k x groups).map (·.1) ↔ k' = k ∨ k' ∈ groups.map (·.1) := by
  induction groups with
  | nil => simp [append_under]
  | cons group rest ih =>
    obtain ⟨first, xs⟩ := group
    unfold append_under
    by_cases hfirst : first = k
    · rw [if_pos hfirst]
      simp [hfirst]
    · rw [if_neg hfirst, List.map_cons, List.mem_cons, ih, List.map_cons, List.mem_cons]
      exact or_left_comm

theorem nodup_keys_append_under (k : κ) (x : α) {groups : List (κ × List α)}
    (h : (groups.map (·.1)).Nodup) : ((append_under k x groups).map (·.1)).Nodup := by
  induction groups with
  | nil => simp [append_under]
  | cons group rest ih =>
    obtain ⟨first, xs⟩ := group
    rw [List.map_cons, List.nodup_cons] at h
    unfold append_under
    by_cases hfirst : first = k
    · rw [if_pos hfirst, List.map_cons, List.nodup_cons]
      exact h
    · rw [if_neg hfirst, List.map_cons, List.nodup_cons, mem_keys_append_under, not_or]
      exact ⟨⟨hfirst, h.1⟩, ih h.2⟩

/-- Nothing is lost. -/
theorem perm_append_under (k : κ) (x : α) (groups : List (κ × List α)) :
    ((append_under k x groups).flatMap (·.2)).Perm (groups.flatMap (·.2) ++ [x]) := by
  induction groups with
  | nil => simp [append_under]
  | cons group rest ih =>
    obtain ⟨first, xs⟩ := group
    unfold append_under
    by_cases hfirst : first = k
    · rw [if_pos hfirst, List.flatMap_cons, List.flatMap_cons, List.append_assoc,
        List.append_assoc]
      exact List.perm_append_comm.append_left xs
    · rw [if_neg hfirst, List.flatMap_cons, List.flatMap_cons, List.append_assoc]
      exact ih.append_left xs

section group_by

variable (key : α → κ)

/-- The elements under their keys, in the order in which the keys come first. -/
def group_by (xs : List α) : List (κ × List α) :=
  xs.foldl (fun groups x => append_under (key x) x groups) []

theorem group_by_append (xs : List α) (x : α) :
    group_by key (xs ++ [x]) = append_under (key x) x (group_by key xs) := by
  unfold group_by
  rw [List.foldl_append]
  rfl

theorem nodup_keys_group_by (xs : List α) : ((group_by key xs).map (·.1)).Nodup := by
  induction xs using List.reverseRecOn with
  | nil => simp [group_by]
  | append_singleton xs x ih =>
    rw [group_by_append]
    exact nodup_keys_append_under _ _ ih

/-- The groups hold each element once. -/
theorem perm_group_by (xs : List α) : ((group_by key xs).flatMap (·.2)).Perm xs := by
  induction xs using List.reverseRecOn with
  | nil => simp [group_by]
  | append_singleton xs x ih =>
    rw [group_by_append]
    exact (perm_append_under _ _ _).trans (ih.append_right [x])

/-- The list under a key. -/
theorem getD_lookup_group_by (xs : List α) (k : κ) :
    ((group_by key xs).lookup k).getD [] = xs.filter fun x => key x = k := by
  induction xs using List.reverseRecOn with
  | nil => simp [group_by]
  | append_singleton xs x ih =>
    rw [group_by_append, lookup_append_under, List.filter_append, ← ih]
    by_cases hk : k = key x
    · simp [hk]
    · simp [hk, Ne.symm hk]

variable {key}

/-- The group of a key is what the list has of it, in its order. -/
theorem eq_filter_of_mem_group_by {xs ys : List α} {k : κ} (h : (k, ys) ∈ group_by key xs) :
    ys = xs.filter fun x => key x = k := by
  have hlookup : ∀ {groups : List (κ × List α)}, (groups.map (·.1)).Nodup →
      (k, ys) ∈ groups → groups.lookup k = some ys := by
    intro groups hnodup hmem
    induction groups with
    | nil => simp at hmem
    | cons group rest ih =>
      obtain ⟨first, zs⟩ := group
      rw [List.map_cons, List.nodup_cons] at hnodup
      rw [List.lookup_cons]
      rcases List.mem_cons.mp hmem with heq | hmem
      · cases heq
        simp
      · have hne : k ≠ first := by
          intro heq
          exact hnodup.1 (List.mem_map.mpr ⟨(k, ys), hmem, heq⟩)
        rw [beq_false_of_ne hne]
        exact ih hnodup.2 hmem
  have hgroup := getD_lookup_group_by key xs k
  rwa [hlookup (nodup_keys_group_by key xs) h] at hgroup

end group_by

end Grouping
