import Mathlib.Data.List.Nodup
import Mathlib.Data.List.Sort

/-! # The First Row under Each Key

    Rows are sorted by a key, and of the rows with the same key the first is
    kept. Since sorting is stable, that is the row that was the first with its
    key before: the result has each key once, in ascending order, and a row
    belongs to it iff no row with its key stood in front of it.
-/

namespace FirstByKey

variable {α κ : Type}

/-! ### Keeping the first -/

section keep
variable [DecidableEq κ] (key : α → κ)

/-- The rows whose key has not been seen before. -/
def keep_first : List κ → List α → List α
  | _, [] => []
  | seen, x :: xs =>
    if key x ∈ seen then keep_first seen xs else x :: keep_first (key x :: seen) xs

variable {key}

theorem keep_first_sublist (seen : List κ) (xs : List α) :
    (keep_first key seen xs).Sublist xs := by
  induction xs generalizing seen with
  | nil => exact .slnil
  | cons x xs ih =>
    rw [keep_first]
    split
    · exact (ih seen).cons x
    · exact (ih (key x :: seen)).cons_cons x

/-- What has been seen does not come again. -/
theorem not_mem_keys_keep_first {k : κ} {seen : List κ} (hk : k ∈ seen) (xs : List α) :
    k ∉ (keep_first key seen xs).map key := by
  induction xs generalizing seen with
  | nil => simp [keep_first]
  | cons x xs ih =>
    rw [keep_first]
    split
    · exact ih hk
    · next hnew =>
      have hne : k ≠ key x := by
        intro h
        exact hnew (h ▸ hk)
      have hrest := ih (List.mem_cons_of_mem (key x) hk)
      simp [hne, hrest]

theorem nodup_keys_keep_first (seen : List κ) (xs : List α) :
    ((keep_first key seen xs).map key).Nodup := by
  induction xs generalizing seen with
  | nil => simp [keep_first]
  | cons x xs ih =>
    rw [keep_first]
    split
    · exact ih seen
    · rw [List.map_cons, List.nodup_cons]
      constructor
      · apply not_mem_keys_keep_first
        simp
      · exact ih (key x :: seen)

/-- Under a key that has not been seen, the first row is still found. -/
theorem find?_keep_first {k : κ} {seen : List κ} (hk : k ∉ seen) (xs : List α) :
    (keep_first key seen xs).find? (fun x => key x = k) = xs.find? (fun x => key x = k) := by
  induction xs generalizing seen with
  | nil => rfl
  | cons x xs ih =>
    rw [keep_first]
    by_cases hx : key x = k
    · have hnew : key x ∉ seen := by
        rw [hx]
        exact hk
      rw [if_neg hnew]
      simp [hx]
    · have hk' : k ∉ key x :: seen := by
        simp [Ne.symm hx, hk]
      by_cases hseen : key x ∈ seen
      · simp [hseen, hx, ih hk]
      · simp [hseen, hx, ih hk']

end keep

/-! ### Sorting -/

section sorting
variable [LinearOrder κ] (key : α → κ)

/-- Sorted by the key, the first row with each key. -/
def sort_first (xs : List α) : List α :=
  keep_first key [] (xs.insertionSort fun x y => key x ≤ key y)

variable {key}

theorem by_key_total (key : α → κ) : Std.Total fun x y : α => key x ≤ key y :=
  ⟨fun x y => le_total (key x) (key y)⟩

theorem by_key_trans (key : α → κ) : IsTrans α fun x y => key x ≤ key y := ⟨fun _ _ _ => le_trans⟩

/-- Sorting is stable: the rows with one key stay in their order. -/
theorem filter_insertionSort (k : κ) (xs : List α) :
    (xs.insertionSort fun x y => key x ≤ key y).filter (fun x => key x = k) =
      xs.filter (fun x => key x = k) := by
  have htotal := by_key_total key
  have htrans := by_key_trans key
  have hpairs : (xs.filter (fun x => key x = k)).Pairwise fun x y => key x ≤ key y := by
    rw [List.pairwise_iff_forall_sublist]
    intro x y hsub
    have hx := hsub.subset (a := x) (by simp)
    have hy := hsub.subset (a := y) (by simp)
    simp only [List.mem_filter, decide_eq_true_eq] at hx hy
    rw [hx.2, hy.2]
  have hsub := (List.sublist_insertionSort hpairs List.filter_sublist).filter
    (fun x => decide (key x = k))
  rw [List.filter_filter] at hsub
  simp only [Bool.and_self] at hsub
  have hlength := ((List.perm_insertionSort (fun x y => key x ≤ key y) xs).filter
    (fun x => decide (key x = k))).length_eq
  exact (hsub.eq_of_length hlength.symm).symm

theorem find?_insertionSort (k : κ) (xs : List α) :
    (xs.insertionSort fun x y => key x ≤ key y).find? (fun x => key x = k) =
      xs.find? (fun x => key x = k) := by
  rw [← List.head?_filter, filter_insertionSort, List.head?_filter]

/-! ### Both -/

/-- Each key is there once, in ascending order. -/
theorem sort_first_ascending (xs : List α) :
    ((sort_first key xs).map key).Pairwise (· < ·) := by
  have htotal := by_key_total key
  have htrans := by_key_trans key
  have hsorted := (List.pairwise_insertionSort (fun x y => key x ≤ key y) xs).sublist
    (@keep_first_sublist _ _ _ key [] _)
  have hnodup := @nodup_keys_keep_first _ _ _ key []
    (xs.insertionSort fun x y => key x ≤ key y)
  rw [List.Nodup, List.pairwise_map] at hnodup
  rw [sort_first, List.pairwise_map]
  exact (hsorted.and hnodup).imp fun h => lt_of_le_of_ne h.1 h.2

/-- Under each key, the first row is found. -/
theorem find?_sort_first (k : κ) (xs : List α) :
    (sort_first key xs).find? (fun x => key x = k) = xs.find? (fun x => key x = k) := by
  rw [sort_first, find?_keep_first (List.not_mem_nil), find?_insertionSort]

/-- A row is there iff it is the first with its key. -/
theorem mem_sort_first {x : α} {xs : List α} :
    x ∈ sort_first key xs ↔ xs.find? (fun y => key y = key x) = some x := by
  rw [← find?_sort_first]
  constructor
  · intro hx
    have hnodup : ((sort_first key xs).map key).Nodup := nodup_keys_keep_first _ _
    cases hfind : (sort_first key xs).find? (fun y => key y = key x) with
    | none =>
      have hno := List.find?_eq_none.mp hfind x hx
      simp at hno
    | some y =>
      have hkey : key y = key x := by simpa using List.find?_some hfind
      rw [List.inj_on_of_nodup_map hnodup (List.mem_of_find?_eq_some hfind) hx hkey]
  · intro h
    exact List.mem_of_find?_eq_some h

/-- The keys are those of the rows. -/
theorem mem_keys_sort_first {k : κ} {xs : List α} :
    k ∈ (sort_first key xs).map key ↔ k ∈ xs.map key := by
  have hfound (ys : List α) : k ∈ ys.map key ↔ (ys.find? fun x => key x = k).isSome := by
    simp
  rw [hfound, hfound, find?_sort_first]

end sorting

end FirstByKey
