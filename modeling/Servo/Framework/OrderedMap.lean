import Mathlib.Data.List.Nodup

/-! # Maps that Keep their Order

    A list of entries with distinct keys. A key that is assigned again keeps
    its place, and a new key comes last.
-/

universe u v

namespace OrderedMap

variable {κ : Type u} {α : Type v} [DecidableEq κ]

/-- `map[key] = value`. -/
def set : List (κ × α) → κ → α → List (κ × α)
  | [], key, value => [(key, value)]
  | entry :: map, key, value =>
    if entry.1 = key then (key, value) :: map else entry :: set map key value

theorem set_append {front : List (κ × α)} {key : κ} (h : key ∉ front.map Prod.fst)
    (map : List (κ × α)) (value : α) :
    set (front ++ map) key value = front ++ set map key value := by
  induction front with
  | nil => rfl
  | cons entry front ih =>
    rw [List.map_cons, List.mem_cons, not_or] at h
    rw [List.cons_append, set, if_neg (Ne.symm h.1), ih h.2]
    rfl

/-- A new key comes last. -/
theorem set_of_notMem {map : List (κ × α)} {key : κ} (h : key ∉ map.map Prod.fst) (value : α) :
    set map key value = map ++ [(key, value)] := by
  have happend := set_append h [] value
  rwa [List.append_nil] at happend

/-- A key that is there keeps its place. -/
theorem set_at {front : List (κ × α)} {key : κ} (h : key ∉ front.map Prod.fst) (old value : α)
    (map : List (κ × α)) :
    set (front ++ (key, old) :: map) key value = front ++ (key, value) :: map := by
  rw [set_append h, set, if_pos rfl]

theorem mem_keys_set {map : List (κ × α)} {key k : κ} {value : α} :
    k ∈ (set map key value).map Prod.fst ↔ k ∈ map.map Prod.fst ∨ k = key := by
  induction map with
  | nil => simp [set]
  | cons entry map ih =>
    rw [set]
    split
    · next heq =>
      simp only [List.map_cons, List.mem_cons, heq]
      tauto
    · simp only [List.map_cons, List.mem_cons, ih]
      tauto

/-- The keys stay distinct. -/
theorem nodup_set {map : List (κ × α)} (h : (map.map Prod.fst).Nodup) (key : κ) (value : α) :
    ((set map key value).map Prod.fst).Nodup := by
  induction map with
  | nil => simp [set]
  | cons entry map ih =>
    rw [List.map_cons, List.nodup_cons] at h
    rw [set]
    split
    · next heq =>
      rw [List.map_cons, List.nodup_cons, ← heq]
      exact h
    · next hne =>
      rw [List.map_cons, List.nodup_cons, mem_keys_set, not_or]
      exact ⟨⟨h.1, hne⟩, ih h.2⟩

theorem lookup_cons (entry : κ × α) (map : List (κ × α)) (k : κ) :
    (entry :: map).lookup k = if k = entry.1 then some entry.2 else map.lookup k := by
  rw [List.lookup_cons]
  by_cases heq : k = entry.1
  · rw [if_pos heq, beq_iff_eq.mpr heq]
  · rw [if_neg heq, beq_eq_false_iff_ne.mpr heq]

/-- What is found under a key after an assignment. -/
theorem lookup_set (map : List (κ × α)) (key k : κ) (value : α) :
    (set map key value).lookup k = if k = key then some value else map.lookup k := by
  induction map with
  | nil => rw [set, lookup_cons]
  | cons entry map ih =>
    rw [set]
    split
    · next hentry =>
      rw [lookup_cons, lookup_cons, hentry]
      by_cases heq : k = key
      · rw [if_pos heq, if_pos heq]
      · rw [if_neg heq, if_neg heq, if_neg heq]
    · next hentry =>
      rw [lookup_cons, lookup_cons, ih]
      by_cases heq : k = entry.1
      · have hne : k ≠ key := fun h => hentry (heq.symm.trans h)
        rw [if_pos heq, if_neg hne, if_pos heq]
      · rw [if_neg heq, if_neg heq]

/-- What is found under a key is its entry. -/
theorem lookup_eq_some_iff {map : List (κ × α)} (h : (map.map Prod.fst).Nodup) {key : κ}
    {value : α} : map.lookup key = some value ↔ (key, value) ∈ map := by
  induction map with
  | nil => simp
  | cons entry map ih =>
    rw [List.map_cons, List.nodup_cons] at h
    rw [List.lookup_cons, List.mem_cons]
    by_cases heq : key = entry.1
    · subst heq
      have habsent : (entry.1, value) ∉ map := fun hmem =>
        h.1 (List.mem_map.mpr ⟨_, hmem, rfl⟩)
      simp [Prod.ext_iff, habsent, eq_comm]
    · have hbeq : (key == entry.1) = false := beq_eq_false_iff_ne.mpr heq
      rw [hbeq, ih h.2]
      simp [Prod.ext_iff, heq]

end OrderedMap
