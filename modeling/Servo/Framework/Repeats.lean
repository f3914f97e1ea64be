import Mathlib.Data.Finset.Card
import Mathlib.Data.List.Dedup
import Mathlib.Order.Interval.Finset.Nat

/-! # Repeated Keys

    What a pass over a list finds that keeps the keys it has seen: the entries
    whose key is that of an earlier entry. They are as many as there are
    entries more than different keys, and they depend only on which entries
    have the same key.
-/

namespace Repeats

section keys
variable {α β : Type} [DecidableEq β] (k : α → β)

/-- The entries whose key has been seen, in the list or before it. -/
def repeats : List β → List α → List α
  | _, [] => []
  | seen, x :: xs => if k x ∈ seen then x :: repeats seen xs else repeats (k x :: seen) xs

variable {k}

theorem repeats_sublist_self (seen : List β) (xs : List α) : (repeats k seen xs).Sublist xs := by
  induction xs generalizing seen with
  | nil => exact .slnil
  | cons x xs ih =>
    unfold repeats
    split
    · exact (ih seen).cons_cons x
    · exact (ih (k x :: seen)).cons x

/-! ### How many there are -/

theorem length_repeats_seen (seen : List β) (xs : List α) :
    (repeats k seen xs).length + ((xs.map k).toFinset \ seen.toFinset).card = xs.length := by
  induction xs generalizing seen with
  | nil => simp [repeats]
  | cons x xs ih =>
    rw [List.map_cons, List.toFinset_cons, List.length_cons]
    unfold repeats
    by_cases hseen : k x ∈ seen
    · have hsdiff := Finset.insert_sdiff_of_mem (xs.map k).toFinset (List.mem_toFinset.mpr hseen)
      rw [if_pos hseen, hsdiff, List.length_cons]
      have hxs := ih seen
      omega
    · -- the key is new: it is one more, whether it comes again or not
      have hnew : k x ∉ seen.toFinset := mt List.mem_toFinset.mp hseen
      have hcard : (insert (k x) (xs.map k).toFinset \ seen.toFinset).card =
          ((xs.map k).toFinset \ (k x :: seen).toFinset).card + 1 := by
        rw [List.toFinset_cons, Finset.sdiff_insert, Finset.insert_sdiff_of_notMem _ hnew,
          ← Finset.card_erase_add_one (Finset.mem_insert_self (k x) _),
          Finset.erase_insert_eq_erase]
      rw [if_neg hseen, hcard]
      have hxs := ih (k x :: seen)
      omega

/-- As many as there are entries more than different keys. -/
theorem length_repeats (xs : List α) :
    (repeats k [] xs).length + (xs.map k).dedup.length = xs.length := by
  have h := length_repeats_seen (k := k) [] xs
  rwa [List.toFinset_nil, Finset.sdiff_empty, List.card_toFinset] at h

theorem repeats_eq_nil_iff (xs : List α) : repeats k [] xs = [] ↔ (xs.map k).Nodup := by
  have h := length_repeats (k := k) xs
  rw [← List.length_eq_zero_iff, ← List.dedup_eq_self]
  constructor
  · intro hzero
    apply List.Sublist.eq_of_length (List.dedup_sublist _)
    rw [List.length_map]
    omega
  · intro hself
    rw [hself, List.length_map] at h
    omega

/-! ### What they depend on -/

/-- Whether two entries have the same key, and whether a key has been seen. -/
theorem repeats_congr_seen {γ : Type} [DecidableEq γ] {k' : α → γ} {seen : List β}
    {seen' : List γ} {xs : List α} (hseen : ∀ x ∈ xs, k x ∈ seen ↔ k' x ∈ seen')
    (hsame : ∀ x ∈ xs, ∀ y ∈ xs, k x = k y ↔ k' x = k' y) :
    repeats k seen xs = repeats k' seen' xs := by
  induction xs generalizing seen seen' with
  | nil => rfl
  | cons x xs ih =>
    have hsame' : ∀ y ∈ xs, ∀ z ∈ xs, k y = k z ↔ k' y = k' z := fun y hy z hz =>
      hsame y (List.mem_cons_of_mem _ hy) z (List.mem_cons_of_mem _ hz)
    have hx := hseen x List.mem_cons_self
    unfold repeats
    by_cases h : k x ∈ seen
    · rw [if_pos h, if_pos (hx.mp h),
        ih (fun y hy => hseen y (List.mem_cons_of_mem _ hy)) hsame']
    · rw [if_neg h, if_neg (mt hx.mpr h)]
      apply ih _ hsame'
      intro y hy
      rw [List.mem_cons, List.mem_cons, hseen y (List.mem_cons_of_mem _ hy),
        hsame y (List.mem_cons_of_mem _ hy) x List.mem_cons_self]

theorem repeats_congr {γ : Type} [DecidableEq γ] {k' : α → γ} {xs : List α}
    (hsame : ∀ x ∈ xs, ∀ y ∈ xs, k x = k y ↔ k' x = k' y) :
    repeats k [] xs = repeats k' [] xs :=
  repeats_congr_seen (fun _ _ => by simp) hsame

/-- Finer keys: fewer entries are repeated. -/
theorem repeats_sublist_seen {γ : Type} [DecidableEq γ] {k' : α → γ} {seen : List β}
    {seen' : List γ} {xs : List α} (hseen : ∀ x ∈ xs, k' x ∈ seen' → k x ∈ seen)
    (hfiner : ∀ x ∈ xs, ∀ y ∈ xs, k' x = k' y → k x = k y) :
    (repeats k' seen' xs).Sublist (repeats k seen xs) := by
  induction xs generalizing seen seen' with
  | nil => exact .slnil
  | cons x xs ih =>
    have hfiner' : ∀ y ∈ xs, ∀ z ∈ xs, k' y = k' z → k y = k z := fun y hy z hz =>
      hfiner y (List.mem_cons_of_mem _ hy) z (List.mem_cons_of_mem _ hz)
    have hx := hseen x List.mem_cons_self
    unfold repeats
    by_cases h' : k' x ∈ seen'
    · rw [if_pos h', if_pos (hx h')]
      exact (ih (fun y hy => hseen y (List.mem_cons_of_mem _ hy)) hfiner').cons_cons x
    · rw [if_neg h']
      by_cases h : k x ∈ seen
      · rw [if_pos h]
        apply (ih _ hfiner').cons x
        intro y hy hmem
        rcases List.mem_cons.mp hmem with heq | hmem
        · rw [hfiner y (List.mem_cons_of_mem _ hy) x List.mem_cons_self heq]
          exact h
        · exact hseen y (List.mem_cons_of_mem _ hy) hmem
      · rw [if_neg h]
        apply ih _ hfiner'
        intro y hy hmem
        rcases List.mem_cons.mp hmem with heq | hmem
        · rw [hfiner y (List.mem_cons_of_mem _ hy) x List.mem_cons_self heq]
          exact List.mem_cons_self
        · exact List.mem_cons_of_mem _ (hseen y (List.mem_cons_of_mem _ hy) hmem)

theorem repeats_sublist {γ : Type} [DecidableEq γ] {k' : α → γ} {xs : List α}
    (hfiner : ∀ x ∈ xs, ∀ y ∈ xs, k' x = k' y → k x = k y) :
    (repeats k' [] xs).Sublist (repeats k [] xs) :=
  repeats_sublist_seen (fun _ _ h => absurd h List.not_mem_nil) hfiner

/-- Finer keys leave the repeated entries as they are if each of them is still repeated. -/
theorem repeats_eq_iff {γ : Type} [DecidableEq γ] {k' : α → γ} {xs : List α} (hnodup : xs.Nodup)
    (hfiner : ∀ x ∈ xs, ∀ y ∈ xs, k' x = k' y → k x = k y) :
    repeats k' [] xs = repeats k [] xs ↔ ∀ x ∈ repeats k [] xs, x ∈ repeats k' [] xs := by
  constructor
  · intro heq x hx
    rw [heq]
    exact hx
  · intro hall
    have hsub : (repeats k [] xs).Subperm (repeats k' [] xs) :=
      ((repeats_sublist_self [] xs).nodup hnodup).subperm hall
    exact (repeats_sublist hfiner).eq_of_length_le hsub.length_le

end keys

/-! ### Rows by their numbers -/

section rows
variable {β : Type} [DecidableEq β] {k : Nat → β}

theorem mem_repeats_range_seen {seen : List β} {start n row : Nat} :
    row ∈ repeats k seen (List.range' start n) ↔ start ≤ row ∧ row < start + n ∧
      (k row ∈ seen ∨ ∃ earlier, start ≤ earlier ∧ earlier < row ∧ k earlier = k row) := by
  induction n generalizing seen start with
  | zero =>
    refine iff_of_false List.not_mem_nil ?_
    intro h
    omega
  | succ n ih =>
    rw [List.range'_succ]
    unfold repeats
    by_cases hseen : k start ∈ seen
    · rw [if_pos hseen, List.mem_cons, ih]
      constructor
      · intro h
        rcases h with rfl | ⟨hstart, hlt, hrow⟩
        · exact ⟨le_rfl, by omega, .inl hseen⟩
        · refine ⟨by omega, by omega, ?_⟩
          rcases hrow with hrow | ⟨earlier, hearlier, hrow⟩
          · exact .inl hrow
          · exact .inr ⟨earlier, by omega, hrow⟩
      · intro ⟨hstart, hlt, hrow⟩
        by_cases heq : row = start
        · exact .inl heq
        · refine .inr ⟨by omega, by omega, ?_⟩
          rcases hrow with hrow | ⟨earlier, hearlier, hbefore, hkey⟩
          · exact .inl hrow
          · by_cases hfirst : earlier = start
            · rw [← hkey, hfirst]
              exact .inl hseen
            · exact .inr ⟨earlier, by omega, hbefore, hkey⟩
    · rw [if_neg hseen, ih]
      constructor
      · intro ⟨hstart, hlt, hrow⟩
        refine ⟨by omega, by omega, ?_⟩
        rcases hrow with hrow | ⟨earlier, hearlier, hrow⟩
        · rcases List.mem_cons.mp hrow with heq | hrow
          · exact .inr ⟨start, le_rfl, by omega, heq.symm⟩
          · exact .inl hrow
        · exact .inr ⟨earlier, by omega, hrow⟩
      · intro ⟨hstart, hlt, hrow⟩
        have hne : row ≠ start := by
          rintro rfl
          rcases hrow with hrow | ⟨earlier, hearlier, hbefore, -⟩
          · exact hseen hrow
          · omega
        refine ⟨by omega, by omega, ?_⟩
        rcases hrow with hrow | ⟨earlier, hearlier, hbefore, hkey⟩
        · exact .inl (List.mem_cons_of_mem _ hrow)
        · by_cases hfirst : earlier = start
          · rw [← hkey, hfirst]
            exact .inl List.mem_cons_self
          · exact .inr ⟨earlier, by omega, hbefore, hkey⟩

/-- The rows that have the key of an earlier row. -/
theorem mem_repeats_range {n row : Nat} :
    row ∈ repeats k [] (List.range n) ↔ row < n ∧ ∃ earlier < row, k earlier = k row := by
  rw [List.range_eq_range', mem_repeats_range_seen]
  simp

end rows

end Repeats
