import Mathlib.Data.List.Basic
import Servo.Framework.Table

/-! # Tables under Row-Level Security

    A policy `q` shows some rows of a table and hides the others. What can be
    seen of a table is `filter q`. A statement that touches rows the policy
    shows does on the shown rows what it does on the table, provided no hidden
    row stands in its way; and one that touches hidden rows only leaves the
    shown rows alone. A hidden row stands in the way of a statement when it
    holds a key, primary or secondary, that the statement wants to take: the
    policy does not hide rows from the constraints.
-/

universe u v w

namespace Table

variable {ρ : Type u} {κ : Type v} {υ : Type w} {key : ρ → κ} {uniq : ρ → υ}
  {t t' : Table key uniq} {r : ρ} {p q : ρ → Bool}

theorem ext_rows (h : t.rows = t'.rows) : t = t' := by
  cases t
  cases t'
  cases h
  rfl

/-! ### Selection and deletion -/

/-- The rows that satisfy `q`. -/
def filter (t : Table key uniq) (q : ρ → Bool) : Table key uniq where
  rows := t.rows.filter q
  key_nodup := t.key_nodup.sublist (List.Sublist.map key List.filter_sublist)
  uniq_nodup := t.uniq_nodup.sublist (List.Sublist.map uniq List.filter_sublist)

@[simp] theorem rows_filter (t : Table key uniq) (q : ρ → Bool) :
    (t.filter q).rows = t.rows.filter q := rfl

theorem mem_filter : r ∈ (t.filter q).rows ↔ r ∈ t.rows ∧ q r = true := List.mem_filter

theorem filter_congr {q' : ρ → Bool} (h : ∀ r ∈ t.rows, q r = q' r) :
    t.filter q = t.filter q' := by
  apply ext_rows
  rw [rows_filter, rows_filter, List.filter_congr h]

/-- `DELETE .. WHERE p`. -/
def delete (t : Table key uniq) (p : ρ → Bool) : Table key uniq := t.filter fun r => !p r

theorem mem_delete : r ∈ (t.delete p).rows ↔ r ∈ t.rows ∧ p r = false := by
  rw [delete, mem_filter, Bool.not_eq_true']

theorem forall_of_delete {P : ρ → Prop} (hall : ∀ r ∈ t.rows, P r) :
    ∀ r ∈ (t.delete p).rows, P r := fun r hr => hall r (mem_delete.mp hr).1

/-- A row under another key survives a deletion by key. -/
theorem exists_of_delete [DecidableEq κ] {P : ρ → Prop} {k k' : κ} (hne : k' ≠ k)
    (hex : ∃ r ∈ t.rows, key r = k' ∧ P r) :
    ∃ r ∈ (t.delete fun r => key r = k).rows, key r = k' ∧ P r := by
  obtain ⟨r, hr, hkey, hP⟩ := hex
  refine ⟨r, mem_delete.mpr ⟨hr, decide_eq_false ?_⟩, hkey, hP⟩
  rw [hkey]
  exact hne

theorem filter_delete (t : Table key uniq) (p q : ρ → Bool) :
    (t.delete p).filter q = (t.filter q).delete p := by
  apply ext_rows
  simp only [delete, rows_filter, List.filter_filter, Bool.and_comm]

/-- The deletion of hidden rows is not seen. -/
theorem filter_delete_of_hidden (h : ∀ r ∈ t.rows, p r = true → q r = false) :
    (t.delete p).filter q = t.filter q := by
  apply ext_rows
  simp only [delete, rows_filter, List.filter_filter]
  apply List.filter_congr
  intro r hr
  cases hp : p r with
  | false => simp
  | true => simp [h r hr hp]

/-- A lookup among the rows shown. -/
theorem find?_filter [DecidableEq κ] (t : Table key uniq) (q : ρ → Bool) (k : κ) :
    (t.filter q).find? k = (t.find? k).filter q := by
  cases hf : (t.filter q).find? k with
  | some r =>
    obtain ⟨hmem, hq⟩ := mem_filter.mp (mem_of_find? hf)
    rw [← key_of_find? hf, find?_key hmem, Option.filter_some_pos hq]
  | none =>
    cases ht : t.find? k with
    | none => rfl
    | some r =>
      have hno : q r = false := by
        by_contra hq
        rw [Bool.not_eq_false] at hq
        have hmem := mem_filter.mpr ⟨mem_of_find? ht, hq⟩
        exact find?_eq_none_iff.mp hf r hmem (key_of_find? ht)
      rw [Option.filter_some_neg (by simp [hno])]

/-- A query whose condition implies the policy finds on the rows shown what it finds on the
    table. -/
theorem rows_find?_filter (h : ∀ r, p r = true → q r = true) :
    (t.filter q).rows.find? p = t.rows.find? p := by
  rw [rows_filter, List.find?_filter]
  congr 1
  funext r
  cases hp : p r with
  | false => simp
  | true => simp [h r hp]

theorem rows_any_filter (h : ∀ r ∈ t.rows, p r = true → q r = true) :
    (t.filter q).rows.any p = t.rows.any p := by
  rw [Bool.eq_iff_iff, List.any_eq_true, List.any_eq_true]
  constructor
  · intro ⟨r, hr, hp⟩
    exact ⟨r, (mem_filter.mp hr).1, hp⟩
  · intro ⟨r, hr, hp⟩
    exact ⟨r, mem_filter.mpr ⟨hr, h r hr hp⟩, hp⟩

/-! ### Insertion -/

section insertion
variable [DecidableEq κ] [DecidableEq υ]

theorem mem_of_insert? (h : t.insert? r = some t') {r' : ρ} :
    r' ∈ t'.rows ↔ r' = r ∨ r' ∈ t.rows := by
  rw [rows_of_insert? h, List.mem_cons]

theorem forall_of_insert? {P : ρ → Prop} (h : t.insert? r = some t') (hr : P r)
    (hall : ∀ r ∈ t.rows, P r) : ∀ r ∈ t'.rows, P r := by
  intro r' hr'
  rcases (mem_of_insert? h).mp hr' with rfl | hr'
  · exact hr
  · exact hall r' hr'

theorem exists_of_insert? {P : ρ → Prop} (h : t.insert? r = some t') (hex : ∃ r ∈ t.rows, P r) :
    ∃ r ∈ t'.rows, P r := by
  obtain ⟨r', hr', hP⟩ := hex
  exact ⟨r', (mem_of_insert? h).mpr (Or.inr hr'), hP⟩

/-- When an insertion is refused. -/
theorem insert?_eq_none_iff :
    t.insert? r = none ↔ ∃ r' ∈ t.rows, key r' = key r ∨ uniq r' = uniq r := by
  unfold insert?
  constructor
  · intro h
    split at h
    · cases h
    · next hconflict =>
      rw [not_and_or, not_not, not_not, List.mem_map, List.mem_map] at hconflict
      rcases hconflict with ⟨r', hr', hkey⟩ | ⟨r', hr', huniq⟩
      · exact ⟨r', hr', Or.inl hkey⟩
      · exact ⟨r', hr', Or.inr huniq⟩
  · intro hclash
    obtain ⟨r', hr', hor⟩ := hclash
    rw [dif_neg]
    intro hboth
    obtain ⟨hkey, huniq⟩ := hboth
    rcases hor with h | h
    · exact hkey (List.mem_map.mpr ⟨r', hr', h⟩)
    · exact huniq (List.mem_map.mpr ⟨r', hr', h⟩)

/-- The insertion of a row that is shown, with no hidden row in the way. -/
theorem insert?_filter (hq : q r = true)
    (hclear : ∀ r' ∈ t.rows, q r' = false → key r' ≠ key r ∧ uniq r' ≠ uniq r) :
    (t.filter q).insert? r = (t.insert? r).map (·.filter q) := by
  cases ht : t.insert? r with
  | none =>
    obtain ⟨r', hr', hor⟩ := insert?_eq_none_iff.mp ht
    have hshown : q r' = true := by
      by_contra hhidden
      obtain ⟨hkey, huniq⟩ := hclear r' hr' (Bool.eq_false_iff.mpr hhidden)
      exact hor.elim hkey huniq
    exact insert?_eq_none_iff.mpr ⟨r', mem_filter.mpr ⟨hr', hshown⟩, hor⟩
  | some t' =>
    cases hf : (t.filter q).insert? r with
    | none =>
      obtain ⟨r', hr', hor⟩ := insert?_eq_none_iff.mp hf
      have hnone := insert?_eq_none_iff.mpr ⟨r', (mem_filter.mp hr').1, hor⟩
      rw [ht] at hnone
      cases hnone
    | some f =>
      rw [Option.map_some, Option.some.injEq]
      apply ext_rows
      rw [rows_of_insert? hf, rows_filter, rows_filter, rows_of_insert? ht,
        List.filter_cons_of_pos hq]

/-- The insertion of a hidden row is not seen. -/
theorem filter_of_insert?_hidden (hq : q r = false) (h : t.insert? r = some t') :
    t'.filter q = t.filter q := by
  apply ext_rows
  rw [rows_filter, rows_of_insert? h, List.filter_cons_of_neg (by simp [hq]), rows_filter]

end insertion

/-! ### Update -/

/-- An update that leaves both keys alone does on the rows shown what it does on the table. -/
theorem filter_modify {f : ρ → ρ} (hkeys : ∀ r, key (f r) = key r ∧ uniq (f r) = uniq r)
    (hkeeps : ∀ r, q (f r) = q r) :
    (t.filter q).modify p f hkeys = (t.modify p f hkeys).filter q := by
  apply ext_rows
  have hsame : t.rows.filter q = t.rows.filter (q ∘ fun r => if p r then f r else r) := by
    apply List.filter_congr
    intro r _
    by_cases hp : p r = true <;> simp [hp, hkeeps]
  simp only [modify, rows_filter, List.filter_map, hsame]

section update
variable [DecidableEq υ] {f : ρ → ρ}

/-- `UPDATE .. SET f WHERE p`, for an update that leaves the primary key alone: refused when
    the new rows would violate the secondary constraint. -/
def update? (t : Table key uniq) (p : ρ → Bool) (f : ρ → ρ) (hf : ∀ r, key (f r) = key r) :
    Option (Table key uniq) :=
  if h : ((t.rows.map fun r => if p r then f r else r).map uniq).Nodup then
    some {
      rows := t.rows.map fun r => if p r then f r else r
      key_nodup := by
        have hcomp : key ∘ (fun r => if p r then f r else r) = key := by
          funext r
          by_cases hp : p r <;> simp [hp, hf r]
        rw [List.map_map, hcomp]
        exact t.key_nodup
      uniq_nodup := h }
  else none

variable {hf : ∀ r, key (f r) = key r}

theorem rows_of_update? (h : t.update? p f hf = some t') :
    t'.rows = t.rows.map fun r => if p r then f r else r := by
  unfold update? at h
  split at h
  · cases h; rfl
  · cases h

theorem mem_of_update? (h : t.update? p f hf = some t') {r' : ρ} (hr' : r' ∈ t'.rows) :
    ∃ r ∈ t.rows, r' = if p r then f r else r := by
  rw [rows_of_update? h] at hr'
  obtain ⟨r, hr, heq⟩ := List.mem_map.mp hr'
  exact ⟨r, hr, heq.symm⟩

theorem mem_update?_of_mem (h : t.update? p f hf = some t') (hr : r ∈ t.rows) :
    (if p r then f r else r) ∈ t'.rows := by
  rw [rows_of_update? h]
  exact List.mem_map.mpr ⟨r, hr, rfl⟩

theorem forall_of_update? {P : ρ → Prop} (h : t.update? p f hf = some t')
    (hP : ∀ r, P r → P (f r)) (hall : ∀ r ∈ t.rows, P r) : ∀ r ∈ t'.rows, P r := by
  intro r' hr'
  obtain ⟨r, hr, rfl⟩ := mem_of_update? h hr'
  split
  · exact hP r (hall r hr)
  · exact hall r hr

theorem exists_of_update? {P : ρ → Prop} (h : t.update? p f hf = some t')
    (hP : ∀ r, P r → P (f r)) (hex : ∃ r ∈ t.rows, P r) : ∃ r ∈ t'.rows, P r := by
  obtain ⟨r, hr, hPr⟩ := hex
  refine ⟨_, mem_update?_of_mem h hr, ?_⟩
  split
  · exact hP r hPr
  · exact hPr

/-- An update is refused when two rows would share their secondary key. -/
theorem update?_eq_none_iff :
    t.update? p f hf = none ↔ ∃ r ∈ t.rows, ∃ r' ∈ t.rows, r ≠ r' ∧
      uniq (if p r then f r else r) = uniq (if p r' then f r' else r') := by
  have hrows : t.rows.Nodup := t.key_nodup.of_map
  have hiff := List.nodup_map_iff_inj_on (f := fun r => uniq (if p r then f r else r)) hrows
  have hmap : (t.rows.map fun r => if p r then f r else r).map uniq =
      t.rows.map fun r => uniq (if p r then f r else r) := by
    rw [List.map_map]
    rfl
  unfold update?
  constructor
  · intro h
    split at h
    · cases h
    · next hnodup =>
      rw [hmap, hiff] at hnodup
      push Not at hnodup
      obtain ⟨r, hr, r', hr', huniq, hne⟩ := hnodup
      exact ⟨r, hr, r', hr', hne, huniq⟩
  · intro hclash
    obtain ⟨r, hr, r', hr', hne, huniq⟩ := hclash
    rw [dif_neg]
    rw [hmap, hiff]
    exact fun hinj => hne (hinj r hr r' hr' huniq)

/-- An update that leaves the secondary key alone as well is not refused. -/
theorem exists_update? (huniq : ∀ r ∈ t.rows, p r = true → uniq (f r) = uniq r) :
    ∃ t', t.update? p f hf = some t' := by
  have hsame : ∀ r ∈ t.rows, uniq (if p r then f r else r) = uniq r := by
    intro r hr
    by_cases hp : p r = true
    · rw [if_pos hp, huniq r hr hp]
    · rw [if_neg hp]
  apply Option.ne_none_iff_exists'.mp
  intro hnone
  obtain ⟨r, hr, r', hr', hne, heq⟩ := update?_eq_none_iff.mp hnone
  rw [hsame r hr, hsame r' hr'] at heq
  exact hne (eq_of_uniq_eq hr hr' heq)

/-- An update of rows that are shown and stay so, with no hidden row in the way. -/
theorem update?_filter (hshown : ∀ r ∈ t.rows, p r = true → q r = true ∧ q (f r) = true)
    (hclear : ∀ r ∈ t.rows, p r = true → ∀ r' ∈ t.rows, q r' = false →
      uniq r' ≠ uniq (f r)) :
    (t.filter q).update? p f hf = (t.update? p f hf).map (·.filter q) := by
  -- a hidden row is not updated, and collides with no other
  have hcollides : ∀ r ∈ t.rows, ∀ r' ∈ t.rows, r ≠ r' →
      uniq (if p r then f r else r) = uniq (if p r' then f r' else r') → q r = true := by
    intro r hr r' hr' hne huniq
    by_contra hhidden
    have hp : p r = false := by
      by_contra hp
      exact hhidden (hshown r hr (Bool.not_eq_false _ ▸ hp)).1
    rw [hp, if_neg Bool.false_ne_true] at huniq
    by_cases hp' : p r' = true
    · rw [if_pos hp'] at huniq
      exact hclear r' hr' hp' r hr (Bool.eq_false_iff.mpr hhidden) huniq
    · rw [if_neg hp'] at huniq
      exact hne (eq_of_uniq_eq hr hr' huniq)
  cases ht : t.update? p f hf with
  | none =>
    obtain ⟨r, hr, r', hr', hne, huniq⟩ := update?_eq_none_iff.mp ht
    have hq := hcollides r hr r' hr' hne huniq
    have hq' := hcollides r' hr' r hr hne.symm huniq.symm
    exact update?_eq_none_iff.mpr
      ⟨r, mem_filter.mpr ⟨hr, hq⟩, r', mem_filter.mpr ⟨hr', hq'⟩, hne, huniq⟩
  | some t' =>
    cases hfilter : (t.filter q).update? p f hf with
    | none =>
      obtain ⟨r, hr, r', hr', hne, huniq⟩ := update?_eq_none_iff.mp hfilter
      have hnone : t.update? p f hf = none := update?_eq_none_iff.mpr
        ⟨r, (mem_filter.mp hr).1, r', (mem_filter.mp hr').1, hne, huniq⟩
      rw [ht] at hnone
      cases hnone
    | some t₁ =>
      rw [Option.map_some, Option.some.injEq]
      apply ext_rows
      rw [rows_of_update? hfilter, rows_filter, rows_filter, rows_of_update? ht, List.filter_map]
      congr 1
      apply List.filter_congr
      intro r hr
      by_cases hp : p r = true
      · simp [hp, hshown r hr hp]
      · simp [hp]

/-- The update of rows that are hidden and stay so is not seen. -/
theorem filter_of_update?_hidden
    (hhidden : ∀ r ∈ t.rows, p r = true → q r = false ∧ q (f r) = false)
    (h : t.update? p f hf = some t') : t'.filter q = t.filter q := by
  apply ext_rows
  rw [rows_filter, rows_of_update? h, rows_filter, List.filter_map]
  have hfilter : t.rows.filter (q ∘ fun r => if p r then f r else r) = t.rows.filter q := by
    apply List.filter_congr
    intro r hr
    by_cases hp : p r = true
    · simp [hp, hhidden r hr hp]
    · simp [hp]
  have hsame : ∀ r ∈ t.rows.filter q, (if p r then f r else r) = id r := by
    intro r hr
    obtain ⟨hmem, hq⟩ := List.mem_filter.mp hr
    rw [if_neg, id]
    intro hp
    rw [(hhidden r hmem hp).1] at hq
    cases hq
  rw [hfilter, List.map_congr_left hsame, List.map_id]

/-- An update that leaves both keys alone is never refused. -/
theorem update?_eq_modify (hkeys : ∀ r, key (f r) = key r ∧ uniq (f r) = uniq r) :
    t.update? p f (fun r => (hkeys r).1) = some (t.modify p f hkeys) := by
  unfold update?
  exact dif_pos (t.modify p f hkeys).uniq_nodup

theorem filter_modify_hidden (hkeys : ∀ r, key (f r) = key r ∧ uniq (f r) = uniq r)
    (hhidden : ∀ r ∈ t.rows, p r = true → q r = false ∧ q (f r) = false) :
    (t.modify p f hkeys).filter q = t.filter q :=
  filter_of_update?_hidden hhidden (update?_eq_modify hkeys)

end update

end Table
