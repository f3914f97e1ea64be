import Mathlib.Data.Finset.Card
import Mathlib.Data.List.Nodup

/-! # Relational Tables with a Primary Key and a Unique Constraint

    A `Table key uniq` is a finite list of rows of which no two share their
    primary key `key r`, nor their secondary unique key `uniq r`. The two
    constraints are fields of the structure, so a table that violates them
    cannot be built: `insert?` refuses such a row, and `modify` asks for a
    proof that the update leaves both keys alone.

    Everything a client needs to know about a table is its lookup function
    `find?`. In particular the number of rows with some property is the
    cardinality of `keysWhere`, whose members are described by `find?` alone,
    so counting arguments become inclusions of finite sets.

    What an operation does to a table is a `Rewrites` between two lookup
    functions: each row is still found under its key, changed in an allowed
    way, and each row that is new has an allowed content.
-/

universe u v w

/-- Rows with a primary key and a secondary unique key. -/
structure Table {ρ : Type u} {κ : Type v} {υ : Type w} (key : ρ → κ) (uniq : ρ → υ) where
  rows : List ρ
  /-- PRIMARY KEY: rows are determined by their key. -/
  key_nodup : (rows.map key).Nodup
  /-- UNIQUE: rows are determined by their secondary key as well. -/
  uniq_nodup : (rows.map uniq).Nodup

namespace Table

variable {ρ : Type u} {κ : Type v} {υ : Type w} {key : ρ → κ} {uniq : ρ → υ}

/-- The table without rows. -/
def empty (key : ρ → κ) (uniq : ρ → υ) : Table key uniq := ⟨[], by simp, by simp⟩

/-- Rows are determined by their primary key. -/
theorem eq_of_key_eq {t : Table key uniq} {r r' : ρ} (hr : r ∈ t.rows) (hr' : r' ∈ t.rows)
    (h : key r = key r') : r = r' :=
  List.inj_on_of_nodup_map t.key_nodup hr hr' h

/-- Rows are determined by their secondary key. -/
theorem eq_of_uniq_eq {t : Table key uniq} {r r' : ρ} (hr : r ∈ t.rows) (hr' : r' ∈ t.rows)
    (h : uniq r = uniq r') : r = r' :=
  List.inj_on_of_nodup_map t.uniq_nodup hr hr' h

/-! ### Lookup by primary key -/

section lookup
variable [DecidableEq κ]

/-- `SELECT .. WHERE key = k`. -/
def find? (t : Table key uniq) (k : κ) : Option ρ := t.rows.find? (fun r => key r = k)

@[simp] theorem find?_empty (k : κ) : (empty key uniq).find? k = none := rfl

theorem key_of_find? {t : Table key uniq} {k : κ} {r : ρ} (h : t.find? k = some r) :
    key r = k := by
  simpa using List.find?_some h

theorem mem_of_find? {t : Table key uniq} {k : κ} {r : ρ} (h : t.find? k = some r) :
    r ∈ t.rows := List.mem_of_find?_eq_some h

theorem find?_key {t : Table key uniq} {r : ρ} (h : r ∈ t.rows) : t.find? (key r) = some r := by
  cases hf : t.find? (key r) with
  | none =>
    have := List.find?_eq_none.mp hf r h
    simp at this
  | some r' =>
    have hkey : key r' = key r := key_of_find? hf
    rw [eq_of_key_eq (mem_of_find? hf) h hkey]

theorem find?_eq_none_iff {t : Table key uniq} {k : κ} :
    t.find? k = none ↔ ∀ r ∈ t.rows, key r ≠ k := by
  simp [find?]

/-- Two rows found under any keys that agree on the secondary key are one row. -/
theorem find?_uniq_inj {t : Table key uniq} {k k' : κ} {r r' : ρ} (h : t.find? k = some r)
    (h' : t.find? k' = some r') (huniq : uniq r = uniq r') : k = k' ∧ r = r' := by
  have hrr : r = r' := eq_of_uniq_eq (mem_of_find? h) (mem_of_find? h') huniq
  subst hrr
  exact ⟨(key_of_find? h).symm.trans (key_of_find? h'), rfl⟩

end lookup

/-! ### Insertion -/

section insertion
variable [DecidableEq κ] [DecidableEq υ]

/-- `INSERT`: refused when either unique constraint would be violated. -/
def insert? (t : Table key uniq) (r : ρ) : Option (Table key uniq) :=
  if h : key r ∉ t.rows.map key ∧ uniq r ∉ t.rows.map uniq then
    some ⟨r :: t.rows,
      by rw [List.map_cons]; exact List.nodup_cons.mpr ⟨h.1, t.key_nodup⟩,
      by rw [List.map_cons]; exact List.nodup_cons.mpr ⟨h.2, t.uniq_nodup⟩⟩
  else none

theorem rows_of_insert? {t t' : Table key uniq} {r : ρ} (h : t.insert? r = some t') :
    t'.rows = r :: t.rows := by
  unfold insert? at h
  split at h
  · cases h; rfl
  · cases h

/-- An inserted row had a fresh primary key. -/
theorem find?_of_insert? {t t' : Table key uniq} {r : ρ} (h : t.insert? r = some t') :
    t.find? (key r) = none := by
  unfold insert? at h
  split at h
  · next hfresh =>
    rw [find?_eq_none_iff]
    intro r' hr' hkey
    exact hfresh.1 (List.mem_map.mpr ⟨r', hr', hkey⟩)
  · cases h

theorem find?_insert? {t t' : Table key uniq} {r : ρ} (h : t.insert? r = some t') (k : κ) :
    t'.find? k = if k = key r then some r else t.find? k := by
  unfold find?
  rw [rows_of_insert? h, List.find?_cons]
  by_cases hk : k = key r
  · subst hk; simp
  · have hk' : ¬ key r = k := fun h => hk h.symm
    simp [hk, hk']

end insertion

/-! ### Update -/

/-- `UPDATE .. SET f WHERE p`, for an update that leaves both keys alone. -/
def modify (t : Table key uniq) (p : ρ → Bool) (f : ρ → ρ)
    (hf : ∀ r, key (f r) = key r ∧ uniq (f r) = uniq r) : Table key uniq where
  rows := t.rows.map (fun r => if p r then f r else r)
  key_nodup := by
    have hcomp : key ∘ (fun r => if p r then f r else r) = key := by
      funext r
      by_cases hp : p r <;> simp [hp, (hf r).1]
    rw [List.map_map, hcomp]
    exact t.key_nodup
  uniq_nodup := by
    have hcomp : uniq ∘ (fun r => if p r then f r else r) = uniq := by
      funext r
      by_cases hp : p r <;> simp [hp, (hf r).2]
    rw [List.map_map, hcomp]
    exact t.uniq_nodup

@[simp] theorem find?_modify [DecidableEq κ] (t : Table key uniq) (p : ρ → Bool) (f : ρ → ρ)
    (hf : ∀ r, key (f r) = key r ∧ uniq (f r) = uniq r) (k : κ) :
    (t.modify p f hf).find? k = (t.find? k).map (fun r => if p r then f r else r) := by
  have hkey : ∀ r, key (if p r then f r else r) = key r := by
    intro r
    by_cases hp : p r <;> simp [hp, (hf r).1]
  simp only [find?, modify, List.find?_map]
  congr 2
  funext r
  simp [hkey r]

/-! ### Ordered selection -/

/-- The first of the least rows of a list under `lt`. -/
def firstBy (lt : ρ → ρ → Bool) : List ρ → Option ρ
  | [] => none
  | r :: rs =>
    match firstBy lt rs with
    | some m => if lt m r then some m else some r
    | none => some r

theorem mem_of_firstBy {lt : ρ → ρ → Bool} {rs : List ρ} {r : ρ}
    (h : firstBy lt rs = some r) : r ∈ rs := by
  induction rs generalizing r with
  | nil => cases h
  | cons r₀ rs ih =>
    simp only [firstBy] at h
    split at h
    · next m hm =>
      split at h
      · cases h; exact List.mem_cons_of_mem _ (ih hm)
      · cases h; exact List.mem_cons_self
    · cases h; exact List.mem_cons_self

theorem firstBy_eq_none_iff {lt : ρ → ρ → Bool} {rs : List ρ} :
    firstBy lt rs = none ↔ rs = [] := by
  cases rs with
  | nil => simp [firstBy]
  | cons r rs =>
    simp only [firstBy, reduceCtorEq, iff_false]
    split
    · split <;> simp
    · simp

/-- A row before all others comes first. -/
theorem firstBy_eq_of_least {lt : ρ → ρ → Bool} {rs : List ρ} {r : ρ} (hmem : r ∈ rs)
    (hleast : ∀ r' ∈ rs, r' ≠ r → lt r r' = true ∧ lt r' r = false) :
    firstBy lt rs = some r := by
  induction rs with
  | nil => cases hmem
  | cons r₀ rs ih =>
    rw [firstBy]
    by_cases hr : r = r₀
    · subst hr
      split
      · next m hm =>
        by_cases hmr : m = r
        · subst hmr
          exact ite_self _
        · have hno := (hleast m (List.mem_cons_of_mem _ (mem_of_firstBy hm)) hmr).2
          rw [if_neg (by rw [hno]; exact Bool.false_ne_true)]
      · rfl
    · have hrs : r ∈ rs := (List.mem_cons.mp hmem).resolve_left hr
      rw [ih hrs fun r' hr' => hleast r' (List.mem_cons_of_mem _ hr')]
      exact if_pos (hleast r₀ List.mem_cons_self (Ne.symm hr)).1

/-- The first row under the order of a column has the least value in it. -/
theorem firstBy_le {β : Type*} [LinearOrder β] {f : ρ → β} {lt : ρ → ρ → Bool}
    (hlt : ∀ a b, lt a b = true ↔ f a < f b) {rs : List ρ} {r : ρ}
    (h : firstBy lt rs = some r) : ∀ r' ∈ rs, f r ≤ f r' := by
  induction rs generalizing r with
  | nil => cases h
  | cons r₀ rs ih =>
    simp only [firstBy] at h
    split at h
    · next m hm =>
      by_cases hless : lt m r₀ = true
      · rw [if_pos hless] at h
        cases h
        exact List.forall_mem_cons.mpr ⟨((hlt _ _).mp hless).le, ih hm⟩
      · rw [if_neg hless] at h
        cases h
        have hle : f r₀ ≤ f m := not_lt.mp fun hlt' => hless ((hlt _ _).mpr hlt')
        exact List.forall_mem_cons.mpr ⟨le_refl _, fun r' hr' => hle.trans (ih hm r' hr')⟩
    · next hnone =>
      cases h
      rw [firstBy_eq_none_iff] at hnone
      subst hnone
      exact List.forall_mem_cons.mpr ⟨le_refl _, fun r' hr' => absurd hr' List.not_mem_nil⟩

/-- `SELECT .. WHERE p ORDER BY lt LIMIT 1`. -/
def selectFirst (t : Table key uniq) (p : ρ → Bool) (lt : ρ → ρ → Bool) : Option ρ :=
  firstBy lt (t.rows.filter p)

theorem selectFirst_eq_some [DecidableEq κ] {t : Table key uniq} {p : ρ → Bool}
    {lt : ρ → ρ → Bool} {r : ρ} (h : t.selectFirst p lt = some r) :
    t.find? (key r) = some r ∧ p r = true := by
  have hmem := List.mem_filter.mp (mem_of_firstBy h)
  exact ⟨find?_key hmem.1, hmem.2⟩

theorem selectFirst_eq_none [DecidableEq κ] {t : Table key uniq} {p : ρ → Bool}
    {lt : ρ → ρ → Bool} (h : t.selectFirst p lt = none) {k : κ} {r : ρ}
    (hr : t.find? k = some r) : p r = false := by
  have hnil := firstBy_eq_none_iff.mp h
  have hno := List.filter_eq_nil_iff.mp hnil r (mem_of_find? hr)
  simpa using hno

/-- A selection finds the row that is before all others it could find. -/
theorem selectFirst_eq_of_least [DecidableEq κ] {t : Table key uniq} {p : ρ → Bool}
    {lt : ρ → ρ → Bool} {k : κ} {r : ρ} (hr : t.find? k = some r) (hp : p r = true)
    (hleast : ∀ k' r', t.find? k' = some r' → p r' = true → r' ≠ r →
      lt r r' = true ∧ lt r' r = false) : t.selectFirst p lt = some r := by
  refine firstBy_eq_of_least (List.mem_filter.mpr ⟨mem_of_find? hr, hp⟩) fun r' hr' hne => ?_
  obtain ⟨hmem, hp'⟩ := List.mem_filter.mp hr'
  exact hleast (key r') r' (find?_key hmem) hp' hne

/-- A selection ordered by a column finds a row with the least value in it. -/
theorem selectFirst_le [DecidableEq κ] {β : Type*} [LinearOrder β] {f : ρ → β}
    {t : Table key uniq} {p : ρ → Bool} {lt : ρ → ρ → Bool}
    (hlt : ∀ a b, lt a b = true ↔ f a < f b) {r : ρ} (h : t.selectFirst p lt = some r) {k : κ}
    {r' : ρ} (hr' : t.find? k = some r') (hp : p r' = true) : f r ≤ f r' :=
  firstBy_le hlt h r' (List.mem_filter.mpr ⟨mem_of_find? hr', hp⟩)

/-! ### Counting rows -/

section counting
variable [DecidableEq κ]

/-- The primary keys of the rows with property `q`. -/
def keysWhere (t : Table key uniq) (q : ρ → Prop) [DecidablePred q] : Finset κ :=
  ((t.rows.filter (fun r => q r)).map key).toFinset

theorem mem_keysWhere {t : Table key uniq} {q : ρ → Prop} [DecidablePred q] {k : κ} :
    k ∈ t.keysWhere q ↔ ∃ r, t.find? k = some r ∧ q r := by
  simp only [keysWhere, List.mem_toFinset, List.mem_map, List.mem_filter, decide_eq_true_eq]
  constructor
  · rintro ⟨r, ⟨hmem, hq⟩, rfl⟩
    exact ⟨r, find?_key hmem, hq⟩
  · intro ⟨r, hf, hq⟩
    exact ⟨r, ⟨mem_of_find? hf, hq⟩, key_of_find? hf⟩

@[simp] theorem keysWhere_empty (q : ρ → Prop) [DecidablePred q] :
    (empty key uniq).keysWhere q = ∅ := rfl

/-- If every row with `q` is still there with `q'`, there are at least as many. -/
theorem keysWhere_subset {t t' : Table key uniq} {q q' : ρ → Prop} [DecidablePred q]
    [DecidablePred q']
    (h : ∀ k r, t.find? k = some r → q r → ∃ r', t'.find? k = some r' ∧ q' r') :
    t.keysWhere q ⊆ t'.keysWhere q' := by
  intro k hk
  obtain ⟨r, hf, hq⟩ := mem_keysWhere.mp hk
  exact mem_keysWhere.mpr (h k r hf hq)

/-- If the rows with `q` have the same keys before and after, there are as many. -/
theorem keysWhere_congr {t t' : Table key uniq} {q q' : ρ → Prop} [DecidablePred q]
    [DecidablePred q']
    (h : ∀ k, (∃ r, t.find? k = some r ∧ q r) ↔ ∃ r, t'.find? k = some r ∧ q' r) :
    t.keysWhere q = t'.keysWhere q' := by
  ext k
  rw [mem_keysWhere, mem_keysWhere]
  exact h k

/-- If the row with key `k` comes to satisfy `q` and no other row changes in this
    respect, there is one more. -/
theorem keysWhere_insert {t t' : Table key uniq} {q q' : ρ → Prop} [DecidablePred q]
    [DecidablePred q'] {k : κ}
    (hnew : ∃ r, t'.find? k = some r ∧ q' r) (hold : ¬ ∃ r, t.find? k = some r ∧ q r)
    (h : ∀ k', k' ≠ k →
      ((∃ r, t.find? k' = some r ∧ q r) ↔ ∃ r, t'.find? k' = some r ∧ q' r)) :
    t'.keysWhere q' = insert k (t.keysWhere q) ∧ k ∉ t.keysWhere q := by
  constructor
  · ext k'
    rw [Finset.mem_insert, mem_keysWhere, mem_keysWhere]
    by_cases hk : k' = k
    · subst hk
      exact ⟨fun _ => Or.inl rfl, fun _ => hnew⟩
    · rw [h k' hk]
      exact ⟨Or.inr, fun hor => hor.resolve_left hk⟩
  · rwa [mem_keysWhere]

end counting

/-! ### How rows change -/

section changes
variable {R R' : ρ → ρ → Prop} {I I' : ρ → Prop} {f f' : κ → Option ρ}

/-- Every row of `f` is found in `f'` under its key, rewritten as `R` allows, and every
    row that is found in `f'` only satisfies `I`. -/
structure Rewrites (R : ρ → ρ → Prop) (I : ρ → Prop) (f f' : κ → Option ρ) : Prop where
  kept : ∀ k r, f k = some r → ∃ r', f' k = some r' ∧ R r r'
  new : ∀ k r', f k = none → f' k = some r' → I r'

/-- `UPDATE` of all rows. -/
theorem Rewrites.map {g : ρ → ρ} (hmap : ∀ k, f' k = (f k).map g) (hg : ∀ r, R r (g r)) :
    Rewrites R I f f' where
  kept := by
    intro k r hrow
    exact ⟨g r, by rw [hmap, hrow, Option.map_some], hg r⟩
  new := by
    intro k r' hnone hrow'
    rw [hmap, hnone] at hrow'
    cases hrow'

theorem Rewrites.refl (hrefl : ∀ r, R r r) (f : κ → Option ρ) : Rewrites R I f f where
  kept := fun _ r hrow => ⟨r, hrow, hrefl r⟩
  new := by
    intro k r' hnone hrow'
    rw [hnone] at hrow'
    cases hrow'

/-- A transaction that fails is rolled back. -/
theorem Rewrites.of_ok {α : Type*} {ε : Type*} {g : α → κ → Option ρ} {a : α}
    {result : Except ε α} (hrefl : ∀ r, R r r)
    (hok : ∀ a', result = .ok a' → Rewrites R I (g a) (g a')) :
    Rewrites R I (g a) (g (result.toOption.getD a)) := by
  cases result with
  | error e => exact .refl hrefl (g a)
  | ok a' => exact hok a' rfl

/-- `UPDATE` of the row with key `k₀`. -/
theorem Rewrites.set [DecidableEq κ] {k₀ : κ} {r₀ r₀' : ρ} (hrefl : ∀ r, R r r)
    (hfound : f k₀ = some r₀) (hset : ∀ k, f' k = if k = k₀ then some r₀' else f k)
    (hR : R r₀ r₀') : Rewrites R I f f' where
  kept := by
    intro k r hrow
    rw [hset]
    by_cases hk : k = k₀
    · subst hk
      rw [hfound] at hrow
      cases hrow
      exact ⟨r₀', if_pos rfl, hR⟩
    · exact ⟨r, by rw [if_neg hk, hrow], hrefl r⟩
  new := by
    intro k r' hnone hrow'
    rw [hset, if_neg, hnone] at hrow'
    · cases hrow'
    · intro hk
      rw [hk, hfound] at hnone
      cases hnone

/-- `INSERT` of a row with the key `k₀`. -/
theorem Rewrites.insert [DecidableEq κ] {k₀ : κ} {r₀ : ρ} (hrefl : ∀ r, R r r)
    (hfresh : f k₀ = none) (hins : ∀ k, f' k = if k = k₀ then some r₀ else f k) (hI : I r₀) :
    Rewrites R I f f' where
  kept := by
    intro k r hrow
    refine ⟨r, ?_, hrefl r⟩
    rw [hins, if_neg, hrow]
    intro hk
    rw [hk, hfresh] at hrow
    cases hrow
  new := by
    intro k r' hnone hrow'
    rw [hins] at hrow'
    split at hrow'
    · cases hrow'
      exact hI
    · rw [hnone] at hrow'
      cases hrow'

theorem Rewrites.mono (h : Rewrites R I f f') (hR : ∀ r r', R r r' → R' r r')
    (hI : ∀ r, I r → I' r) : Rewrites R' I' f f' where
  kept := by
    intro k r hrow
    obtain ⟨r', hrow', hrr'⟩ := h.kept k r hrow
    exact ⟨r', hrow', hR r r' hrr'⟩
  new := fun k r' hnone hrow' => hI r' (h.new k r' hnone hrow')

/-- Where a row comes from. -/
theorem Rewrites.origin (h : Rewrites R I f f') {k : κ} {r' : ρ} (hrow' : f' k = some r') :
    (∃ r, f k = some r ∧ R r r') ∨ f k = none ∧ I r' := by
  cases hrow : f k with
  | none => exact Or.inr ⟨rfl, h.new k r' hrow hrow'⟩
  | some r =>
    obtain ⟨r₁, hrow₁, hR⟩ := h.kept k r hrow
    rw [hrow'] at hrow₁
    cases hrow₁
    exact Or.inl ⟨r, rfl, hR⟩

end changes

end Table
