import Servo.Cli.Deploy
import Servo.Storage.MetadataChanges

/-! # What a Deploy Does to the Tables

    The effect of each step of a command on the tables, whether the step
    succeeds or fails: a call that reads leaves them alone, a call that writes
    is committed as a whole or not at all. From that, what is left of them
    after `deploy_workflow`.
-/

namespace Servo

open Procedure

/-! ### Steps -/

section steps
variable {α : Type} {env : Environment} {w w' : World} {a : α}

theorem context_eq_ok_iff {message : String} {x : Command α} :
    context message x w = (.ok a, w') ↔ x w = (.ok a, w') := map_error_eq_ok_iff

theorem storage_call_eq_ok_iff {op : Metadata → Except StorageError (α × Metadata)} :
    storage_call env op w = (.ok a, w') ↔
      env.storage_faults w.storage.calls = none ∧ ∃ db, op w.db = .ok (a, db) ∧
        w' = { w with storage := ⟨db, w.storage.calls + 1⟩ } := by
  unfold storage_call
  rw [map_error_eq_ok_iff, zoom_eq_iff]
  simp only [call_eq_ok_iff, map_error_eq_ok_iff, atomic_eq_ok_iff]
  constructor
  · rintro ⟨⟨db, n⟩, ⟨hfault, hop, hn⟩, rfl⟩
    subst hn
    exact ⟨hfault, db, hop, rfl⟩
  · rintro ⟨hfault, db, hop, rfl⟩
    exact ⟨⟨db, _⟩, ⟨hfault, hop, rfl⟩, rfl⟩

/-- Either way only the tables and the number of calls change, and the tables only as the
    transaction does it. -/
theorem storage_call_changes (env : Environment)
    (op : Metadata → Except StorageError (α × Metadata)) (w : World) :
    ∃ db, (storage_call env op w).2 = { w with storage := ⟨db, w.storage.calls + 1⟩ } ∧
      (db = w.db ∨ ∃ a, op w.db = .ok (a, db)) := by
  refine ⟨(storage_call env op w).2.db, ?_, ?_⟩
  · unfold storage_call
    rw [map_error_snd]
    show World.mk _ _ _ _ = World.mk _ _ _ _
    congr 1
    show _ = Remote.mk _ _
    rw [← call_calls env.storage_faults ((atomic op).map_error StorageError.to_string) w.storage]
    rfl
  · have hstate := call_state env.storage_faults ((atomic op).map_error StorageError.to_string)
      w.storage
    have hdb : (storage_call env op w).2.db =
        (call env.storage_faults ((atomic op).map_error StorageError.to_string)
          w.storage).2.state := by
      unfold storage_call
      rw [map_error_snd]
      rfl
    rw [hdb]
    rcases hstate with hstate | hstate
    · exact .inl hstate
    · rw [map_error_snd] at hstate
      rw [hstate]
      show (atomic op w.db).2 = w.db ∨ ∃ a, op w.db = .ok (a, (atomic op w.db).2)
      rcases hrun : atomic op w.db with ⟨e | a, db⟩
      · exact .inl (atomic_eq_error_iff.mp hrun).2.symm
      · exact .inr ⟨a, atomic_eq_ok_iff.mp hrun⟩

theorem query_eq_ok_iff {op : Metadata → Except StorageError α} :
    query env op w = (.ok a, w') ↔
      env.storage_faults w.storage.calls = none ∧ op w.db = .ok a ∧
        w' = { w with storage := ⟨w.db, w.storage.calls + 1⟩ } := by
  unfold query
  rw [storage_call_eq_ok_iff]
  refine and_congr_right fun _ => ?_
  constructor
  · rintro ⟨db, hop, rfl⟩
    obtain ⟨b, hb, heq⟩ := Fallible.map_eq_ok_iff.mp hop
    cases heq
    exact ⟨hb, rfl⟩
  · rintro ⟨hop, rfl⟩
    exact ⟨w.db, Fallible.map_eq_ok_iff.mpr ⟨a, hop, rfl⟩, rfl⟩

theorem statement_eq_ok_iff {op : Metadata → Except StorageError Metadata} {u : Unit} :
    statement env op w = (.ok u, w') ↔
      env.storage_faults w.storage.calls = none ∧ ∃ db, op w.db = .ok db ∧
        w' = { w with storage := ⟨db, w.storage.calls + 1⟩ } := by
  unfold statement
  rw [storage_call_eq_ok_iff]
  refine and_congr_right fun _ => exists_congr fun db => and_congr_left fun _ => ?_
  constructor
  · intro hop
    obtain ⟨b, hb, heq⟩ := Fallible.map_eq_ok_iff.mp hop
    cases heq
    exact hb
  · exact fun hop => Fallible.map_eq_ok_iff.mpr ⟨db, hop, rfl⟩

/-- A call that writes, and whose fault, if it has one, is that the answer is lost. -/
theorem statement_carried_out {op : Metadata → Except StorageError Metadata} {db : Metadata}
    (hop : op w.db = .ok db)
    (hfault : ∀ fault, env.storage_faults w.storage.calls = some fault →
      fault.carried_out = true) :
    (statement env op w).2 = { w with storage := ⟨db, w.storage.calls + 1⟩ } := by
  have hatomic : atomic (fun db => (op db).map fun db' => ((), db')) w.storage.state =
      ((.ok (), db) : Except StorageError Unit × Metadata) :=
    atomic_eq_ok_iff.mpr (Fallible.map_eq_ok_iff.mpr ⟨db, hop, rfl⟩)
  unfold statement storage_call
  rw [map_error_snd]
  show World.mk _ _ _ _ = World.mk _ _ _ _
  rw [call_carried_out _ hfault, map_error_snd, hatomic]

end steps

/-! ### What is kept of the tables -/

/-- A relation on the tables, as one on worlds: of the rest, the jobs stay as they are. -/
structure OnTables (R : Metadata → Metadata → Prop) (w w' : World) : Prop where
  tables : R w.db w'.db
  jobs : w'.jobs = w.jobs

section kept
variable {α : Type} {env : Environment} {R : Metadata → Metadata → Prop}

theorem OnTables.refl (hrefl : ∀ db, R db db) (w : World) : OnTables R w w := ⟨hrefl w.db, rfl⟩

theorem OnTables.trans (htrans : ∀ db₁ db₂ db₃, R db₁ db₂ → R db₂ db₃ → R db₁ db₃)
    (w₁ w₂ w₃ : World) (h : OnTables R w₁ w₂) (h' : OnTables R w₂ w₃) : OnTables R w₁ w₃ :=
  ⟨htrans _ _ _ h.tables h'.tables, h'.jobs.trans h.jobs⟩

/-- From the tables as they are before the call. -/
theorem storage_call_kept {w : World} (hrefl : R w.db w.db)
    {op : Metadata → Except StorageError (α × Metadata)}
    (hop : ∀ a db', op w.db = .ok (a, db') → R w.db db') :
    OnTables R w (storage_call env op w).2 := by
  obtain ⟨db, hafter, hdb⟩ := storage_call_changes env op w
  rw [hafter]
  refine ⟨?_, rfl⟩
  show R w.db db
  rcases hdb with hsame | ⟨a, hop'⟩
  · rw [hsame]
    exact hrefl
  · exact hop a db hop'

theorem statement_kept {w : World} (hrefl : R w.db w.db)
    {op : Metadata → Except StorageError Metadata} (hop : ∀ db', op w.db = .ok db' → R w.db db') :
    OnTables R w (statement env op w).2 := by
  refine storage_call_kept hrefl fun a db' h => ?_
  obtain ⟨b, hb, heq⟩ := Fallible.map_eq_ok_iff.mp h
  cases heq
  exact hop db' hb

theorem keeps_query (hrefl : ∀ db, R db db) (op : Metadata → Except StorageError α) :
    Keeps (OnTables R) (query env op) := by
  refine fun w => storage_call_kept (hrefl w.db) fun a db' h => ?_
  obtain ⟨b, -, heq⟩ := Fallible.map_eq_ok_iff.mp h
  cases heq
  exact hrefl w.db

theorem keeps_new_v4 (hrefl : ∀ db, R db db) : Keeps (OnTables R) (new_v4 env) :=
  fun w => ⟨hrefl w.db, rfl⟩

theorem keeps_utc_now (hrefl : ∀ db, R db db) : Keeps (OnTables R) (utc_now env) :=
  fun w => ⟨hrefl w.db, rfl⟩

/-- A step that leaves the tables alone. -/
def Reads (x : Command α) : Prop := Keeps (OnTables fun db db' => db' = db) x

theorem reads_query (op : Metadata → Except StorageError α) : Reads (query env op) :=
  keeps_query (R := fun db db' => db' = db) (fun _ => rfl) op

/-- After it, what follows is as from the tables before it. -/
theorem Reads.bind {β : Type} {x : Command α} (hx : Reads x) {f : α → Command β} {w : World}
    (hrefl : R w.db w.db)
    (hf : ∀ a w₁, x w = (.ok a, w₁) → OnTables R w₁ (f a w₁).2) :
    OnTables R w ((x >>= f) w).2 := by
  have hsame := hx w
  apply Keeps.bind_cases
  · intro e w₁ hxw
    rw [hxw] at hsame
    refine ⟨?_, hsame.jobs⟩
    rw [hsame.tables]
    exact hrefl
  · intro a w₁ hxw
    obtain ⟨htables, hjobs⟩ := hf a w₁ hxw
    rw [hxw] at hsame
    refine ⟨?_, hjobs.trans hsame.jobs⟩
    rw [← hsame.tables]
    exact htables

end kept

/-! ### Lookups -/

/-- Each lookup is one call, and an asset found has the name looked for. -/
structure Lookups.Sound (env : Environment) (lookups : Lookups) : Prop where
  workflow : ∀ tenant name, ∃ op, lookups.find_workflow_by_name tenant name = query env op
  asset : ∀ tenant name, ∃ op, lookups.find_asset_by_name tenant name = query env op ∧
    ∀ db found, op db = .ok (some found) → found ∈ db.assets.rows ∧ found.name = name

namespace Lookups

variable {env : Environment}

theorem mem_of_list_assets {db : Metadata} {tenant : TenantId} {limit offset : Int}
    {assets : List AssetModel} (h : db.list_assets tenant limit offset = .ok assets) :
    ∀ asset ∈ assets, asset ∈ db.assets.rows := by
  obtain ⟨u, -, h⟩ := Fallible.bind_eq_ok_iff.mp h
  cases h
  intro asset hasset
  have hsorted := List.mem_of_mem_drop (List.mem_of_mem_take hasset)
  exact (Table.mem_filter.mp ((List.mem_insertionSort _).mp hsorted)).1

theorem listing_sound : (listing env).Sound env where
  workflow := fun _ _ => ⟨_, rfl⟩
  asset := by
    refine fun tenant name => ⟨_, rfl, fun db found h => ?_⟩
    obtain ⟨assets, hlist, hfind⟩ := Fallible.map_eq_ok_iff.mp h
    have hmem := List.mem_of_find?_eq_some hfind
    exact ⟨mem_of_list_assets hlist found hmem, by simpa using List.find?_some hfind⟩

theorem exact_sound : (exact env).Sound env where
  workflow := fun _ _ => ⟨_, rfl⟩
  asset := by
    refine fun tenant name => ⟨_, rfl, fun db found h => ?_⟩
    have hfind := Except.ok.inj h
    have hmem := List.mem_of_find?_eq_some hfind
    exact ⟨(Table.mem_filter.mp hmem).1, by simpa using List.find?_some hfind⟩

end Lookups

end Servo
