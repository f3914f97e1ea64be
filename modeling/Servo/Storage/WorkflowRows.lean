import Servo.Storage.MetadataChanges

/-! # Rows of Workflows and Assets

    When `create_workflow` and `update_workflow` succeed, and the row they
    leave; the names that assets get. A value that a column has taken once it
    takes again, so that a row which is read, changed in other columns and
    written back stays the same in these.
-/

namespace Servo

open Fallible

/-! ### Columns -/

theorem varchar_of_length_le {n : Nat} {text : String} (h : text.length ≤ n) :
    varchar n text = .ok text := if_pos h

/-- What a column has taken fits. -/
theorem length_of_varchar {n : Nat} {text column : String} (h : varchar n text = .ok column) :
    column.length ≤ n := by
  unfold varchar at h
  split at h
  · next hfits =>
    cases h
    exact hfits
  · split at h
    · cases h
      simp
    · cases h

theorem varchar_again {n : Nat} {text column : String} (h : varchar n text = .ok column) :
    varchar n column = .ok column := varchar_of_length_le (length_of_varchar h)

theorem nullable_varchar_again {n : Nat} {text column : Option String}
    (h : nullable_varchar n text = .ok column) : nullable_varchar n column = .ok column := by
  cases text with
  | none =>
    cases h
    rfl
  | some text =>
    obtain ⟨column, hcolumn, rfl⟩ := map_eq_ok_iff.mp h
    exact map_eq_ok_iff.mpr ⟨column, varchar_again hcolumn, rfl⟩

/-- Only spaces are cut, so that a text that says something still does. -/
theorem non_empty_of_varchar {n : Nat} {text column field_name : String}
    (h : varchar n text = .ok column) (hne : validate_non_empty_string text field_name = .ok ()) :
    validate_non_empty_string column field_name = .ok () := by
  unfold varchar at h
  split at h
  · cases h
    exact hne
  · split at h
    · next hspaces =>
      cases h
      unfold validate_non_empty_string at hne ⊢
      split at hne
      · cases hne
      · next hblank =>
        refine if_neg fun htake => hblank ?_
        rw [String.toList_ofList] at htake
        have hdrop : (text.toList.drop n).all is_whitespace = true := by
          rw [List.all_eq_true] at hspaces ⊢
          intro c hc
          rw [of_decide_eq_true (hspaces c hc)]
          rfl
        rw [← List.take_append_drop n text.toList, List.all_append, htake, hdrop]
        rfl
    · cases h

namespace AssetModel

variable {asset row : AssetModel} {tenant_id : TenantId}

theorem validated_name (h : asset.validated = .ok row) : varchar 255 asset.name = .ok row.name := by
  unfold validated columns at h
  simp only [bind_eq_ok_iff] at h
  obtain ⟨u, -, v, -, name, hname, asset_type, -, owner, -, m, -, f, -, h⟩ := h
  cases h
  exact hname

theorem new_row_name (h : asset.new_row tenant_id = .ok row) :
    varchar 255 asset.name = .ok row.name := by
  unfold new_row at h
  simp only [bind_eq_ok_iff] at h
  obtain ⟨written, hvalid, column, -, u, -, h⟩ := h
  have hname := validated_name hvalid
  cases h
  exact hname

end AssetModel

namespace WorkflowModel

variable {workflow row : WorkflowModel} {tenant_id : TenantId}

/-- What is written is the model, but for the spaces cut off its columns. -/
theorem validated_fields (h : workflow.validated = .ok row) :
    validate_non_empty_string workflow.name "Workflow name" = .ok () ∧
      varchar 255 workflow.name = .ok row.name ∧
      nullable_varchar 255 workflow.owner = .ok row.owner ∧
      nullable_varchar 255 workflow.schedule_cron = .ok row.schedule_cron ∧
      nullable_varchar 50 workflow.schedule_timezone = .ok row.schedule_timezone ∧
      nullable_varchar 255 workflow.scheduler_job_name = .ok row.scheduler_job_name ∧
      row = { workflow with
        name := row.name
        owner := row.owner
        schedule_cron := row.schedule_cron
        schedule_timezone := row.schedule_timezone
        scheduler_job_name := row.scheduler_job_name } := by
  unfold validated columns at h
  simp only [bind_eq_ok_iff] at h
  obtain ⟨u, hne, name, hname, owner, howner, cron, hcron, timezone, htimezone, job, hjob, h⟩ := h
  cases h
  exact ⟨hne, hname, howner, hcron, htimezone, hjob, rfl⟩

theorem validated_of_fields
    (hne : validate_non_empty_string row.name "Workflow name" = .ok ())
    (hname : varchar 255 row.name = .ok row.name)
    (howner : nullable_varchar 255 row.owner = .ok row.owner)
    (hcron : nullable_varchar 255 row.schedule_cron = .ok row.schedule_cron)
    (htimezone : nullable_varchar 50 row.schedule_timezone = .ok row.schedule_timezone)
    (hjob : nullable_varchar 255 row.scheduler_job_name = .ok row.scheduler_job_name) :
    row.validated = .ok row := by
  unfold validated columns
  simp only [bind_eq_ok_iff]
  exact ⟨(), hne, _, hname, _, howner, _, hcron, _, htimezone, _, hjob, rfl⟩

theorem validated_again (h : workflow.validated = .ok row) : row.validated = .ok row := by
  obtain ⟨hne, hname, howner, hcron, htimezone, hjob, -⟩ := validated_fields h
  exact validated_of_fields (non_empty_of_varchar hname hne) (varchar_again hname)
    (nullable_varchar_again howner) (nullable_varchar_again hcron)
    (nullable_varchar_again htimezone) (nullable_varchar_again hjob)

/-- The row that is inserted. -/
theorem new_row_fields (h : workflow.new_row tenant_id = .ok row) :
    ∃ written, workflow.validated = .ok written ∧ written.check_violation = none ∧
      row = { written with tenant_id := some tenant_id } := by
  unfold new_row at h
  simp only [bind_eq_ok_iff] at h
  obtain ⟨written, hvalid, column, hcolumn, u, hcheck, h⟩ := h
  have htenant := tenant_column_eq_ok hcolumn
  subst htenant
  cases h
  refine ⟨written, hvalid, ?_, rfl⟩
  cases hviolation : written.check_violation with
  | none => rfl
  | some violation =>
    rw [hviolation] at hcheck
    cases hcheck

theorem check_violation_eq_none_iff :
    workflow.check_violation = none ↔
      workflow.created_at ≤ workflow.updated_at ∧ 0 < workflow.version := by
  unfold check_violation
  split
  · next h => simp [Int.not_le.mpr h]
  · next h =>
    split
    · next h' => simp [Int.not_lt.mpr h']
    · next h' => simp [Int.not_lt.mp h, Int.not_le.mp h']

end WorkflowModel

namespace Metadata

variable {db db' : Metadata} {tenant_id : TenantId} {workflow : WorkflowModel}

theorem create_workflow_eq_ok (h : db.create_workflow tenant_id workflow = .ok db') :
    ∃ row workflows, workflow.new_row tenant_id = .ok row ∧
      db.workflows.insert? row = some workflows ∧ db' = { db with workflows } := by
  unfold create_workflow at h
  simp only [bind_eq_ok_iff] at h
  obtain ⟨row, hrow, workflows, hins, h⟩ := h
  cases h
  exact ⟨row, workflows, hrow, insert_row_eq_ok hins, rfl⟩

theorem get_workflow_eq_ok_iff {id : Uuid} {row : WorkflowModel} :
    db.get_workflow tenant_id id = .ok row ↔
      db.workflows.find? id = some row ∧ visible_to tenant_id row.tenant_id = true := by
  have hfind : (db.visible_workflows tenant_id).find? (·.id = id) =
      (db.workflows.find? id).filter fun workflow => visible_to tenant_id workflow.tenant_id :=
    Table.find?_filter db.workflows (fun workflow => visible_to tenant_id workflow.tenant_id) id
  have hfilter := Option.filter_eq_some_iff (o := db.workflows.find? id) (a := row)
    (p := fun workflow => visible_to tenant_id workflow.tenant_id)
  unfold get_workflow fetch
  rw [hfind, ← hfilter]
  cases (db.workflows.find? id).filter fun workflow => visible_to tenant_id workflow.tenant_id with
  | none => simp
  | some row' => simp

/-- A workflow that has been created is found. -/
theorem get_workflow_of_create (h : db.create_workflow tenant_id workflow = .ok db') :
    ∃ row, workflow.new_row tenant_id = .ok row ∧
      db'.get_workflow tenant_id workflow.id = .ok row := by
  obtain ⟨row, workflows, hrow, hins, rfl⟩ := create_workflow_eq_ok h
  obtain ⟨hid, htenant⟩ := WorkflowModel.new_row_eq_ok hrow
  refine ⟨row, hrow, get_workflow_eq_ok_iff.mpr ⟨?_, ?_⟩⟩
  · rw [← hid]
    exact (Table.find?_insert? hins row.id).trans (if_pos rfl)
  · rw [htenant]
    simp [visible_to]

/-- UNIQUE(name, tenant_id, version), at an insertion: the key was free, and is taken now. -/
theorem create_workflow_key (h : db.create_workflow tenant_id workflow = .ok db') :
    ∃ name, varchar 255 workflow.name = .ok name ∧
      (∀ r ∈ db.workflows.rows, r.unique_key ≠ .inl (name, tenant_id, workflow.version)) ∧
      ∃ r ∈ db'.workflows.rows, r.unique_key = .inl (name, tenant_id, workflow.version) := by
  obtain ⟨row, workflows, hrow, hins, rfl⟩ := create_workflow_eq_ok h
  obtain ⟨written, hvalid, -, rfl⟩ := WorkflowModel.new_row_fields hrow
  obtain ⟨-, hname, -, -, -, -, hwritten⟩ := WorkflowModel.validated_fields hvalid
  have hversion : written.version = workflow.version := by rw [hwritten]
  have hkey : { written with tenant_id := some tenant_id }.unique_key =
      .inl (written.name, tenant_id, workflow.version) := by
    rw [← hversion]
    rfl
  refine ⟨written.name, hname, fun r hr hsame => ?_, _, (Table.mem_of_insert? hins).mpr (.inl rfl),
    hkey⟩
  have hnone := Table.insert?_eq_none_iff.mpr ⟨r, hr, .inr (hsame.trans hkey.symm)⟩
  rw [hins] at hnone
  cases hnone

theorem update_workflow_eq_ok_iff :
    db.update_workflow tenant_id workflow = .ok db' ↔
      ∃ written row workflows, workflow.validated = .ok written ∧
        db.workflows.find? workflow.id = some row ∧ visible_to tenant_id row.tenant_id = true ∧
        (row.updated_to written).check_violation = none ∧
        db.workflows.update? (·.id = workflow.id) (·.updated_to written) (fun _ => rfl) =
          some workflows ∧
        db' = { db with workflows } := by
  unfold update_workflow
  simp only [bind_eq_ok_iff]
  constructor
  · intro hrows
    obtain ⟨written, hvalid, workflows, hrow, h⟩ := hrows
    obtain ⟨row, hfound, hshown, hcheck, hupd⟩ := update_row_eq_ok_iff.mp hrow
    rw [WorkflowModel.validated_eq_ok hvalid] at hfound hupd
    cases h
    exact ⟨written, row, workflows, hvalid, hfound, hshown, hcheck, hupd, rfl⟩
  · rintro ⟨written, row, workflows, hvalid, hfound, hshown, hcheck, hupd, rfl⟩
    rw [← WorkflowModel.validated_eq_ok hvalid] at hfound hupd
    exact ⟨written, hvalid, workflows,
      update_row_eq_ok_iff.mpr ⟨row, hfound, hshown, hcheck, hupd⟩, rfl⟩

/-- A row that is read, given a name for its job, and written back. -/
theorem update_workflow_of_get {id : Uuid} {row : WorkflowModel} {job_name : String}
    {now : DateTime} (hget : db.get_workflow tenant_id id = .ok row)
    (hstored : row.validated = .ok row) (hversion : 0 < row.version)
    (hfits : job_name.length ≤ 255) (hnow : row.created_at ≤ now) :
    ∃ db', db.update_workflow tenant_id
        { row with scheduler_job_name := some job_name, updated_at := now } = .ok db' ∧
      ∃ row' ∈ db'.workflows.rows, row'.id = id ∧ row'.scheduler_job_name = some job_name := by
  obtain ⟨hfound, hshown⟩ := get_workflow_eq_ok_iff.mp hget
  have hid := Table.key_of_find? hfound
  obtain ⟨hne, hname, howner, hcron, htimezone, -, -⟩ := WorkflowModel.validated_fields hstored
  have hvalid : WorkflowModel.validated
      { row with scheduler_job_name := some job_name, updated_at := now } =
        .ok { row with scheduler_job_name := some job_name, updated_at := now } :=
    WorkflowModel.validated_of_fields hne hname howner hcron htimezone
      (map_eq_ok_iff.mpr ⟨job_name, varchar_of_length_le hfits, rfl⟩)
  have hupdates : ∃ workflows, db.workflows.update? (·.id = row.id)
      (·.updated_to { row with scheduler_job_name := some job_name, updated_at := now })
      (fun _ => rfl) = some workflows := by
    refine Table.exists_update? fun r hr hkey => ?_
    rw [Table.eq_of_key_eq hr (Table.mem_of_find? hfound) (of_decide_eq_true hkey)]
    rfl
  obtain ⟨workflows, hupd⟩ := hupdates
  refine ⟨{ db with workflows }, update_workflow_eq_ok_iff.mpr
    ⟨_, row, workflows, hvalid, ?_, hshown, ?_, hupd, rfl⟩,
    _, Table.mem_update?_of_mem hupd (Table.mem_of_find? hfound), ?_⟩
  · rw [← hid] at hfound
    exact hfound
  · exact WorkflowModel.check_violation_eq_none_iff.mpr ⟨hnow, hversion⟩
  · rw [if_pos (decide_eq_true rfl)]
    exact ⟨hid, rfl⟩

/-- `workflows_version_positive`, at an update. -/
theorem update_workflow_version (h : db.update_workflow tenant_id workflow = .ok db') :
    0 < workflow.version := by
  obtain ⟨written, row, -, hvalid, -, -, hcheck, -⟩ := update_workflow_eq_ok_iff.mp h
  have hversion : (row.updated_to written).version = workflow.version := by
    rw [(WorkflowModel.validated_fields hvalid).2.2.2.2.2.2]
    rfl
  rw [← hversion]
  exact (WorkflowModel.check_violation_eq_none_iff.mp hcheck).2

end Metadata

end Servo
