import Servo.CloudGcp.Scheduler

/-! # Jobs After a Request

    What `create_or_update_job` leaves of the jobs: on success, one job for
    the workflow under the name returned, and no others that were not there;
    on failure no change, unless a request was carried out whose answer did
    not arrive.
-/

namespace Servo

open Procedure

/-- The job calls the worker for this workflow. -/
def SchedulerJob.Triggers (job : SchedulerJob) (workflow_id : Uuid) : Prop :=
  ∃ worker_url, job.http_target.uri =
    worker_url ++ "/api/v1/workflows/" ++ workflow_id.to_string ++ "/execute"

namespace SchedulerJobs

variable {service : CloudScheduler} {job : SchedulerJob} {path name : String}
  {jobs : SchedulerJobs} {status : Nat}

theorem post_success (h : (post service job jobs).1 = .success name) :
    service.filed_as job.name = some name ∧
      (post service job jobs).2 = { job with name } :: jobs := by
  unfold post at h ⊢
  cases hfiled : service.filed_as job.name with
  | none =>
    rw [hfiled] at h
    cases h
  | some filed =>
    simp only [hfiled] at h ⊢
    split at h
    · cases h
    · next hfree =>
      cases h
      rw [if_neg hfree]
      exact ⟨rfl, rfl⟩

theorem post_failure (h : (post service job jobs).1 = .failure status) :
    (post service job jobs).2 = jobs := by
  unfold post at h ⊢
  cases hfiled : service.filed_as job.name with
  | none => rfl
  | some filed =>
    simp only [hfiled] at h ⊢
    split at h
    · next htaken => rw [if_pos htaken]
    · cases h

theorem get_jobs (path : String) (jobs : SchedulerJobs) : (get path jobs).2 = jobs := by
  unfold get
  split <;> rfl

theorem patch_success (h : (patch path job jobs).1 = .success name) :
    name = path ∧ ∀ j ∈ (patch path job jobs).2, j = { job with name := path } ∨ j ∈ jobs := by
  unfold patch at h ⊢
  split at h
  · next hfound =>
    cases h
    rw [if_pos hfound]
    refine ⟨rfl, fun j hj => ?_⟩
    obtain ⟨j', hj', heq⟩ := List.mem_map.mp hj
    split at heq
    · exact .inl heq.symm
    · subst heq
      exact .inr hj'
  · cases h

theorem patch_failure (h : (patch path job jobs).1 = .failure status) :
    (patch path job jobs).2 = jobs := by
  unfold patch at h ⊢
  split at h
  · cases h
  · next hmissing => rw [if_neg hmissing]

end SchedulerJobs

namespace CloudSchedulerManager

variable {manager : CloudSchedulerManager} {network : Network} {workflow_id : Uuid}
  {tenant_id : String} {schedule : ScheduleConfig} {r r' : Remote SchedulerJobs}
  {answer : SchedulerJobs → Response × SchedulerJobs} {name : String} {e : GcpError}

theorem send_eq_ok_iff {response : Response} :
    send network answer r = (.ok response, r') ↔
      network.faults r.calls = none ∧ response = (answer r.state).1 ∧
        r' = ⟨(answer r.state).2, r.calls + 1⟩ := call_total_eq_ok_iff

/-- A request that fails changes nothing, unless it was carried out. -/
theorem send_eq_error (hlost : ∀ fault, network.faults r.calls = some fault →
    fault.carried_out = false) (h : send network answer r = (.error e, r')) :
    r' = ⟨r.state, r.calls + 1⟩ := by
  obtain ⟨fault, hfault, rfl⟩ := call_total_eq_error h
  rw [hlost fault hfault]
  rfl

/-! ### Success -/

theorem create_job_eq_ok
    (h : manager.create_job network workflow_id tenant_id schedule r = (.ok name, r')) :
    network.faults r.calls = none ∧
      network.service.filed_as (manager.requested_name workflow_id tenant_id) = some name ∧
      r'.state = { manager.job (manager.requested_name workflow_id tenant_id) workflow_id tenant_id
        schedule with name } :: r.state := by
  obtain ⟨response, r₁, hsend, h⟩ := bind_eq_ok_iff.mp h
  obtain ⟨hfault, hresponse, rfl⟩ := send_eq_ok_iff.mp hsend
  cases response with
  | success name' =>
    obtain ⟨rfl, rfl⟩ := pure_eq_iff.mp h
    exact ⟨hfault, SchedulerJobs.post_success hresponse.symm⟩
  | failure status => cases h

theorem update_job_eq_ok
    (h : manager.update_job network workflow_id tenant_id schedule r = (.ok name, r')) :
    network.faults r.calls = none ∧ name = manager.full_job_path workflow_id tenant_id ∧
      ∀ j ∈ r'.state, j = manager.job (manager.full_job_path workflow_id tenant_id) workflow_id
        tenant_id schedule ∨ j ∈ r.state := by
  obtain ⟨response, r₁, hsend, h⟩ := bind_eq_ok_iff.mp h
  obtain ⟨hfault, hresponse, rfl⟩ := send_eq_ok_iff.mp hsend
  cases response with
  | success name' =>
    obtain ⟨rfl, rfl⟩ := pure_eq_iff.mp h
    exact ⟨hfault, SchedulerJobs.patch_success hresponse.symm⟩
  | failure status => cases h

/-- Whether it succeeds or not, `get_job` changes nothing. -/
theorem get_job_snd (manager : CloudSchedulerManager) (network : Network) (workflow_id : Uuid)
    (tenant_id : String) (r : Remote SchedulerJobs) :
    (manager.get_job network workflow_id tenant_id r).2 = ⟨r.state, r.calls + 1⟩ := by
  have hsend : (send network
      (SchedulerJobs.get (manager.full_job_path workflow_id tenant_id)) r).2 =
        ⟨r.state, r.calls + 1⟩ := call_total_snd (SchedulerJobs.get_jobs _ r.state)
  rw [← hsend]
  unfold get_job
  rcases hres :
    send network (SchedulerJobs.get (manager.full_job_path workflow_id tenant_id)) r with
    ⟨e | response, r₁⟩
  · rw [bind_apply_error hres]
  · rw [bind_apply_ok hres]
    cases response with
    | success name => rfl
    | failure status =>
      by_cases hmissing : status = 404
      · simp only [if_pos hmissing]
        rfl
      · simp only [if_neg hmissing]
        rfl

theorem get_job_unfaulted {found : Option String}
    (h : manager.get_job network workflow_id tenant_id r = (.ok found, r')) :
    network.faults r.calls = none := by
  obtain ⟨response, r₁, hsend, -⟩ := bind_eq_ok_iff.mp h
  exact (send_eq_ok_iff.mp hsend).1

/-- One job of the workflow, under the name returned, and no other that is new. -/
theorem create_or_update_job_eq_ok
    (h : manager.create_or_update_job network workflow_id tenant_id schedule r = (.ok name, r')) :
    network.faults r.calls = none ∧ network.faults (r.calls + 1) = none ∧
      (network.service.filed_as (manager.requested_name workflow_id tenant_id) = some name ∨
        name = manager.full_job_path workflow_id tenant_id) ∧
      ∃ job : SchedulerJob, job.name = name ∧ job.Triggers workflow_id ∧
        ∀ j ∈ r'.state, j = job ∨ j ∈ r.state := by
  obtain ⟨found, r₁, hget, h⟩ := bind_eq_ok_iff.mp h
  have hsame := manager.get_job_snd network workflow_id tenant_id r
  rw [hget] at hsame
  subst hsame
  have hfirst := get_job_unfaulted hget
  cases found with
  | some path =>
    obtain ⟨hsecond, hname, hjobs⟩ := update_job_eq_ok h
    exact ⟨hfirst, hsecond, .inr hname,
      manager.job (manager.full_job_path workflow_id tenant_id) workflow_id tenant_id schedule,
      hname.symm, ⟨manager.worker_url, rfl⟩, hjobs⟩
  | none =>
    obtain ⟨hsecond, hfiled, hjobs⟩ := create_job_eq_ok h
    refine ⟨hfirst, hsecond, .inl hfiled,
      { manager.job (manager.requested_name workflow_id tenant_id) workflow_id tenant_id schedule
        with name }, rfl, ⟨manager.worker_url, rfl⟩, fun j hj => ?_⟩
    rw [hjobs] at hj
    exact List.mem_cons.mp hj

/-! ### Failure -/

theorem create_job_eq_error (hlost : ∀ fault, network.faults r.calls = some fault →
    fault.carried_out = false)
    (h : manager.create_job network workflow_id tenant_id schedule r = (.error e, r')) :
    r'.state = r.state := by
  rcases bind_eq_error_iff.mp h with hsend | ⟨response, r₁, hsend, h⟩
  · rw [send_eq_error hlost hsend]
  · obtain ⟨-, hresponse, rfl⟩ := send_eq_ok_iff.mp hsend
    cases response with
    | success name => cases h
    | failure status =>
      obtain ⟨-, rfl⟩ := lift_eq_error_iff.mp h
      exact SchedulerJobs.post_failure hresponse.symm

theorem update_job_eq_error (hlost : ∀ fault, network.faults r.calls = some fault →
    fault.carried_out = false)
    (h : manager.update_job network workflow_id tenant_id schedule r = (.error e, r')) :
    r'.state = r.state := by
  rcases bind_eq_error_iff.mp h with hsend | ⟨response, r₁, hsend, h⟩
  · rw [send_eq_error hlost hsend]
  · obtain ⟨-, hresponse, rfl⟩ := send_eq_ok_iff.mp hsend
    cases response with
    | success name => cases h
    | failure status =>
      obtain ⟨-, rfl⟩ := lift_eq_error_iff.mp h
      exact SchedulerJobs.patch_failure hresponse.symm

/-- The request after the lookup is the one that may be lost. -/
theorem create_or_update_job_eq_error
    (hlost : network.faults r.calls = none → ∀ fault, network.faults (r.calls + 1) = some fault →
      fault.carried_out = false)
    (h : manager.create_or_update_job network workflow_id tenant_id schedule r = (.error e, r')) :
    r'.state = r.state := by
  have hsame := manager.get_job_snd network workflow_id tenant_id r
  rcases bind_eq_error_iff.mp h with hget | ⟨found, r₁, hget, h⟩
  · rw [hget] at hsame
    have hstate : r'.state = (⟨r.state, r.calls + 1⟩ : Remote SchedulerJobs).state := by
      rw [← hsame]
    exact hstate
  · have hfirst := get_job_unfaulted hget
    rw [hget] at hsame
    subst hsame
    cases found with
    | some path => exact update_job_eq_error (r := ⟨r.state, r.calls + 1⟩) (hlost hfirst) h
    | none => exact create_job_eq_error (r := ⟨r.state, r.calls + 1⟩) (hlost hfirst) h

end CloudSchedulerManager

end Servo
