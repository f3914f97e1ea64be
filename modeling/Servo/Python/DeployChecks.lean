import Servo.Python.CheckRegistry

/-! # The Deployment of Checks

    `deploy_checks` takes the checks of one asset after the other to the server.
    A check that the server has already is skipped. After any other error of
    the server all checks of the asset are skipped, also those that it has just
    created.

    So every check is listed once, under what has become of it, exactly if no
    such error comes after another check of its asset.
-/

namespace Servo.Python

variable {F : Type}

/-! ### The client -/

/-- An exception out of the client: a `ServoAPIError` with its status code, or any other. -/
inductive ClientError where
  | api (status_code : Option Nat)
  | other
  deriving DecidableEq

/-- The answers of the server. No call is made twice, so a function has an answer for each. -/
structure Client (F : Type) where
  /-- The field `id` of the asset of this name. -/
  get_asset : String → Except ClientError (Option String)
  create_check : String → RegisteredCheck F → Except ClientError Unit

namespace Client

variable (client : Client F)

/-- The id of an asset that the server knows. An empty id is none. -/
def asset_id (asset : String) : Option String :=
  match client.get_asset asset with
  | .ok id => id.filter fun id => id ≠ ""
  | .error _ => none

/-- The server creates the check, or has it already. -/
def Answers (asset_id : String) (c : RegisteredCheck F) : Prop :=
  client.create_check asset_id c = .ok () ∨
    client.create_check asset_id c = .error (.api (some 409))

/-- The server has the asset, and answers to the check with an error that is not a conflict. -/
def Refuses (c : RegisteredCheck F) : Prop :=
  ∃ id status_code, client.asset_id c.asset_name = some id ∧
    client.create_check id c = .error (.api status_code) ∧ status_code ≠ some 409

end Client

/-! ### The deployment -/

/-- The lists of results, and the calls of `create_check` with their answers. -/
structure CheckDeployment (F : Type) where
  created : List String
  updated : List String
  skipped : List String
  calls : List (RegisteredCheck F × Except ClientError Unit)

namespace CheckDeployment

def empty : CheckDeployment F := ⟨[], [], [], []⟩

variable (d : CheckDeployment F)

def create (name : String) : CheckDeployment F := { d with created := d.created ++ [name] }

def skip (name : String) : CheckDeployment F := { d with skipped := d.skipped ++ [name] }

def skip_all (checks : List (RegisteredCheck F)) : CheckDeployment F :=
  checks.foldl (fun d c => d.skip c.name) d

def call (c : RegisteredCheck F) (answer : Except ClientError Unit) : CheckDeployment F :=
  { d with calls := d.calls ++ [(c, answer)] }

/-- All that is listed. -/
def names : List String := d.created ++ d.updated ++ d.skipped

end CheckDeployment

section deploy

variable (client : Client F)

/-- The checks of an asset, up to the first error that is not a conflict. -/
def create_checks (asset_id : String) :
    List (RegisteredCheck F) → CheckDeployment F → CheckDeployment F × Except ClientError Unit
  | [], d => (d, .ok ())
  | c :: checks, d =>
    let answer := client.create_check asset_id c
    let d := d.call c answer
    match answer with
    | .ok () => create_checks asset_id checks (d.create c.name)
    | .error (.api (some 409)) => create_checks asset_id checks (d.skip c.name)
    | .error e => (d, .error e)

/-- The checks of an asset. The outer handler takes errors of the server, and no others. -/
def deploy_asset (d : CheckDeployment F) (group : String × List (RegisteredCheck F)) :
    Except ClientError (CheckDeployment F) :=
  match client.get_asset group.1 with
  | .error (.api _) => .ok (d.skip_all group.2)
  | .error .other => .error .other
  | .ok id =>
    match id.filter fun id => id ≠ "" with
    | none => .ok (d.skip_all group.2)
    | some asset_id =>
      match create_checks client asset_id group.2 d with
      | (d, .ok ()) => .ok d
      | (d, .error (.api _)) => .ok (d.skip_all group.2)
      | (_, .error .other) => .error .other

/-- The checks that are deployed: those of an asset, or all if no name is given. -/
def checks_to_deploy (registry : CheckRegistry F) (asset_name : Option String) :
    List (RegisteredCheck F) :=
  match asset_name.filter fun name => name ≠ "" with
  | some name => registry.get_checks_for_asset name
  | none => registry.checks

def deploy_checks (registry : CheckRegistry F) (asset_name : Option String) :
    Except ClientError (CheckDeployment F) :=
  (Grouping.group_by (·.asset_name) (checks_to_deploy registry asset_name)).foldlM
    (deploy_asset client) .empty

end deploy

/-! ### What a step lists -/

namespace CheckDeployment

/-- The checks that the server has created. -/
def accepted (d : CheckDeployment F) : List (RegisteredCheck F) :=
  d.calls.filterMap fun call => call.2.toOption.map fun _ => call.1

/-- What is created is what the server has created, out of these checks. -/
structure Booked (checks : List (RegisteredCheck F)) (d : CheckDeployment F) : Prop where
  updated : d.updated = []
  created : d.created = d.accepted.map (·.name)
  called : ∀ call ∈ d.calls, call.1 ∈ checks

/-- From one deployment to another these names have been listed. -/
structure Extends (checks : List (RegisteredCheck F)) (d d' : CheckDeployment F)
    (listed : List (RegisteredCheck F)) : Prop where
  names : d'.names.Perm (d.names ++ listed.map (·.name))
  booked : d.Booked checks → d'.Booked checks

variable {checks : List (RegisteredCheck F)} {d d' d'' : CheckDeployment F}

theorem Extends.refl (checks : List (RegisteredCheck F)) (d : CheckDeployment F) :
    Extends checks d d [] := ⟨by simp, id⟩

theorem Extends.trans {listed listed' : List (RegisteredCheck F)}
    (h : Extends checks d d' listed) (h' : Extends checks d' d'' listed') :
    Extends checks d d'' (listed ++ listed') := by
  refine ⟨?_, fun hd => h'.booked (h.booked hd)⟩
  rw [List.map_append, ← List.append_assoc]
  exact h'.names.trans (h.names.append_right _)

theorem Extends.perm {listed listed' : List (RegisteredCheck F)} (h : Extends checks d d' listed)
    (hperm : listed.Perm listed') : Extends checks d d' listed' :=
  ⟨h.names.trans ((hperm.map _).append_left _), h.booked⟩

theorem names_create_perm (d : CheckDeployment F) (name : String) :
    (d.create name).names.Perm (d.names ++ [name]) := by
  unfold names create
  simp only [List.append_assoc]
  apply List.Perm.append_left
  rw [← List.append_assoc d.updated]
  exact List.perm_append_comm

theorem extends_skip (c : RegisteredCheck F) : Extends checks d (d.skip c.name) [c] := by
  refine ⟨?_, fun hd => ⟨hd.updated, hd.created, hd.called⟩⟩
  unfold names skip
  simp

theorem extends_skip_all (skipped : List (RegisteredCheck F)) :
    Extends checks d (d.skip_all skipped) skipped := by
  induction skipped generalizing d with
  | nil => exact .refl checks d
  | cons c skipped ih => exact (extends_skip c).trans ih

/-- A call that has been answered with an error. -/
theorem extends_call_error {c : RegisteredCheck F} (hc : c ∈ checks) (e : ClientError) :
    Extends checks d (d.call c (.error e)) [] := by
  refine ⟨by simp [names, call], fun hd => ⟨hd.updated, ?_, ?_⟩⟩
  · unfold call accepted
    rw [List.filterMap_append, List.map_append]
    simpa [accepted, Except.toOption] using hd.created
  · intro answered hanswered
    rcases List.mem_append.mp hanswered with hbefore | hlast
    · exact hd.called answered hbefore
    · rw [List.mem_singleton.mp hlast]
      exact hc

theorem extends_create {c : RegisteredCheck F} (hc : c ∈ checks) :
    Extends checks d ((d.call c (.ok ())).create c.name) [c] := by
  refine ⟨names_create_perm _ _, fun hd => ⟨hd.updated, ?_, ?_⟩⟩
  · unfold create call accepted
    rw [List.filterMap_append, List.map_append, hd.created]
    rfl
  · intro answered hanswered
    rcases List.mem_append.mp hanswered with hbefore | hlast
    · exact hd.called answered hbefore
    · rw [List.mem_singleton.mp hlast]
      exact hc

end CheckDeployment

section steps

open CheckDeployment

variable {client : Client F} {all : List (RegisteredCheck F)}

/-- What `create_checks` does: the server answers to every check, or to those `before` the first
    error that is no conflict. -/
inductive Outcome (client : Client F) (asset_id : String) (all : List (RegisteredCheck F))
    (d : CheckDeployment F) :
    List (RegisteredCheck F) → CheckDeployment F × Except ClientError Unit → Prop where
  | completed {checks d'} (answers : ∀ c ∈ checks, client.Answers asset_id c)
      (listed : Extends all d d' checks) : Outcome client asset_id all d checks (d', .ok ())
  | broken_off {before c after d' e} (answers : ∀ c ∈ before, client.Answers asset_id c)
      (error : client.create_check asset_id c = .error e) (no_conflict : e ≠ .api (some 409))
      (listed : Extends all d d' before) :
      Outcome client asset_id all d (before ++ c :: after) (d', .error e)

/-- The server answers to one more check before. -/
theorem Outcome.cons {asset_id : String} {c : RegisteredCheck F}
    {checks : List (RegisteredCheck F)} {d d' : CheckDeployment F}
    {outcome : CheckDeployment F × Except ClientError Unit} (hanswers : client.Answers asset_id c)
    (hlisted : Extends all d d' [c]) (h : Outcome client asset_id all d' checks outcome) :
    Outcome client asset_id all d (c :: checks) outcome := by
  have hcons : ∀ {checks : List (RegisteredCheck F)},
      (∀ c ∈ checks, client.Answers asset_id c) →
        ∀ answered ∈ c :: checks, client.Answers asset_id answered := by
    intro checks hchecks answered h
    rcases List.mem_cons.mp h with rfl | h
    · exact hanswers
    · exact hchecks answered h
  cases h with
  | completed answers listed => exact .completed (hcons answers) (hlisted.trans listed)
  | broken_off answers error no_conflict listed =>
    exact .broken_off (hcons answers) error no_conflict (hlisted.trans listed)

theorem create_checks_outcome (asset_id : String) {checks : List (RegisteredCheck F)}
    (hall : ∀ c ∈ checks, c ∈ all) (d : CheckDeployment F) :
    Outcome client asset_id all d checks (create_checks client asset_id checks d) := by
  induction checks generalizing d with
  | nil => exact .completed (by simp) (.refl all d)
  | cons c checks ih =>
    have hc : c ∈ all := hall c List.mem_cons_self
    have hrest : ∀ c ∈ checks, c ∈ all := fun c h => hall c (List.mem_cons_of_mem _ h)
    unfold create_checks
    dsimp only
    split
    · next hanswer =>
      rw [hanswer]
      exact .cons (.inl hanswer) (extends_create hc) (ih hrest _)
    · next hanswer =>
      rw [hanswer]
      have hlisted := (extends_call_error (d := d) hc (.api (some 409))).trans (extends_skip c)
      exact .cons (.inr hanswer) hlisted (ih hrest _)
    · next e hconflict hanswer =>
      rw [hanswer]
      exact @Outcome.broken_off _ _ _ _ _ [] _ _ _ _ (by simp) hanswer (fun h => hconflict h)
        (extends_call_error hc e)

/-! ### Assets whose checks are listed once -/

/-- If the server refuses a check of an asset, then it refuses the first. -/
def RefusedFirst (client : Client F) (checks : List (RegisteredCheck F)) : Prop :=
  ∀ c ∈ checks, client.Refuses c → ∃ first, checks.head? = some first ∧ client.Refuses first

theorem not_refuses_of_answers {asset_id : String} {c : RegisteredCheck F}
    (hid : client.asset_id c.asset_name = some asset_id) (h : client.Answers asset_id c) :
    ¬ client.Refuses c := by
  intro hrefuses
  obtain ⟨id, status_code, hid', herror, hstatus⟩ := hrefuses
  cases hid.symm.trans hid'
  rcases h with h | h
  · cases h.symm.trans herror
  · cases h.symm.trans herror
    exact hstatus rfl

theorem not_refuses_of_no_id {c : RegisteredCheck F} (h : client.asset_id c.asset_name = none) :
    ¬ client.Refuses c := by
  intro hrefuses
  obtain ⟨id, status_code, hid, -⟩ := hrefuses
  cases h.symm.trans hid

/-- The checks of an asset are listed, and `again` once more. -/
theorem deploy_asset_lists {d d' : CheckDeployment F} {asset : String}
    {checks : List (RegisteredCheck F)} (hall : ∀ c ∈ checks, c ∈ all)
    (hasset : ∀ c ∈ checks, c.asset_name = asset)
    (h : deploy_asset client d (asset, checks) = .ok d') :
    ∃ again, Extends all d d' (again ++ checks) ∧ (again = [] ↔ RefusedFirst client checks) := by
  have hskipped : (∀ c ∈ checks, ¬ client.Refuses c) → Extends all d d' checks →
      ∃ again, Extends all d d' (again ++ checks) ∧
        (again = [] ↔ RefusedFirst client checks) :=
    fun hanswers hlisted =>
      ⟨[], hlisted, iff_of_true rfl fun c hc hrefuses => absurd hrefuses (hanswers c hc)⟩
  unfold deploy_asset at h
  dsimp only at h
  cases hget : client.get_asset asset with
  | error e =>
    have hnone : ∀ c ∈ checks, ¬ client.Refuses c := by
      intro c hc
      apply not_refuses_of_no_id
      rw [hasset c hc]
      simp only [Client.asset_id, hget]
    rw [hget] at h
    cases e with
    | api status_code =>
      cases h
      exact hskipped hnone (extends_skip_all checks)
    | other => cases h
  | ok id =>
    have hid : client.asset_id asset = id.filter fun id => id ≠ "" := by
      simp only [Client.asset_id, hget]
    rw [hget] at h
    dsimp only at h
    rw [← hid] at h
    cases hasset_id : client.asset_id asset with
    | none =>
      rw [hasset_id] at h
      cases h
      exact hskipped (fun c hc => not_refuses_of_no_id (hasset c hc ▸ hasset_id))
        (extends_skip_all checks)
    | some asset_id =>
      have hanswered : ∀ {c}, c ∈ checks → client.Answers asset_id c → ¬ client.Refuses c :=
        fun hc => not_refuses_of_answers (hasset _ hc ▸ hasset_id)
      rw [hasset_id] at h
      dsimp only at h
      have houtcome := @create_checks_outcome F client all asset_id checks hall d
      generalize create_checks client asset_id checks d = outcome at h houtcome
      cases houtcome with
      | completed answers listed =>
        cases h
        exact hskipped (fun c hc => hanswered hc (answers c hc)) listed
      | broken_off answers error no_conflict listed =>
        rename_i before c after d₁ e
        cases e with
        | other => cases h
        | api status_code =>
          cases h
          have hc : c ∈ before ++ c :: after := by simp
          have hrefuses : client.Refuses c :=
            ⟨asset_id, status_code, hasset c hc ▸ hasset_id, error, fun h => no_conflict (h ▸ rfl)⟩
          refine ⟨before, listed.trans (extends_skip_all _), ?_⟩
          cases before with
          | nil => exact iff_of_true rfl fun _ _ _ => ⟨c, rfl, hrefuses⟩
          | cons first before =>
            refine iff_of_false (by simp) ?_
            intro hfirst
            obtain ⟨first', hhead, hrefuses'⟩ := hfirst c hc hrefuses
            cases hhead
            exact hanswered List.mem_cons_self (answers first List.mem_cons_self) hrefuses'

/-- The same for all assets, one after the other. -/
theorem deploy_assets_list {groups : List (String × List (RegisteredCheck F))}
    {d d' : CheckDeployment F}
    (hgroups : ∀ group ∈ groups, ∀ c ∈ group.2, c ∈ all ∧ c.asset_name = group.1)
    (h : groups.foldlM (deploy_asset client) d = .ok d') :
    ∃ again, Extends all d d' (again ++ groups.flatMap (·.2)) ∧
      (again = [] ↔ ∀ group ∈ groups, RefusedFirst client group.2) := by
  induction groups generalizing d with
  | nil =>
    cases h
    exact ⟨[], .refl all _, iff_of_true rfl (by simp)⟩
  | cons group groups ih =>
    obtain ⟨asset, checks⟩ := group
    rw [List.foldlM_cons] at h
    obtain ⟨d₁, hasset, hrest⟩ := Fallible.bind_eq_ok_iff.mp h
    have hown := hgroups (asset, checks) List.mem_cons_self
    obtain ⟨again, hlisted, hagain⟩ :=
      deploy_asset_lists (fun c hc => (hown c hc).1) (fun c hc => (hown c hc).2) hasset
    obtain ⟨again', hlisted', hagain'⟩ :=
      ih (fun group hgroup => hgroups group (List.mem_cons_of_mem _ hgroup)) hrest
    refine ⟨again ++ again', (hlisted.trans hlisted').perm ?_, ?_⟩
    · rw [List.flatMap_cons]
      simp only [List.append_assoc]
      apply List.Perm.append_left
      rw [← List.append_assoc, ← List.append_assoc]
      exact List.perm_append_comm.append_right _
    · rw [List.append_eq_nil_iff, hagain, hagain', List.forall_mem_cons]

end steps

/-! ### Accounts -/

/-- Every check is listed once, and as created or updated if the server has accepted it. -/
structure Accounted (checks : List (RegisteredCheck F)) (d : CheckDeployment F) : Prop where
  once : (d.created ++ d.updated ++ d.skipped).Perm (checks.map (·.name))
  accepted : ∀ c ∈ checks, c.name ∈ d.created ++ d.updated ↔ (c, .ok ()) ∈ d.calls

/-- No name is on two lists, or twice on one. -/
theorem Accounted.nodup {checks : List (RegisteredCheck F)} {d : CheckDeployment F}
    (h : Accounted checks d) (hnames : (checks.map (·.name)).Nodup) :
    (d.created ++ d.updated ++ d.skipped).Nodup :=
  h.once.nodup_iff.mpr hnames

theorem mem_accepted {d : CheckDeployment F} {c : RegisteredCheck F} :
    c ∈ d.accepted ↔ (c, .ok ()) ∈ d.calls := by
  unfold CheckDeployment.accepted
  rw [List.mem_filterMap]
  constructor
  · intro h
    obtain ⟨⟨c', answer⟩, hcall, hanswer⟩ := h
    cases answer with
    | error e => cases hanswer
    | ok done =>
      cases hanswer
      exact hcall
  · intro h
    exact ⟨(c, .ok ()), h, rfl⟩

/-- A check is listed as created exactly if the server has created it. -/
theorem CheckDeployment.Booked.accepted {checks : List (RegisteredCheck F)} {d : CheckDeployment F}
    (h : d.Booked checks) (hnames : (checks.map (·.name)).Nodup) {c : RegisteredCheck F}
    (hc : c ∈ checks) : c.name ∈ d.created ++ d.updated ↔ (c, .ok ()) ∈ d.calls := by
  rw [h.updated, List.append_nil, h.created, ← mem_accepted, List.mem_map]
  constructor
  · intro hmem
    obtain ⟨c', haccepted, hname⟩ := hmem
    have hc' : c' ∈ checks := h.called _ (mem_accepted.mp haccepted)
    rwa [← List.inj_on_of_nodup_map hnames hc' hc hname]
  · intro hmem
    exact ⟨c, hmem, rfl⟩

theorem checks_to_deploy_sublist (registry : CheckRegistry F) (asset_name : Option String) :
    (checks_to_deploy registry asset_name).Sublist registry.checks := by
  unfold checks_to_deploy
  split
  · rw [CheckRegistry.get_checks_for_asset_eq]
    exact List.filter_sublist
  · exact .refl _

theorem nodup_checks_to_deploy (registry : CheckRegistry F) (asset_name : Option String) :
    ((checks_to_deploy registry asset_name).map (·.name)).Nodup :=
  registry.names_nodup.sublist ((checks_to_deploy_sublist registry asset_name).map _)

section accounts

variable {client : Client F}

/-- The groups of a deployment hold its checks, each under its asset. -/
theorem mem_group {checks : List (RegisteredCheck F)}
    {group : String × List (RegisteredCheck F)}
    (h : group ∈ Grouping.group_by (·.asset_name) checks) {c : RegisteredCheck F}
    (hc : c ∈ group.2) : c ∈ checks ∧ c.asset_name = group.1 := by
  rw [Grouping.eq_filter_of_mem_group_by h] at hc
  simpa using List.mem_filter.mp hc

theorem refused_first_groups {checks : List (RegisteredCheck F)} :
    (∀ group ∈ Grouping.group_by (·.asset_name) checks, RefusedFirst client group.2) ↔
      ∀ asset, RefusedFirst client (checks.filter fun c => c.asset_name = asset) := by
  constructor
  · intro h asset c hc
    obtain ⟨hmem, hasset⟩ := List.mem_filter.mp hc
    obtain ⟨group, hgroup, hc'⟩ := List.mem_flatMap.mp
      ((Grouping.perm_group_by (·.asset_name) checks).mem_iff.mpr hmem)
    have hgroup_asset : group.1 = asset :=
      (mem_group hgroup hc').2.symm.trans (by simpa using hasset)
    have hfirst := h group hgroup
    rw [Grouping.eq_filter_of_mem_group_by hgroup, hgroup_asset] at hfirst
    exact hfirst c hc
  · intro h group hgroup
    rw [Grouping.eq_filter_of_mem_group_by hgroup]
    exact h group.1

/-- A deployment accounts for every check once exactly if the server refuses, of each asset of
    which it refuses a check, also the first check. -/
theorem deployment_accounted_iff {registry : CheckRegistry F} {asset_name : Option String}
    {d : CheckDeployment F} (h : deploy_checks client registry asset_name = .ok d) :
    Accounted (checks_to_deploy registry asset_name) d ↔
      ∀ asset, RefusedFirst client
        ((checks_to_deploy registry asset_name).filter fun c => c.asset_name = asset) := by
  have hnames := nodup_checks_to_deploy registry asset_name
  unfold deploy_checks at h
  generalize checks_to_deploy registry asset_name = checks at h hnames ⊢
  obtain ⟨again, hlisted, hagain⟩ := deploy_assets_list (fun group h c => mem_group h) h
  rw [← refused_first_groups, ← hagain]
  have hbooked : d.Booked checks := hlisted.booked ⟨rfl, rfl, by simp [CheckDeployment.empty]⟩
  have hperm : (d.created ++ d.updated ++ d.skipped).Perm ((again ++ checks).map (·.name)) :=
    (hlisted.perm ((Grouping.perm_group_by _ checks).append_left again)).names
  constructor
  · intro haccounted
    have hlength := (haccounted.once.symm.trans hperm).length_eq
    rw [List.length_map, List.length_map, List.length_append] at hlength
    exact List.length_eq_zero_iff.mp (by omega)
  · intro hnone
    subst hnone
    exact ⟨hperm, fun c hc => hbooked.accepted hnames hc⟩

end accounts

/-- `@check.unique("id")` over `@check.not_null("id")` over `customers`. -/
def id_checks : AssetSource Int :=
  { customers with
    above := [⟨.not_null "id", .Error, true, none⟩, ⟨.unique "id", .Error, true, none⟩] }

/-- The registry with these checks. -/
def id_registry : CheckRegistry Int where
  checks := id_checks.definitions (fun _ => "") "customers"
  asset_checks := [("customers", ["not_null_id", "unique_id"])]
  names_nodup := by decide
  listed := by
    intro asset
    rw [List.lookup_cons]
    by_cases hasset : asset = "customers"
    · subst hasset
      rfl
    · rw [beq_false_of_ne hasset]
      simp [id_checks, customers, AssetSource.definitions, AssetSource.checks,
        CheckDecorator.definition, Ne.symm hasset]

/-- A server that creates every check but `unique_id`, to which it answers with this status. -/
def id_client (status_code : Nat) : Client Int where
  get_asset _ := .ok (some "1")
  create_check _ c :=
    if c.name = "unique_id" then .error (.api (some status_code)) else .ok ()

theorem conflict_accounted : ∃ d, deploy_checks (id_client 409) id_registry none = .ok d ∧
    Accounted (checks_to_deploy id_registry none) d := by
  have hrefuses : ∀ c, ¬ (id_client 409).Refuses c := by
    intro c hrefuses
    obtain ⟨id, status_code, -, herror, hstatus⟩ := hrefuses
    simp only [id_client] at herror
    split at herror
    · cases herror
      exact hstatus rfl
    · cases herror
  have hdeployed : deploy_checks (id_client 409) id_registry none = .ok _ := rfl
  refine ⟨_, hdeployed, (deployment_accounted_iff hdeployed).mpr ?_⟩
  intro asset c hc h
  exact absurd h (hrefuses c)

/-- After an error of the server a check that has been created is skipped. -/
theorem created_check_skipped : ∃ d, deploy_checks (id_client 500) id_registry none = .ok d ∧
    d.created = ["not_null_id"] ∧ d.skipped = ["not_null_id", "unique_id"] ∧
    ¬ Accounted (checks_to_deploy id_registry none) d := by
  refine ⟨_, rfl, rfl, rfl, ?_⟩
  intro haccounted
  exact absurd haccounted.once.length_eq (by decide)

end Servo.Python
