/-! # Labelled Transition Systems with Executable Steps

    A system is an initial-state predicate together with a guarded step
    function: `next s l` is `some s'` when the label `l` is enabled in `s`.
    The same function serves two purposes:

    * **proof**: `Run` is the inductive type of finite executions, and
      `Run.invariant`, `Run.history_invariant` and `Run.along_invariant`
      are the three induction rules used for safety properties;
    * **replay**: `System.replay` executes a list of labels, so that a
      concrete schedule can be evaluated and turned into a `Run`.

    A run carries its history as a list of steps, the newest first. The
    tail of the list is the past of its head, which is what properties of
    the form "if this happens now then that happened before" talk about.
-/

namespace LTS

universe u v

variable {State : Type u} {Label : Type v}

/-! ### Systems and steps -/

/-- A labelled transition system with an executable step function. -/
structure System (State : Type u) (Label : Type v) where
  init : State → Prop
  next : State → Label → Option State

/-- One step of an execution: the state before, the label, the state after. -/
structure Step (State : Type u) (Label : Type v) where
  pre : State
  label : Label
  post : State

/-! ### Runs -/

/-- `Run sys tr s`: the system can reach `s` by the steps of `tr`
    (newest first). -/
inductive Run (sys : System State Label) : List (Step State Label) → State → Prop where
  | init {s : State} (h : sys.init s) : Run sys [] s
  | step {tr : List (Step State Label)} {s s' : State} (l : Label)
      (h : Run sys tr s) (hs : sys.next s l = some s') : Run sys (⟨s, l, s'⟩ :: tr) s'

/-- A state is reachable if some run ends in it. -/
def Reachable (sys : System State Label) (s : State) : Prop := ∃ tr, Run sys tr s

/-- **History invariant rule**: a predicate on the history and the current
    state holds on every run if it holds initially and every step from a
    reachable state preserves it. -/
theorem Run.history_invariant {sys : System State Label}
    {P : List (Step State Label) → State → Prop}
    (hinit : ∀ s, sys.init s → P [] s)
    (hstep : ∀ tr s l s', Run sys tr s → P tr s → sys.next s l = some s' →
      P (⟨s, l, s'⟩ :: tr) s')
    {tr : List (Step State Label)} {s : State} (h : Run sys tr s) : P tr s := by
  induction h with
  | init h => exact hinit _ h
  | step l h hs ih => exact hstep _ _ l _ h ih hs

/-- **Invariant rule** for predicates on the current state. -/
theorem Run.invariant {sys : System State Label} {P : State → Prop}
    (hinit : ∀ s, sys.init s → P s)
    (hstep : ∀ s l s', P s → sys.next s l = some s' → P s')
    {tr : List (Step State Label)} {s : State} (h : Run sys tr s) : P s :=
  h.history_invariant (P := fun _ s => P s) hinit (fun _ s l s' _ hP hs => hstep s l s' hP hs)

/-- **Variant rule**: a quantity that each step lowers bounds the length of the runs. -/
theorem Run.length_le {sys : System State Label} {m : State → Nat} {bound : Nat}
    (hinit : ∀ s, sys.init s → m s ≤ bound)
    (hstep : ∀ s l s', sys.next s l = some s' → m s' < m s)
    {tr : List (Step State Label)} {s : State} (h : Run sys tr s) : tr.length ≤ bound := by
  have hleft : tr.length + m s ≤ bound := by
    apply h.history_invariant (P := fun tr s => tr.length + m s ≤ bound)
    · intro s hs
      simpa using hinit s hs
    · intro tr s l s' _ hle hs
      have hlt := hstep s l s' hs
      rw [List.length_cons]
      omega
  omega

/-! ### Runs whose steps meet a condition -/

/-- `Along ok tr`: every step of `tr` satisfies `ok`, which may look at the
    history before that step. -/
def Along (ok : List (Step State Label) → Step State Label → Prop) :
    List (Step State Label) → Prop
  | [] => True
  | st :: tr => ok tr st ∧ Along ok tr

@[simp] theorem along_nil (ok : List (Step State Label) → Step State Label → Prop) :
    Along ok [] := trivial

@[simp] theorem along_cons (ok : List (Step State Label) → Step State Label → Prop)
    (st : Step State Label) (tr : List (Step State Label)) :
    Along ok (st :: tr) ↔ ok tr st ∧ Along ok tr := Iff.rfl

/-- A condition that does not look at the history holds along a run exactly
    when every step of the run satisfies it. -/
theorem along_iff_forall (ok : Step State Label → Prop) (tr : List (Step State Label)) :
    Along (fun _ st => ok st) tr ↔ ∀ st ∈ tr, ok st := by
  induction tr with
  | nil => simp
  | cons st tr ih => simp [ih]

/-- A decidable condition can be tested along a run. -/
def along_test (ok : List (Step State Label) → Step State Label → Bool) :
    List (Step State Label) → Bool
  | [] => true
  | st :: tr => ok tr st && along_test ok tr

theorem along_of_test {ok : List (Step State Label) → Step State Label → Bool}
    {tr : List (Step State Label)} (h : along_test ok tr = true) :
    Along (fun past st => ok past st = true) tr := by
  induction tr with
  | nil => trivial
  | cons st tr ih =>
    rw [along_test, Bool.and_eq_true] at h
    exact ⟨h.1, ih h.2⟩

/-- Conditions are monotone. -/
theorem Along.mono {ok ok' : List (Step State Label) → Step State Label → Prop}
    (himp : ∀ tr st, ok tr st → ok' tr st) {tr : List (Step State Label)}
    (h : Along ok tr) : Along ok' tr := by
  induction tr with
  | nil => trivial
  | cons st tr ih => exact ⟨himp tr st h.1, ih h.2⟩

/-- A condition that holds along a run holds along each of its pasts. -/
theorem Along.of_append {ok : List (Step State Label) → Step State Label → Prop}
    {newer older : List (Step State Label)} (h : Along ok (newer ++ older)) :
    Along ok older := by
  induction newer with
  | nil => exact h
  | cons st newer ih => exact ih h.2

/-- **Conditional invariant rule**: like `Run.history_invariant`, for the runs
    all of whose steps meet the condition `C`. -/
theorem Run.along_invariant {sys : System State Label}
    {C : List (Step State Label) → Step State Label → Prop}
    {P : List (Step State Label) → State → Prop}
    (hinit : ∀ s, sys.init s → P [] s)
    (hstep : ∀ tr s l s', Run sys tr s → P tr s → C tr ⟨s, l, s'⟩ →
      sys.next s l = some s' → P (⟨s, l, s'⟩ :: tr) s')
    {tr : List (Step State Label)} {s : State} (h : Run sys tr s)
    (hok : Along C tr) : P tr s := by
  induction h with
  | init h => exact hinit _ h
  | step l h hs ih => exact hstep _ _ l _ h (ih hok.2) hok.1 hs

/-! ### The steps since the last one of a kind -/

/-- `Since start ok tr`: every step of `tr` that is newer than the newest one that meets
    `start` satisfies `ok`; all of them, if none meets `start`. -/
def Since (start ok : Step State Label → Prop) : List (Step State Label) → Prop
  | [] => True
  | st :: tr => start st ∨ ok st ∧ Since start ok tr

theorem since_of_start {start ok : Step State Label → Prop} {st : Step State Label}
    (h : start st) (tr : List (Step State Label)) : Since start ok (st :: tr) := Or.inl h

theorem since_cons_iff {start ok : Step State Label → Prop} {st : Step State Label}
    (h : ¬ start st) (tr : List (Step State Label)) :
    Since start ok (st :: tr) ↔ ok st ∧ Since start ok tr := by
  constructor
  · exact fun hsince => hsince.resolve_left h
  · exact Or.inr

theorem Since.mono {start start' ok ok' : Step State Label → Prop} {tr : List (Step State Label)}
    (h : Since start ok tr) (hstart : ∀ st, start st → start' st)
    (hok : ∀ st ∈ tr, ok st → ok' st) : Since start' ok' tr := by
  induction tr with
  | nil => trivial
  | cons st tr ih =>
    rcases h with hst | ⟨hst, hrest⟩
    · exact Or.inl (hstart st hst)
    · exact Or.inr ⟨hok st List.mem_cons_self hst,
        ih hrest (fun st' hmem => hok st' (List.mem_cons_of_mem _ hmem))⟩

/-- Decidable conditions can be tested. -/
def since_test (start ok : Step State Label → Bool) : List (Step State Label) → Bool
  | [] => true
  | st :: tr => start st || ok st && since_test start ok tr

theorem since_of_test {start ok : Step State Label → Bool} {tr : List (Step State Label)}
    (h : since_test start ok tr = true) :
    Since (fun st => start st = true) (fun st => ok st = true) tr := by
  induction tr with
  | nil => trivial
  | cons st tr ih =>
    rw [since_test, Bool.or_eq_true, Bool.and_eq_true] at h
    rcases h with hst | ⟨hst, hrest⟩
    · exact Or.inl hst
    · exact Or.inr ⟨hst, ih hrest⟩

/-! ### Cutting a run at one of its steps -/

/-- The past of a run is a run. -/
theorem Run.of_append {sys : System State Label} {newer older : List (Step State Label)}
    {s : State} (h : Run sys (newer ++ older) s) : ∃ s', Run sys older s' := by
  induction newer generalizing s with
  | nil => exact ⟨s, h⟩
  | cons st newer ih =>
    cases h with
    | step l h hs => exact ih h

/-- The newest step of a run starts in the state its past reaches. -/
theorem Run.head {sys : System State Label} {st : Step State Label}
    {tr : List (Step State Label)} {s : State} (h : Run sys (st :: tr) s) :
    Run sys tr st.pre ∧ sys.next st.pre st.label = some st.post ∧ st.post = s := by
  cases h with
  | step l h hs => exact ⟨h, hs, rfl⟩

/-- A step in the middle of a run starts where its own past ends. -/
theorem Run.at_step {sys : System State Label} {newer older : List (Step State Label)}
    {st : Step State Label} {s : State} (h : Run sys (newer ++ st :: older) s) :
    Run sys older st.pre ∧ sys.next st.pre st.label = some st.post := by
  obtain ⟨s', h'⟩ := h.of_append
  exact ⟨h'.head.1, h'.head.2.1⟩

/-- **Persistence rule**: what holds after a step and is preserved by each later
    step, from any state reached since, holds at the end of the run. -/
theorem Run.persists {sys : System State Label} {P : State → Prop}
    {newer older : List (Step State Label)} {st : Step State Label} {s : State}
    (h : Run sys (newer ++ st :: older) s) (hpost : P st.post)
    (hstep : ∀ st' ∈ newer, Reachable sys st'.pre →
      sys.next st'.pre st'.label = some st'.post → P st'.pre → P st'.post) : P s := by
  induction newer generalizing s with
  | nil => exact h.head.2.2 ▸ hpost
  | cons st' newer ih =>
    obtain ⟨hpast, hnext, hend⟩ := h.head
    have hpre : P st'.pre := ih hpast (fun st'' hmem => hstep st'' (List.mem_cons_of_mem _ hmem))
    exact hend ▸ hstep st' List.mem_cons_self ⟨_, hpast⟩ hnext hpre

/-- A list around one of its elements. -/
theorem split_at_getElem? {α : Type u} {xs : List α} {i : Nat} {x : α} (hx : xs[i]? = some x) :
    xs = xs.take i ++ x :: xs.drop (i + 1) := by
  obtain ⟨hi, rfl⟩ := List.getElem?_eq_some_iff.mp hx
  rw [List.getElem_cons_drop, List.take_append_drop]

/-- A list around two of its elements. -/
theorem exists_two_of_getElem? {α : Type u} {xs : List α} {i j : Nat} {x y : α} (hij : i < j)
    (hx : xs[i]? = some x) (hy : xs[j]? = some y) :
    ∃ front mid back, xs = front ++ x :: (mid ++ y :: back) := by
  have hy' : (xs.drop (i + 1))[j - (i + 1)]? = some y := by
    rw [List.getElem?_drop, show i + 1 + (j - (i + 1)) = j by omega]
    exact hy
  exact ⟨_, _, _, by rw [← split_at_getElem? hy']; exact split_at_getElem? hx⟩

/-! ### Replaying a schedule -/

/-- Execute a schedule (oldest label first); `none` if some label is disabled. -/
def System.replay (sys : System State Label) (s : State) :
    List Label → Option (List (Step State Label) × State) :=
  go [] s
where
  go (tr : List (Step State Label)) (s : State) :
      List Label → Option (List (Step State Label) × State)
    | [] => some (tr, s)
    | l :: ls =>
      match sys.next s l with
      | some s' => go (⟨s, l, s'⟩ :: tr) s' ls
      | none => none

theorem System.replay_go_run {sys : System State Label} {tr tr' : List (Step State Label)}
    {s s' : State} {ls : List Label} (h : Run sys tr s)
    (hgo : System.replay.go sys tr s ls = some (tr', s')) : Run sys tr' s' := by
  induction ls generalizing tr s with
  | nil =>
    simp only [System.replay.go, Option.some.injEq, Prod.mk.injEq] at hgo
    obtain ⟨rfl, rfl⟩ := hgo
    exact h
  | cons l ls ih =>
    simp only [System.replay.go] at hgo
    split at hgo
    · next s₁ hs => exact ih (Run.step l h hs) hgo
    · cases hgo

/-- Replaying a schedule from an initial state gives a run. -/
theorem System.replay_run {sys : System State Label} {tr : List (Step State Label)}
    {s s' : State} {ls : List Label} (hinit : sys.init s)
    (h : sys.replay s ls = some (tr, s')) : Run sys tr s' :=
  System.replay_go_run (Run.init hinit) h

/-- A replay takes the steps of its schedule. -/
theorem System.replay_go_labels {sys : System State Label} {tr tr' : List (Step State Label)}
    {s s' : State} {ls : List Label} (hgo : System.replay.go sys tr s ls = some (tr', s')) :
    tr'.map (·.label) = ls.reverse ++ tr.map (·.label) := by
  induction ls generalizing tr s with
  | nil =>
    simp only [System.replay.go, Option.some.injEq, Prod.mk.injEq] at hgo
    rw [← hgo.1]
    rfl
  | cons l ls ih =>
    simp only [System.replay.go] at hgo
    split at hgo
    · next s₁ hs =>
      rw [ih hgo, List.reverse_cons, List.append_assoc]
      rfl
    · cases hgo

/-- A schedule whose replay passes a Boolean test yields a run that passes it. -/
theorem System.exists_run_of_replay (sys : System State Label) {s : State}
    (ls : List Label) (test : List (Step State Label) → State → Bool) (hinit : sys.init s)
    (h : (sys.replay s ls).any (fun r => test r.1 r.2) = true) :
    ∃ tr s', Run sys tr s' ∧ test tr s' = true := by
  cases hrun : sys.replay s ls with
  | none => simp [hrun] at h
  | some r =>
    rw [hrun] at h
    exact ⟨r.1, r.2, sys.replay_run hinit hrun, h⟩

/-- A test on the last step of a run and the steps before it. -/
def last_step_test (test : Step State Label → List (Step State Label) → Bool) :
    List (Step State Label) → Bool
  | st :: past => test st past
  | [] => false

theorem cons_of_last_step_test {test : Step State Label → List (Step State Label) → Bool}
    {tr : List (Step State Label)} (h : last_step_test test tr = true) :
    ∃ st past, tr = st :: past ∧ test st past = true := by
  cases tr with
  | nil => cases h
  | cons st past => exact ⟨st, past, rfl, h⟩

/-- The same, with the labels of the run. -/
theorem System.exists_run_of_schedule (sys : System State Label) {s : State}
    (ls : List Label) (test : List (Step State Label) → State → Bool) (hinit : sys.init s)
    (h : (sys.replay s ls).any (fun r => test r.1 r.2) = true) :
    ∃ tr s', Run sys tr s' ∧ (∀ st ∈ tr, st.label ∈ ls) ∧ test tr s' = true := by
  cases hrun : sys.replay s ls with
  | none => simp [hrun] at h
  | some r =>
    rw [hrun] at h
    refine ⟨r.1, r.2, sys.replay_run hinit hrun, fun st hmem => ?_, h⟩
    have hlabel : st.label ∈ r.1.map (·.label) := List.mem_map_of_mem hmem
    rw [System.replay_go_labels hrun] at hlabel
    simpa using hlabel

end LTS
