import Servo.Framework.System
import Mathlib.Logic.Function.Basic

/-! # A Cache That Concurrent Callers Fill

    A cell holds at most one entry. A call looks into the cell and is served
    from it if the entry is good for its request. Otherwise it fetches an entry,
    writes it into the cell, and returns it. Nobody waits for a fetch that is
    under way: between two steps of one call the other calls take theirs, so
    several calls may fetch at a time, and the last one to write wins.

    Time is a clock that never goes back. Which entries are good, and which
    entry an answer makes, is the policy of the cache.
-/

namespace SharedCache

open LTS

/-! ### The system -/

/-- What a cache is used for. -/
structure Policy (Request Entry Answer : Type) where
  /-- Whether an entry is good for a request at a time. -/
  serves : Nat → Entry → Request → Bool
  /-- The entry made of an answer that arrives at a time, for a request fetched since a time;
      `none` if the answer cannot arrive then. -/
  entry : Request → Nat → Nat → Answer → Option Entry
  /-- Whether other calls take steps between the answer to a call and its write. -/
  interruptible : Bool

/-- Where a call stands. -/
inductive Phase (Request Entry : Type) where
  | idle
  /-- Fetching for a request, since a time. -/
  | fetching (request : Request) (start : Nat)
  /-- An entry is made, and not yet written. -/
  | holding (request : Request) (entry : Entry)

structure State (Request Entry : Type) where
  now : Nat
  cell : Option Entry
  calls : Nat → Phase Request Entry

inductive Label (Request Answer : Type) where
  | tick (span : Nat)
  /-- A call begins, with a look into the cell. -/
  | look (c : Nat) (request : Request)
  | receive (c : Nat) (answer : Answer)
  | store (c : Nat)
  /-- A fetch ends in an error. -/
  | fail (c : Nat)

variable {Request Entry Answer : Type} (policy : Policy Request Entry Answer)

abbrev Event (Request Entry Answer : Type) : Type :=
  Step (State Request Entry) (Label Request Answer)

namespace State

def goto (s : State Request Entry) (c : Nat) (phase : Phase Request Entry) :
    State Request Entry :=
  { s with calls := Function.update s.calls c phase }

/-- A call writes the entry it has made, and returns. -/
def write (s : State Request Entry) (c : Nat) (entry : Entry) : State Request Entry :=
  { s.goto c .idle with cell := some entry }

@[simp] theorem now_goto (s : State Request Entry) (c : Nat) (phase : Phase Request Entry) :
    (s.goto c phase).now = s.now := rfl

@[simp] theorem cell_goto (s : State Request Entry) (c : Nat) (phase : Phase Request Entry) :
    (s.goto c phase).cell = s.cell := rfl

@[simp] theorem now_write (s : State Request Entry) (c : Nat) (entry : Entry) :
    (s.write c entry).now = s.now := rfl

@[simp] theorem cell_write (s : State Request Entry) (c : Nat) (entry : Entry) :
    (s.write c entry).cell = some entry := rfl

theorem calls_goto (s : State Request Entry) (c d : Nat) (phase : Phase Request Entry) :
    (s.goto c phase).calls d = if d = c then phase else s.calls d := by
  simp [goto, Function.update_apply]

theorem calls_write (s : State Request Entry) (c d : Nat) (entry : Entry) :
    (s.write c entry).calls d = if d = c then .idle else s.calls d :=
  s.calls_goto c d .idle

/-- A call that began with nothing leaves its entry behind. -/
theorem write_goto {s : State Request Entry} {c : Nat} (h : s.calls c = .idle)
    (phase : Phase Request Entry) (entry : Entry) :
    (s.goto c phase).write c entry = { s with cell := some entry } := by
  have hcalls : Function.update s.calls c .idle = s.calls := by
    rw [← h, Function.update_eq_self]
  simp [write, goto, hcalls]

end State

/-- The entry of the cell, if it is good for the request. -/
def hit (s : State Request Entry) (request : Request) : Option Entry :=
  s.cell.filter fun entry => policy.serves s.now entry request

/-- The state after a step, and what the step returns to the caller. -/
def step (s : State Request Entry) :
    Label Request Answer → Option (State Request Entry × Option (Request × Entry))
  | .tick span => some ({ s with now := s.now + span }, none)
  | .look c request =>
    match s.calls c with
    | .idle =>
      match hit policy s request with
      | some entry => some (s, some (request, entry))
      | none => some (s.goto c (.fetching request s.now), none)
    | _ => none
  | .receive c answer =>
    match s.calls c with
    | .fetching request start =>
      match policy.entry request start s.now answer with
      | some entry =>
        if policy.interruptible then some (s.goto c (.holding request entry), none)
        else some (s.write c entry, some (request, entry))
      | none => none
    | _ => none
  | .store c =>
    match s.calls c with
    | .holding request entry => some (s.write c entry, some (request, entry))
    | _ => none
  | .fail c =>
    match s.calls c with
    | .fetching _ _ => some (s.goto c .idle, none)
    | _ => none

/-- The cell is empty, and nobody calls. -/
def system : System (State Request Entry) (Label Request Answer) where
  init := fun s => s.cell = none ∧ ∀ c, s.calls c = .idle
  next := fun s l => (step policy s l).map Prod.fst

/-- What a step returns to the caller: the request and the entry. -/
def returned? (st : Event Request Entry Answer) : Option (Request × Entry) :=
  (step policy st.pre st.label).bind Prod.snd

/-! ### What a step does -/

variable {policy} {s s' : State Request Entry} {l : Label Request Answer}
  {returned : Option (Request × Entry)}

/-- The steps, with what they return. -/
inductive Stepped (policy : Policy Request Entry Answer) (s : State Request Entry) :
    Label Request Answer → State Request Entry → Option (Request × Entry) → Prop where
  | ticked (span : Nat) : Stepped policy s (.tick span) { s with now := s.now + span } none
  | served {c : Nat} {request : Request} {entry : Entry} (hcell : s.cell = some entry)
      (hserves : policy.serves s.now entry request = true) :
      Stepped policy s (.look c request) s (some (request, entry))
  | missed {c : Nat} {request : Request} :
      Stepped policy s (.look c request) (s.goto c (.fetching request s.now)) none
  | made {c : Nat} {answer : Answer} {request : Request} {start : Nat} {entry : Entry}
      (hinterruptible : policy.interruptible = true)
      (hcall : s.calls c = .fetching request start)
      (hentry : policy.entry request start s.now answer = some entry) :
      Stepped policy s (.receive c answer) (s.goto c (.holding request entry)) none
  | refreshed {c : Nat} {answer : Answer} {request : Request} {start : Nat} {entry : Entry}
      (hcall : s.calls c = .fetching request start)
      (hentry : policy.entry request start s.now answer = some entry) :
      Stepped policy s (.receive c answer) (s.write c entry) (some (request, entry))
  | stored {c : Nat} {request : Request} {entry : Entry}
      (hinterruptible : policy.interruptible = true)
      (hcall : s.calls c = .holding request entry) :
      Stepped policy s (.store c) (s.write c entry) (some (request, entry))
  | failed {c : Nat} : Stepped policy s (.fail c) (s.goto c .idle) none

theorem hit_eq_some_iff {request : Request} {entry : Entry} :
    hit policy s request = some entry ↔
      s.cell = some entry ∧ policy.serves s.now entry request = true := by
  rw [hit, Option.filter_eq_some_iff]

/-- Calls hold an entry only where they can be interrupted. -/
def Uninterrupted (policy : Policy Request Entry Answer) (s : State Request Entry) : Prop :=
  policy.interruptible = false → ∀ c request entry, s.calls c ≠ .holding request entry

theorem stepped_of_step (hatomic : Uninterrupted policy s)
    (h : step policy s l = some (s', returned)) : Stepped policy s l s' returned := by
  cases l with
  | tick span =>
    cases h
    exact .ticked span
  | look c request =>
    simp only [step] at h
    split at h
    · split at h
      · next entry hhit =>
        cases h
        obtain ⟨hcell, hserves⟩ := hit_eq_some_iff.mp hhit
        exact .served hcell hserves
      · cases h
        exact .missed
    · cases h
  | receive c answer =>
    simp only [step] at h
    split at h
    · next request start hcall =>
      split at h
      · next entry hentry =>
        split at h
        · next hinterruptible =>
          cases h
          exact .made hinterruptible hcall hentry
        · cases h
          exact .refreshed hcall hentry
      · cases h
    · cases h
  | store c =>
    simp only [step] at h
    split at h
    · next request entry hcall =>
      cases h
      cases hinterruptible : policy.interruptible with
      | true => exact .stored hinterruptible hcall
      | false => exact absurd hcall (hatomic hinterruptible c request entry)
    · cases h
  | fail c =>
    simp only [step] at h
    split at h
    · cases h
      exact .failed
    · cases h

theorem step_of_next (h : (system policy).next s l = some s') :
    ∃ returned, step policy s l = some (s', returned) := by
  obtain ⟨⟨s'', returned⟩, hstep, rfl⟩ := Option.map_eq_some_iff.mp h
  exact ⟨returned, hstep⟩

/-! ### What entries satisfy -/

/-- The request was made earlier. -/
def Asked (tr : List (Event Request Entry Answer)) (request : Request) : Prop :=
  ∃ st ∈ tr, ∃ c, st.label = .look c request

theorem Asked.cons {tr : List (Event Request Entry Answer)} {request : Request}
    (h : Asked tr request) (st : Event Request Entry Answer) : Asked (st :: tr) request := by
  obtain ⟨st', hmem, hlook⟩ := h
  exact ⟨st', List.mem_cons_of_mem _ hmem, hlook⟩

/-- A property of the entries that are made for a request: it holds when they are made, and
    stays true as time passes. -/
structure Made (policy : Policy Request Entry Answer) (P : Request → Nat → Entry → Prop) :
    Prop where
  made : ∀ request start now answer entry, start ≤ now →
    policy.entry request start now answer = some entry → P request now entry
  later : ∀ request now now' entry, now ≤ now' → P request now entry → P request now' entry

/-- The entry in the cell and those that calls hold were made for requests, and fetches have
    begun. -/
structure Inv (policy : Policy Request Entry Answer) (P : Request → Nat → Entry → Prop)
    (tr : List (Event Request Entry Answer)) (s : State Request Entry) : Prop where
  cell : ∀ entry, s.cell = some entry → ∃ request, Asked tr request ∧ P request s.now entry
  fetching : ∀ c request start, s.calls c = .fetching request start →
    start ≤ s.now ∧ Asked tr request
  holding : ∀ c request entry, s.calls c = .holding request entry →
    Asked tr request ∧ P request s.now entry
  atomic : Uninterrupted policy s

variable {P : Request → Nat → Entry → Prop} {tr : List (Event Request Entry Answer)}

/-- Time passes, and the history grows. -/
theorem Inv.later (hmade : Made policy P) (h : Inv policy P tr s)
    (st : Event Request Entry Answer) (span : Nat) :
    Inv policy P (st :: tr) { s with now := s.now + span } := by
  have hle : s.now ≤ s.now + span := Nat.le_add_right _ _
  refine ⟨?_, ?_, ?_, h.atomic⟩
  · intro entry hcell
    obtain ⟨request, hasked, hP⟩ := h.cell entry hcell
    exact ⟨request, hasked.cons st, hmade.later _ _ _ _ hle hP⟩
  · intro c request start hcall
    obtain ⟨hstart, hasked⟩ := h.fetching c request start hcall
    exact ⟨Nat.le_trans hstart hle, hasked.cons st⟩
  · intro c request entry hcall
    obtain ⟨hasked, hP⟩ := h.holding c request entry hcall
    exact ⟨hasked.cons st, hmade.later _ _ _ _ hle hP⟩

/-- A call goes on. -/
theorem Inv.goto (h : Inv policy P tr s) (c : Nat) {phase : Phase Request Entry}
    (hfetching : ∀ request start, phase = .fetching request start →
      start ≤ s.now ∧ Asked tr request)
    (hholding : ∀ request entry, phase = .holding request entry →
      policy.interruptible = true ∧ Asked tr request ∧ P request s.now entry) :
    Inv policy P tr (s.goto c phase) := by
  refine ⟨h.cell, ?_, ?_, ?_⟩
  · intro d request start hcall
    rw [State.calls_goto] at hcall
    split at hcall
    · exact hfetching request start hcall
    · exact h.fetching d request start hcall
  · intro d request entry hcall
    rw [State.calls_goto] at hcall
    split at hcall
    · exact (hholding request entry hcall).2
    · exact h.holding d request entry hcall
  · intro hatomic d request entry hcall
    rw [State.calls_goto] at hcall
    split at hcall
    · rw [(hholding request entry hcall).1] at hatomic
      cases hatomic
    · exact h.atomic hatomic d request entry hcall

/-- A call writes an entry that was made for a request. -/
theorem Inv.write (h : Inv policy P tr s) (c : Nat) {request : Request} {entry : Entry}
    (hasked : Asked tr request) (hP : P request s.now entry) :
    Inv policy P tr (s.write c entry) := by
  have hidle : Inv policy P tr (s.goto c .idle) := h.goto c nofun nofun
  refine ⟨?_, hidle.fetching, hidle.holding, hidle.atomic⟩
  intro entry' hcell
  cases hcell
  exact ⟨request, hasked, hP⟩

/-- One step keeps the invariant. -/
theorem Inv.step (hmade : Made policy P) (h : Inv policy P tr s)
    (hstep : Stepped policy s l s' returned) : Inv policy P (⟨s, l, s'⟩ :: tr) s' := by
  have hnow : ∀ st, Inv policy P (st :: tr) s := fun st => h.later hmade st 0
  cases hstep with
  | ticked span => exact h.later hmade _ span
  | served hcell hserves => exact hnow _
  | @missed c request =>
    apply (hnow _).goto
    · intro request' start hphase
      cases hphase
      exact ⟨Nat.le_refl _, _, List.mem_cons_self, c, rfl⟩
    · nofun
  | made hinterruptible hcall hentry =>
    obtain ⟨hle, hasked⟩ := h.fetching _ _ _ hcall
    apply (hnow _).goto
    · nofun
    · intro request entry hphase
      cases hphase
      exact ⟨hinterruptible, hasked.cons _, hmade.made _ _ _ _ _ hle hentry⟩
  | refreshed hcall hentry =>
    obtain ⟨hle, hasked⟩ := h.fetching _ _ _ hcall
    exact (hnow _).write _ (hasked.cons _) (hmade.made _ _ _ _ _ hle hentry)
  | stored hinterruptible hcall =>
    obtain ⟨hasked, hP⟩ := h.holding _ _ _ hcall
    exact (hnow _).write _ (hasked.cons _) hP
  | failed => exact (hnow _).goto _ nofun nofun

theorem inv_of_run (hmade : Made policy P) (h : Run (system policy) tr s) :
    Inv policy P tr s := by
  apply h.history_invariant (P := Inv policy P)
  · intro s hinit
    obtain ⟨hcell, hidle⟩ := hinit
    exact ⟨by simp [hcell], by simp [hidle], by simp [hidle], by simp [Uninterrupted, hidle]⟩
  · intro tr s l s' _ hinv hnext
    obtain ⟨returned, hstep⟩ := step_of_next hnext
    exact hinv.step hmade (stepped_of_step hinv.atomic hstep)

/-! ### What calls return -/

/-- Where an entry comes from that a step returns: a look into the cell, which it is good for,
    or a fetch of the call, which ends just now if nothing comes between answer and write. -/
structure Source (policy : Policy Request Entry Answer) (P : Request → Nat → Entry → Prop)
    (older : List (Event Request Entry Answer)) (st : Event Request Entry Answer)
    (request : Request) (entry : Entry) : Prop where
  made : ∃ request', Asked older request' ∧ P request' st.pre.now entry
  looked : ∀ c request', st.label = .look c request' →
    policy.serves st.pre.now entry request = true
  own : (∀ c request', st.label ≠ .look c request') → P request st.pre.now entry ∧
    (policy.interruptible = false → ∃ start answer, start ≤ st.pre.now ∧
      policy.entry request start st.pre.now answer = some entry)

/-- **Return rule**: what a step of a run returns. -/
theorem returned_of_run (hmade : Made policy P) {newer older : List (Event Request Entry Answer)}
    {st : Event Request Entry Answer} (h : Run (system policy) (newer ++ st :: older) s)
    {request : Request} {entry : Entry}
    (hreturned : returned? policy st = some (request, entry)) :
    Source policy P older st request entry := by
  obtain ⟨pre, l, post⟩ := st
  obtain ⟨hpast, hnext⟩ := h.at_step
  have hinv : Inv policy P older pre := inv_of_run hmade hpast
  obtain ⟨returned, hstep⟩ := step_of_next hnext
  have heq : returned = some (request, entry) := by
    rw [returned?, hstep] at hreturned
    exact hreturned
  subst heq
  have hstepped : Stepped policy pre l post (some (request, entry)) :=
    stepped_of_step hinv.atomic hstep
  cases hstepped with
  | @served c _ _ hcell hserves =>
    exact ⟨hinv.cell _ hcell, fun _ _ _ => hserves, fun h => absurd rfl (h c request)⟩
  | refreshed hcall hentry =>
    obtain ⟨hle, hasked⟩ := hinv.fetching _ _ _ hcall
    have hP := hmade.made _ _ _ _ _ hle hentry
    exact ⟨⟨_, hasked, hP⟩, nofun, fun _ => ⟨hP, fun _ => ⟨_, _, hle, hentry⟩⟩⟩
  | stored hinterruptible hcall =>
    obtain ⟨hasked, hP⟩ := hinv.holding _ _ _ hcall
    refine ⟨⟨_, hasked, hP⟩, nofun, fun _ => ⟨hP, ?_⟩⟩
    rw [hinterruptible]
    nofun

/-! ### A fetch -/

theorem next_eq (s : State Request Entry) (l : Label Request Answer) :
    (system policy).next s l = (step policy s l).map Prod.fst := rfl

/-- A call that finds nothing, and is answered some time later, fills the cell. -/
theorem run_fetch (h : Run (system policy) tr s) {c span : Nat} {request : Request}
    {answer : Answer} {entry : Entry} (hidle : s.calls c = .idle)
    (hmiss : hit policy s request = none)
    (hentry : policy.entry request s.now (s.now + span) answer = some entry) :
    ∃ newer, Run (system policy) (newer ++ tr)
        { s with now := s.now + span, cell := some entry } ∧
      ∀ request', Asked newer request' → request' = request := by
  have hlook : (system policy).next s (.look c request) =
      some (s.goto c (.fetching request s.now)) := by
    simp [next_eq, step, hidle, hmiss]
  have htick : (system policy).next (s.goto c (.fetching request s.now)) (.tick span) =
      some ({ s with now := s.now + span }.goto c (.fetching request s.now)) := rfl
  have hfetching := (h.step _ hlook).step _ htick
  cases hinterruptible : policy.interruptible with
  | true =>
    have hreceive : (system policy).next
        ({ s with now := s.now + span }.goto c (.fetching request s.now)) (.receive c answer) =
          some ({ s with now := s.now + span }.goto c (.holding request entry)) := by
      simp [next_eq, step, hentry, hinterruptible, State.goto]
    have hstore : (system policy).next
        ({ s with now := s.now + span }.goto c (.holding request entry)) (.store c) =
          some { s with now := s.now + span, cell := some entry } := by
      rw [next_eq, ← State.write_goto (s := { s with now := s.now + span }) hidle
        (.holding request entry)]
      simp [step, State.calls_goto]
    refine ⟨[_, _, _, _], (hfetching.step _ hreceive).step _ hstore, ?_⟩
    intro request' hasked
    obtain ⟨st, hmem, d, hlabel⟩ := hasked
    simp only [List.mem_cons, List.not_mem_nil, or_false] at hmem
    rcases hmem with rfl | rfl | rfl | rfl <;> cases hlabel
    rfl
  | false =>
    have hreceive : (system policy).next
        ({ s with now := s.now + span }.goto c (.fetching request s.now)) (.receive c answer) =
          some { s with now := s.now + span, cell := some entry } := by
      rw [next_eq, ← State.write_goto (s := { s with now := s.now + span }) hidle
        (.fetching request s.now)]
      simp [step, State.calls_goto, hentry, hinterruptible]
    refine ⟨[_, _, _], hfetching.step _ hreceive, ?_⟩
    intro request' hasked
    obtain ⟨st, hmem, d, hlabel⟩ := hasked
    simp only [List.mem_cons, List.not_mem_nil, or_false] at hmem
    rcases hmem with rfl | rfl | rfl <;> cases hlabel
    rfl

end SharedCache
