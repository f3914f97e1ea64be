import Mathlib.Algebra.Order.Ring.Nat
import Mathlib.Logic.Function.Basic
import Servo.Framework.System

/-! # The Output of a Subprocess

    `execute_asset_python_inner` reads what its child writes to stdout, up to a
    limit; then what it writes to stderr, up to the same limit; then it waits
    for the child. Each stream is a pipe that holds so many bytes and no more,
    and a pipe is closed when the parent has read it.

    The child may be stuck at a full stderr while the parent waits for more of
    stdout. Nothing but the timeout ends that. It can happen exactly if the
    child writes more to stderr than its pipe holds before it has written the
    limit to stdout; otherwise every run ends, and with the parent's return.
-/

namespace Servo.ChildOutput

open LTS

/-! ### Pipes, parent and child -/

inductive Stream where
  | stdout
  | stderr
  deriving DecidableEq

/-- Maximum size of what is read of a stream, in bytes. -/
def MAX_OUTPUT_SIZE : Nat := 10 * 1024 * 1024

/-- How many bytes each pipe holds. -/
structure Pipes where
  capacity : Stream → Nat
  capacity_pos : ∀ st, 0 < capacity st

/-- Where the parent stands after it has started the child. -/
inductive Pc where
  | reading (st : Stream)
  /-- `child.wait()`. -/
  | waiting
  | returned
  deriving DecidableEq

/-- Each handle is dropped at the end of the statement that reads from it. -/
def Pc.is_open : Pc → Stream → Bool
  | .reading .stdout, _ => true
  | .reading .stderr, st => st = .stderr
  | _, _ => false

/-- What follows the reading of a stream. -/
def Pc.after : Stream → Pc
  | .stdout => .reading .stderr
  | .stderr => .waiting

structure State where
  /-- What the child is about to write, each write with the bytes that are left of it. -/
  todo : List (Stream × Nat)
  exited : Bool
  /-- The bytes in each pipe. -/
  pipe : Stream → Nat
  /-- The bytes that have been read from it. -/
  buf : Stream → Nat
  parent : Pc

inductive Label where
  /-- The pipe takes `n` bytes of the child's current write. -/
  | write (n : Nat)
  /-- The write returns. -/
  | written
  /-- The write fails since nobody reads any more. The exception may end the child. -/
  | broken_pipe (caught : Bool)
  | exit
  | read (n : Nat)
  /-- The reading of a stream ends, at its end or at the limit. -/
  | read_to_end
  | wait

/-- One step of the child or of the parent. -/
def next (pipes : Pipes) (s : State) : Label → Option State
  | .write n =>
    match s.todo with
    | (st, m) :: rest =>
      if s.parent.is_open st ∧ 0 < n ∧ n ≤ m ∧ s.pipe st + n ≤ pipes.capacity st then
        some { s with
          todo := (st, m - n) :: rest
          pipe := Function.update s.pipe st (s.pipe st + n) }
      else none
    | [] => none
  | .written =>
    match s.todo with
    | (_, 0) :: rest => some { s with todo := rest }
    | _ => none
  | .broken_pipe caught =>
    match s.todo with
    | (st, _) :: rest =>
      if s.parent.is_open st then none
      else some { s with todo := if caught then rest else [] }
    | [] => none
  | .exit => if s.todo = [] ∧ s.exited = false then some { s with exited := true } else none
  | .read n =>
    match s.parent with
    | .reading st =>
      if 0 < n ∧ n ≤ s.pipe st ∧ s.buf st + n ≤ MAX_OUTPUT_SIZE then
        some { s with
          pipe := Function.update s.pipe st (s.pipe st - n)
          buf := Function.update s.buf st (s.buf st + n) }
      else none
    | _ => none
  | .read_to_end =>
    match s.parent with
    | .reading st =>
      if s.buf st = MAX_OUTPUT_SIZE ∨ s.pipe st = 0 ∧ s.exited = true then
        some { s with parent := .after st }
      else none
    | _ => none
  | .wait =>
    match s.parent with
    | .waiting => if s.exited = true then some { s with parent := .returned } else none
    | _ => none

/-- The child is about to make these writes, and nothing has been written yet. -/
def started (writes : List (Stream × Nat)) : State where
  todo := writes
  exited := false
  pipe := fun _ => 0
  buf := fun _ => 0
  parent := .reading .stdout

/-- The child and its parent. The timeout is left out. -/
def system (pipes : Pipes) (writes : List (Stream × Nat)) : System State Label where
  init := fun s => s = started writes
  next := next pipes

/-! ### Deadlocks -/

/-- The child is blocked in a write: the pipe is full. -/
def ChildBlocked (pipes : Pipes) (s : State) (st : Stream) : Prop :=
  ∃ m rest, s.todo = (st, m) :: rest ∧ 0 < m ∧ s.parent.is_open st = true ∧
    s.pipe st = pipes.capacity st

/-- The parent is blocked in a read: the pipe is empty, and may yet be written to. -/
def ParentBlocked (s : State) (st : Stream) : Prop :=
  s.parent = .reading st ∧ s.pipe st = 0 ∧ s.exited = false ∧ s.buf st < MAX_OUTPUT_SIZE

/-- The child is blocked in writing one stream, and the parent in reading the other. -/
def Deadlocked (pipes : Pipes) (s : State) : Prop :=
  ∃ st st', st ≠ st' ∧ ChildBlocked pipes s st ∧ ParentBlocked s st'

/-- The bytes of these writes to a stream. -/
def bytes (st : Stream) (writes : List (Stream × Nat)) : Nat :=
  ((writes.filter (·.1 = st)).map (·.2)).sum

/-- With `out` bytes of stdout and `err` of stderr before these writes, what goes to stderr fits
    into its pipe as long as stdout has not reached the limit. -/
def Fits (pipes : Pipes) (out err : Nat) (writes : List (Stream × Nat)) : Prop :=
  ∀ before n after, writes = before ++ (.stderr, n) :: after →
    out + bytes .stdout before < MAX_OUTPUT_SIZE →
      err + bytes .stderr before + n ≤ pipes.capacity .stderr

/-! ### What fits -/

section fits

variable {pipes : Pipes} {out err n : Nat} {writes : List (Stream × Nat)}

@[simp] theorem bytes_nil (st : Stream) : bytes st [] = 0 := rfl

@[simp] theorem bytes_cons (st st' : Stream) (n : Nat) (writes : List (Stream × Nat)) :
    bytes st ((st', n) :: writes) = (if st' = st then n else 0) + bytes st writes := by
  unfold bytes
  rw [List.filter_cons]
  by_cases hst : st' = st
  · simp [hst]
  · simp [hst]

theorem fits_nil : Fits pipes out err [] := by
  intro before n after h
  exact absurd h.symm (List.append_ne_nil_of_right_ne_nil before (List.cons_ne_nil _ _))

/-- At the limit of stdout everything fits. -/
theorem fits_of_limit (h : MAX_OUTPUT_SIZE ≤ out) : Fits pipes out err writes := by
  intro before n after _ hlimit
  omega

/-- A write to stdout counts for the limit. -/
theorem fits_stdout_iff : Fits pipes out err ((.stdout, n) :: writes) ↔
    Fits pipes (out + n) err writes := by
  constructor
  · intro h before k after hwrites hlimit
    have hfits := h ((.stdout, n) :: before) k after (by rw [hwrites]; rfl)
    simp only [bytes_cons, if_true, reduceCtorEq, if_false, Nat.zero_add] at hfits
    exact hfits (by omega)
  · intro h before k after hwrites hlimit
    cases before with
    | nil => cases hwrites
    | cons write before =>
      cases hwrites
      simp only [bytes_cons, if_true, reduceCtorEq, if_false, Nat.zero_add] at hlimit ⊢
      exact h before k after rfl (by omega)

/-- A write to stderr has to fit itself. -/
theorem fits_stderr_iff : Fits pipes out err ((.stderr, n) :: writes) ↔
    (out < MAX_OUTPUT_SIZE → err + n ≤ pipes.capacity .stderr) ∧
      Fits pipes out (err + n) writes := by
  constructor
  · intro h
    constructor
    · intro hlimit
      exact h [] n writes rfl hlimit
    · intro before k after hwrites hlimit
      have hfits := h ((.stderr, n) :: before) k after (by rw [hwrites]; rfl)
      simp only [bytes_cons, if_true, reduceCtorEq, if_false, Nat.zero_add] at hfits
      have hle := hfits hlimit
      omega
  · intro ⟨hfirst, hrest⟩ before k after hwrites hlimit
    cases before with
    | nil =>
      cases hwrites
      exact hfirst hlimit
    | cons write before =>
      cases hwrites
      simp only [bytes_cons, if_true, reduceCtorEq, if_false, Nat.zero_add] at hlimit ⊢
      have hle := hrest before k after rfl hlimit
      omega

end fits

/-! ### What one step does -/

inductive Stepped (pipes : Pipes) (s : State) : Label → State → Prop where
  | wrote {st : Stream} {m n : Nat} {rest : List (Stream × Nat)} (htodo : s.todo = (st, m) :: rest)
      (hopen : s.parent.is_open st = true) (hpos : 0 < n) (hle : n ≤ m)
      (hroom : s.pipe st + n ≤ pipes.capacity st) :
      Stepped pipes s (.write n) { s with
        todo := (st, m - n) :: rest
        pipe := Function.update s.pipe st (s.pipe st + n) }
  | written {st : Stream} {rest : List (Stream × Nat)} (htodo : s.todo = (st, 0) :: rest) :
      Stepped pipes s .written { s with todo := rest }
  | broken {st : Stream} {m : Nat} {rest : List (Stream × Nat)} {caught : Bool}
      (htodo : s.todo = (st, m) :: rest) (hclosed : s.parent.is_open st = false) :
      Stepped pipes s (.broken_pipe caught) { s with todo := if caught then rest else [] }
  | exited (htodo : s.todo = []) (hrunning : s.exited = false) :
      Stepped pipes s .exit { s with exited := true }
  | read {st : Stream} {n : Nat} (hparent : s.parent = .reading st) (hpos : 0 < n)
      (hle : n ≤ s.pipe st) (hlimit : s.buf st + n ≤ MAX_OUTPUT_SIZE) :
      Stepped pipes s (.read n) { s with
        pipe := Function.update s.pipe st (s.pipe st - n)
        buf := Function.update s.buf st (s.buf st + n) }
  | ended {st : Stream} (hparent : s.parent = .reading st)
      (hend : s.buf st = MAX_OUTPUT_SIZE ∨ s.pipe st = 0 ∧ s.exited = true) :
      Stepped pipes s .read_to_end { s with parent := .after st }
  | returned (hparent : s.parent = .waiting) (hexited : s.exited = true) :
      Stepped pipes s .wait { s with parent := .returned }

variable {pipes : Pipes} {s s' : State} {l : Label} {writes : List (Stream × Nat)}

theorem stepped_of_next (h : next pipes s l = some s') : Stepped pipes s l s' := by
  cases l with
  | write n =>
    simp only [next] at h
    split at h
    · next htodo =>
      split at h
      · next hroom =>
        cases h
        exact .wrote htodo hroom.1 hroom.2.1 hroom.2.2.1 hroom.2.2.2
      · cases h
    · cases h
  | written =>
    simp only [next] at h
    split at h
    · next htodo =>
      cases h
      exact .written htodo
    · cases h
  | broken_pipe caught =>
    simp only [next] at h
    split at h
    · next htodo =>
      split at h
      · cases h
      · next hclosed =>
        cases h
        exact .broken htodo (Bool.eq_false_iff.mpr hclosed)
    · cases h
  | exit =>
    simp only [next] at h
    split at h
    · next hready =>
      cases h
      exact .exited hready.1 hready.2
    · cases h
  | read n =>
    simp only [next] at h
    split at h
    · next hparent =>
      split at h
      · next hdata =>
        cases h
        exact .read hparent hdata.1 hdata.2.1 hdata.2.2
      · cases h
    · cases h
  | read_to_end =>
    simp only [next] at h
    split at h
    · next hparent =>
      split at h
      · next hend =>
        cases h
        exact .ended hparent hend
      · cases h
    · cases h
  | wait =>
    simp only [next] at h
    split at h
    · next hparent =>
      split at h
      · next hexited =>
        cases h
        exact .returned hparent hexited
      · cases h
    · cases h

theorem next_of_stepped (h : Stepped pipes s l s') : next pipes s l = some s' := by
  cases h with
  | wrote htodo hopen hpos hle hroom =>
    simp only [next, htodo]
    rw [if_pos ⟨hopen, hpos, hle, hroom⟩]
  | written htodo => simp only [next, htodo]
  | broken htodo hclosed =>
    simp only [next, htodo, hclosed, Bool.false_eq_true, if_false]
  | exited htodo hrunning =>
    simp only [next]
    rw [if_pos ⟨htodo, hrunning⟩]
  | read hparent hpos hle hlimit =>
    simp only [next, hparent]
    rw [if_pos ⟨hpos, hle, hlimit⟩]
  | ended hparent hend =>
    simp only [next, hparent]
    rw [if_pos hend]
  | returned hparent hexited =>
    simp only [next, hparent]
    rw [if_pos hexited]

/-! ### Every run ends -/

/-- What is left to do: a byte that is written has still to be read. -/
def variant (s : State) : Nat :=
  2 * (bytes .stdout s.todo + bytes .stderr s.todo) + s.todo.length +
    (s.pipe .stdout + s.pipe .stderr) + (if s.exited = true then 0 else 1) +
    match s.parent with
    | .reading .stdout => 3
    | .reading .stderr => 2
    | .waiting => 1
    | .returned => 0

theorem update_sum (pipe : Stream → Nat) (st : Stream) (n : Nat) :
    Function.update pipe st n .stdout + Function.update pipe st n .stderr + pipe st =
      pipe .stdout + pipe .stderr + n := by
  cases st with
  | stdout => simp; omega
  | stderr => simp; omega

theorem variant_step (h : next pipes s l = some s') : variant s' < variant s := by
  cases stepped_of_next h with
  | @wrote st m n rest htodo hopen hpos hle hroom =>
    have hsum := update_sum s.pipe st (s.pipe st + n)
    simp only [variant, htodo, bytes_cons, List.length_cons]
    cases st <;> simp only [reduceCtorEq, if_true, if_false] <;> omega
  | @written st rest htodo =>
    simp only [variant, htodo, bytes_cons, List.length_cons]
    cases st <;> simp only [reduceCtorEq, if_true, if_false] <;> omega
  | @broken st m rest caught htodo hclosed =>
    simp only [variant, htodo, bytes_cons, List.length_cons]
    cases caught with
    | true =>
      simp only [if_true]
      omega
    | false =>
      simp only [Bool.false_eq_true, if_false, List.length_nil, bytes_nil]
      omega
  | exited htodo hrunning =>
    simp only [variant, hrunning, Bool.false_eq_true, if_true, if_false]
    omega
  | @read st n hparent hpos hle hlimit =>
    have hsum := update_sum s.pipe st (s.pipe st - n)
    simp only [variant]
    omega
  | @ended st hparent hend =>
    simp only [variant, hparent]
    cases st <;> simp only [Pc.after] <;> omega
  | returned hparent hexited =>
    simp only [variant, hparent]
    omega

/-- **No run goes on for ever.** -/
theorem run_length_le {tr : List (Step State Label)} (h : Run (system pipes writes) tr s) :
    tr.length ≤ variant (started writes) := by
  apply h.length_le (m := variant)
  · intro s hinit
    exact Nat.le_of_eq (congrArg variant hinit)
  · intro s l s' hs
    exact variant_step hs

/-! ### What holds in every run -/

structure Sound (pipes : Pipes) (s : State) : Prop where
  ended : s.exited = true → s.todo = []
  pipe_le : ∀ st, s.pipe st ≤ pipes.capacity st
  buf_le : ∀ st, s.buf st ≤ MAX_OUTPUT_SIZE

/-- A child that has something left to write has not exited. -/
theorem running_of_todo {write : Stream × Nat} {rest : List (Stream × Nat)}
    (hinv : Sound pipes s) (htodo : s.todo = write :: rest) : ¬ s.exited = true := by
  intro hexited
  rw [hinv.ended hexited] at htodo
  cases htodo

theorem sound_step (hinv : Sound pipes s) (h : Stepped pipes s l s') : Sound pipes s' := by
  cases h with
  | @wrote st m n rest htodo hopen hpos hle hroom =>
    constructor
    · intro hexited
      exact (running_of_todo hinv htodo hexited).elim
    · intro st'
      by_cases hst : st' = st
      · subst hst
        simpa using hroom
      · simpa [hst] using hinv.pipe_le st'
    · exact hinv.buf_le
  | written htodo =>
    refine ⟨?_, hinv.pipe_le, hinv.buf_le⟩
    intro hexited
    exact (running_of_todo hinv htodo hexited).elim
  | broken htodo hclosed =>
    refine ⟨?_, hinv.pipe_le, hinv.buf_le⟩
    intro hexited
    exact (running_of_todo hinv htodo hexited).elim
  | exited htodo hrunning => exact ⟨fun _ => htodo, hinv.pipe_le, hinv.buf_le⟩
  | @read st n hparent hpos hle hlimit =>
    refine ⟨hinv.ended, ?_, ?_⟩
    · intro st'
      by_cases hst : st' = st
      · subst hst
        have hbefore := hinv.pipe_le st'
        simp only [Function.update_self]
        omega
      · simpa [hst] using hinv.pipe_le st'
    · intro st'
      by_cases hst : st' = st
      · subst hst
        simpa using hlimit
      · simpa [hst] using hinv.buf_le st'
  | ended hparent hend => exact ⟨hinv.ended, hinv.pipe_le, hinv.buf_le⟩
  | returned hparent hexited => exact ⟨hinv.ended, hinv.pipe_le, hinv.buf_le⟩

theorem sound_of_run {tr : List (Step State Label)} (h : Run (system pipes writes) tr s) :
    Sound pipes s := by
  apply h.invariant (P := Sound pipes)
  · intro s hinit
    rw [hinit]
    refine ⟨?_, fun _ => Nat.zero_le _, fun _ => Nat.zero_le _⟩
    intro hexited
    cases hexited
  · intro s l s' hinv hs
    exact sound_step hinv (stepped_of_next hs)

/-- Whoever is not blocked goes on: where no step is possible, the parent has returned, or it is
    blocked in reading one stream and the child in writing the other. -/
theorem returned_of_stuck (hsound : Sound pipes s) (hstuck : ∀ l, next pipes s l = none)
    (hfree : ¬ Deadlocked pipes s) : s.parent = .returned := by
  have hnone : ∀ l s', ¬ Stepped pipes s l s' := by
    intro l s' hstep
    have hnext := next_of_stepped hstep
    rw [hstuck l] at hnext
    cases hnext
  -- the child can go on unless it has exited, or is blocked
  have hchild : s.exited = true ∨ ∃ st, ChildBlocked pipes s st := by
    by_cases hexited : s.exited = true
    · exact .inl hexited
    · cases htodo : s.todo with
      | nil => exact absurd (.exited htodo (Bool.eq_false_iff.mpr hexited)) (hnone .exit _)
      | cons write rest =>
        obtain ⟨st, m⟩ := write
        cases hopen : s.parent.is_open st with
        | false => exact absurd (.broken htodo hopen) (hnone (.broken_pipe true) _)
        | true =>
          cases m with
          | zero => exact absurd (.written htodo) (hnone .written _)
          | succ m =>
            -- one byte can be written unless the pipe is full
            have hle := hsound.pipe_le st
            by_cases hfull : s.pipe st = pipes.capacity st
            · exact .inr ⟨st, m + 1, rest, htodo, Nat.succ_pos m, hopen, hfull⟩
            · exact absurd (.wrote htodo hopen Nat.one_pos (Nat.le_add_left 1 m) (by omega))
                (hnone (.write 1) _)
  cases hparent : s.parent with
  | returned => rfl
  | waiting =>
    rcases hchild with hexited | ⟨st, m, rest, -, -, hopen, -⟩
    · exact absurd (.returned hparent hexited) (hnone .wait _)
    · rw [hparent] at hopen
      cases hopen
  | reading st =>
    have hbuf := hsound.buf_le st
    by_cases hlimit : s.buf st = MAX_OUTPUT_SIZE
    · exact absurd (.ended hparent (.inl hlimit)) (hnone .read_to_end _)
    · -- below the limit, only an empty pipe that is still open stops the parent
      by_cases hempty : s.pipe st = 0
      · rcases hchild with hexited | ⟨st', hblocked⟩
        · exact absurd (.ended hparent (.inr ⟨hempty, hexited⟩)) (hnone .read_to_end _)
        · refine absurd ⟨st', st, ?_, hblocked, hparent, hempty, ?_, by omega⟩ hfree
          · -- an empty pipe is not full
            intro hst
            obtain ⟨_, _, _, _, _, hfull⟩ := hblocked
            have hpos := pipes.capacity_pos st'
            rw [hst] at hfull hpos
            omega
          · obtain ⟨m, rest, htodo, -⟩ := hblocked
            exact Bool.eq_false_iff.mpr (running_of_todo hsound htodo)
      · exact absurd (.read hparent Nat.one_pos (by omega) (by omega)) (hnone (.read 1) _)

/-! ### Without a deadlock -/

/-- While stdout is read, what is left to write to stderr fits beside what is there. -/
def FitsNow (pipes : Pipes) (s : State) : Prop :=
  s.parent = .reading .stdout →
    Fits pipes (s.pipe .stdout + s.buf .stdout) (s.pipe .stderr) s.todo

/-- The bytes that have been written of a write count like those of an earlier one. -/
theorem fits_of_wrote {st : Stream} {m n out err : Nat} {rest : List (Stream × Nat)} (hle : n ≤ m)
    (h : Fits pipes out err ((st, m) :: rest)) :
    Fits pipes (if st = .stdout then out + n else out) (if st = .stderr then err + n else err)
      ((st, m - n) :: rest) := by
  cases st with
  | stdout =>
    rw [fits_stdout_iff] at h ⊢
    have hsum : out + n + (m - n) = out + m := by omega
    simp only [if_true, reduceCtorEq, if_false]
    rw [hsum]
    exact h
  | stderr =>
    rw [fits_stderr_iff] at h ⊢
    have hsum : err + n + (m - n) = err + m := by omega
    simp only [if_true, reduceCtorEq, if_false]
    rw [hsum]
    exact h

theorem fits_step (hinv : FitsNow pipes s) (h : Stepped pipes s l s') : FitsNow pipes s' := by
  intro hreading
  cases h with
  | @wrote st m n rest htodo hopen hpos hle hroom =>
    have hfits := hinv hreading
    rw [htodo] at hfits
    have hnow := fits_of_wrote hle hfits
    cases st with
    | stdout =>
      simp only [if_true, reduceCtorEq, if_false] at hnow
      simp only [Function.update_self, Function.update_of_ne, ne_eq, reduceCtorEq,
        not_false_eq_true]
      rw [Nat.add_right_comm]
      exact hnow
    | stderr => simpa using hnow
  | @written st rest htodo =>
    have hfits := hinv hreading
    rw [htodo] at hfits
    cases st with
    | stdout =>
      have hrest := fits_stdout_iff.mp hfits
      rwa [Nat.add_zero] at hrest
    | stderr => exact (fits_stderr_iff.mp hfits).2
  | @broken st m rest caught htodo hclosed =>
    -- nothing is closed while stdout is read
    have hparent : s.parent = .reading .stdout := hreading
    rw [hparent] at hclosed
    cases hclosed
  | exited htodo hrunning => exact hinv hreading
  | @read st n hparent hpos hle hlimit =>
    have hstdout : s.parent = .reading .stdout := hreading
    rw [hparent] at hstdout
    cases hstdout
    have hsum : s.pipe .stdout - n + (s.buf .stdout + n) = s.pipe .stdout + s.buf .stdout := by
      omega
    simp only [Function.update_self, Function.update_of_ne, ne_eq, reduceCtorEq,
      not_false_eq_true]
    rw [hsum]
    exact hinv hparent
  | @ended st hparent hend => cases st <;> cases hreading
  | returned hparent hexited => cases hreading

theorem fits_of_run {tr : List (Step State Label)} (hfits : Fits pipes 0 0 writes)
    (h : Run (system pipes writes) tr s) : FitsNow pipes s := by
  apply h.invariant (P := FitsNow pipes)
  · intro s hinit
    rw [hinit]
    intro _
    exact hfits
  · intro s l s' hinv hs
    exact fits_step hinv (stepped_of_next hs)

/-- Where what is left fits, nobody waits for the other. -/
theorem not_deadlocked (hinv : FitsNow pipes s) : ¬ Deadlocked pipes s := by
  intro ⟨st, st', hne, ⟨m, rest, htodo, hpos, hopen, hfull⟩, hparent, hempty, _, hlimit⟩
  cases st' with
  | stdout =>
    cases st with
    | stdout => exact hne rfl
    | stderr =>
      have hfits := hinv hparent
      rw [htodo, fits_stderr_iff, hempty, hfull] at hfits
      have hle := hfits.1 (by omega)
      omega
  | stderr =>
    -- stdout is closed when stderr is read
    cases st with
    | stdout =>
      rw [hparent] at hopen
      cases hopen
    | stderr => exact hne rfl

/-! ### With a deadlock -/

/-- Nothing but the timeout ends a deadlock. -/
theorem stuck_of_deadlocked (h : Deadlocked pipes s) (l : Label) : next pipes s l = none := by
  obtain ⟨st, st', hne, ⟨m, rest, htodo, hpos, hopen, hfull⟩, hparent, hempty, hrunning, hlimit⟩ :=
    h
  cases hnext : next pipes s l with
  | none => rfl
  | some s' =>
    exfalso
    cases stepped_of_next hnext with
    | wrote htodo' _ hpos' _ hroom =>
      rw [htodo] at htodo'
      cases htodo'
      omega
    | written htodo' =>
      rw [htodo] at htodo'
      cases htodo'
      omega
    | broken htodo' hclosed =>
      rw [htodo] at htodo'
      cases htodo'
      rw [hopen] at hclosed
      cases hclosed
    | exited htodo' _ =>
      rw [htodo] at htodo'
      cases htodo'
    | read hparent' hpos' hle _ =>
      rw [hparent] at hparent'
      cases hparent'
      omega
    | ended hparent' hend =>
      rw [hparent] at hparent'
      cases hparent'
      rw [hrunning] at hend
      rcases hend with hreached | ⟨-, hexited⟩
      · omega
      · cases hexited
    | returned hparent' _ =>
      rw [hparent] at hparent'
      cases hparent'

theorem run_step {tr : List (Step State Label)} (h : Run (system pipes writes) tr s)
    (hs : Stepped pipes s l s') : Run (system pipes writes) (⟨s, l, s'⟩ :: tr) s' :=
  h.step l (next_of_stepped hs)

/-- The parent can take a write to stdout byte by byte. -/
theorem exists_stdout_written {tr : List (Step State Label)} {n : Nat}
    {rest : List (Stream × Nat)} (h : Run (system pipes writes) tr s)
    (hparent : s.parent = .reading .stdout) (hempty : s.pipe .stdout = 0)
    (htodo : s.todo = (.stdout, n) :: rest) (hlimit : s.buf .stdout + n ≤ MAX_OUTPUT_SIZE) :
    ∃ tr' s', Run (system pipes writes) tr' s' ∧ s'.parent = .reading .stdout ∧
      s'.exited = s.exited ∧ s'.todo = rest ∧ s'.pipe .stdout = 0 ∧
      s'.buf .stdout = s.buf .stdout + n ∧ s'.pipe .stderr = s.pipe .stderr := by
  induction n generalizing tr s with
  | zero =>
    have hwritten := run_step h (.written htodo)
    exact ⟨_, _, hwritten, hparent, rfl, rfl, hempty, rfl, rfl⟩
  | succ n ih =>
    -- a byte is written into the empty pipe, and read at once
    have hpos := pipes.capacity_pos .stdout
    have hopen : s.parent.is_open .stdout = true := by
      rw [hparent]
      rfl
    have hwritten := run_step h
      (.wrote htodo hopen Nat.one_pos (Nat.le_add_left 1 n) (by omega))
    have hread := run_step hwritten
      (@Stepped.read pipes _ .stdout 1 hparent Nat.one_pos (by simp) (by simp only; omega))
    obtain ⟨tr', s', hrun, hparent', hexited, htodo', hempty', hbuf, herr⟩ :=
      ih hread hparent (by simp [hempty]) rfl (by simp only [Function.update_self]; omega)
    refine ⟨tr', s', hrun, hparent', hexited, htodo', hempty', ?_, ?_⟩
    · simp only [Function.update_self] at hbuf
      omega
    · rw [herr]
      simp

/-- Stderr takes a write that it has room for, at once. -/
theorem exists_stderr_written {tr : List (Step State Label)} {m n : Nat}
    {rest : List (Stream × Nat)} (h : Run (system pipes writes) tr s)
    (hparent : s.parent = .reading .stdout) (htodo : s.todo = (.stderr, m) :: rest) (hle : n ≤ m)
    (hroom : s.pipe .stderr + n ≤ pipes.capacity .stderr) :
    ∃ tr' s', Run (system pipes writes) tr' s' ∧ s'.parent = .reading .stdout ∧
      s'.exited = s.exited ∧ s'.todo = (.stderr, m - n) :: rest ∧
      s'.pipe .stdout = s.pipe .stdout ∧ s'.buf .stdout = s.buf .stdout ∧
      s'.pipe .stderr = s.pipe .stderr + n := by
  by_cases hnone : n = 0
  · subst hnone
    exact ⟨tr, s, h, hparent, rfl, htodo, rfl, rfl, rfl⟩
  · have hopen : s.parent.is_open .stderr = true := by
      rw [hparent]
      rfl
    have hwritten := run_step h (.wrote htodo hopen (Nat.pos_of_ne_zero hnone) hle hroom)
    exact ⟨_, _, hwritten, hparent, rfl, rfl, by simp, rfl, by simp⟩

/-- Where what is left does not fit, there is a run into the deadlock. -/
theorem exists_deadlock {tr : List (Step State Label)} {todo : List (Stream × Nat)}
    (h : Run (system pipes writes) tr s) (hparent : s.parent = .reading .stdout)
    (hrunning : s.exited = false) (hempty : s.pipe .stdout = 0)
    (hpipe : s.pipe .stderr ≤ pipes.capacity .stderr) (htodo : s.todo = todo)
    (hfits : ¬ Fits pipes (s.buf .stdout) (s.pipe .stderr) todo) :
    ∃ tr' s', Run (system pipes writes) tr' s' ∧ Deadlocked pipes s' := by
  have hlimit : s.buf .stdout < MAX_OUTPUT_SIZE := by
    by_contra hreached
    exact hfits (fits_of_limit (Nat.le_of_not_lt hreached))
  -- the writes that fit are done one after the other, until one does not
  induction todo generalizing tr s with
  | nil => exact absurd fits_nil hfits
  | cons write rest ih =>
    obtain ⟨st, n⟩ := write
    cases st with
    | stdout =>
      rw [fits_stdout_iff] at hfits
      have hbelow : s.buf .stdout + n < MAX_OUTPUT_SIZE := by
        by_contra hreached
        exact hfits (fits_of_limit (Nat.le_of_not_lt hreached))
      obtain ⟨tr', s', hrun, hparent', hexited, htodo', hempty', hbuf, herr⟩ :=
        exists_stdout_written h hparent hempty htodo (Nat.le_of_lt hbelow)
      apply ih hrun hparent' (hexited.trans hrunning) hempty' (by rw [herr]; exact hpipe) htodo'
      · rw [hbuf, herr]
        exact hfits
      · rw [hbuf]
        exact hbelow
    | stderr =>
      by_cases hroom : s.pipe .stderr + n ≤ pipes.capacity .stderr
      · obtain ⟨tr', s', hrun, hparent', hexited, htodo', hempty', hbuf, herr⟩ :=
          exists_stderr_written h hparent htodo (Nat.le_refl n) hroom
        rw [Nat.sub_self] at htodo'
        have hnext := run_step hrun (.written htodo')
        rw [fits_stderr_iff] at hfits
        apply ih hnext hparent' (hexited.trans hrunning) (hempty'.trans hempty)
          (by rw [herr]; exact hroom) rfl
        · intro hrest
          rw [hbuf, herr] at hrest
          exact hfits ⟨fun _ => hroom, hrest⟩
        · rw [hbuf]
          exact hlimit
      · -- the pipe takes what it has room for, and the child is stuck with the rest
        obtain ⟨tr', s', hrun, hparent', hexited, htodo', hempty', hbuf, herr⟩ :=
          @exists_stderr_written pipes s writes tr n (pipes.capacity .stderr - s.pipe .stderr) rest
            h hparent htodo (by omega) (by omega)
        refine ⟨tr', s', hrun, .stderr, .stdout, by decide, ⟨_, rest, htodo', by omega, ?_, ?_⟩,
          hparent', hempty'.trans hempty, hexited.trans hrunning, ?_⟩
        · rw [hparent']
          rfl
        · rw [herr]
          omega
        · rw [hbuf]
          exact hlimit

/-! ### When the parent hangs -/

/-- No state of a run is a deadlock, and where a run can go no further the parent has
    returned. -/
def NeverHangs (pipes : Pipes) (writes : List (Stream × Nat)) : Prop :=
  ∀ tr s, Run (system pipes writes) tr s → ¬ Deadlocked pipes s ∧
    ((∀ l, (system pipes writes).next s l = none) → s.parent = .returned)

/-- **The output of the child never blocks the parent** exactly if, as long as the child has not
    written the limit to stdout, what it writes to stderr fits into its pipe. -/
theorem never_hangs_iff (pipes : Pipes) (writes : List (Stream × Nat)) :
    NeverHangs pipes writes ↔ Fits pipes 0 0 writes := by
  constructor
  · intro hnever
    by_contra hfits
    obtain ⟨tr, s, hrun, hdeadlocked⟩ := exists_deadlock (.init rfl : Run (system pipes writes)
      [] (started writes)) rfl rfl rfl (Nat.zero_le _) rfl hfits
    exact (hnever tr s hrun).1 hdeadlocked
  · intro hfits tr s hrun
    have hfree := not_deadlocked (fits_of_run hfits hrun)
    exact ⟨hfree, fun hstuck => returned_of_stuck (sound_of_run hrun) hstuck hfree⟩

/-! ### A child that says too much -/

/-- Pipes as Linux makes them. -/
def linux_pipes : Pipes := ⟨fun _ => 65536, fun _ => by decide⟩

/-- A child that exits without a word. -/
theorem run_length_le_of_silent_child : ∃ tr s, Run (system linux_pipes []) tr s ∧
    s.exited = true ∧ tr.length ≤ variant (started []) := by
  have hrun := run_step (.init rfl : Run (system linux_pipes []) [] _)
    (@Stepped.exited linux_pipes (started []) rfl rfl)
  exact ⟨_, _, hrun, rfl, run_length_le hrun⟩

/-- One byte more on stderr than its pipe holds, before anything on stdout. -/
theorem verbose_child_hangs :
    ¬ ∀ (pipes : Pipes) (writes : List (Stream × Nat)), NeverHangs pipes writes := by
  intro hall
  have hwritten := run_step (.init rfl : Run (system linux_pipes [(.stderr, 65537)]) [] _)
    (@Stepped.wrote linux_pipes (started [(.stderr, 65537)]) .stderr 65537 65536 [] rfl rfl
      (by decide) (by decide) (by decide))
  apply (hall linux_pipes [(.stderr, 65537)] _ _ hwritten).1
  refine ⟨.stderr, .stdout, by decide, ⟨1, [], rfl, by decide, rfl, ?_⟩, rfl, ?_, rfl, ?_⟩
  · rfl
  · rfl
  · decide

end Servo.ChildOutput
