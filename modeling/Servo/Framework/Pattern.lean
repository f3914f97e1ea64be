import Mathlib.Data.List.Induction
import Mathlib.Data.List.Basic

/-! # Patterns and their Replacement

    Regular expressions over an alphabet, whose matches depend on the symbols
    around them only through word boundaries. A search takes, at the first
    place where there is a match, the match that backtracking finds first.

    `replace_all` puts a label in the place of every match of a search. What
    matches in the text with the labels has been in the text before, and has
    matched there unless a label has given it a word boundary.
-/

/-- Regular expressions. The first of two alternatives and the longest of the runs come first. -/
inductive Pattern (α : Type) where
  /-- A run of symbols. -/
  | run (is : α → Bool) (least : Nat) (most : Option Nat)
  | seq (first second : Pattern α)
  | alt (first second : Pattern α)
  | boundary (word : α → Bool)

namespace Pattern

variable {α : Type}

instance : Append (Pattern α) := ⟨.seq⟩

/-- One symbol. -/
def one (is : α → Bool) : Pattern α := .run is 1 (some 1)

/-- A symbol, or none. -/
def optional (is : α → Bool) : Pattern α := .run is 0 (some 1)

def times (n : Nat) (is : α → Bool) : Pattern α := .run is n (some n)

def between (least most : Nat) (is : α → Bool) : Pattern α := .run is least (some most)

def at_least (n : Nat) (is : α → Bool) : Pattern α := .run is n none

/-! ### Matches -/

/-- The length of the longest run. -/
def longest (is : α → Bool) (most : Option Nat) (text : List α) : Nat :=
  match most with
  | some most => min most (text.takeWhile is).length
  | none => (text.takeWhile is).length

/-- The lengths of the matches at the beginning of a text, behind `prev`, as backtracking finds
    them. -/
def ends : Pattern α → Option α → List α → List Nat
  | .run is least most, _, text =>
    (List.range (longest is most text + 1 - least)).map fun fewer => longest is most text - fewer
  | .seq first second, prev, text =>
    (first.ends prev text).flatMap fun n =>
      (second.ends ((text.take n).getLast?.or prev) (text.drop n)).map fun k => n + k
  | .alt first second, prev, text => first.ends prev text ++ second.ends prev text
  | .boundary word, prev, text => if prev.any word = text.head?.any word then [] else [0]

/-- The pattern matches a word between two symbols. -/
def Matches : Pattern α → Option α → List α → Option α → Prop
  | .run is least most, _, found, _ =>
    (∀ a ∈ found, is a) ∧ least ≤ found.length ∧ ∀ n, most = some n → found.length ≤ n
  | .seq first second, prev, found, next =>
    ∃ front back, found = front ++ back ∧ first.Matches prev front (back.head?.or next) ∧
      second.Matches (front.getLast?.or prev) back next
  | .alt first second, prev, found, next =>
    first.Matches prev found next ∨ second.Matches prev found next
  | .boundary word, prev, found, next => found = [] ∧ prev.any word ≠ next.any word

theorem le_length_takeWhile_iff {is : α → Bool} {n : Nat} {text : List α} :
    n ≤ (text.takeWhile is).length ↔ n ≤ text.length ∧ ∀ a ∈ text.take n, is a := by
  induction text generalizing n with
  | nil => simp
  | cons a text ih =>
    cases n with
    | zero => simp
    | succ n =>
      rw [List.takeWhile_cons]
      by_cases ha : is a = true
      · simp [ha, ih]
      · simp [ha]

theorem le_longest_iff {is : α → Bool} {most : Option Nat} {n : Nat} {text : List α} :
    n ≤ longest is most text ↔
      n ≤ text.length ∧ (∀ a ∈ text.take n, is a) ∧ ∀ k, most = some k → n ≤ k := by
  unfold longest
  cases most with
  | none => simp [le_length_takeWhile_iff]
  | some k =>
    have hmost : (∀ l, some k = some l → n ≤ l) ↔ n ≤ k := by simp
    rw [Nat.le_min, le_length_takeWhile_iff, hmost, and_comm, and_assoc]

theorem head?_append_or (front : List α) (rest : List α) :
    (front ++ rest).head? = front.head?.or rest.head? := by
  cases front <;> simp

/-- The lengths are those of the matches. -/
theorem mem_ends {p : Pattern α} {prev : Option α} {text : List α} {n : Nat} :
    n ∈ p.ends prev text ↔
      ∃ found rest, text = found ++ rest ∧ found.length = n ∧ p.Matches prev found rest.head? := by
  induction p generalizing prev text n with
  | run is least most =>
    have hmem : n ∈ (Pattern.run is least most).ends prev text ↔
        least ≤ n ∧ n ≤ longest is most text := by
      unfold ends
      rw [List.mem_map]
      constructor
      · intro h
        obtain ⟨fewer, hfewer, rfl⟩ := h
        have hlt := List.mem_range.mp hfewer
        omega
      · intro h
        exact ⟨longest is most text - n, List.mem_range.mpr (by omega), by omega⟩
    rw [hmem, le_longest_iff]
    constructor
    · intro h
      obtain ⟨hleast, hlength, his, hmost⟩ := h
      have htake : (text.take n).length = n := List.length_take_of_le hlength
      refine ⟨text.take n, text.drop n, (List.take_append_drop n text).symm, htake, his, ?_, ?_⟩
      · rw [htake]
        exact hleast
      · rw [htake]
        exact hmost
    · intro h
      obtain ⟨found, rest, rfl, rfl, his, hleast, hmost⟩ := h
      refine ⟨hleast, by simp, ?_, hmost⟩
      rw [List.take_left]
      exact his
  | seq first second ihfirst ihsecond =>
    unfold ends
    rw [List.mem_flatMap]
    constructor
    · intro h
      obtain ⟨k, hk, h⟩ := h
      obtain ⟨l, hl, rfl⟩ := List.mem_map.mp h
      obtain ⟨front, rest, rfl, rfl, hfront⟩ := ihfirst.mp hk
      rw [List.take_left, List.drop_left] at hl
      obtain ⟨back, rest', rfl, rfl, hback⟩ := ihsecond.mp hl
      rw [head?_append_or] at hfront
      exact ⟨front ++ back, rest', (List.append_assoc _ _ _).symm, List.length_append, front,
        back, rfl, hfront, hback⟩
    · intro h
      obtain ⟨found, rest, rfl, rfl, front, back, rfl, hfront, hback⟩ := h
      rw [← head?_append_or] at hfront
      refine ⟨front.length, ihfirst.mpr ⟨front, back ++ rest, ?_, rfl, hfront⟩, ?_⟩
      · rw [List.append_assoc]
      · rw [List.append_assoc, List.take_left, List.drop_left, List.length_append]
        exact List.mem_map_of_mem (ihsecond.mpr ⟨back, rest, rfl, rfl, hback⟩)
  | alt first second ihfirst ihsecond =>
    unfold ends
    rw [List.mem_append, ihfirst, ihsecond]
    constructor
    · intro h
      rcases h with h | h
      · obtain ⟨found, rest, htext, hlength, hfound⟩ := h
        exact ⟨found, rest, htext, hlength, .inl hfound⟩
      · obtain ⟨found, rest, htext, hlength, hfound⟩ := h
        exact ⟨found, rest, htext, hlength, .inr hfound⟩
    · intro h
      obtain ⟨found, rest, htext, hlength, hfound⟩ := h
      rcases hfound with hfound | hfound
      · exact .inl ⟨found, rest, htext, hlength, hfound⟩
      · exact .inr ⟨found, rest, htext, hlength, hfound⟩
  | boundary word =>
    unfold ends
    constructor
    · intro h
      split at h
      · simp at h
      · next hne =>
        obtain rfl := List.mem_singleton.mp h
        exact ⟨[], text, rfl, rfl, rfl, hne⟩
    · intro h
      obtain ⟨found, rest, rfl, rfl, rfl, hne⟩ := h
      rw [List.nil_append, if_neg hne]
      exact List.mem_singleton_self 0

/-! ### Kinds of patterns -/

/-- Its matches are of symbols that satisfy `p`. -/
def Over (p : α → Prop) : Pattern α → Prop
  | .run is _ _ => ∀ a, is a = true → p a
  | .seq first second => first.Over p ∧ second.Over p
  | .alt first second => first.Over p ∧ second.Over p
  | .boundary _ => True

theorem of_mem_of_over {p : α → Prop} {q : Pattern α} (hover : q.Over p) {prev next : Option α}
    {found : List α} (h : q.Matches prev found next) {a : α} (ha : a ∈ found) : p a := by
  induction q generalizing prev found next with
  | run is least most => exact hover a (h.1 a ha)
  | seq first second ihfirst ihsecond =>
    obtain ⟨front, back, rfl, hfront, hback⟩ := h
    rcases List.mem_append.mp ha with ha | ha
    · exact ihfirst hover.1 hfront ha
    · exact ihsecond hover.2 hback ha
  | alt first second ihfirst ihsecond =>
    rcases h with h | h
    · exact ihfirst hover.1 h ha
    · exact ihsecond hover.2 h ha
  | boundary word =>
    rw [h.1] at ha
    cases ha

theorem over_mono {p p' : α → Prop} (hp : ∀ a, p a → p' a) {q : Pattern α} (h : q.Over p) :
    q.Over p' := by
  induction q with
  | run is least most => exact fun a ha => hp a (h a ha)
  | seq first second ihfirst ihsecond => exact ⟨ihfirst h.1, ihsecond h.2⟩
  | alt first second ihfirst ihsecond => exact ⟨ihfirst h.1, ihsecond h.2⟩
  | boundary word => exact trivial

/-- It has no boundaries. -/
def Plain : Pattern α → Prop
  | .run _ _ _ => True
  | .seq first second => first.Plain ∧ second.Plain
  | .alt first second => first.Plain ∧ second.Plain
  | .boundary _ => False

/-- A word that it matches is a match wherever it stands. -/
def Free (q : Pattern α) : Prop :=
  ∀ prev found next, q.Matches prev found next → ∀ prev' next', q.Matches prev' found next'

theorem free_of_plain {q : Pattern α} (hplain : q.Plain) : q.Free := by
  induction q with
  | run is least most => exact fun _ _ _ h _ _ => h
  | seq first second ihfirst ihsecond =>
    intro prev found next h prev' next'
    obtain ⟨front, back, rfl, hfront, hback⟩ := h
    exact ⟨front, back, rfl, ihfirst hplain.1 _ _ _ hfront _ _,
      ihsecond hplain.2 _ _ _ hback _ _⟩
  | alt first second ihfirst ihsecond =>
    intro prev found next h prev' next'
    rcases h with h | h
    · exact .inl (ihfirst hplain.1 _ _ _ h _ _)
    · exact .inr (ihsecond hplain.2 _ _ _ h _ _)
  | boundary word => exact hplain.elim

section simp_set

variable {p : α → Prop} {first second : Pattern α} {is : α → Bool} {n k : Nat}

@[simp] theorem over_append : (first ++ second).Over p ↔ first.Over p ∧ second.Over p := .rfl

@[simp] theorem over_alt : (Pattern.alt first second).Over p ↔ first.Over p ∧ second.Over p := .rfl

@[simp] theorem over_one : (one is).Over p ↔ ∀ a, is a = true → p a := .rfl

@[simp] theorem over_optional : (optional is).Over p ↔ ∀ a, is a = true → p a := .rfl

@[simp] theorem over_times : (times n is).Over p ↔ ∀ a, is a = true → p a := .rfl

@[simp] theorem over_between : (between n k is).Over p ↔ ∀ a, is a = true → p a := .rfl

@[simp] theorem over_at_least : (at_least n is).Over p ↔ ∀ a, is a = true → p a := .rfl

@[simp] theorem plain_append : (first ++ second).Plain ↔ first.Plain ∧ second.Plain := .rfl

@[simp] theorem plain_alt : (Pattern.alt first second).Plain ↔ first.Plain ∧ second.Plain := .rfl

@[simp] theorem plain_one : (one is).Plain := trivial

@[simp] theorem plain_optional : (optional is).Plain := trivial

@[simp] theorem plain_times : (times n is).Plain := trivial

@[simp] theorem plain_between : (between n k is).Plain := trivial

@[simp] theorem plain_at_least : (at_least n is).Plain := trivial

end simp_set

/-- Its matches begin with a symbol that satisfies `p`. -/
def StartsWith (p : α → Prop) (q : Pattern α) : Prop :=
  ∀ prev found next, q.Matches prev found next → ∃ a, found.head? = some a ∧ p a

/-- Its matches end with a symbol that satisfies `p`. -/
def EndsWith (p : α → Prop) (q : Pattern α) : Prop :=
  ∀ prev found next, q.Matches prev found next → ∃ a, found.getLast? = some a ∧ p a

section starts

variable {p : α → Prop} {first second : Pattern α}

theorem startsWith_run {is : α → Bool} {least : Nat} {most : Option Nat} (hleast : 0 < least)
    (his : ∀ a, is a = true → p a) : (Pattern.run is least most).StartsWith p := by
  intro prev found next h
  cases found with
  | nil => exact absurd h.2.1 (by simp; omega)
  | cons a found => exact ⟨a, rfl, his a (h.1 a List.mem_cons_self)⟩

theorem endsWith_run {is : α → Bool} {least : Nat} {most : Option Nat} (hleast : 0 < least)
    (his : ∀ a, is a = true → p a) : (Pattern.run is least most).EndsWith p := by
  intro prev found next h
  cases hlast : found.getLast? with
  | none =>
    rw [List.getLast?_eq_none_iff.mp hlast] at h
    exact absurd h.2.1 (by simp; omega)
  | some a => exact ⟨a, rfl, his a (h.1 a (List.mem_of_getLast? hlast))⟩

theorem startsWith_mono {p' : α → Prop} {q : Pattern α} (hp : ∀ a, p a → p' a)
    (h : q.StartsWith p) : q.StartsWith p' := by
  intro prev found next hmatches
  obtain ⟨a, hhead, ha⟩ := h _ _ _ hmatches
  exact ⟨a, hhead, hp a ha⟩

theorem endsWith_mono {p' : α → Prop} {q : Pattern α} (hp : ∀ a, p a → p' a)
    (h : q.EndsWith p) : q.EndsWith p' := by
  intro prev found next hmatches
  obtain ⟨a, hlast, ha⟩ := h _ _ _ hmatches
  exact ⟨a, hlast, hp a ha⟩

theorem startsWith_alt (hfirst : first.StartsWith p) (hsecond : second.StartsWith p) :
    (Pattern.alt first second).StartsWith p := by
  intro prev found next h
  rcases h with h | h
  · exact hfirst _ _ _ h
  · exact hsecond _ _ _ h

theorem endsWith_alt (hfirst : first.EndsWith p) (hsecond : second.EndsWith p) :
    (Pattern.alt first second).EndsWith p := by
  intro prev found next h
  rcases h with h | h
  · exact hfirst _ _ _ h
  · exact hsecond _ _ _ h

theorem startsWith_seq (hfirst : first.StartsWith p) : (Pattern.seq first second).StartsWith p := by
  intro prev found next h
  obtain ⟨front, back, rfl, hfront, -⟩ := h
  obtain ⟨a, hhead, ha⟩ := hfirst _ _ _ hfront
  exact ⟨a, by simp [hhead], ha⟩

theorem endsWith_seq (hsecond : second.EndsWith p) : (Pattern.seq first second).EndsWith p := by
  intro prev found next h
  obtain ⟨front, back, rfl, -, hback⟩ := h
  obtain ⟨a, hlast, ha⟩ := hsecond _ _ _ hback
  exact ⟨a, by simp [hlast], ha⟩

/-- What comes first may be empty. -/
theorem startsWith_seq_over (hfirst : first.Over p) (hsecond : second.StartsWith p) :
    (Pattern.seq first second).StartsWith p := by
  intro prev found next h
  obtain ⟨front, back, rfl, hfront, hback⟩ := h
  cases front with
  | nil => exact hsecond _ _ _ hback
  | cons a front => exact ⟨a, rfl, of_mem_of_over hfirst hfront List.mem_cons_self⟩

/-- What comes last may be empty. -/
theorem endsWith_seq_over (hfirst : first.EndsWith p) (hsecond : second.Over p) :
    (Pattern.seq first second).EndsWith p := by
  intro prev found next h
  obtain ⟨front, back, rfl, hfront, hback⟩ := h
  cases hlast : back.getLast? with
  | none =>
    rw [List.getLast?_eq_none_iff.mp hlast, List.append_nil]
    exact hfirst _ _ _ hfront
  | some a =>
    exact ⟨a, by simp [hlast], of_mem_of_over hsecond hback (List.mem_of_getLast? hlast)⟩

end starts

/-! ### Word boundaries -/

section words

variable (word : α → Bool)

/-- Between two boundaries. -/
def guarded (body : Pattern α) : Pattern α := .seq (.boundary word) (.seq body (.boundary word))

@[simp] theorem over_guarded {word : α → Bool} {p : α → Prop} {body : Pattern α} :
    (guarded word body).Over p ↔ body.Over p := by
  simp [guarded, Over]

/-- A match that stands anywhere, or one that is a whole word. -/
def Settled (q : Pattern α) : Prop :=
  ∀ prev found next, q.Matches prev found next →
    (∀ prev' next', q.Matches prev' found next') ∨
      found.head?.any word = true ∧ found.getLast?.any word = true ∧
        prev.any word = false ∧ next.any word = false ∧
        ∀ prev' next', prev'.any word = false → next'.any word = false →
          q.Matches prev' found next'

/-- No match begins inside a word. -/
def CleanLeft (q : Pattern α) : Prop :=
  ∀ prev found next, q.Matches prev found next →
    prev.any word = true → found.head?.any word = false

/-- No match ends inside a word. -/
def CleanRight (q : Pattern α) : Prop :=
  ∀ prev found next, q.Matches prev found next →
    found.getLast?.any word = true → next.any word = false

variable {word} {body : Pattern α}

/-- A guarded pattern whose matches begin and end with symbols of words. -/
theorem guarded_iff (hplain : body.Free) (hstart : body.StartsWith fun a => word a = true)
    (hend : body.EndsWith fun a => word a = true) {prev next : Option α} {found : List α} :
    (guarded word body).Matches prev found next ↔
      body.Matches none found none ∧ prev.any word = false ∧ next.any word = false := by
  have hwords : ∀ {found}, body.Matches none found none →
      found.head?.any word = true ∧ found.getLast?.any word = true := by
    intro found hbody
    obtain ⟨a, hhead, ha⟩ := hstart _ _ _ hbody
    obtain ⟨b, hlast, hb⟩ := hend _ _ _ hbody
    exact ⟨by simp [hhead, ha], by simp [hlast, hb]⟩
  have hor : ∀ {a b : Option α}, a.any word = true → (a.or b).any word = true := by
    intro a b ha
    cases a with
    | none => cases ha
    | some a => exact ha
  constructor
  · intro h
    obtain ⟨front, rest, rfl, ⟨rfl, hleft⟩, middle, back, rfl, hbody, rfl, hright⟩ := h
    have hbody := hplain _ _ _ hbody none none
    obtain ⟨hhead, hlast⟩ := hwords hbody
    rw [List.nil_append, List.append_nil]
    rw [List.append_nil, hor hhead] at hleft
    rw [hor hlast] at hright
    exact ⟨hbody, by simpa using hleft, by simpa using hright.symm⟩
  · intro h
    obtain ⟨hbody, hprev, hnext⟩ := h
    obtain ⟨hhead, hlast⟩ := hwords hbody
    refine ⟨[], found, rfl, ⟨rfl, ?_⟩, found, [], (List.append_nil _).symm,
      hplain _ _ _ hbody _ _, rfl, ?_⟩
    · rw [hprev, hor hhead]
      exact Bool.false_ne_true
    · rw [hor hlast]
      simp [hnext]

theorem settled_of_free {q : Pattern α} (h : q.Free) : q.Settled word :=
  fun _ _ _ hmatches => .inl (h _ _ _ hmatches)

theorem settled_alt {first second : Pattern α} (hfirst : first.Settled word)
    (hsecond : second.Settled word) : (Pattern.alt first second).Settled word := by
  intro prev found next h
  rcases h with h | h
  · rcases hfirst _ _ _ h with hfree | ⟨hhead, hlast, hprev, hnext, hwhole⟩
    · exact .inl fun _ _ => .inl (hfree _ _)
    · exact .inr ⟨hhead, hlast, hprev, hnext, fun _ _ h h' => .inl (hwhole _ _ h h')⟩
  · rcases hsecond _ _ _ h with hfree | ⟨hhead, hlast, hprev, hnext, hwhole⟩
    · exact .inl fun _ _ => .inr (hfree _ _)
    · exact .inr ⟨hhead, hlast, hprev, hnext, fun _ _ h h' => .inr (hwhole _ _ h h')⟩

theorem settled_guarded (hplain : body.Free) (hstart : body.StartsWith fun a => word a = true)
    (hend : body.EndsWith fun a => word a = true) : (guarded word body).Settled word := by
  intro prev found next h
  obtain ⟨hbody, hprev, hnext⟩ := (guarded_iff hplain hstart hend).mp h
  obtain ⟨a, hhead, ha⟩ := hstart _ _ _ hbody
  obtain ⟨b, hlast, hb⟩ := hend _ _ _ hbody
  exact .inr ⟨by simp [hhead, ha], by simp [hlast, hb], hprev, hnext,
    fun _ _ h h' => (guarded_iff hplain hstart hend).mpr ⟨hbody, h, h'⟩⟩

theorem cleanLeft_guarded (hplain : body.Free) (hstart : body.StartsWith fun a => word a = true)
    (hend : body.EndsWith fun a => word a = true) : (guarded word body).CleanLeft word := by
  intro prev found next h hprev
  rw [((guarded_iff hplain hstart hend).mp h).2.1] at hprev
  cases hprev

theorem cleanRight_guarded (hplain : body.Free) (hstart : body.StartsWith fun a => word a = true)
    (hend : body.EndsWith fun a => word a = true) : (guarded word body).CleanRight word :=
  fun _ _ _ h _ => ((guarded_iff hplain hstart hend).mp h).2.2

theorem cleanLeft_alt {first second : Pattern α} (hfirst : first.CleanLeft word)
    (hsecond : second.CleanLeft word) : (Pattern.alt first second).CleanLeft word := by
  intro prev found next h
  rcases h with h | h
  · exact hfirst _ _ _ h
  · exact hsecond _ _ _ h

theorem cleanRight_alt {first second : Pattern α} (hfirst : first.CleanRight word)
    (hsecond : second.CleanRight word) : (Pattern.alt first second).CleanRight word := by
  intro prev found next h
  rcases h with h | h
  · exact hfirst _ _ _ h
  · exact hsecond _ _ _ h

/-- A match that begins with a symbol of no word. -/
theorem cleanLeft_of_startsWith {q : Pattern α} (h : q.StartsWith fun a => word a = false) :
    q.CleanLeft word := by
  intro prev found next hmatches _
  obtain ⟨a, hhead, ha⟩ := h _ _ _ hmatches
  simp [hhead, ha]

end words

/-! ### Replacing all matches -/

/-- A symbol that a replacement keeps, or a match that it replaces. -/
inductive Token (α : Type) where
  | kept (a : α)
  | replaced (found : List α)

/-- The text of the tokens. -/
def original : List (Token α) → List α
  | [] => []
  | .kept a :: tokens => a :: original tokens
  | .replaced found :: tokens => found ++ original tokens

/-- Their text with a label for each match. -/
def rendered (label : List α) : List (Token α) → List α
  | [] => []
  | .kept a :: tokens => a :: rendered label tokens
  | .replaced _ :: tokens => label ++ rendered label tokens

/-- The search from left to right, behind `prev`, the next `skip` symbols of which belong to the
    last match. -/
def scan (q : Pattern α) (prev : Option α) : Nat → List α → List (Token α)
  | _, [] => []
  | skip + 1, a :: text => scan q (some a) skip text
  | 0, a :: text =>
    match (q.ends prev (a :: text)).head? with
    | some (n + 1) => .replaced (a :: text.take n) :: scan q (some a) n text
    | _ => .kept a :: scan q (some a) 0 text

/-- All matches of the search are replaced by the label. -/
def replace_all (q : Pattern α) (label text : List α) : List α :=
  rendered label (q.scan none 0 text)

theorem original_append (before after : List (Token α)) :
    original (before ++ after) = original before ++ original after := by
  induction before with
  | nil => rfl
  | cons token before ih =>
    cases token with
    | kept a => simp [original, ih]
    | replaced found => simp [original, ih]

theorem rendered_append (label : List α) (before after : List (Token α)) :
    rendered label (before ++ after) = rendered label before ++ rendered label after := by
  induction before with
  | nil => rfl
  | cons token before ih =>
    cases token with
    | kept a => simp [rendered, ih]
    | replaced found => simp [rendered, ih]

@[simp] theorem original_kept (text : List α) : original (text.map .kept) = text := by
  induction text with
  | nil => rfl
  | cons a text ih => simp [original, ih]

@[simp] theorem rendered_kept (label text : List α) : rendered label (text.map .kept) = text := by
  induction text with
  | nil => rfl
  | cons a text ih => simp [rendered, ih]

/-- What a search has found: no match begins at a symbol that it keeps, and what it replaces is
    a match. -/
inductive Scanned (q : Pattern α) : Option α → List (Token α) → Prop where
  | nil {prev} : Scanned q prev []
  | kept {prev a tokens}
      (none_here : ∀ found rest, found ≠ [] → a :: original tokens = found ++ rest →
        ¬ q.Matches prev found rest.head?)
      (later : Scanned q (some a) tokens) : Scanned q prev (.kept a :: tokens)
  | replaced {prev found tokens} (nonempty : found ≠ [])
      (here : q.Matches prev found (original tokens).head?)
      (later : Scanned q (found.getLast?.or prev) tokens) :
      Scanned q prev (.replaced found :: tokens)

theorem getLast?_cons_or (a : α) (text : List α) (prev : Option α) :
    (a :: text).getLast?.or prev = text.getLast?.or (some a) := by
  rw [List.getLast?_cons]
  cases text.getLast? <;> rfl

/-- A search of a pattern with no empty match finds as it should. -/
theorem scanned_scan {q : Pattern α} (hq : ∀ prev next, ¬ q.Matches prev [] next)
    (text : List α) (prev : Option α) (skip : Nat) :
    Scanned q ((text.take skip).getLast?.or prev) (q.scan prev skip text) ∧
      original (q.scan prev skip text) = text.drop skip := by
  induction text generalizing prev skip with
  | nil =>
    cases skip <;> exact ⟨.nil, by simp [scan, original]⟩
  | cons a text ih =>
    cases skip with
    | succ skip =>
      rw [List.take_succ_cons, getLast?_cons_or]
      exact ih (some a) skip
    | zero =>
      unfold scan
      split
      · next n hends =>
        obtain ⟨hlater, htext⟩ := ih (some a) n
        obtain ⟨found, rest, heq, hlength, hfound⟩ := mem_ends.mp (List.mem_of_head? hends)
        have hparts : found = a :: text.take n ∧ rest = text.drop n := by
          have htake : (a :: text).take (n + 1) = a :: text.take n := rfl
          have hdrop : (a :: text).drop (n + 1) = text.drop n := rfl
          rw [heq, ← show found.length = n + 1 from hlength, List.take_left] at htake
          rw [heq, ← show found.length = n + 1 from hlength, List.drop_left] at hdrop
          exact ⟨htake, hdrop⟩
        obtain ⟨rfl, rfl⟩ := hparts
        refine ⟨.replaced (by simp) ?_ ?_, ?_⟩
        · rw [htext]
          exact hfound
        · rw [getLast?_cons_or]
          exact hlater
        · simp [original, htext]
      · next hends =>
        obtain ⟨hlater, htext⟩ := ih (some a) 0
        refine ⟨.kept ?_ hlater, by simp [original, htext]⟩
        intro found rest hne heq hfound
        rw [htext, List.drop_zero] at heq
        have hmem : found.length ∈ q.ends prev (a :: text) :=
          mem_ends.mpr ⟨found, rest, heq, rfl, hfound⟩
        obtain ⟨n, hn⟩ := Option.isSome_iff_exists.mp
          (List.isSome_head?.mpr (List.ne_nil_of_mem hmem))
        cases n with
        | succ n => exact hends n hn
        | zero =>
          obtain ⟨found', rest', -, hlength, hfound'⟩ := mem_ends.mp (List.mem_of_head? hn)
          rw [List.length_eq_zero_iff.mp hlength] at hfound'
          exact hq _ _ hfound'

/-! ### What the labels leave -/

section rendered

variable {label : List α}

/-- A text with labels is parted between two tokens, or in a label. -/
theorem rendered_eq_append {tokens : List (Token α)} {front back : List α}
    (h : rendered label tokens = front ++ back) :
    (∃ before after, tokens = before ++ after ∧ rendered label before = front ∧
        rendered label after = back) ∨
      ∃ before found after left right, tokens = before ++ .replaced found :: after ∧
        label = left ++ right ∧ left ≠ [] ∧ right ≠ [] ∧ front = rendered label before ++ left ∧
        back = right ++ rendered label after := by
  induction tokens generalizing front with
  | nil =>
    obtain ⟨rfl, rfl⟩ := List.nil_eq_append_iff.mp h
    exact .inl ⟨[], [], rfl, rfl, rfl⟩
  | cons token tokens ih =>
    cases token with
    | kept a =>
      cases front with
      | nil => exact .inl ⟨[], _, rfl, rfl, h⟩
      | cons b front =>
        obtain ⟨rfl, hrest⟩ := List.cons.inj h
        obtain ⟨before, after, rfl, hbefore, hafter⟩ |
          ⟨before, found, after, left, right, rfl, hlabel, hleft, hright, hfront, hback⟩ := ih hrest
        · exact .inl ⟨.kept a :: before, after, rfl, congrArg (a :: ·) hbefore, hafter⟩
        · exact .inr ⟨.kept a :: before, found, after, left, right, rfl, hlabel, hleft, hright,
            congrArg (a :: ·) hfront, hback⟩
    | replaced found =>
      rcases List.append_eq_append_iff.mp h with ⟨front', rfl, hrest⟩ | ⟨right, hlabel, hback⟩
      · obtain ⟨before, after, rfl, hbefore, hafter⟩ |
          ⟨before, found', after, left, right, rfl, hlabel, hleft, hright, hfront, hback⟩ :=
          ih hrest
        · exact .inl ⟨.replaced found :: before, after, rfl, congrArg (label ++ ·) hbefore,
            hafter⟩
        · refine .inr ⟨.replaced found :: before, found', after, left, right, rfl, hlabel, hleft,
            hright, ?_, hback⟩
          rw [hfront, ← List.append_assoc]
          rfl
      · by_cases hfront : front = []
        · subst hfront
          exact .inl ⟨[], _, rfl, rfl, h⟩
        · by_cases hright : right = []
          · subst hright
            rw [List.append_nil] at hlabel
            exact .inl ⟨[.replaced found], tokens, rfl, by simp [rendered, hlabel],
              by simpa using hback.symm⟩
          · exact .inr ⟨[], found, tokens, front, right, rfl, hlabel, hfront, hright, rfl, hback⟩

/-- Symbols without the first of a label are kept. -/
theorem eq_kept_of_rendered {opening : α} (hopening : label.head? = some opening)
    {tokens : List (Token α)} (h : opening ∉ rendered label tokens) :
    tokens = (rendered label tokens).map .kept := by
  induction tokens with
  | nil => rfl
  | cons token tokens ih =>
    cases token with
    | kept a =>
      unfold rendered at h ⊢
      rw [List.mem_cons, not_or] at h
      rw [List.map_cons, ← ih h.2]
    | replaced found =>
      unfold rendered at h
      exact absurd (List.mem_append_left _ (List.mem_of_head? hopening)) h

/-- A word that cannot be a part of a label. -/
structure Outside (label found : List α) : Prop where
  opening : ∀ a, label.head? = some a → a ∉ found
  closing : ∀ a, label.getLast? = some a → a ∉ found
  other : ∃ a ∈ found, a ∉ label

/-- A word outside the labels has been kept. -/
theorem kept_of_rendered (hlabel : label ≠ []) {tokens : List (Token α)}
    {front found back : List α} (h : rendered label tokens = front ++ found ++ back)
    (houtside : Outside label found) :
    ∃ before after, tokens = before ++ found.map .kept ++ after ∧
      rendered label before = front ∧ rendered label after = back := by
  obtain ⟨opening, hopening⟩ := Option.isSome_iff_exists.mp (List.isSome_head?.mpr hlabel)
  have hopening_notMem := houtside.opening opening hopening
  rw [List.append_assoc] at h
  obtain ⟨before, rest, rfl, hbefore, hrest⟩ |
    ⟨before, _, after, left, right, -, hparts, -, hright, -, hback⟩ := rendered_eq_append h
  · obtain ⟨middle, after, rfl, rfl, hafter⟩ |
      ⟨middle, _, after, left, right, -, hparts, hleft, -, rfl, -⟩ := rendered_eq_append hrest
    · refine ⟨before, after, ?_, hbefore, hafter⟩
      rw [← eq_kept_of_rendered hopening hopening_notMem, List.append_assoc]
    · -- the word would end with the beginning of a label
      have hmem : opening ∈ left := by
        rw [hparts, List.head?_append_of_ne_nil _ hleft] at hopening
        exact List.mem_of_head? hopening
      exact absurd (List.mem_append_right _ hmem) hopening_notMem
  · -- the word would begin inside a label
    obtain ⟨a, ha, hother⟩ := houtside.other
    rcases List.append_eq_append_iff.mp hback with ⟨more, rfl, -⟩ | ⟨more, rfl, -⟩
    · rw [hparts] at hother
      exact absurd (List.mem_append_right _ (List.mem_append_left _ ha)) hother
    · have hclosing : right.getLast? = some (right.getLast hright) :=
        List.getLast?_eq_some_getLast hright
      refine absurd (List.mem_append_left _ (List.mem_of_getLast? hclosing))
        (houtside.closing _ ?_)
      rw [hparts, List.getLast?_append, hclosing]
      rfl

end rendered

/-! ### Where the matches come from -/

namespace Scanned

variable {q : Pattern α} {prev : Option α}

theorem behind {before after : List (Token α)} (h : Scanned q prev (before ++ after)) :
    Scanned q ((original before).getLast?.or prev) after := by
  induction before generalizing prev with
  | nil => exact h
  | cons token before ih =>
    cases h with
    | kept none_here later =>
      unfold original
      rw [getLast?_cons_or]
      exact ih later
    | replaced nonempty here later =>
      unfold original
      rw [List.getLast?_append, Option.or_assoc]
      exact ih later

/-- Where a symbol is kept there is no match. -/
theorem not_matches {before after : List (Token α)} {found : List α}
    (h : Scanned q none (before ++ found.map .kept ++ after)) (hne : found ≠ []) :
    ¬ q.Matches (original before).getLast? found (original after).head? := by
  rw [List.append_assoc] at h
  have hbehind := h.behind
  rw [Option.or_none] at hbehind
  cases found with
  | nil => exact absurd rfl hne
  | cons a found =>
    cases hbehind with
    | kept none_here later =>
      apply none_here (a :: found) (original after) hne
      have happend := original_append (found.map .kept) after
      rw [original_kept] at happend
      exact congrArg (a :: ·) happend

/-- What is replaced is a match where it stands. -/
theorem matches_replaced {before after : List (Token α)} {found : List α}
    (h : Scanned q none (before ++ .replaced found :: after)) :
    found ≠ [] ∧ q.Matches (original before).getLast? found (original after).head? := by
  have hbehind := h.behind
  rw [Option.or_none] at hbehind
  cases hbehind with
  | replaced nonempty here later => exact ⟨nonempty, here⟩

/-- What matches between the labels has matched before, unless a label that gives it a boundary
    stands before it. -/
theorem origin {word : α → Bool} {p : Pattern α} {label found : List α}
    {before after : List (Token α)} (h : Scanned p none (before ++ found.map .kept ++ after))
    (hne : found ≠ []) (hleft : p.CleanLeft word) (hq : q.Settled word)
    (hfound : q.Matches (rendered label before).getLast? found (rendered label after).head?) :
    q.Matches (original before).getLast? found (original after).head? ∨
      label <:+ rendered label before ∧ ¬ p.CleanRight word := by
  rcases hq _ _ _ hfound with hfree | ⟨hhead, hlast, hprev, hnext, hwhole⟩
  · exact .inl (hfree _ _)
  · have hnext' : (original after).head?.any word = false := by
      cases after with
      | nil => rfl
      | cons token after =>
        cases token with
        | kept a => exact hnext
        | replaced x =>
          obtain ⟨hx, hmatches⟩ := h.matches_replaced
          rw [original_append, original_kept, List.getLast?_append] at hmatches
          have hlast' : (found.getLast?.or (original before).getLast?).any word = true := by
            rw [List.getLast?_eq_some_getLast hne] at hlast ⊢
            exact hlast
          unfold original
          rw [List.head?_append_of_ne_nil _ hx]
          exact hleft _ _ _ hmatches hlast'
    rcases List.eq_nil_or_concat before with rfl | ⟨before, token, rfl⟩
    · exact .inl (hwhole _ _ rfl hnext')
    · rw [List.concat_eq_append] at h hprev ⊢
      rw [original_append, rendered_append, List.getLast?_append]
      rw [rendered_append, List.getLast?_append] at hprev
      cases token with
      | kept a => exact .inl (hwhole _ _ hprev hnext')
      | replaced x =>
        by_cases hright : p.CleanRight word
        · rw [List.append_assoc, List.append_assoc, List.singleton_append] at h
          obtain ⟨hx, hmatches⟩ := h.matches_replaced
          rw [original_append, original_kept, List.head?_append_of_ne_nil _ hne] at hmatches
          have hx' : x.getLast?.any word = false := by
            by_contra hword
            rw [hright _ _ _ hmatches (by simpa using hword)] at hhead
            cases hhead
          refine .inl (hwhole _ _ ?_ hnext')
          have hsingle : original [Token.replaced x] = x := List.append_nil x
          rw [hsingle]
          rw [List.getLast?_eq_some_getLast hx] at hx' ⊢
          exact hx'
        · exact .inr ⟨⟨rendered label before, by simp [rendered]⟩, hright⟩

theorem replaced_of_mem {p : Pattern α} {prev : Option α} {tokens : List (Token α)}
    (h : Scanned p prev tokens) {found : List α} (hmem : .replaced found ∈ tokens) :
    found ≠ [] ∧ ∃ prev next, p.Matches prev found next := by
  induction h with
  | nil => cases hmem
  | kept none_here later ih =>
    rcases List.mem_cons.mp hmem with heq | hmem
    · cases heq
    · exact ih hmem
  | replaced nonempty here later ih =>
    rcases List.mem_cons.mp hmem with heq | hmem
    · cases heq
      exact ⟨nonempty, _, _, here⟩
    · exact ih hmem

end Scanned

/-- A word that shares no symbol with what is replaced stays before a place. -/
theorem suffix_rendered {mark label : List α} {tokens : List (Token α)}
    (hreplaced : ∀ found, .replaced found ∈ tokens → found ≠ [] ∧ ∀ a ∈ found, a ∉ mark)
    (h : mark <:+ original tokens) : mark <:+ rendered label tokens := by
  induction mark using List.reverseRecOn generalizing tokens with
  | nil => exact List.nil_suffix
  | append_singleton mark a ih =>
    obtain ⟨text, htext⟩ := h
    rw [← List.append_assoc] at htext
    rcases List.eq_nil_or_concat tokens with rfl | ⟨tokens, token, rfl⟩
    · cases List.append_ne_nil_of_right_ne_nil _ (List.cons_ne_nil a []) htext
    · rw [List.concat_eq_append] at hreplaced htext ⊢
      rw [original_append] at htext
      cases token with
      | kept b =>
        obtain ⟨hbefore, heq⟩ := List.append_inj' htext rfl
        cases heq
        have hearlier : ∀ found, .replaced found ∈ tokens → found ≠ [] ∧ ∀ b ∈ found, b ∉ mark := by
          intro found hmem
          obtain ⟨hne, hother⟩ := hreplaced found (List.mem_append_left _ hmem)
          exact ⟨hne, fun b hb hmark => hother b hb (List.mem_append_left _ hmark)⟩
        obtain ⟨front, hfront⟩ := ih hearlier ⟨text, hbefore⟩
        refine ⟨front, ?_⟩
        rw [rendered_append, ← hfront, List.append_assoc]
        rfl
      | replaced found =>
        obtain ⟨hne, hother⟩ := hreplaced found (by simp)
        have hlast := congrArg List.getLast? htext
        have hsingle : original [Token.replaced found] = found := List.append_nil found
        rw [hsingle, List.getLast?_append, List.getLast?_append, List.getLast?_append,
          List.getLast?_eq_some_getLast hne] at hlast
        have ha : found.getLast hne = a := (Option.some.inj hlast).symm
        exact absurd (by simp [ha]) (hother _ (List.getLast_mem hne))

/-! ### Texts in which a pattern is found -/

section found

variable {word : α → Bool} {p q : Pattern α} {label text : List α}

/-- It matches a part of the text. -/
def Found (q : Pattern α) (text : List α) : Prop :=
  ∃ before found after, text = before ++ found ++ after ∧
    q.Matches before.getLast? found after.head?

/-- It matches a part of the text that does not come directly behind `mark`. -/
def FoundElsewhere (mark : List α) (q : Pattern α) (text : List α) : Prop :=
  ∃ before found after, text = before ++ found ++ after ∧
    q.Matches before.getLast? found after.head? ∧ ¬ mark <:+ before

/-- No match is a part of the label. -/
def Avoids (label : List α) (q : Pattern α) : Prop :=
  ∀ prev found next, q.Matches prev found next → Outside label found

theorem not_matches_nil_of_avoids (h : q.Avoids label) (prev next : Option α) :
    ¬ q.Matches prev [] next := by
  intro hmatches
  obtain ⟨a, ha, -⟩ := (h _ _ _ hmatches).other
  cases ha

/-- Replacing `p` gives no match of `q` a boundary, at least behind `front`. -/
def Carries (word : α → Bool) (p : Pattern α) (label front : List α) (q : Pattern α) : Prop :=
  q.Free ∨ p.CleanLeft word ∧ q.Settled word ∧ (p.CleanRight word ∨ ¬ label <:+ front)

theorem replace_all_origin (hlabel : label ≠ []) (hp : p.Avoids label) (hq : q.Avoids label)
    {front found back : List α} (hcarries : Carries word p label front q)
    (htext : p.replace_all label text = front ++ found ++ back)
    (hfound : q.Matches front.getLast? found back.head?) :
    ∃ before after, Scanned p none (before ++ found.map .kept ++ after) ∧
      text = original before ++ found ++ original after ∧ rendered label before = front ∧
      q.Matches (original before).getLast? found (original after).head? := by
  obtain ⟨hscanned, horiginal⟩ := scanned_scan (not_matches_nil_of_avoids hp) text none 0
  have houtside := hq _ _ _ hfound
  obtain ⟨before, after, htokens, rfl, rfl⟩ := kept_of_rendered hlabel htext houtside
  rw [htokens] at hscanned horiginal
  rw [original_append, original_append, original_kept] at horiginal
  refine ⟨before, after, hscanned, horiginal.symm, rfl, ?_⟩
  rcases hcarries with hfree | ⟨hleft, hsettled, hright⟩
  · exact hfree _ _ _ hfound _ _
  · have hne : found ≠ [] := by
      obtain ⟨a, ha, -⟩ := houtside.other
      exact List.ne_nil_of_mem ha
    rcases hscanned.origin hne hleft hsettled hfound with horigin | ⟨hbehind, hdirty⟩
    · exact horigin
    · exact absurd hbehind (hright.resolve_left hdirty)

theorem FoundElsewhere.found {mark : List α} (h : FoundElsewhere mark q text) : Found q text := by
  obtain ⟨before, found, after, htext, hfound, -⟩ := h
  exact ⟨before, found, after, htext, hfound⟩

/-- What is found after a replacement has been found before. -/
theorem found_of_replace_all (hlabel : label ≠ []) (hp : p.Avoids label) (hq : q.Avoids label)
    (hcarries : ∀ front, Carries word p label front q) (h : Found q (p.replace_all label text)) :
    Found q text := by
  obtain ⟨front, found, back, htext, hfound⟩ := h
  obtain ⟨before, after, -, horiginal, -, hmatches⟩ :=
    replace_all_origin hlabel hp hq (hcarries front) htext hfound
  exact ⟨original before, found, original after, horiginal, hmatches⟩

/-- The same behind `mark`, which no match of `p` touches. -/
theorem elsewhere_of_replace_all {mark : List α} (hlabel : label ≠ []) (hp : p.Avoids label)
    (hq : q.Avoids label) (hmark : p.Over fun a => a ∉ mark)
    (hcarries : ∀ front, Carries word p label front q)
    (h : FoundElsewhere mark q (p.replace_all label text)) : FoundElsewhere mark q text := by
  obtain ⟨front, found, back, htext, hfound, helsewhere⟩ := h
  obtain ⟨before, after, hscanned, horiginal, rfl, hmatches⟩ :=
    replace_all_origin hlabel hp hq (hcarries front) htext hfound
  refine ⟨original before, found, original after, horiginal, hmatches, ?_⟩
  intro hsuffix
  apply helsewhere
  apply suffix_rendered _ hsuffix
  intro x hx
  rw [List.append_assoc] at hscanned
  obtain ⟨hne, prev, next, hx⟩ := hscanned.replaced_of_mem (List.mem_append_left _ hx)
  exact ⟨hne, fun a ha => of_mem_of_over hmark hx ha⟩

/-- What is found after a replacement that leaves words open, but not directly behind a label. -/
theorem found_of_elsewhere (hlabel : label ≠ []) (hp : p.Avoids label) (hq : q.Avoids label)
    (hleft : p.CleanLeft word) (hsettled : q.Settled word)
    (h : FoundElsewhere label q (p.replace_all label text)) : Found q text := by
  obtain ⟨front, found, back, htext, hfound, helsewhere⟩ := h
  obtain ⟨before, after, -, horiginal, -, hmatches⟩ :=
    replace_all_origin hlabel hp hq (.inr ⟨hleft, hsettled, .inr helsewhere⟩) htext hfound
  exact ⟨original before, found, original after, horiginal, hmatches⟩

/-- Where the pattern carries itself, a replacement leaves no match of it. -/
theorem not_matches_replace_all (hlabel : label ≠ []) (hp : p.Avoids label)
    {front found back : List α} (hcarries : Carries word p label front p)
    (htext : p.replace_all label text = front ++ found ++ back) :
    ¬ p.Matches front.getLast? found back.head? := by
  intro hfound
  obtain ⟨before, after, hscanned, -, -, hmatches⟩ :=
    replace_all_origin hlabel hp hp hcarries htext hfound
  refine hscanned.not_matches ?_ hmatches
  obtain ⟨a, ha, -⟩ := (hp _ _ _ hfound).other
  exact List.ne_nil_of_mem ha

theorem not_found_replace_all (hlabel : label ≠ []) (hp : p.Avoids label)
    (hcarries : ∀ front, Carries word p label front p) : ¬ Found p (p.replace_all label text) := by
  intro h
  obtain ⟨front, found, back, htext, hfound⟩ := h
  exact not_matches_replace_all hlabel hp (hcarries front) htext hfound

theorem not_foundElsewhere_replace_all (hlabel : label ≠ []) (hp : p.Avoids label)
    (hleft : p.CleanLeft word) (hsettled : p.Settled word) :
    ¬ FoundElsewhere label p (p.replace_all label text) := by
  intro h
  obtain ⟨front, found, back, htext, hfound, helsewhere⟩ := h
  exact not_matches_replace_all hlabel hp (.inr ⟨hleft, hsettled, .inr helsewhere⟩) htext hfound

/-! ### Texts that are cut -/

/-- It matches a part of the text that comes directly behind `mark`. -/
def FoundBehind (mark : List α) (q : Pattern α) (text : List α) : Prop :=
  ∃ before found after, text = before ++ mark ++ found ++ after ∧
    q.Matches (before ++ mark).getLast? found after.head?

/-- It matches the end of the text. -/
def FoundAtEnd (q : Pattern α) (text : List α) : Prop :=
  ∃ before found, text = before ++ found ∧ q.Matches before.getLast? found none

theorem FoundBehind.found {mark : List α} (h : FoundBehind mark q text) : Found q text := by
  obtain ⟨before, found, after, htext, hfound⟩ := h
  exact ⟨before ++ mark, found, after, htext, hfound⟩

theorem FoundAtEnd.found (h : FoundAtEnd q text) : Found q text := by
  obtain ⟨before, found, htext, hfound⟩ := h
  exact ⟨before, found, [], by rw [htext, List.append_nil], hfound⟩

/-- In the front of a text that is clean but behind `mark`. -/
theorem found_front_iff {mark front rest : List α}
    (h : ¬ FoundElsewhere mark q (front ++ rest)) :
    Found q front ↔ FoundBehind mark q front ∨ rest ≠ [] ∧ FoundAtEnd q front := by
  constructor
  · intro hfront
    obtain ⟨before, found, after, rfl, hfound⟩ := hfront
    by_cases hmark : mark <:+ before
    · obtain ⟨text, rfl⟩ := hmark
      exact .inl ⟨text, found, after, rfl, hfound⟩
    · -- a match elsewhere is none in the whole text, so that it ends with the front
      have hnext : after.head? ≠ (after ++ rest).head? := by
        intro heq
        apply h
        rw [heq] at hfound
        exact ⟨before, found, after ++ rest, List.append_assoc _ _ _, hfound, hmark⟩
      cases after with
      | nil =>
        right
        constructor
        · intro hnil
          rw [hnil] at hnext
          exact hnext rfl
        · exact ⟨before, found, by rw [List.append_nil], hfound⟩
      | cons a after => exact absurd rfl hnext
  · intro hplace
    rcases hplace with hbehind | ⟨-, hend⟩
    · exact hbehind.found
    · exact hend.found

/-- Another symbol behind a match that is of no word. -/
theorem matches_next (hq : q.Settled word) {prev next next' : Option α} {found : List α}
    (hnext : next'.any word = false) (h : q.Matches prev found next) :
    q.Matches prev found next' := by
  rcases hq _ _ _ h with hfree | ⟨-, -, hprev, -, hwhole⟩
  · exact hfree _ _
  · exact hwhole _ _ hprev hnext

/-- A word that is no part of a label stands before the label. -/
theorem before_label {before found after : List α}
    (houtside : Outside label found) (h : text ++ label = before ++ found ++ after) :
    ∃ rest, text = before ++ found ++ rest ∧ after = rest ++ label := by
  rcases List.append_eq_append_iff.mp h with ⟨more, hfront, hlabel⟩ | ⟨rest, htext, hafter⟩
  · by_cases hmore : more = []
    · subst hmore
      rw [List.append_nil] at hfront
      exact ⟨[], by rw [List.append_nil, hfront], by simpa using hlabel.symm⟩
    · -- the word would reach into the label
      exfalso
      have hopening : label.head? = some (more.head hmore) := by
        rw [hlabel, List.head?_append_of_ne_nil _ hmore, List.head?_eq_some_head hmore]
      rcases List.append_eq_append_iff.mp hfront with ⟨inner, -, hfound⟩ | ⟨inner, -, hinner⟩
      · apply houtside.opening _ hopening
        rw [hfound]
        exact List.mem_append_right _ (List.head_mem hmore)
      · obtain ⟨a, ha, hother⟩ := houtside.other
        rw [hlabel, hinner] at hother
        exact hother (by simp [ha])
  · exact ⟨rest, htext, hafter⟩

/-- A text with dots and a label at its end is as clean as it is without. -/
theorem found_append_label_iff {dots : List α} (hdots : dots ≠ [])
    (hwords : ∀ a ∈ dots, word a = false) (hends : q.EndsWith fun a => a ∉ dots)
    (hsettled : q.Settled word) (hq : q.Avoids label) :
    Found q (text ++ dots ++ label) ↔ Found q text := by
  have hnext : ∀ rest : List α, (rest ++ dots ++ label).head?.any word = rest.head?.any word := by
    intro rest
    cases rest with
    | cons a rest => rfl
    | nil =>
      rw [List.nil_append, List.head?_append_of_ne_nil _ hdots, List.head?_eq_some_head hdots]
      exact hwords _ (List.head_mem hdots)
  constructor
  · intro h
    obtain ⟨before, found, after, htext, hfound⟩ := h
    obtain ⟨rest, hdotted, rfl⟩ := before_label (hq _ _ _ hfound) htext
    rcases List.append_eq_append_iff.mp hdotted with ⟨more, hfront, hmore⟩ | ⟨rest', rfl, rfl⟩
    · -- the last symbol of the match would be a dot
      obtain ⟨a, hlast, ha⟩ := hends _ _ _ hfound
      by_cases hnil : more = []
      · subst hnil
        rw [List.append_nil] at hfront
        rw [List.nil_append] at hmore
        subst hmore
        refine ⟨before, found, [], by rw [List.append_nil, hfront], ?_⟩
        exact matches_next hsettled rfl hfound
      · have hlast' := congrArg List.getLast? hfront
        rw [List.getLast?_append, List.getLast?_append, hlast,
          List.getLast?_eq_some_getLast hnil] at hlast'
        have heq : a = more.getLast hnil := Option.some.inj hlast'
        rw [hmore, heq] at ha
        exact absurd (List.mem_append_left _ (List.getLast_mem hnil)) ha
    · rcases hsettled _ _ _ hfound with hfree | ⟨-, -, hprev, hafter, hwhole⟩
      · exact ⟨before, found, rest', rfl, hfree _ _⟩
      · rw [hnext] at hafter
        exact ⟨before, found, rest', rfl, hwhole _ _ hprev hafter⟩
  · intro h
    obtain ⟨before, found, after, rfl, hfound⟩ := h
    refine ⟨before, found, after ++ dots ++ label, by simp, ?_⟩
    rcases hsettled _ _ _ hfound with hfree | ⟨-, -, hprev, hafter, hwhole⟩
    · exact hfree _ _
    · apply hwhole _ _ hprev
      rw [hnext]
      exact hafter

end found

end Pattern
