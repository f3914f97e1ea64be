import Servo.Worker.PiiFilter

/-! # The Patterns of the Filter

    Numbers begin and end with digits, and an email address holds an `@`. So
    none of them is a part of a label. Every pattern for a number is a whole
    word, but the one for a phone number with its area in brackets.
-/

namespace Servo.Pii

open Pattern (StartsWith EndsWith Over Free Settled CleanLeft CleanRight Avoids Outside Matches
  startsWith_seq startsWith_run startsWith_alt startsWith_seq_over endsWith_seq endsWith_run
  endsWith_alt endsWith_seq_over)

variable {classes : UnicodeClasses}

/-! ### Symbols -/

theorem is_ascii_of_digit {c : Char} (h : is_ascii_digit c = true) : is_ascii c = true := by
  unfold is_ascii_digit at h
  unfold is_ascii
  have hle : c ≤ '9' := by simpa using (Bool.and_eq_true_iff.mp h).2
  have htoNat : c.toNat ≤ 57 := hle
  exact decide_eq_true (by omega)

theorem digit_of_ascii_digit {c : Char} (h : is_ascii_digit c = true) :
    classes.is_digit c = true := by
  unfold UnicodeClasses.is_digit
  rw [if_pos (is_ascii_of_digit h)]
  exact h

theorem word_of_digit {c : Char} (h : classes.is_digit c = true) : classes.is_word c = true := by
  unfold UnicodeClasses.is_digit at h
  unfold UnicodeClasses.is_word
  split
  · next hascii =>
    rw [if_pos hascii] at h
    rw [h]
    simp
  · next hascii =>
    rw [if_neg hascii] at h
    exact classes.digit_word c h

/-- No bracket. -/
def Bracketless (c : Char) : Prop := c ≠ '[' ∧ c ≠ ']'

theorem bracketless_of_digit {c : Char} (h : classes.is_digit c = true) : Bracketless c := by
  constructor
  · intro heq
    subst heq
    cases h
  · intro heq
    subst heq
    cases h

/-- A digit between two. -/
theorem ascii_digit_of_range {c first last : Char} (hfirst : '0' ≤ first) (hlast : last ≤ '9')
    (h : (first ≤ c && c ≤ last) = true) : is_ascii_digit c = true := by
  obtain ⟨hle, hge⟩ := Bool.and_eq_true_iff.mp h
  have hle' : '0' ≤ c := Char.le_trans hfirst (by simpa using hle)
  have hge' : c ≤ '9' := Char.le_trans (by simpa using hge) hlast
  simp [is_ascii_digit, hle', hge']

@[simp] theorem bracketless_dash : Bracketless '-' := by
  unfold Bracketless
  decide

@[simp] theorem bracketless_dot : Bracketless '.' := by
  unfold Bracketless
  decide

@[simp] theorem bracketless_open : Bracketless '(' := by
  unfold Bracketless
  decide

@[simp] theorem bracketless_close : Bracketless ')' := by
  unfold Bracketless
  decide

theorem bracketless_of_whitespace {c : Char} (h : is_whitespace c = true) : Bracketless c := by
  constructor
  · intro heq
    subst heq
    revert h
    decide
  · intro heq
    subst heq
    revert h
    decide

/-! ### Numbers -/

/-- What a pattern for a number has between its boundaries. -/
structure IsBody (classes : UnicodeClasses) (body : Pattern Char) : Prop where
  plain : body.Plain
  starts : body.StartsWith fun c => classes.is_digit c = true
  ends : body.EndsWith fun c => classes.is_digit c = true
  chars : body.Over Bracketless

/-- A pattern for a number, no match of which begins inside a word. -/
structure IsNumber (classes : UnicodeClasses) (q : Pattern Char) : Prop where
  settled : q.Settled classes.is_word
  left : q.CleanLeft classes.is_word
  ends : q.EndsWith fun c => classes.is_digit c = true
  chars : q.Over Bracketless

/-- A pattern for a number, no match of which ends inside a word. -/
structure IsWholeNumber (classes : UnicodeClasses) (q : Pattern Char) : Prop
    extends IsNumber classes q where
  right : q.CleanRight classes.is_word

section numbers

open Pattern (times optional one between at_least guarded)

variable {first second body : Pattern Char}

theorem IsNumber.alt (hfirst : IsNumber classes first) (hsecond : IsNumber classes second) :
    IsNumber classes (.alt first second) where
  settled := Pattern.settled_alt hfirst.settled hsecond.settled
  left := Pattern.cleanLeft_alt hfirst.left hsecond.left
  ends := endsWith_alt hfirst.ends hsecond.ends
  chars := ⟨hfirst.chars, hsecond.chars⟩

theorem IsWholeNumber.alt (hfirst : IsWholeNumber classes first)
    (hsecond : IsWholeNumber classes second) : IsWholeNumber classes (.alt first second) where
  toIsNumber := hfirst.toIsNumber.alt hsecond.toIsNumber
  right := Pattern.cleanRight_alt hfirst.right hsecond.right

theorem IsBody.whole_number (h : IsBody classes body) :
    IsWholeNumber classes (guarded classes.is_word body) := by
  have hfree := Pattern.free_of_plain h.plain
  have hstarts := Pattern.startsWith_mono (fun _ => word_of_digit) h.starts
  have hends := Pattern.endsWith_mono (fun _ => word_of_digit) h.ends
  refine ⟨⟨Pattern.settled_guarded hfree hstarts hends,
    Pattern.cleanLeft_guarded hfree hstarts hends, ?_, Pattern.over_guarded.mpr h.chars⟩,
    Pattern.cleanRight_guarded hfree hstarts hends⟩
  intro prev found next hmatches
  exact h.ends _ _ _ ((Pattern.guarded_iff hfree hstarts hends).mp hmatches).1

theorem starts_digits (n : Nat) :
    (times (n + 1) classes.is_digit).StartsWith fun c => classes.is_digit c = true :=
  startsWith_run (Nat.succ_pos n) fun _ h => h

theorem ends_digits (n : Nat) :
    (times (n + 1) classes.is_digit).EndsWith fun c => classes.is_digit c = true :=
  endsWith_run (Nat.succ_pos n) fun _ h => h

theorem over_separator : separator.Over Bracketless := by
  simp [separator, one_of]

theorem over_card_group : (card_group classes).Over Bracketless := by
  simp +contextual [card_group, @bracketless_of_digit classes, bracketless_of_whitespace]

theorem ssn_whole_number : IsWholeNumber classes (ssn classes) := by
  apply IsWholeNumber.alt
  · apply IsBody.whole_number
    constructor
    · simp
    · exact startsWith_seq (startsWith_seq (startsWith_seq (startsWith_seq (starts_digits 2))))
    · exact endsWith_seq (ends_digits 3)
    · simp +contextual [@bracketless_of_digit classes]
  · apply IsBody.whole_number
    constructor
    · simp
    · exact starts_digits 8
    · exact ends_digits 8
    · simp +contextual [@bracketless_of_digit classes]

theorem credit_card_whole_number : IsWholeNumber classes (credit_card classes) := by
  have hgroup : (card_group classes).StartsWith fun c => classes.is_digit c = true :=
    startsWith_seq (starts_digits 3)
  apply IsWholeNumber.alt
  · apply IsBody.whole_number
    constructor
    · simp [card_group]
    · exact startsWith_seq (startsWith_seq (startsWith_seq hgroup))
    · exact endsWith_seq (endsWith_run Nat.one_pos fun _ h => h)
    · simp +contextual [over_card_group, @bracketless_of_digit classes]
  · apply IsBody.whole_number
    constructor
    · simp
    · exact startsWith_run (by decide) fun _ h => h
    · exact endsWith_run (by decide) fun _ h => h
    · simp +contextual [@bracketless_of_digit classes]

/-- A phone number with its area in brackets may stand right before a word. -/
theorem phone_number : IsNumber classes (phone classes) := by
  apply IsNumber.alt
  · constructor
    · exact Pattern.settled_of_free (Pattern.free_of_plain (by simp [phone_with_area, separator]))
    · apply Pattern.cleanLeft_of_startsWith
      apply startsWith_seq (startsWith_seq (startsWith_seq (startsWith_seq (startsWith_seq
        (startsWith_seq (startsWith_run Nat.one_pos _))))))
      intro c hc
      rw [of_decide_eq_true hc]
      rfl
    · exact endsWith_seq (ends_digits 3)
    · simp +contextual [phone_with_area, over_separator, @bracketless_of_digit classes,
        bracketless_of_whitespace]
  · apply IsWholeNumber.toIsNumber
    apply IsBody.whole_number
    constructor
    · simp [separator]
    · exact startsWith_seq (startsWith_seq (startsWith_seq (startsWith_seq (starts_digits 2))))
    · exact endsWith_seq (ends_digits 3)
    · simp +contextual [over_separator, @bracketless_of_digit classes]

/-! ### Octets -/

theorem over_octet : octet.Over fun c => is_ascii_digit c = true := by
  have htwo : is_ascii_digit '2' = true := by decide
  have hfive : is_ascii_digit '5' = true := by decide
  refine ⟨⟨⟨⟨?_, ?_⟩, ?_⟩, ⟨?_, ?_⟩, ?_⟩, ⟨?_, ?_⟩, ?_⟩
  all_goals intro c hc
  · rw [of_decide_eq_true hc]
    exact htwo
  · rw [of_decide_eq_true hc]
    exact hfive
  · exact ascii_digit_of_range (by decide) (by decide) hc
  · rw [of_decide_eq_true hc]
    exact htwo
  · exact ascii_digit_of_range (by decide) (by decide) hc
  · exact hc
  · rcases List.mem_pair.mp (List.contains_iff_mem.mp hc) with rfl | rfl
    · decide
    · decide
  · exact hc
  · exact hc

theorem starts_octet : octet.StartsWith fun c => is_ascii_digit c = true := by
  obtain ⟨⟨⟨⟨htwo, -⟩, -⟩, ⟨htwo', -⟩, -⟩, ⟨hoptional, hdigit⟩, -⟩ := over_octet
  apply startsWith_alt
  · apply startsWith_alt
    · exact startsWith_seq (startsWith_seq (startsWith_run Nat.one_pos htwo))
    · exact startsWith_seq (startsWith_seq (startsWith_run Nat.one_pos htwo'))
  · exact startsWith_seq (startsWith_seq_over hoptional (startsWith_run Nat.one_pos hdigit))

theorem ends_octet : octet.EndsWith fun c => is_ascii_digit c = true := by
  obtain ⟨⟨⟨-, hlast⟩, -, hlast'⟩, ⟨-, hdigit⟩, hoptional⟩ := over_octet
  apply endsWith_alt
  · apply endsWith_alt
    · exact endsWith_seq (endsWith_run Nat.one_pos hlast)
    · exact endsWith_seq (endsWith_run Nat.one_pos hlast')
  · exact endsWith_seq_over (endsWith_seq (endsWith_run Nat.one_pos hdigit)) hoptional

theorem ipv4_whole_number : IsWholeNumber classes (ipv4 classes) := by
  apply IsBody.whole_number
  constructor
  · simp [octet]
  · exact startsWith_seq (startsWith_seq (startsWith_seq (startsWith_seq (startsWith_seq
      (startsWith_seq (Pattern.startsWith_mono (fun _ => digit_of_ascii_digit) starts_octet))))))
  · exact endsWith_seq (Pattern.endsWith_mono (fun _ => digit_of_ascii_digit) ends_octet)
  · have hoctet : octet.Over Bracketless := Pattern.over_mono
      (fun _ h => bracketless_of_digit (@digit_of_ascii_digit classes _ h)) over_octet
    simp [hoctet]

end numbers

/-! ### Labels -/

/-- A text in brackets without digits and `@`. -/
structure IsLabel (label : List Char) : Prop where
  opening : label.head? = some '['
  closing : label.getLast? = some ']'
  letters : label.all (fun c => is_ascii c && !is_ascii_digit c && c ≠ '@') = true

theorem IsLabel.letter {label : List Char} (h : IsLabel label) {c : Char} (hc : c ∈ label) :
    is_ascii c = true ∧ is_ascii_digit c = false ∧ c ≠ '@' := by
  simpa [and_assoc] using List.all_eq_true.mp h.letters c hc

theorem IsLabel.ne_nil {label : List Char} (h : IsLabel label) : label ≠ [] := by
  intro hnil
  rw [hnil] at h
  cases h.opening

/-- An address shares no symbol with a label. -/
theorem ipv4_over_label {label : List Char} (hlabel : IsLabel label)
    (hdot : '.' ∉ label) : (ipv4 classes).Over fun c => c ∉ label := by
  have hoctet : octet.Over fun c => c ∉ label := by
    apply Pattern.over_mono _ over_octet
    intro c hdigit hmem
    rw [(hlabel.letter hmem).2.1] at hdigit
    cases hdigit
  apply Pattern.over_guarded.mpr
  simp [hoctet, hdot]

theorem outside_of_bracketless {label found : List Char} (hlabel : IsLabel label)
    (hfound : ∀ c ∈ found, Bracketless c) (hother : ∃ c ∈ found, c ∉ label) :
    Outside label found where
  opening c hc hmem := by
    rw [hlabel.opening] at hc
    exact (hfound c hmem).1 (Option.some.inj hc).symm
  closing c hc hmem := by
    rw [hlabel.closing] at hc
    exact (hfound c hmem).2 (Option.some.inj hc).symm
  other := hother

theorem IsNumber.avoids {q : Pattern Char} (h : IsNumber classes q) {label : List Char}
    (hlabel : IsLabel label) : q.Avoids label := by
  intro prev found next hmatches
  obtain ⟨c, hlast, hdigit⟩ := h.ends _ _ _ hmatches
  apply outside_of_bracketless hlabel (fun c hc => Pattern.of_mem_of_over h.chars hmatches hc)
  refine ⟨c, List.mem_of_getLast? hlast, ?_⟩
  intro hmem
  obtain ⟨hascii, hno_digit, -⟩ := hlabel.letter hmem
  rw [UnicodeClasses.is_digit, if_pos hascii, hno_digit] at hdigit
  cases hdigit

/-! ### Email addresses -/

theorem email_free : email.Free := Pattern.free_of_plain (by simp [email])

theorem at_mem_of_email {prev next : Option Char} {found : List Char}
    (h : email.Matches prev found next) : '@' ∈ found := by
  obtain ⟨_, _, rfl, ⟨_, _, rfl, ⟨_, _, rfl, ⟨_, sign, rfl, -, hsign⟩, -⟩, -⟩, -⟩ := h
  have hmem : '@' ∈ sign := by
    cases sign with
    | nil => exact absurd hsign.2.1 (by decide)
    | cons c sign =>
      rw [of_decide_eq_true (hsign.1 c List.mem_cons_self)]
      exact List.mem_cons_self
  simp [hmem]

/-- The class of the symbols before or behind the `@`. -/
theorem bracketless_of_class {chars : List Char} (hopening : '[' ∉ chars) (hclosing : ']' ∉ chars)
    {c : Char} (h : (is_ascii_letter c || is_ascii_digit c || one_of chars c) = true) :
    Bracketless c := by
  constructor
  · intro heq
    subst heq
    have hmem : '[' ∈ chars := by simpa [is_ascii_letter, is_ascii_digit, one_of] using h
    exact hopening hmem
  · intro heq
    subst heq
    have hmem : ']' ∈ chars := by simpa [is_ascii_letter, is_ascii_digit, one_of] using h
    exact hclosing hmem

theorem over_email : email.Over Bracketless := by
  refine ⟨⟨⟨⟨?_, ?_⟩, ?_⟩, ?_⟩, ?_⟩
  all_goals intro c hc
  · exact bracketless_of_class (by decide) (by decide) hc
  · rw [of_decide_eq_true hc]
    exact ⟨by decide, by decide⟩
  · exact bracketless_of_class (by decide) (by decide) hc
  · rw [of_decide_eq_true hc]
    exact bracketless_dot
  · exact @bracketless_of_class [] (by simp) (by simp) c (by simp [hc])

theorem email_avoids {label : List Char} (hlabel : IsLabel label) : email.Avoids label := by
  intro prev found next hmatches
  apply outside_of_bracketless hlabel
    (fun c hc => Pattern.of_mem_of_over over_email hmatches hc)
  exact ⟨'@', at_mem_of_email hmatches, fun hmem => (hlabel.letter hmem).2.2 rfl⟩

end Servo.Pii
