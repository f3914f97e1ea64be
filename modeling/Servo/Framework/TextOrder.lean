import Servo.Framework.Text

/-! # The Order of Padded Numbers

    Texts are ordered by the first character in which they differ. Fields of
    equal length can therefore be compared one after the other, and numbers
    that have been padded to the same width are in the order of their values.
    A number that needs more than the width begins with another digit than 0,
    and comes behind all those that leave a zero at the front.
-/

namespace Text

universe u

/-! ### Fields -/

section fields

variable {α : Type u} [LT α]

/-- Fields of equal length are compared first. -/
theorem append_lt_append_iff {front front' rest rest' : List α}
    (hlength : front.length = front'.length) :
    front ++ rest < front' ++ rest' ↔ front < front' ∨ front = front' ∧ rest < rest' := by
  induction front generalizing front' with
  | nil =>
    have hnil : front' = [] := List.eq_nil_of_length_eq_zero hlength.symm
    subst hnil
    simp
  | cons c front ih =>
    cases front' with
    | nil => cases hlength
    | cons c' front' =>
      have hih := ih (Nat.succ.inj hlength)
      simp only [List.cons_append, List.cons_lt_cons_iff, hih, List.cons.injEq]
      tauto

end fields

variable {front front' rest rest' : String}

/-- The same for strings. -/
theorem append_lt_iff (hlength : front.length = front'.length) :
    front ++ rest < front' ++ rest' ↔ front < front' ∨ front = front' ∧ rest < rest' := by
  rw [← String.length_toList, ← String.length_toList] at hlength
  rw [String.lt_iff, String.toList_append, String.toList_append, append_lt_append_iff hlength,
    String.toList_inj, String.lt_iff, String.lt_iff]

theorem append_lt_of_lt (hlength : front.length = front'.length)
    (h : front < front') : front ++ rest < front' ++ rest' :=
  (append_lt_iff hlength).mpr (.inl h)

/-- What is in front of both does not matter. -/
theorem append_left_lt_iff : front ++ rest < front ++ rest' ↔ rest < rest' := by
  rw [append_lt_iff rfl]
  constructor
  · rintro (h | ⟨-, h⟩)
    · exact absurd h (String.lt_irrefl front)
    · exact h
  · intro h
    exact .inr ⟨rfl, h⟩

/-- The first characters decide. -/
theorem lt_of_head_lt {text text' : String} {c c' : Char} (h : text.toList.head? = some c)
    (h' : text'.toList.head? = some c') (hlt : c < c') : text < text' := by
  rw [String.lt_iff, List.eq_cons_of_mem_head? h, List.eq_cons_of_mem_head? h',
    List.cons_lt_cons_iff]
  exact .inl hlt

theorem head_append (h : front.toList ≠ []) :
    (front ++ rest).toList.head? = front.toList.head? := by
  rw [String.toList_append, List.head?_append_of_ne_nil _ h]

/-! ### Digits -/

theorem digit_bounds {c : Char} (h : c.isDigit = true) : 48 ≤ c.toNat ∧ c.toNat ≤ 57 := by
  simp only [Char.isDigit, Bool.and_eq_true, decide_eq_true_eq] at h
  exact ⟨UInt32.le_iff_toNat_le.mp h.1, UInt32.le_iff_toNat_le.mp h.2⟩

theorem char_lt_iff {c c' : Char} : c < c' ↔ c.toNat < c'.toNat := UInt32.lt_iff_toNat_lt

/-- The first digit counts for a power of ten, and the others for less. -/
theorem of_digits_cons (c : Char) (text : List Char) : Nat.ofDigitChars 10 (c :: text) 0 =
    10 ^ text.length * (c.toNat - 48) + Nat.ofDigitChars 10 text 0 := by
  rw [Nat.ofDigitChars_cons, Nat.ofDigitChars_eq_ofDigitChars_zero, Nat.mul_zero, Nat.zero_add]
  rfl

theorem of_digits_lt {text : List Char} (h : ∀ c ∈ text, c.isDigit = true) :
    Nat.ofDigitChars 10 text 0 < 10 ^ text.length := by
  induction text with
  | nil => decide
  | cons c text ih =>
    have hrest := ih fun c' hc' => h c' (List.mem_cons_of_mem c hc')
    have hdigit := digit_bounds (h c List.mem_cons_self)
    rw [of_digits_cons, List.length_cons, Nat.pow_succ]
    have hfirst : 10 ^ text.length * (c.toNat - 48) ≤ 10 ^ text.length * 9 :=
      Nat.mul_le_mul_left _ (by omega)
    omega

/-- Digits of equal length are in the order of their values. -/
theorem digits_lt_of_lt {text text' : List Char} (hlength : text.length = text'.length)
    (h : ∀ c ∈ text, c.isDigit = true) (h' : ∀ c ∈ text', c.isDigit = true)
    (hlt : Nat.ofDigitChars 10 text 0 < Nat.ofDigitChars 10 text' 0) : text < text' := by
  induction text generalizing text' with
  | nil =>
    have hnil : text' = [] := List.eq_nil_of_length_eq_zero hlength.symm
    subst hnil
    exact absurd hlt (Nat.lt_irrefl _)
  | cons c text ih =>
    cases text' with
    | nil => cases hlength
    | cons c' text' =>
      have hlen : text.length = text'.length := Nat.succ.inj hlength
      have htail : ∀ d ∈ text, d.isDigit = true := fun d hd => h d (List.mem_cons_of_mem c hd)
      have htail' : ∀ d ∈ text', d.isDigit = true := fun d hd => h' d (List.mem_cons_of_mem c' hd)
      have hc := digit_bounds (h c List.mem_cons_self)
      have hc' := digit_bounds (h' c' List.mem_cons_self)
      rw [of_digits_cons, of_digits_cons, ← hlen] at hlt
      rw [List.cons_lt_cons_iff]
      by_cases heq : c = c'
      · subst heq
        exact .inr ⟨rfl, ih hlen htail htail' (by omega)⟩
      · refine .inl (char_lt_iff.mpr ?_)
        have hne : c.toNat ≠ c'.toNat := fun hnat => heq (Char.toNat_inj.mp hnat)
        have hrest := of_digits_lt htail'
        rw [← hlen] at hrest
        by_contra hnot
        -- a greater first digit would outweigh everything behind it
        have hfirst : 10 ^ text.length * (c'.toNat - 48 + 1) ≤ 10 ^ text.length * (c.toNat - 48) :=
          Nat.mul_le_mul_left _ (by omega)
        rw [Nat.mul_add, Nat.mul_one] at hfirst
        omega

/-- Digits of equal length and value are the same. -/
theorem digits_inj {text text' : List Char} (hlength : text.length = text'.length)
    (h : ∀ c ∈ text, c.isDigit = true) (h' : ∀ c ∈ text', c.isDigit = true)
    (hvalue : Nat.ofDigitChars 10 text 0 = Nat.ofDigitChars 10 text' 0) : text = text' := by
  induction text generalizing text' with
  | nil => exact (List.eq_nil_of_length_eq_zero hlength.symm).symm
  | cons c text ih =>
    cases text' with
    | nil => cases hlength
    | cons c' text' =>
      have hlen : text.length = text'.length := Nat.succ.inj hlength
      have htail : ∀ d ∈ text, d.isDigit = true := fun d hd => h d (List.mem_cons_of_mem c hd)
      have htail' : ∀ d ∈ text', d.isDigit = true := fun d hd => h' d (List.mem_cons_of_mem c' hd)
      have hc := digit_bounds (h c List.mem_cons_self)
      have hc' := digit_bounds (h' c' List.mem_cons_self)
      have hrest := of_digits_lt htail
      have hrest' := of_digits_lt htail'
      rw [← hlen] at hrest'
      rw [of_digits_cons, of_digits_cons, ← hlen] at hvalue
      have hpos : 0 < 10 ^ text.length := Nat.pow_pos (by decide)
      have hquotient := congrArg (· / 10 ^ text.length) hvalue
      simp only [Nat.mul_add_div hpos, Nat.div_eq_of_lt hrest, Nat.div_eq_of_lt hrest'] at hquotient
      have hsame : c = c' := Char.toNat_inj.mp (by omega)
      subst hsame
      exact congrArg (c :: ·) (ih hlen htail htail' (by omega))

/-- Digits are their number, padded to their length. -/
theorem pad_of_digits {text : List Char} (hne : text ≠ []) (h : ∀ c ∈ text, c.isDigit = true) :
    pad text.length (Nat.ofDigitChars 10 text 0) = String.ofList text := by
  apply String.toList_injective
  rw [String.toList_ofList]
  apply digits_inj
  · exact length_toList_pad (List.length_pos_of_ne_nil hne) (of_digits_lt h)
  · exact fun c => mem_pad
  · exact h
  · exact of_digits_pad _ _

/-! ### Padded numbers -/

theorem pad_lt_pad {width n m : Nat} (hwidth : 0 < width) (h : n < m) (hm : m < 10 ^ width) :
    pad width n < pad width m := by
  rw [String.lt_iff]
  have hlen : (pad width n).toList.length = (pad width m).toList.length := by
    rw [length_toList_pad hwidth (Nat.lt_trans h hm), length_toList_pad hwidth hm]
  refine digits_lt_of_lt hlen (fun c => mem_pad) (fun c => mem_pad) ?_
  rwa [of_digits_pad, of_digits_pad]

/-- A number that leaves room has a zero in front. -/
theorem head_pad_of_lt {width n : Nat} (hwidth : 1 < width) (h : n < 10 ^ (width - 1)) :
    (pad width n).toList.head? = some '0' := by
  have hlength := (Nat.length_toDigits_le_iff (by decide) (by omega)).mpr h
  have hpos : 0 < width - (Nat.toDigits 10 n).length := by omega
  rw [toList_pad]
  obtain ⟨zeros, hzeros⟩ := Nat.exists_eq_add_of_lt hpos
  rw [hzeros, Nat.zero_add, List.replicate_succ]
  rfl

/-- A number that needs more than the width has none. -/
theorem head_pad_of_le {width n : Nat} (hwidth : 1 < width) (h : 10 ^ width ≤ n) :
    ∃ c, (pad width n).toList.head? = some c ∧ '0' < c := by
  cases hlist : (pad width n).toList with
  | nil => exact absurd hlist (toList_pad_ne_nil width n)
  | cons c text =>
    refine ⟨c, rfl, char_lt_iff.mpr ?_⟩
    have hall : ∀ d ∈ (pad width n).toList, d.isDigit = true := fun d => mem_pad
    rw [hlist] at hall
    have hc := digit_bounds (hall c List.mem_cons_self)
    have hrest := of_digits_lt fun d hd => hall d (List.mem_cons_of_mem c hd)
    have hvalue := of_digits_pad width n
    rw [hlist, of_digits_cons] at hvalue
    have hzero : '0'.toNat = 48 := rfl
    rw [hzero]
    by_contra hnot
    -- a zero in front would not be needed
    rw [show c.toNat - 48 = 0 by omega, Nat.mul_zero, Nat.zero_add] at hvalue
    have hdigits : (Nat.toDigits 10 n).length = text.length + 1 := by
      have hlength := congrArg List.length hlist
      rw [toList_pad, List.length_append, List.length_replicate, List.length_cons] at hlength
      have hlong : ¬ (Nat.toDigits 10 n).length ≤ width := by
        rw [Nat.length_toDigits_le_iff (by decide) (by omega)]
        omega
      omega
    cases text with
    | nil =>
      have hone : 10 ^ 1 ≤ 10 ^ width := Nat.pow_le_pow_right (by decide) (by omega)
      simp only [List.length_nil, Nat.pow_zero] at hrest
      omega
    | cons d text =>
      rw [hvalue] at hrest
      have hshort : (Nat.toDigits 10 n).length ≤ (d :: text).length :=
        (Nat.length_toDigits_le_iff (by decide) (by simp)).mpr hrest
      omega

/-- A small number comes first, whatever the width of the other and what follows. -/
theorem pad_append_lt {width n m : Nat} (hwidth : 1 < width) (hn : n < 10 ^ (width - 1))
    (h : n < m) : pad width n ++ rest < pad width m ++ rest' := by
  by_cases hm : m < 10 ^ width
  · have hn' : n < 10 ^ width := Nat.lt_trans h hm
    refine append_lt_of_lt ?_ (pad_lt_pad (by omega) h hm)
    rw [length_pad (by omega) hn', length_pad (by omega) hm]
  · obtain ⟨c, hc, hlt⟩ := head_pad_of_le hwidth (Nat.le_of_not_lt hm)
    refine lt_of_head_lt ?_ ?_ hlt
    · rw [head_append (toList_pad_ne_nil width n), head_pad_of_lt hwidth hn]
    · rw [head_append (toList_pad_ne_nil width m), hc]

end Text
