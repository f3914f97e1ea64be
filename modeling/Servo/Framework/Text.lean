import Mathlib.Algebra.Group.Nat.Defs
import Mathlib.Data.List.Basic

/-! # Reading Back Separated Text

    When can the fields of a text be recovered from the whole? A field of
    known length at the front can be cut off, and so can a last field that
    does not contain the separator; what is between the two may be any text
    at all, the separator included. Decimal numbers contain no separator
    other than digits and the minus sign, and determine their value.
-/

namespace Text

universe u

variable {α : Type u}

/-! ### Cutting off fields -/

/-- A last field without separators can be cut off: the fronts cannot differ by a
    piece, since that piece would end in a separator of the longer field. -/
theorem last_field_inj {sep : α} {front front' field field' : List α} (hfield : sep ∉ field)
    (hfield' : sep ∉ field') (h : front ++ sep :: field = front' ++ sep :: field') :
    front = front' ∧ field = field' := by
  obtain ⟨piece, hfront, hrest⟩ | ⟨piece, hfront, hrest⟩ := List.append_eq_append_iff.mp h
  · cases piece with
    | nil =>
      rw [List.append_nil] at hfront
      exact ⟨hfront.symm, (List.cons.inj hrest).2⟩
    | cons c piece =>
      have hmem : sep ∈ field := by rw [(List.cons.inj hrest).2]; simp
      exact absurd hmem hfield
  · cases piece with
    | nil =>
      rw [List.append_nil] at hfront
      exact ⟨hfront, (List.cons.inj hrest).2.symm⟩
    | cons c piece =>
      have hmem : sep ∈ field' := by rw [(List.cons.inj hrest).2]; simp
      exact absurd hmem hfield'

/-- The same for strings. -/
theorem last_field_string_inj (sep : String) {c : Char} (hsep : sep.toList = [c])
    {front front' field field' : String} (hfield : c ∉ field.toList) (hfield' : c ∉ field'.toList)
    (h : front ++ sep ++ field = front' ++ sep ++ field') : front = front' ∧ field = field' := by
  have hlist := congrArg String.toList h
  simp only [String.toList_append, hsep, List.append_assoc, List.singleton_append] at hlist
  obtain ⟨hfront, hrest⟩ := last_field_inj hfield hfield' hlist
  exact ⟨String.toList_injective hfront, String.toList_injective hrest⟩

/-- A first field of known length can be cut off. -/
theorem first_field_inj {front front' rest rest' : List α} (hlength : front.length = front'.length)
    (h : front ++ rest = front' ++ rest') : front = front' ∧ rest = rest' :=
  List.append_inj h hlength

/-! ### Decimal numbers -/

theorem mem_repr {n : Nat} {c : Char} (h : c ∈ n.repr.toList) : c.isDigit = true := by
  rw [Nat.toList_repr] at h
  exact Nat.isDigit_of_mem_toDigits (by decide) (by decide) h

theorem nat_repr_injective {n m : Nat} (h : n.repr = m.repr) : n = m := by
  have hdigits : Nat.toDigits 10 n = Nat.toDigits 10 m := by
    rw [← Nat.toList_repr, ← Nat.toList_repr, h]
  rw [← Nat.ofDigitChars_toDigits (b := 10) (n := n) (by decide) (by decide), hdigits,
    Nat.ofDigitChars_toDigits (by decide) (by decide)]

/-- Reading an unsigned number: digits, after a plus sign if there is one, and less than the
    bound of the type. -/
def parse_unsigned (bound : Nat) (text : String) : Option Nat :=
  let digits := if text.toList.head? = some '+' then text.toList.tail else text.toList
  if digits.isEmpty || !digits.all Char.isDigit then none
  else
    let value := Nat.ofDigitChars 10 digits 0
    if value < bound then some value else none

theorem parse_unsigned_lt {bound value : Nat} {text : String}
    (h : parse_unsigned bound text = some value) : value < bound := by
  unfold parse_unsigned at h
  simp only [Option.ite_none_left_eq_some, Option.ite_none_right_eq_some] at h
  obtain ⟨-, hlt, heq⟩ := h
  exact Option.some.inj heq ▸ hlt

/-- A decimal number consists of digits and minus signs. -/
theorem mem_toString_int {n : Int} {c : Char} (h : c ∈ (toString n).toList) :
    c.isDigit = true ∨ c = '-' := by
  rw [Int.toString_eq_repr, Int.repr_eq_if] at h
  split at h
  · exact Or.inl (mem_repr h)
  · rw [String.toList_append, List.mem_append] at h
    rcases h with h | h
    · exact Or.inr (by simpa using h)
    · exact Or.inl (mem_repr h)

theorem toString_int_ne_nil (n : Int) : (toString n).toList ≠ [] := by
  rw [Int.toString_eq_repr, Int.repr_eq_if]
  split
  · rw [Nat.toList_repr]
    exact Nat.toDigits_ne_nil
  · rw [String.toList_append]
    exact List.append_ne_nil_of_left_ne_nil (by decide) _

/-- A decimal number determines its value. -/
theorem toString_int_injective : Function.Injective (toString : Int → String) := by
  have hminus : ∀ (n m : Nat), n.repr ≠ "-" ++ m.repr := by
    intro n m h
    have hmem : '-' ∈ n.repr.toList := by rw [h, String.toList_append]; simp
    have := mem_repr hmem
    revert this
    decide
  intro n m h
  rw [Int.toString_eq_repr, Int.toString_eq_repr, Int.repr_eq_if, Int.repr_eq_if] at h
  split at h <;> split at h
  · have := nat_repr_injective h
    omega
  · exact absurd h (hminus _ _)
  · exact absurd h.symm (hminus _ _)
  · have hlist := congrArg String.toList h
    rw [String.toList_append, String.toList_append] at hlist
    have := nat_repr_injective (String.toList_injective (List.append_cancel_left hlist))
    omega

/-! ### Numbers of a fixed width -/

/-- A number with zeros in front, up to a width. -/
def pad (width n : Nat) : String :=
  String.ofList (List.replicate (width - (Nat.toDigits 10 n).length) '0' ++ Nat.toDigits 10 n)

theorem toList_pad (width n : Nat) : (pad width n).toList =
    List.replicate (width - (Nat.toDigits 10 n).length) '0' ++ Nat.toDigits 10 n := by
  rw [pad, String.toList_ofList]

theorem pad_zero (n : Nat) : pad 0 n = n.repr := by
  rw [pad, Nat.zero_sub, List.replicate_zero, List.nil_append, ← Nat.toList_repr,
    String.ofList_toList]

theorem mem_pad {width n : Nat} {c : Char} (h : c ∈ (pad width n).toList) : c.isDigit = true := by
  rw [toList_pad, List.mem_append] at h
  rcases h with h | h
  · rw [List.eq_of_mem_replicate h]
    decide
  · exact Nat.isDigit_of_mem_toDigits (by decide) (by decide) h

theorem notMem_pad {width n : Nat} {c : Char} (hc : c.isDigit = false) :
    c ∉ (pad width n).toList := by
  intro hmem
  rw [mem_pad hmem] at hc
  cases hc

theorem of_digits_pad (width n : Nat) : Nat.ofDigitChars 10 (pad width n).toList 0 = n := by
  rw [toList_pad, Nat.ofDigitChars_append, Nat.ofDigitChars_replicate_zero, Nat.mul_zero,
    Nat.ofDigitChars_toDigits (by decide) (by decide)]

theorem pad_inj {width n m : Nat} (h : pad width n = pad width m) : n = m := by
  rw [← of_digits_pad width n, h, of_digits_pad]

/-- A number that fits is as long as the width. -/
theorem length_pad {width n : Nat} (hwidth : 0 < width) (h : n < 10 ^ width) :
    (pad width n).length = width := by
  have hlength := (Nat.length_toDigits_le_iff (by decide) hwidth).mpr h
  rw [← String.length_toList, toList_pad, List.length_append, List.length_replicate]
  omega

theorem length_toList_pad {width n : Nat} (hwidth : 0 < width) (h : n < 10 ^ width) :
    (pad width n).toList.length = width := by
  rw [String.length_toList, length_pad hwidth h]

theorem le_length_pad (width n : Nat) : width ≤ (pad width n).length := by
  rw [← String.length_toList, toList_pad, List.length_append, List.length_replicate]
  omega

/-- A number that does not need the width is written without zeros. -/
theorem pad_eq_repr {width n : Nat} (h : 10 ^ (width - 1) ≤ n) (hwidth : 1 < width) :
    pad width n = n.repr := by
  have hlength : ¬ (Nat.toDigits 10 n).length ≤ width - 1 := by
    rw [Nat.length_toDigits_le_iff (by decide) (by omega)]
    omega
  rw [pad, show width - (Nat.toDigits 10 n).length = 0 by omega, List.replicate_zero,
    List.nil_append, ← Nat.toList_repr, String.ofList_toList]

theorem toList_pad_ne_nil (width n : Nat) : (pad width n).toList ≠ [] := by
  have hpos : 0 < (Nat.toDigits 10 n).length := Nat.length_toDigits_pos
  intro h
  have hlength := congrArg List.length h
  rw [toList_pad, List.length_append, List.length_nil] at hlength
  omega

/-- Characters other than digits do not begin a number. -/
theorem head_pad_ne (width n : Nat) {c : Char} (h : c.isDigit = false) :
    (pad width n).toList.head? ≠ some c := by
  intro hhead
  rw [mem_pad (List.mem_of_mem_head? hhead)] at h
  cases h

theorem parse_unsigned_pad {bound width n : Nat} (h : n < bound) :
    parse_unsigned bound (pad width n) = some n := by
  unfold parse_unsigned
  rw [if_neg (head_pad_ne width n (by decide))]
  have hdigits : (!(pad width n).toList.all Char.isDigit) = false := by
    rw [Bool.not_eq_false', List.all_eq_true]
    exact fun c hc => mem_pad hc
  have hempty : (pad width n).toList.isEmpty = false :=
    List.isEmpty_eq_false_iff.mpr (toList_pad_ne_nil width n)
  simp only [hdigits, hempty, Bool.or_false, Bool.false_eq_true, if_false, of_digits_pad, h,
    if_true]

/-- Reading a signed number, whose absolute value is less than the bound, or equal to it with a
    minus sign. -/
def parse_signed (bound : Nat) (text : String) : Option Int :=
  match text.toList with
  | '-' :: digits =>
    if digits.isEmpty || !digits.all Char.isDigit then none
    else
      let value := Nat.ofDigitChars 10 digits 0
      if value ≤ bound then some (-value) else none
  | _ => (parse_unsigned bound text).map (Int.ofNat ·)

theorem parse_signed_lt {bound : Nat} (hbound : 0 < bound) {value : Int} {text : String}
    (h : parse_signed bound text = some value) : value < bound := by
  unfold parse_signed at h
  split at h
  · simp only [Option.ite_none_left_eq_some, Option.ite_none_right_eq_some] at h
    obtain ⟨-, -, heq⟩ := h
    cases heq
    omega
  · obtain ⟨n, hn, rfl⟩ := Option.map_eq_some_iff.mp h
    exact Int.ofNat_lt.mpr (parse_unsigned_lt hn)

theorem parse_signed_pad {bound width n : Nat} (h : n < bound) :
    parse_signed bound (pad width n) = some (n : Int) := by
  unfold parse_signed
  split
  · next digits heq =>
    refine absurd ?_ (head_pad_ne width n (c := '-') (by decide))
    rw [heq]
    rfl
  · rw [parse_unsigned_pad h]
    rfl

theorem le_of_parse_signed {bound : Nat} {value : Int} {text : String}
    (h : parse_signed bound text = some value) : -(bound : Int) ≤ value := by
  unfold parse_signed at h
  split at h
  · simp only [Option.ite_none_left_eq_some, Option.ite_none_right_eq_some] at h
    obtain ⟨-, hle, heq⟩ := h
    cases heq
    omega
  · obtain ⟨n, -, rfl⟩ := Option.map_eq_some_iff.mp h
    exact Int.le_trans (by omega) (Int.natCast_nonneg n)

/-- A number without a minus sign is not negative. -/
theorem parse_signed_nonneg {bound : Nat} {value : Int} {text : String}
    (h : parse_signed bound text = some value) (hminus : '-' ∉ text.toList) : 0 ≤ value := by
  unfold parse_signed at h
  split at h
  · next digits heq =>
    rw [heq] at hminus
    exact absurd List.mem_cons_self hminus
  · obtain ⟨n, -, rfl⟩ := Option.map_eq_some_iff.mp h
    exact Int.natCast_nonneg n

theorem pad_all_digits (width n : Nat) :
    ((pad width n).toList.isEmpty || !(pad width n).toList.all Char.isDigit) = false := by
  have hempty : (pad width n).toList.isEmpty = false :=
    List.isEmpty_eq_false_iff.mpr (toList_pad_ne_nil width n)
  have hall : (pad width n).toList.all Char.isDigit = true :=
    List.all_eq_true.mpr fun c hc => mem_pad hc
  rw [hempty, hall]
  rfl

/-- A plus sign in front does not matter. -/
theorem parse_unsigned_plus {bound width n : Nat} (h : n < bound) :
    parse_unsigned bound ("+" ++ pad width n) = some n := by
  have htext : ("+" ++ pad width n).toList = '+' :: (pad width n).toList := by
    rw [String.toList_append]
    rfl
  unfold parse_unsigned
  rw [htext, List.head?_cons, if_pos rfl, List.tail_cons]
  simp only [pad_all_digits, Bool.false_eq_true, if_false, of_digits_pad, h, if_true]

theorem parse_signed_plus {bound width n : Nat} (h : n < bound) :
    parse_signed bound ("+" ++ pad width n) = some (n : Int) := by
  have htext : ("+" ++ pad width n).toList = '+' :: (pad width n).toList := by
    rw [String.toList_append]
    rfl
  unfold parse_signed
  split
  · next digits heq =>
    rw [htext] at heq
    cases heq
  · rw [parse_unsigned_plus h]
    rfl

theorem parse_signed_minus {bound width n : Nat} (h : n ≤ bound) :
    parse_signed bound ("-" ++ pad width n) = some (-(n : Int)) := by
  have htext : ("-" ++ pad width n).toList = '-' :: (pad width n).toList := by
    rw [String.toList_append]
    rfl
  unfold parse_signed
  split
  · next digits heq =>
    rw [htext] at heq
    cases heq
    simp only [pad_all_digits, Bool.false_eq_true, if_false, of_digits_pad, h, if_true]
  · next hno => exact absurd htext (hno _)

/-- A number that is read consists of digits, and a plus sign at most. -/
theorem mem_of_parse_unsigned {bound value : Nat} {text : String}
    (h : parse_unsigned bound text = some value) {c : Char} (hc : c ∈ text.toList) :
    c.isDigit = true ∨ c = '+' := by
  unfold parse_unsigned at h
  simp only [Option.ite_none_left_eq_some, Bool.or_eq_true, Bool.not_eq_true', not_or,
    Bool.not_eq_false, List.all_eq_true] at h
  obtain ⟨⟨-, hall⟩, -⟩ := h
  by_cases hplus : text.toList.head? = some '+'
  · rw [if_pos hplus] at hall
    rw [List.eq_cons_of_mem_head? hplus] at hc
    rcases List.mem_cons.mp hc with rfl | hc
    · exact .inr rfl
    · exact .inl (hall c hc)
  · rw [if_neg hplus] at hall
    exact .inl (hall c hc)

theorem mem_of_parse_signed {bound : Nat} {value : Int} {text : String}
    (h : parse_signed bound text = some value) {c : Char} (hc : c ∈ text.toList) :
    c.isDigit = true ∨ c = '+' ∨ c = '-' := by
  unfold parse_signed at h
  split at h
  · next digits heq =>
    simp only [Option.ite_none_left_eq_some, Bool.or_eq_true, Bool.not_eq_true', not_or,
      Bool.not_eq_false, List.all_eq_true] at h
    obtain ⟨⟨-, hall⟩, -⟩ := h
    rw [heq] at hc
    rcases List.mem_cons.mp hc with rfl | hc
    · exact .inr (.inr rfl)
    · exact .inl (hall c hc)
  · obtain ⟨n, hn, -⟩ := Option.map_eq_some_iff.mp h
    exact (mem_of_parse_unsigned hn hc).imp_right .inl
/-- A text of ASCII characters has as many bytes as characters. -/
theorem utf8ByteSize_of_ascii (text : List Char) (h : ∀ c ∈ text, c.utf8Size = 1) :
    (String.ofList text).utf8ByteSize = text.length := by
  induction text with
  | nil => rfl
  | cons c text ih =>
    rw [String.ofList_cons, String.utf8ByteSize_append,
      ih fun c' hc' => h c' (List.mem_cons_of_mem c hc'),
      String.utf8ByteSize_singleton, h c List.mem_cons_self, List.length_cons, Nat.add_comm]

/-- No character has less than a byte. -/
theorem length_le_utf8ByteSize (text : List Char) :
    text.length ≤ (String.ofList text).utf8ByteSize := by
  induction text with
  | nil => exact Nat.zero_le _
  | cons c text ih =>
    have hpos := Char.utf8Size_pos c
    rw [String.ofList_cons, String.utf8ByteSize_append, String.utf8ByteSize_singleton,
      List.length_cons]
    omega

theorem utf8Size_of_isDigit {c : Char} (h : c.isDigit = true) : c.utf8Size = 1 := by
  rw [Char.utf8Size_eq_one_iff]
  simp only [Char.isDigit, Bool.and_eq_true, decide_eq_true_eq] at h
  have hnine : c.val.toNat ≤ 57 := h.2
  exact UInt32.le_iff_toNat_le.mpr (Nat.le_trans hnine (by decide))

theorem utf8ByteSize_pad {width n : Nat} (hwidth : 0 < width) (h : n < 10 ^ width) :
    (pad width n).utf8ByteSize = width := by
  have hsize := utf8ByteSize_of_ascii (pad width n).toList fun c hc =>
    utf8Size_of_isDigit (mem_pad hc)
  rw [String.ofList_toList, length_toList_pad hwidth h] at hsize
  exact hsize

theorem utf8ByteSize_pad_le {width n k : Nat} (hwidth : width ≤ k) (hk : 0 < k)
    (h : n < 10 ^ k) : (pad width n).utf8ByteSize ≤ k := by
  have hsize := utf8ByteSize_of_ascii (pad width n).toList fun c hc =>
    utf8Size_of_isDigit (mem_pad hc)
  have hlength := (Nat.length_toDigits_le_iff (by decide) hk).mpr h
  rw [String.ofList_toList, toList_pad, List.length_append, List.length_replicate] at hsize
  omega

/-! ### Splitting -/

/-- The pieces of a text between the occurrences of a pattern. -/
def split (pattern text : List Char) : List (List Char) := go 0 [] text
where
  /-- `skip` characters of the pattern are still to be passed over. -/
  go (skip : Nat) (piece : List Char) : List Char → List (List Char)
    | [] => [piece.reverse]
    | c :: rest =>
      match skip with
      | skip + 1 => go skip piece rest
      | 0 =>
        if pattern.isPrefixOf (c :: rest) then piece.reverse :: go (pattern.length - 1) [] rest
        else go 0 (c :: piece) rest

/-- There is always a last piece. -/
theorem split_go_ne_nil (pattern : List Char) :
    ∀ (text piece : List Char) (skip : Nat), split.go pattern skip piece text ≠ [] := by
  intro text
  induction text with
  | nil => intro piece skip hnil; cases hnil
  | cons c rest ih =>
    intro piece skip
    cases skip with
    | succ skip => exact ih piece skip
    | zero =>
      rw [split.go]
      split
      · exact List.cons_ne_nil _ _
      · exact ih (c :: piece) 0

theorem split_ne_nil (pattern text : List Char) : split pattern text ≠ [] :=
  split_go_ne_nil pattern text [] 0

theorem split_go_skip (pattern piece front rest : List Char) :
    split.go pattern front.length piece (front ++ rest) = split.go pattern 0 piece rest := by
  induction front with
  | nil => rfl
  | cons c front ih => exact ih

/-- A text in which the first character of the pattern does not occur is one piece. -/
theorem split_go_of_notMem {first : Char} {pattern piece text : List Char} (h : first ∉ text) :
    split.go (first :: pattern) 0 piece text = [piece.reverse ++ text] := by
  induction text generalizing piece with
  | nil => simp [split.go]
  | cons c text ih =>
    have hne : first ≠ c := fun heq => h (heq ▸ List.mem_cons_self)
    rw [split.go, if_neg, ih fun hmem => h (List.mem_cons_of_mem c hmem)]
    · simp
    · simp [List.isPrefixOf, hne]

theorem split_of_notMem {first : Char} {pattern text : List Char} (h : first ∉ text) :
    split (first :: pattern) text = [text] := split_go_of_notMem h

/-- Up to the first occurrence of the pattern. -/
theorem split_append {first : Char} {pattern front rest : List Char} (h : first ∉ front) :
    split (first :: pattern) (front ++ (first :: pattern) ++ rest) =
      front :: split (first :: pattern) rest := by
  have hgo : ∀ piece, split.go (first :: pattern) 0 piece
      (front ++ (first :: pattern) ++ rest) =
      (piece.reverse ++ front) :: split (first :: pattern) rest := by
    induction front with
    | nil =>
      intro piece
      have hprefix : (first :: pattern).isPrefixOf (first :: (pattern ++ rest)) = true :=
        List.isPrefixOf_iff_prefix.mpr (List.prefix_append (first :: pattern) rest)
      show split.go (first :: pattern) 0 piece (first :: (pattern ++ rest)) = _
      rw [split.go, if_pos hprefix, List.append_nil, List.length_cons, Nat.add_sub_cancel,
        split_go_skip]
      rfl
    | cons c front ih =>
      intro piece
      have hne : first ≠ c := fun heq => h (heq ▸ List.mem_cons_self)
      show split.go (first :: pattern) 0 piece (c :: (front ++ (first :: pattern) ++ rest)) = _
      rw [split.go, if_neg, ih fun hmem => h (List.mem_cons_of_mem c hmem)]
      · simp
      · simp [List.isPrefixOf, hne]
  exact hgo []

/-- A separator of one character. -/
theorem split_append_sep {sep : Char} {front : List Char} (h : sep ∉ front) (rest : List Char) :
    split [sep] (front ++ sep :: rest) = front :: split [sep] rest := by
  have hcut : split [sep] (front ++ [sep] ++ rest) = front :: split [sep] rest := split_append h
  rwa [List.append_assoc] at hcut

/-- Putting the pieces together again gives the text. -/
theorem intercalate_split_go {pattern : List Char} (hne : pattern ≠ []) (text piece : List Char) :
    List.intercalate pattern (split.go pattern 0 piece text) = piece.reverse ++ text := by
  generalize hlength : text.length = n
  induction n using Nat.strongRecOn generalizing text piece with
  | ind n ih =>
    cases text with
    | nil => simp [split.go]
    | cons c rest =>
      rw [split.go]
      by_cases hprefix : pattern.isPrefixOf (c :: rest) = true
      · rw [if_pos hprefix]
        obtain ⟨tail, htail⟩ := List.isPrefixOf_iff_prefix.mp hprefix
        obtain ⟨first, pattern, rfl⟩ := List.exists_cons_of_ne_nil hne
        obtain ⟨rfl, hrest⟩ := List.cons.inj (List.cons_append.symm.trans htail)
        subst hrest
        have hskip := split_go_skip (first :: pattern) [] pattern tail
        rw [List.length_cons, Nat.add_sub_cancel, hskip]
        have hlt : tail.length < n := by
          rw [← hlength, List.length_cons, List.length_append]
          omega
        have htail' := ih tail.length hlt tail [] rfl
        rw [List.intercalate_cons_of_ne_nil (split_go_ne_nil _ _ _ _), htail']
        simp
      · rw [if_neg hprefix, ih rest.length (by rw [← hlength]; simp) rest (c :: piece) rfl]
        simp

theorem intercalate_split {pattern : List Char} (hne : pattern ≠ []) (text : List Char) :
    List.intercalate pattern (split pattern text) = text :=
  intercalate_split_go hne text []

/-- A separator of one character is in none of the pieces. -/
theorem notMem_of_mem_split {sep : Char} {text piece : List Char} (h : piece ∈ split [sep] text) :
    sep ∉ piece := by
  have hgo : ∀ acc, sep ∉ acc → piece ∈ split.go [sep] 0 acc text → sep ∉ piece := by
    clear h
    induction text with
    | nil =>
      intro acc hacc hmem
      rw [split.go, List.mem_singleton] at hmem
      rwa [hmem, List.mem_reverse]
    | cons c text ih =>
      intro acc hacc hmem
      rw [split.go] at hmem
      by_cases hc : sep = c
      · rw [if_pos (by simp [List.isPrefixOf, hc])] at hmem
        rcases List.mem_cons.mp hmem with rfl | hmem
        · rwa [List.mem_reverse]
        · exact ih [] List.not_mem_nil hmem
      · rw [if_neg (by simp [List.isPrefixOf, hc])] at hmem
        refine ih (c :: acc) ?_ hmem
        simp [hc, hacc]
  exact hgo [] List.not_mem_nil h

/-- The pieces are those that have been put together. -/
theorem split_intercalate {sep : Char} {pieces : List (List Char)} (hne : pieces ≠ [])
    (h : ∀ piece ∈ pieces, sep ∉ piece) : split [sep] (List.intercalate [sep] pieces) = pieces := by
  induction pieces with
  | nil => exact absurd rfl hne
  | cons piece pieces ih =>
    have hpiece := h piece List.mem_cons_self
    cases pieces with
    | nil => simp [split_of_notMem hpiece]
    | cons next pieces =>
      have hrest := ih (List.cons_ne_nil _ _) fun p hp => h p (List.mem_cons_of_mem _ hp)
      rw [List.intercalate_cons_cons, List.append_assoc, List.singleton_append,
        split_append_sep hpiece, hrest]

/-- A piece is a part of the text. -/
theorem infix_of_mem_split {sep : Char} {text piece : List Char} (h : piece ∈ split [sep] text) :
    piece <:+: text := by
  have hmem : ∀ {pieces : List (List Char)}, piece ∈ pieces →
      piece <:+: List.intercalate [sep] pieces := by
    intro pieces hpieces
    induction pieces with
    | nil => cases hpieces
    | cons first pieces ih =>
      cases pieces with
      | nil =>
        rw [List.mem_singleton.mp hpieces]
        simp
      | cons next pieces =>
        rw [List.intercalate_cons_cons]
        rcases List.mem_cons.mp hpieces with rfl | hpieces
        · rw [List.append_assoc]
          exact (List.prefix_append _ _).isInfix
        · exact (ih hpieces).trans (List.suffix_append _ _).isInfix
  have hjoined := hmem h
  rwa [intercalate_split (List.cons_ne_nil _ _)] at hjoined

/-- A part without the separator is on one side of it. -/
theorem infix_of_append_sep {sep : Char} {run front rest : List Char} (h : sep ∉ run)
    (hcontains : run <:+: front ++ sep :: rest) : run <:+: front ∨ run <:+: rest := by
  obtain ⟨before, after, heq⟩ := hcontains
  rcases List.append_eq_append_iff.mp heq with hcase | hcase
  · obtain ⟨between, hfront, -⟩ := hcase
    exact .inl ⟨before, between, hfront.symm⟩
  · obtain ⟨between, hrun, hrest⟩ := hcase
    cases between with
    | nil => exact .inl ⟨before, [], by simpa using hrun⟩
    | cons c between =>
      rw [List.cons_append] at hrest
      obtain ⟨rfl, rfl⟩ := List.cons.inj hrest
      rcases List.append_eq_append_iff.mp hrun with hcase | hcase
      · obtain ⟨_, -, rfl⟩ := hcase
        simp at h
      · obtain ⟨gap, -, hmem⟩ := hcase
        cases gap with
        | nil =>
          rw [List.nil_append] at hmem
          simp [← hmem] at h
        | cons _ gap =>
          rw [List.cons_append] at hmem
          obtain ⟨-, rfl⟩ := List.cons.inj hmem
          exact .inr ⟨gap, after, rfl⟩

/-- A part without the separator is a part of a piece. -/
theorem infix_of_split {sep : Char} {run text : List Char} (h : sep ∉ run)
    (hcontains : run <:+: text) : ∃ piece ∈ split [sep] text, run <:+: piece := by
  generalize hlength : text.length = n
  induction n using Nat.strongRecOn generalizing text with
  | ind n ih =>
    by_cases hmem : sep ∈ text
    · obtain ⟨piece, rest, rfl, hpiece⟩ := List.eq_append_cons_of_mem hmem
      rw [split_append_sep hpiece]
      rcases infix_of_append_sep h hcontains with hfront | hrest
      · exact ⟨piece, List.mem_cons_self, hfront⟩
      · obtain ⟨next, hnext, hrun⟩ := ih rest.length (by simp at hlength; omega) hrest rfl
        exact ⟨next, List.mem_cons_of_mem _ hnext, hrun⟩
    · rw [split_of_notMem hmem]
      exact ⟨text, List.mem_singleton_self text, hcontains⟩

/-- What follows without a separator goes to the last piece. -/
theorem split_append_suffix {sep : Char} {suffix : List Char} (h : sep ∉ suffix)
    (text : List Char) : ∃ front last, split [sep] text = front ++ [last] ∧
      split [sep] (text ++ suffix) = front ++ [last ++ suffix] := by
  generalize hlength : text.length = n
  induction n using Nat.strongRecOn generalizing text with
  | ind n ih =>
    by_cases hmem : sep ∈ text
    · obtain ⟨piece, rest, rfl, hpiece⟩ := List.eq_append_cons_of_mem hmem
      obtain ⟨front, last, hrest, hsuffix⟩ := ih rest.length (by simp at hlength; omega) rest rfl
      refine ⟨piece :: front, last, ?_, ?_⟩
      · rw [split_append_sep hpiece, hrest, List.cons_append]
      · rw [List.append_assoc, List.cons_append, split_append_sep hpiece, hsuffix,
          List.cons_append]
    · refine ⟨[], text, split_of_notMem hmem, split_of_notMem ?_⟩
      rw [List.mem_append]
      exact not_or.mpr ⟨hmem, h⟩

/-- A separator of two characters whose second one does not occur before. -/
theorem split_pair_append {first second : Char} (hne : first ≠ second) {front : List Char}
    (h : second ∉ front) (rest : List Char) :
    split [first, second] (front ++ first :: second :: rest) =
      front :: split [first, second] rest := by
  have hgo : ∀ piece, split.go [first, second] 0 piece (front ++ first :: second :: rest) =
      (piece.reverse ++ front) :: split [first, second] rest := by
    induction front with
    | nil =>
      intro piece
      show split.go _ _ _ (first :: second :: rest) = _
      rw [split.go, if_pos (by simp), List.append_nil]
      rfl
    | cons c front ih =>
      intro piece
      have hfront : second ∉ front := fun hmem => h (List.mem_cons_of_mem c hmem)
      have hno : [first, second].isPrefixOf (c :: (front ++ first :: second :: rest)) = false := by
        cases front with
        | nil => simp [List.isPrefixOf, hne.symm]
        | cons c' front =>
          have hc' : second ≠ c' := fun heq => hfront (heq ▸ List.mem_cons_self)
          simp [List.isPrefixOf, hc']
      show split.go _ _ _ (c :: (front ++ first :: second :: rest)) = _
      rw [split.go, hno, if_neg Bool.false_ne_true, ih hfront]
      simp
  exact hgo []

theorem split_pair_of_notMem {first second : Char} {text : List Char} (h : second ∉ text) :
    split [first, second] text = [text] := by
  have hgo : ∀ piece, split.go [first, second] 0 piece text = [piece.reverse ++ text] := by
    induction text with
    | nil =>
      intro piece
      simp [split.go]
    | cons c text ih =>
      intro piece
      have htext : second ∉ text := fun hmem => h (List.mem_cons_of_mem c hmem)
      have hno : [first, second].isPrefixOf (c :: text) = false := by
        cases text with
        | nil => simp [List.isPrefixOf]
        | cons c' text =>
          have hc' : second ≠ c' := fun heq => htext (heq ▸ List.mem_cons_self)
          simp [List.isPrefixOf, hc']
      rw [split.go, hno, if_neg Bool.false_ne_true, ih htext]
      simp
  exact hgo []

end Text
