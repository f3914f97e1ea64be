import Servo.Core.Value
import Mathlib.Tactic.IntervalCases

/-! # What a JSON Text Determines

    The text of a string determines the string, because each character can be
    read back from the front of the text.
-/

namespace Servo

/-- What follows a backslash: the character it stands for, and the rest. -/
def read_escape : List Char → Option (Char × List Char)
  | 'u' :: _ :: _ :: high :: low :: rest =>
    some (Char.ofNat (16 * (if high = '1' then 1 else 0) +
      (if low.isDigit then low.toNat - 48 else low.toNat - 87)), rest)
  | 'b' :: rest => some (Char.ofNat 8, rest)
  | 't' :: rest => some (Char.ofNat 9, rest)
  | 'n' :: rest => some (Char.ofNat 10, rest)
  | 'f' :: rest => some (Char.ofNat 12, rest)
  | 'r' :: rest => some (Char.ofNat 13, rest)
  | c :: rest => some (c, rest)
  | [] => none

/-- The first character of what is written in a string, and the rest. -/
def read_json_char : List Char → Option (Char × List Char)
  | [] => none
  | c :: rest => if c = '\\' then read_escape rest else some (c, rest)

theorem read_json_char_append (c : Char) (rest : List Char) :
    read_json_char ((json_char c).toList ++ rest) = some (c, rest) := by
  have hc : c = Char.ofNat c.toNat := (Char.ofNat_toNat c).symm
  by_cases hlow : c.toNat < 32
  · generalize c.toNat = n at hc hlow
    subst hc
    interval_cases n <;> rfl
  · by_cases hquote : c.toNat = 34
    · rw [hc, hquote]
      rfl
    · by_cases hback : c.toNat = 92
      · rw [hc, hback]
        rfl
      · have hplain : json_char c = String.ofList [c] := by
          unfold json_char
          rw [if_neg hquote, if_neg hback, if_neg (by omega), if_neg (by omega),
            if_neg (by omega), if_neg (by omega), if_neg (by omega), if_neg hlow]
        have hne : c ≠ '\\' := by
          rintro rfl
          exact hback rfl
        rw [hplain, String.toList_ofList]
        exact if_neg hne

theorem json_char_ne_nil (c : Char) : (json_char c).toList ≠ [] := by
  intro hnil
  have hread := read_json_char_append c []
  rw [hnil] at hread
  cases hread

/-- What is written of one character after the other. -/
theorem json_chars_inj {cs cs' : List Char} :
    cs.flatMap (fun c => (json_char c).toList) = cs'.flatMap (fun c => (json_char c).toList) →
      cs = cs' := by
  induction cs generalizing cs' with
  | nil =>
    intro h
    cases cs' with
    | nil => rfl
    | cons c' cs' =>
      rw [List.flatMap_cons] at h
      exact absurd (List.append_eq_nil_iff.mp h.symm).1 (json_char_ne_nil c')
  | cons c cs ih =>
    intro h
    cases cs' with
    | nil =>
      rw [List.flatMap_cons] at h
      exact absurd (List.append_eq_nil_iff.mp h).1 (json_char_ne_nil c)
    | cons c' cs' =>
      rw [List.flatMap_cons, List.flatMap_cons] at h
      have hread := congrArg read_json_char h
      rw [read_json_char_append, read_json_char_append] at hread
      have hpair := Option.some.inj hread
      have hchar : c = c' := congrArg Prod.fst hpair
      have hrest := ih (congrArg Prod.snd hpair)
      rw [hchar, hrest]

theorem toList_json_string (text : String) :
    (json_string text).toList =
      '"' :: (text.toList.flatMap (fun c => (json_char c).toList) ++ ['"']) := by
  rw [json_string, String.toList_append, String.toList_append, String.toList_join,
    List.flatMap_map]
  rfl

theorem json_string_inj {text text' : String} (h : json_string text = json_string text') :
    text = text' := by
  have hchars := congrArg String.toList h
  rw [toList_json_string, toList_json_string, List.cons.injEq] at hchars
  exact String.ext (json_chars_inj (List.append_cancel_right hchars.2))

end Servo
