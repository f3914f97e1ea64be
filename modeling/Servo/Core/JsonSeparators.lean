import Servo.Core.JsonText
import Servo.Framework.Delimited
import Servo.Framework.Text

/-! # Texts of JSON Values Between Separators

    A `|` in the text of a value is in one of its strings. A scanner that knows
    where strings begin and end therefore tells a `|` within a text from one
    that has been put between two texts.
-/

namespace Servo

open Delimited (Sealed sealed_of_forall sealed_intercalate sealed_quoted)

/-- Where a character of a JSON text stands. -/
inductive JsonPlace where
  | outside
  | inside
  /-- In a string, behind a backslash. -/
  | escaped
  deriving DecidableEq

/-- From one character to the next. -/
def scan_json : JsonPlace → Char → JsonPlace
  | .outside, c => if c = '"' then .inside else .outside
  | .inside, c => if c = '"' then .outside else if c = '\\' then .escaped else .inside
  | .escaped, _ => .inside

/-- A `|` of the text is in one of its strings. -/
abbrev SealedText (text : Json) : Prop := Sealed scan_json .outside '|' text.toList

/-- The characters do not end the string in which they are. -/
structure StaysInside (text : List Char) : Prop where
  back : text.foldl scan_json .inside = .inside
  never : ∀ front, front <+: text → front.foldl scan_json .inside ≠ .outside

theorem stays_inside_nil : StaysInside [] where
  back := rfl
  never front h := by
    rw [List.prefix_nil.mp h]
    decide

theorem StaysInside.append {text text' : List Char} (h : StaysInside text)
    (h' : StaysInside text') : StaysInside (text ++ text') where
  back := by rw [List.foldl_append, h.back, h'.back]
  never front hfront := by
    obtain ⟨rest, hrest⟩ := hfront
    rcases List.append_eq_append_iff.mp hrest with ⟨inner, htext, -⟩ | ⟨inner, hlong, htext'⟩
    · exact h.never front ⟨inner, htext.symm⟩
    · rw [hlong, List.foldl_append, h.back]
      exact h'.never inner ⟨rest, htext'.symm⟩

/-- Only finitely many pieces are to be looked at. -/
theorem stays_inside_of_inits {text : List Char} (hback : text.foldl scan_json .inside = .inside)
    (hnever : ∀ front ∈ text.inits, front.foldl scan_json .inside ≠ .outside) :
    StaysInside text :=
  ⟨hback, fun front h => hnever front ((List.mem_inits front text).mpr h)⟩

theorem stays_inside_json_char (c : Char) : StaysInside (json_char c).toList := by
  have hc : c = Char.ofNat c.toNat := (Char.ofNat_toNat c).symm
  by_cases hlow : c.toNat < 32
  · generalize c.toNat = n at hc hlow
    subst hc
    interval_cases n <;> exact stays_inside_of_inits (by decide) (by decide)
  · by_cases hquote : c.toNat = 34
    · rw [hc, hquote]
      exact stays_inside_of_inits (by decide) (by decide)
    · by_cases hback : c.toNat = 92
      · rw [hc, hback]
        exact stays_inside_of_inits (by decide) (by decide)
      · have hplain : json_char c = String.ofList [c] := by
          unfold json_char
          rw [if_neg hquote, if_neg hback, if_neg (by omega), if_neg (by omega),
            if_neg (by omega), if_neg (by omega), if_neg (by omega), if_neg hlow]
        have hne : c ≠ '"' ∧ c ≠ '\\' := by
          constructor
          · rintro rfl
            exact hquote rfl
          · rintro rfl
            exact hback rfl
        rw [hplain, String.toList_ofList]
        apply stays_inside_of_inits
        · simp [scan_json, hne.1, hne.2]
        · simp [scan_json, hne.1, hne.2]

theorem sealed_json_string (text : String) : SealedText (json_string text) := by
  have hbody : StaysInside (text.toList.flatMap fun c => (json_char c).toList) := by
    induction text.toList with
    | nil => exact stays_inside_nil
    | cons c chars ih =>
      rw [List.flatMap_cons]
      exact (stays_inside_json_char c).append ih
  rw [SealedText, toList_json_string]
  apply sealed_quoted (by decide)
  · intro front hfront
    exact hbody.never front hfront
  · rw [List.foldl_cons, List.foldl_append]
    show ([_] : List Char).foldl scan_json (List.foldl scan_json .inside _) = _
    rw [hbody.back]
    rfl

/-- The texts of double-precision numbers: digits, a sign, a point and an exponent, or `null`. -/
def NumberTexts (F : Type) [F64 F] : Prop :=
  ∀ (x : F) (c : Char), c ∈ (F64.to_text x).toList →
    c.isAlphanum = true ∨ c = '-' ∨ c = '+' ∨ c = '.'

/-- Brackets, commas and words have no quotes and no separators. -/
theorem sealed_plain {text : String} (h : ∀ c ∈ text.toList, c ≠ '"' ∧ c ≠ '|') :
    SealedText text :=
  sealed_of_forall fun c hc => ⟨if_neg (h c hc).1, (h c hc).2⟩

/-- The same, where the characters are given. -/
theorem sealed_literal {text : String}
    (h : text.toList.all (fun c => c ≠ '"' && c ≠ '|') = true) : SealedText text := by
  apply sealed_plain
  intro c hc
  simpa using List.all_eq_true.mp h c hc

theorem sealed_text_append {text text' : String} (h : SealedText text) (h' : SealedText text') :
    SealedText (text ++ text') := by
  rw [SealedText, String.toList_append]
  exact Delimited.Sealed.append h h'

theorem sealed_commas {texts : List String} (h : ∀ text ∈ texts, SealedText text) :
    SealedText (",".intercalate texts) := by
  rw [SealedText, String.toList_intercalate]
  apply sealed_intercalate (sealed_literal (by decide))
  intro word hword
  obtain ⟨text, htext, rfl⟩ := List.mem_map.mp hword
  exact h text htext

section values
variable {F : Type} [F64 F]

theorem sealed_number (hnumbers : NumberTexts F) (n : Number F) : SealedText n.to_text := by
  have hplain : ∀ c ∈ n.to_text.toList, c.isAlphanum = true ∨ c = '-' ∨ c = '+' ∨ c = '.' := by
    cases n with
    | float x => exact hnumbers x
    | int n =>
      intro c hc
      rcases Text.mem_toString_int hc with hdigit | hminus
      · have halphanum : c.isAlphanum = (c.isAlpha || c.isDigit) := rfl
        rw [halphanum, hdigit, Bool.or_true]
        exact .inl rfl
      · exact .inr (.inl hminus)
  apply sealed_plain
  intro c hc
  rcases hplain c hc with h | rfl | rfl | rfl
  · constructor
    · rintro rfl
      exact absurd h (by decide)
    · rintro rfl
      exact absurd h (by decide)
  · decide
  · decide
  · decide

mutual

theorem sealed_to_text (hnumbers : NumberTexts F) : ∀ value : Value F, SealedText value.to_text
  | .null => show SealedText "null" from sealed_literal (by decide)
  | .bool true => show SealedText "true" from sealed_literal (by decide)
  | .bool false => show SealedText "false" from sealed_literal (by decide)
  | .number n => sealed_number hnumbers n
  | .string text => sealed_json_string text
  | .array items =>
    sealed_text_append (sealed_text_append (sealed_literal (by decide))
      (sealed_commas (sealed_items_text hnumbers items))) (sealed_literal (by decide))
  | .object members =>
    sealed_text_append (sealed_text_append (sealed_literal (by decide))
      (sealed_commas (sealed_members_text hnumbers members))) (sealed_literal (by decide))

theorem sealed_items_text (hnumbers : NumberTexts F) : ∀ items : List (Value F),
    ∀ text ∈ items_text items, SealedText text
  | [], _, htext => absurd htext List.not_mem_nil
  | item :: items, text, htext => by
    rcases List.mem_cons.mp htext with rfl | htext
    · exact sealed_to_text hnumbers item
    · exact sealed_items_text hnumbers items text htext

theorem sealed_members_text (hnumbers : NumberTexts F) : ∀ members : List (String × Value F),
    ∀ text ∈ members_text members, SealedText text
  | [], _, htext => absurd htext List.not_mem_nil
  | (name, value) :: members, text, htext => by
    rcases List.mem_cons.mp htext with rfl | htext
    · exact sealed_text_append (sealed_text_append (sealed_json_string name)
        (sealed_literal (by decide))) (sealed_to_text hnumbers value)
    · exact sealed_members_text hnumbers members text htext

end

end values

/-! ### Texts that are put together -/

section texts
variable {texts texts' : List Json}

theorem sealed_words (h : ∀ text ∈ texts, SealedText text) :
    ∀ word ∈ texts.map String.toList, Sealed scan_json .outside '|' word := by
  intro word hword
  obtain ⟨text, htext, rfl⟩ := List.mem_map.mp hword
  exact h text htext

theorem toList_words_inj (heq : texts.map String.toList = texts'.map String.toList) :
    texts = texts' :=
  List.map_injective_iff.mpr (fun _ _ h => String.toList_injective h) heq

/-- With a `|` between each two texts. -/
theorem joined_texts_inj (h : ∀ text ∈ texts, SealedText text)
    (h' : ∀ text ∈ texts', SealedText text) (hne : texts ≠ []) (hne' : texts' ≠ [])
    (heq : "|".intercalate texts = "|".intercalate texts') : texts = texts' := by
  have hlist := congrArg String.toList heq
  rw [String.toList_intercalate, String.toList_intercalate] at hlist
  exact toList_words_inj (Delimited.intercalate_inj (by simpa using hne) (by simpa using hne')
    (sealed_words h) (sealed_words h') hlist)

/-- What is pushed onto a key, with a `|` behind each text. -/
theorem toList_pushed_texts (texts : List Json) (key : String) :
    (texts.foldl (fun key text => key ++ text ++ "|") key).toList =
      key.toList ++ (texts.map String.toList).flatMap (· ++ ['|']) := by
  induction texts generalizing key with
  | nil => simp
  | cons text texts ih =>
    rw [List.foldl_cons, ih, String.toList_append, String.toList_append, List.map_cons,
      List.flatMap_cons, List.append_assoc, List.append_assoc]
    simp

/-- With a `|` behind each text. -/
theorem pushed_texts_inj (h : ∀ text ∈ texts, SealedText text)
    (h' : ∀ text ∈ texts', SealedText text)
    (heq : texts.foldl (fun key text => key ++ text ++ "|") "" =
      texts'.foldl (fun key text => key ++ text ++ "|") "") : texts = texts' := by
  have hlist := congrArg String.toList heq
  rw [toList_pushed_texts, toList_pushed_texts] at hlist
  exact toList_words_inj (Delimited.terminated_inj (sealed_words h) (sealed_words h') hlist)

end texts

end Servo
