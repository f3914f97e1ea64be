import Servo.Worker.PiiPatterns

/-! # What Redaction Leaves

    A pattern that is a whole word gives nothing a word boundary when it is
    replaced. The pattern for a phone number with its area in brackets does: a
    number that has stood right behind it stands alone behind its label, where
    the patterns before it are not searched again.

    So what is left of an enabled pattern stands directly behind `[PHONE]`, or
    at the end of a text that has been cut.
-/

namespace Servo.Pii

open Pattern (Found FoundElsewhere FoundBehind FoundAtEnd Carries Avoids Settled EndsWith)

/-- The kinds of personal data. -/
inductive PiiKind where
  | email
  | ssn
  | credit_card
  | phone
  | ip_address
  deriving DecidableEq

def PiiKind.pattern (classes : UnicodeClasses) : PiiKind → Pattern Char
  | .email => Pii.email
  | .ssn => Pii.ssn classes
  | .credit_card => Pii.credit_card classes
  | .phone => Pii.phone classes
  | .ip_address => Pii.ipv4 classes

/-- This kind is redacted. -/
def PiiFilterConfig.redacts (config : PiiFilterConfig) : PiiKind → Bool
  | .email => config.redact_emails
  | .ssn => config.redact_ssn
  | .credit_card => config.redact_credit_cards
  | .phone => config.redact_phone_numbers
  | .ip_address => config.redact_ip_addresses

/-- No enabled pattern matches a part of the text. -/
def Redacted (classes : UnicodeClasses) (config : PiiFilterConfig) (text : String) : Prop :=
  ∀ kind, config.redacts kind = true → ¬ Found (kind.pattern classes) text.toList

variable {classes : UnicodeClasses} {config : PiiFilterConfig}

/-! ### Labels -/

theorem email_label : IsLabel "[EMAIL]".toList := ⟨by decide, by decide, by decide⟩

theorem ssn_label : IsLabel "[SSN]".toList := ⟨by decide, by decide, by decide⟩

theorem card_label : IsLabel "[CARD]".toList := ⟨by decide, by decide, by decide⟩

theorem phone_label : IsLabel "[PHONE]".toList := ⟨by decide, by decide, by decide⟩

theorem ip_label : IsLabel "[IP]".toList := ⟨by decide, by decide, by decide⟩

theorem truncated_label : IsLabel "[TRUNCATED]".toList := ⟨by decide, by decide, by decide⟩

/-! ### One pattern after the other -/

section passes

/-- A pattern is replaced if it is enabled. -/
def pass (enabled : Bool) (q : Pattern Char) (label text : List Char) : List Char :=
  if enabled then q.replace_all label text else text

theorem replaced_eq (input : List Char) : replaced classes config input =
    pass config.redact_ip_addresses (ipv4 classes) "[IP]".toList
      (pass config.redact_phone_numbers (phone classes) "[PHONE]".toList
        (pass config.redact_credit_cards (credit_card classes) "[CARD]".toList
          (pass config.redact_ssn (ssn classes) "[SSN]".toList
            (pass config.redact_emails email "[EMAIL]".toList input)))) := rfl

variable {enabled : Bool} {p q : Pattern Char} {label mark text : List Char}

/-- What is not found before is not found after. -/
theorem not_found_pass (hlabel : IsLabel label) (hp : p.Avoids label) (hq : q.Avoids label)
    (hcarries : ∀ front, Carries classes.is_word p label front q) (h : ¬ Found q text) :
    ¬ Found q (pass enabled p label text) := by
  unfold pass
  split
  · intro hfound
    exact h (Pattern.found_of_replace_all hlabel.ne_nil hp hq hcarries hfound)
  · exact h

theorem not_found_own_pass (henabled : enabled = true) (hlabel : IsLabel label)
    (hp : p.Avoids label) (hcarries : ∀ front, Carries classes.is_word p label front p) :
    ¬ Found p (pass enabled p label text) := by
  unfold pass
  rw [if_pos henabled]
  exact Pattern.not_found_replace_all hlabel.ne_nil hp hcarries

theorem carries_whole_number (hp : IsWholeNumber classes p) (hq : q.Settled classes.is_word)
    (front : List Char) : Carries classes.is_word p label front q :=
  .inr ⟨hp.left, hq, .inl hp.right⟩

theorem carries_email (front : List Char) : Carries classes.is_word p label front email :=
  .inl email_free

/-- The pass for phone numbers leaves what is directly behind a label. -/
theorem not_elsewhere_phone_pass (hq : q.Avoids "[PHONE]".toList)
    (hsettled : q.Settled classes.is_word) (h : ¬ Found q text) :
    ¬ FoundElsewhere "[PHONE]".toList q (pass enabled (phone classes) "[PHONE]".toList text) := by
  unfold pass
  split
  · intro hfound
    exact h (Pattern.found_of_elsewhere phone_label.ne_nil (phone_number.avoids phone_label) hq
      phone_number.left hsettled hfound)
  · exact fun hfound => h hfound.found

/-- The pass for addresses puts nothing between a label and what follows. -/
theorem not_elsewhere_ip_pass (hq : q.Avoids "[IP]".toList) (hsettled : q.Settled classes.is_word)
    (h : ¬ FoundElsewhere "[PHONE]".toList q text) :
    ¬ FoundElsewhere "[PHONE]".toList q (pass enabled (ipv4 classes) "[IP]".toList text) := by
  unfold pass
  split
  · intro hfound
    exact h (Pattern.elsewhere_of_replace_all ip_label.ne_nil (ipv4_whole_number.avoids ip_label)
      hq (ipv4_over_label phone_label (by decide))
      (carries_whole_number ipv4_whole_number hsettled) hfound)
  · exact h

/-- A number that is not found before the last two passes. -/
theorem not_elsewhere_last_passes {enabled' : Bool} (hq : IsNumber classes q)
    (h : ¬ Found q text) :
    ¬ FoundElsewhere "[PHONE]".toList q (pass enabled' (ipv4 classes) "[IP]".toList
      (pass enabled (phone classes) "[PHONE]".toList text)) :=
  not_elsewhere_ip_pass (hq.avoids ip_label) hq.settled
    (not_elsewhere_phone_pass (hq.avoids phone_label) hq.settled h)

end passes

/-- After all replacements an enabled pattern is found directly behind `[PHONE]` only. -/
theorem not_elsewhere_replaced (input : List Char) {kind : PiiKind}
    (h : config.redacts kind = true) :
    ¬ FoundElsewhere "[PHONE]".toList (kind.pattern classes) (replaced classes config input) := by
  have hssn := @ssn_whole_number classes
  have hcard := @credit_card_whole_number classes
  have hphone := @phone_number classes
  have hip := @ipv4_whole_number classes
  rw [replaced_eq]
  cases kind with
  | email =>
    have hemail : ∀ {p label} front, Carries classes.is_word p label front email := carries_email
    intro hfound
    apply not_found_pass ip_label (hip.avoids ip_label) (email_avoids ip_label) hemail _
      hfound.found
    apply not_found_pass phone_label (hphone.avoids phone_label) (email_avoids phone_label) hemail
    apply not_found_pass card_label (hcard.avoids card_label) (email_avoids card_label) hemail
    apply not_found_pass ssn_label (hssn.avoids ssn_label) (email_avoids ssn_label) hemail
    exact not_found_own_pass h email_label (email_avoids email_label) hemail
  | ssn =>
    apply not_elsewhere_last_passes hssn.toIsNumber
    apply not_found_pass card_label (hcard.avoids card_label) (hssn.avoids card_label)
      (carries_whole_number hcard hssn.settled)
    exact not_found_own_pass h ssn_label (hssn.avoids ssn_label)
      (carries_whole_number hssn hssn.settled)
  | credit_card =>
    apply not_elsewhere_last_passes hcard.toIsNumber
    exact not_found_own_pass h card_label (hcard.avoids card_label)
      (carries_whole_number hcard hcard.settled)
  | phone =>
    apply not_elsewhere_ip_pass (hphone.avoids ip_label) hphone.settled
    have henabled : config.redact_phone_numbers = true := h
    rw [pass, if_pos henabled]
    exact Pattern.not_foundElsewhere_replace_all phone_label.ne_nil (hphone.avoids phone_label)
      hphone.left hphone.settled
  | ip_address =>
    intro hfound
    exact not_found_own_pass h ip_label (hip.avoids ip_label)
      (carries_whole_number hip hip.settled) hfound.found

/-! ### Cutting the text -/

theorem settled_pattern (kind : PiiKind) : (kind.pattern classes).Settled classes.is_word := by
  cases kind with
  | email => exact Pattern.settled_of_free email_free
  | ssn => exact ssn_whole_number.settled
  | credit_card => exact credit_card_whole_number.settled
  | phone => exact phone_number.settled
  | ip_address => exact ipv4_whole_number.settled

theorem pattern_avoids (kind : PiiKind) {label : List Char} (hlabel : IsLabel label) :
    (kind.pattern classes).Avoids label := by
  cases kind with
  | email => exact email_avoids hlabel
  | ssn => exact ssn_whole_number.avoids hlabel
  | credit_card => exact credit_card_whole_number.avoids hlabel
  | phone => exact phone_number.avoids hlabel
  | ip_address => exact ipv4_whole_number.avoids hlabel

/-- No match ends with a dot. -/
theorem pattern_ends (kind : PiiKind) :
    (kind.pattern classes).EndsWith fun c => c ∉ ['.', '.', '.'] := by
  have hdigit : ∀ c, classes.is_digit c = true → c ∉ ['.', '.', '.'] := by
    intro c hc hmem
    simp at hmem
    subst hmem
    cases hc
  cases kind with
  | email =>
    apply Pattern.endsWith_seq (Pattern.endsWith_run (by decide) _)
    intro c hc hmem
    simp at hmem
    subst hmem
    cases hc
  | ssn => exact Pattern.endsWith_mono hdigit ssn_whole_number.ends
  | credit_card => exact Pattern.endsWith_mono hdigit credit_card_whole_number.ends
  | phone => exact Pattern.endsWith_mono hdigit phone_number.ends
  | ip_address => exact Pattern.endsWith_mono hdigit ipv4_whole_number.ends

/-- The mark of a text that has been cut adds nothing that is found. -/
theorem found_truncated_iff (kind : PiiKind) (kept : List Char) :
    Found (kind.pattern classes) (kept ++ "...[TRUNCATED]".toList) ↔
      Found (kind.pattern classes) kept := by
  have hmark : "...[TRUNCATED]".toList = ['.', '.', '.'] ++ "[TRUNCATED]".toList := by decide
  have hwords : ∀ c ∈ ['.', '.', '.'], classes.is_word c = false := by
    intro c hc
    simp at hc
    subst hc
    rfl
  rw [hmark, ← List.append_assoc]
  exact Pattern.found_append_label_iff (by decide) hwords (pattern_ends kind)
    (settled_pattern kind) (pattern_avoids kind truncated_label)

/-- The part of the text that is kept. -/
def kept_text (max_sample_length : Nat) (text : List Char) : Option (List Char × List Char) :=
  if max_sample_length < (String.ofList text).utf8ByteSize then split_at max_sample_length text
  else some (text, [])

/-- After the replacements: the limit is between two characters, and no enabled pattern matches
    what is kept directly behind `[PHONE]`, or at the cut. -/
def Separated (classes : UnicodeClasses) (config : PiiFilterConfig) (input : String) : Prop :=
  ∃ kept rest,
    kept_text config.max_sample_length (replaced classes config input.toList) =
        some (kept, rest) ∧
      ∀ kind, config.redacts kind = true →
        ¬ FoundBehind "[PHONE]".toList (kind.pattern classes) kept ∧
          (rest ≠ [] → ¬ FoundAtEnd (kind.pattern classes) kept)

/-- What redaction does with the text after the replacements: it is kept, or cut, or the limit is
    inside a character. -/
theorem redact_cases (input : String) :
    (redact classes config input =
          some (String.ofList (replaced classes config input.toList)) ∧
        kept_text config.max_sample_length (replaced classes config input.toList) =
          some (replaced classes config input.toList, [])) ∨
      (∃ kept rest, rest ≠ [] ∧ replaced classes config input.toList = kept ++ rest ∧
        redact classes config input = some (String.ofList kept ++ "...[TRUNCATED]") ∧
        kept_text config.max_sample_length (replaced classes config input.toList) =
          some (kept, rest)) ∨
      redact classes config input = none ∧
        kept_text config.max_sample_length (replaced classes config input.toList) = none := by
  unfold redact kept_text
  dsimp only
  generalize replaced classes config input.toList = text
  split
  · next hlimit =>
    right
    rw [slice_zero, String.toList_ofList]
    cases hsplit : split_at config.max_sample_length text with
    | none => exact .inr ⟨rfl, rfl⟩
    | some parts =>
      obtain ⟨kept, rest⟩ := parts
      have htext : text = kept ++ rest := split_at_eq_some hsplit
      refine .inl ⟨kept, rest, ?_, htext, rfl, rfl⟩
      intro hnil
      have hsize : (String.ofList kept).utf8ByteSize = config.max_sample_length :=
        size_of_split_at hsplit
      rw [htext, hnil, List.append_nil, hsize] at hlimit
      exact lt_irrefl _ hlimit
  · exact .inl ⟨rfl, rfl⟩

/-- The text that is kept is clean exactly if nothing is found directly behind `[PHONE]`, or at
    the cut. -/
theorem clean_front_iff {input : String} {kept rest : List Char}
    (htext : replaced classes config input.toList = kept ++ rest) :
    (∀ kind, config.redacts kind = true → ¬ Found (kind.pattern classes) kept) ↔
      ∀ kind, config.redacts kind = true →
        ¬ FoundBehind "[PHONE]".toList (kind.pattern classes) kept ∧
          (rest ≠ [] → ¬ FoundAtEnd (kind.pattern classes) kept) := by
  have hiff : ∀ kind, config.redacts kind = true →
      (Found (kind.pattern classes) kept ↔
        FoundBehind "[PHONE]".toList (kind.pattern classes) kept ∨
          rest ≠ [] ∧ FoundAtEnd (kind.pattern classes) kept) := by
    intro kind hkind
    apply Pattern.found_front_iff
    rw [← htext]
    exact not_elsewhere_replaced input.toList hkind
  constructor
  · intro h kind hkind
    have hplace := mt (hiff kind hkind).mpr (h kind hkind)
    exact ⟨fun hbehind => hplace (.inl hbehind), fun hrest hend => hplace (.inr ⟨hrest, hend⟩)⟩
  · intro h kind hkind hfound
    rcases (hiff kind hkind).mp hfound with hbehind | ⟨hrest, hend⟩
    · exact (h kind hkind).1 hbehind
    · exact (h kind hkind).2 hrest hend

/-- Redaction leaves no match exactly if the text is separated. -/
theorem redact_iff (input : String) :
    (∃ output, redact classes config input = some output ∧ Redacted classes config output) ↔
      Separated classes config input := by
  have hkept_iff : ∀ {kept rest : List Char} {output : String},
      replaced classes config input.toList = kept ++ rest →
      redact classes config input = some output →
      kept_text config.max_sample_length (replaced classes config input.toList) =
        some (kept, rest) →
      (Redacted classes config output ↔
        ∀ kind, config.redacts kind = true → ¬ Found (kind.pattern classes) kept) →
      ((∃ output, redact classes config input = some output ∧ Redacted classes config output) ↔
        Separated classes config input) := by
    intro kept rest output htext hredact hkept hclean
    rw [clean_front_iff htext] at hclean
    constructor
    · intro h
      obtain ⟨output', hredact', hredacted⟩ := h
      cases hredact.symm.trans hredact'
      exact ⟨kept, rest, hkept, hclean.mp hredacted⟩
    · intro h
      obtain ⟨kept', rest', hkept', hplaces⟩ := h
      cases hkept.symm.trans hkept'
      exact ⟨output, hredact, hclean.mpr hplaces⟩
  obtain ⟨hredact, hkept⟩ | ⟨kept, rest, -, htext, hredact, hkept⟩ | ⟨hredact, hkept⟩ :=
    @redact_cases classes config input
  · apply hkept_iff (List.append_nil _).symm hredact hkept
    unfold Redacted
    rw [String.toList_ofList]
  · apply hkept_iff htext hredact hkept
    unfold Redacted
    rw [String.toList_append, String.toList_ofList]
    exact forall_congr' fun kind =>
      imp_congr_right fun _ => not_congr (found_truncated_iff kind kept)
  · -- the limit is inside a character: nothing is returned, and nothing is kept
    apply iff_of_false
    · intro h
      obtain ⟨output, houtput, -⟩ := h
      rw [hredact] at houtput
      cases houtput
    · intro h
      obtain ⟨kept, rest, hparts, -⟩ := h
      rw [hkept] at hparts
      cases hparts

/-! ### Values -/

section values

variable {F : Type}

mutual

/-- The strings of a value, at every depth. -/
def strings : Value F → List String
  | .string text => [text]
  | .array items => strings_of_items items
  | .object members => strings_of_members members
  | .null => []
  | .bool _ => []
  | .number _ => []

def strings_of_items : List (Value F) → List String
  | [] => []
  | item :: items => strings item ++ strings_of_items items

def strings_of_members : List (String × Value F) → List String
  | [] => []
  | (_, value) :: members => strings value ++ strings_of_members members

end

mutual

/-- The strings of the value that is returned are those of the value, redacted. -/
theorem strings_redact_json : ∀ value : Value F,
    (redact_json classes config value).map strings = (strings value).mapM (redact classes config)
  | .string text => by
    rw [redact_json, strings, List.mapM_cons, List.mapM_nil]
    cases redact classes config text <;> rfl
  | .array items => by
    rw [redact_json, strings, ← strings_redact_items items]
    cases redact_items classes config items <;> rfl
  | .object members => by
    rw [redact_json, strings, ← strings_redact_members members]
    cases redact_members classes config members <;> rfl
  | .null => rfl
  | .bool _ => rfl
  | .number _ => rfl

theorem strings_redact_items : ∀ items : List (Value F),
    (redact_items classes config items).map strings_of_items =
      (strings_of_items items).mapM (redact classes config)
  | [] => rfl
  | item :: items => by
    rw [redact_items, strings_of_items, List.mapM_append, ← strings_redact_json item,
      ← strings_redact_items items]
    cases redact_json classes config item with
    | none => rfl
    | some item =>
      cases redact_items classes config items <;> rfl

theorem strings_redact_members : ∀ members : List (String × Value F),
    (redact_members classes config members).map strings_of_members =
      (strings_of_members members).mapM (redact classes config)
  | [] => rfl
  | (name, value) :: members => by
    rw [redact_members, strings_of_members, List.mapM_append, ← strings_redact_json value,
      ← strings_redact_members members]
    cases redact_json classes config value with
    | none => rfl
    | some value =>
      cases redact_members classes config members <;> rfl

end

/-- A list is mapped to one that satisfies `p` if every element is. -/
theorem exists_mapM_iff {α β : Type} {f : α → Option β} {p : β → Prop} {xs : List α} :
    (∃ ys, xs.mapM f = some ys ∧ ∀ y ∈ ys, p y) ↔ ∀ x ∈ xs, ∃ y, f x = some y ∧ p y := by
  induction xs with
  | nil => exact iff_of_true ⟨[], rfl, by simp⟩ (by simp)
  | cons x xs ih =>
    rw [List.forall_mem_cons, ← ih, List.mapM_cons]
    constructor
    · intro h
      obtain ⟨ys, hys, hp⟩ := h
      obtain ⟨y, hy, hys⟩ := Option.bind_eq_some_iff.mp hys
      obtain ⟨ys', hys', hys⟩ := Option.bind_eq_some_iff.mp hys
      cases hys
      exact ⟨⟨y, hy, hp y List.mem_cons_self⟩, ys', hys',
        fun z hz => hp z (List.mem_cons_of_mem _ hz)⟩
    · intro h
      obtain ⟨⟨y, hy, hpy⟩, ys, hys, hp⟩ := h
      refine ⟨y :: ys, ?_, List.forall_mem_cons.mpr ⟨hpy, hp⟩⟩
      rw [hy, hys]
      rfl

theorem redact_json_iff (value : Value F) :
    (∃ output, redact_json classes config value = some output ∧
        ∀ text ∈ strings output, Redacted classes config text) ↔
      ∀ text ∈ strings value, Separated classes config text := by
  simp only [← redact_iff]
  rw [← exists_mapM_iff, ← strings_redact_json]
  constructor
  · intro h
    obtain ⟨output, houtput, hredacted⟩ := h
    exact ⟨strings output, by rw [houtput]; rfl, hredacted⟩
  · intro h
    obtain ⟨texts, htexts, hredacted⟩ := h
    obtain ⟨output, houtput, rfl⟩ := Option.map_eq_some_iff.mp htexts
    exact ⟨output, houtput, hredacted⟩

/-- Redaction leaves no match of an enabled pattern exactly if the text is separated, and none in
    the strings of a value exactly if they all are. -/
theorem redaction_iff (classes : UnicodeClasses) (config : PiiFilterConfig) :
    (∀ input, (∃ output, redact classes config input = some output ∧
        Redacted classes config output) ↔ Separated classes config input) ∧
      ∀ value : Value F, (∃ output, redact_json classes config value = some output ∧
          ∀ text ∈ strings output, Redacted classes config text) ↔
        ∀ text ∈ strings value, Separated classes config text :=
  ⟨redact_iff, redact_json_iff⟩

end values

/-- The classes, as far as ASCII goes. -/
def ascii_classes : UnicodeClasses := ⟨fun _ => false, fun _ => false, fun _ h => h⟩

/-- A number of a social security right behind a phone number is left. A limit inside a character
    makes the filter panic, and one inside a number can leave a number. -/
theorem redaction_leaves_numbers :
    (∃ output, redact ascii_classes .default "(555) 123-4567123-45-6789" = some output ∧
        ¬ Redacted ascii_classes .default output) ∧
      redact ascii_classes { PiiFilterConfig.default with max_sample_length := 1 } "éa" = none ∧
      ∃ output, redact ascii_classes { PiiFilterConfig.default with max_sample_length := 9 }
          "123456789012" = some output ∧
        ¬ Redacted ascii_classes { PiiFilterConfig.default with max_sample_length := 9 }
          output := by
  have hfound : ∀ {config : PiiFilterConfig} {before text : String} {n : Nat},
      config.redact_ssn = true →
      n ∈ (ssn ascii_classes).ends before.toList.getLast? text.toList →
      ¬ Redacted ascii_classes config (before ++ text) := by
    intro config before text n henabled hends hredacted
    obtain ⟨found, rest, htext, -, hmatches⟩ := Pattern.mem_ends.mp hends
    apply hredacted .ssn henabled
    refine ⟨before.toList, found, rest, ?_, hmatches⟩
    rw [String.toList_append, htext, List.append_assoc]
  refine ⟨⟨"[PHONE]" ++ "123-45-6789", by decide +kernel, ?_⟩, by decide +kernel,
    "" ++ "123456789...[TRUNCATED]", by decide +kernel, ?_⟩
  · exact @hfound _ _ _ 11 rfl (by decide +kernel)
  · exact @hfound _ _ _ 9 rfl (by decide +kernel)

end Servo.Pii
