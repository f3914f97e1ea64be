import Servo.Framework.PythonLexer

/-! # What the Lexer Has Read

    Every token is a lexeme of its kind: a name is an identifier, and the body
    of a string on one line has no quote, no line break and no backslash at
    its end, unless another backslash stands before it. Where such texts are
    part of a program, they are read as one token each. So the tokens of a
    program with gaps tell what has been put into the gaps.
-/

namespace PythonLexer

/-- What may stand between two quotes on a line. Is the first character escaped? -/
def is_body (quote : Char) : Bool → List Char → Bool
  | escaped, [] => !escaped
  | true, _ :: text => is_body quote false text
  | false, c :: text =>
    if c = '\\' then is_body quote true text
    else c ≠ quote && c ≠ '\n' && is_body quote false text

section lexemes

variable (unicode_identifier : String → Bool)

/-- The text of a token is one of its kind. -/
def Lexeme : Token → Prop
  | .NAME word => is_identifier unicode_identifier word = true
  | .NUMBER literal => is_number literal.toList = true
  | .STRING _ quote false body => is_body quote false body.toList = true
  | .OP operator => operator ∈ operators
  | _ => True

/-- The same for what has been read of a token, where the end of it does not tell. -/
def Begun : Mode → Prop
  | .string _ quote body escaped =>
    ∀ rest, is_body quote false (body ++ rest) = is_body quote escaped rest
  | _ => True

structure Sound (s : State) : Prop where
  tokens : ∀ token ∈ s.tokens, Lexeme unicode_identifier token
  mode : Begun s.mode

variable {unicode_identifier} {s s' : State} {c : Char}

/-! ### Every token is a lexeme -/

theorem Sound.emit (h : Sound unicode_identifier s) {t : Token}
    (ht : Lexeme unicode_identifier t) : Sound unicode_identifier (s.emit t) :=
  ⟨List.forall_mem_cons.mpr ⟨ht, h.tokens⟩, trivial⟩

theorem Sound.enter (h : Sound unicode_identifier s) {mode : Mode} (hmode : Begun mode) :
    Sound unicode_identifier (s.enter mode) :=
  ⟨h.tokens, hmode⟩

/-- Lines and brackets do not matter. -/
theorem Sound.of_eq (h : Sound unicode_identifier s) (htokens : s'.tokens = s.tokens)
    (hmode : s'.mode = s.mode) : Sound unicode_identifier s' :=
  ⟨by rw [htokens]; exact h.tokens, by rw [hmode]; exact h.mode⟩

theorem Sound.dedent {column altcolumn : Nat} {indents : List (Nat × Nat)}
    (h : Sound unicode_identifier s) (hs' : s.dedent column altcolumn indents = some s') :
    Sound unicode_identifier s' := by
  induction indents generalizing s with
  | nil =>
    simp only [State.dedent, Option.ite_none_right_eq_some, Option.some.injEq] at hs'
    exact h.of_eq (by rw [← hs'.2]) (by rw [← hs'.2])
  | cons block indents ih =>
    unfold State.dedent at hs'
    split at hs'
    · simp only [Option.ite_none_right_eq_some, Option.some.injEq] at hs'
      exact h.of_eq (by rw [← hs'.2]) (by rw [← hs'.2])
    · split at hs'
      · exact ih (h.emit (t := .DEDENT) trivial) hs'
      · cases hs'

theorem Sound.indent {column altcolumn : Nat} (h : Sound unicode_identifier s)
    (hs' : s.indent column altcolumn = some s') : Sound unicode_identifier s' := by
  unfold State.indent at hs'
  simp only at hs'
  split at hs'
  · simp only [Option.ite_none_right_eq_some, Option.some.injEq] at hs'
    exact (h.emit (t := .INDENT) trivial).of_eq (by rw [← hs'.2]) (by rw [← hs'.2])
  · exact h.dedent hs'

theorem Sound.emit_word {word : List Char} (h : Sound unicode_identifier s)
    (hs' : emit_word unicode_identifier s word = some s') : Sound unicode_identifier s' := by
  simp only [PythonLexer.emit_word, Option.ite_none_right_eq_some, Option.some.injEq] at hs'
  obtain ⟨hidentifier, rfl⟩ := hs'
  exact h.emit hidentifier

theorem is_number_of_split {read literal word : List Char}
    (h : split_number read = some (literal, word)) : is_number literal = true := by
  obtain ⟨literal', hfind, hword⟩ := Option.bind_eq_some_iff.mp h
  simp only [Option.ite_none_right_eq_some, Option.some.injEq, Prod.mk.injEq] at hword
  rw [← hword.2.1]
  exact List.find?_some hfind

theorem Sound.emit_number {read : List Char} (h : Sound unicode_identifier s)
    (hs' : emit_number unicode_identifier s read = some s') : Sound unicode_identifier s' := by
  unfold PythonLexer.emit_number at hs'
  split at hs'
  · rename_i hnumber
    cases hs'
    exact h.emit (by simpa [Lexeme] using hnumber)
  · obtain ⟨⟨literal, word⟩, hsplit, hword⟩ := Option.bind_eq_some_iff.mp hs'
    have hliteral : Lexeme unicode_identifier (.NUMBER (String.ofList literal)) := by
      simpa [Lexeme] using is_number_of_split hsplit
    exact (h.emit hliteral).emit_word hword

theorem Sound.emit_operator {read : List Char} (h : Sound unicode_identifier s)
    (hs' : emit_operator s read = some s') : Sound unicode_identifier s' := by
  have hpoint : "." ∈ operators := by decide
  unfold PythonLexer.emit_operator at hs'
  split at hs'
  · rename_i hoperator
    cases hs'
    exact h.emit hoperator
  · simp only [Option.ite_none_right_eq_some, Option.some.injEq] at hs'
    rw [← hs'.2]
    exact (h.emit (t := .OP ".") hpoint).emit hpoint

theorem bracket_mem_operators (h : is_open_bracket c = true ∨ closes c ≠ none) :
    String.singleton c ∈ operators := by
  have hc : c = '(' ∨ c = '[' ∨ c = '\x7b' ∨ c = ')' ∨ c = ']' ∨ c = '\x7d' := by
    rcases h with h | h
    · simp only [is_open_bracket, Bool.or_eq_true, decide_eq_true_eq] at h
      tauto
    · unfold closes at h
      split at h <;> simp_all
  rcases hc with rfl | rfl | rfl | rfl | rfl | rfl <;> decide

theorem Sound.emit_bracket (h : Sound unicode_identifier s)
    (hs' : emit_bracket s c = some s') : Sound unicode_identifier s' := by
  unfold PythonLexer.emit_bracket at hs'
  split at hs'
  · rename_i hopen
    cases hs'
    exact (h.emit (t := .OP (String.singleton c)) (bracket_mem_operators (.inl hopen))).of_eq
      rfl rfl
  · simp only [Option.ite_none_right_eq_some, Option.some.injEq] at hs'
    obtain ⟨⟨hcloses, -⟩, rfl⟩ := hs'
    exact (h.emit (t := .OP (String.singleton c)) (bracket_mem_operators (.inr hcloses))).of_eq
      rfl rfl

theorem Sound.end_token (h : Sound unicode_identifier s)
    (hs' : end_token unicode_identifier s = some s') : Sound unicode_identifier s' := by
  unfold PythonLexer.end_token at hs'
  split at hs'
  · exact h.emit_word hs'
  · exact h.emit_number hs'
  · exact h.emit_operator hs'
  · cases hs'
    exact h.emit (by simp [Lexeme, is_body])
  · cases hs'
    exact h

theorem Sound.begin_token (h : Sound unicode_identifier s)
    (hs' : begin_token s c = some s') : Sound unicode_identifier s' := by
  have henter : ∀ {mode : Mode}, some (s.enter mode) = some s' → Begun mode →
      Sound unicode_identifier s' := by
    intro mode heq hmode
    cases heq
    exact h.enter hmode
  unfold PythonLexer.begin_token at hs'
  split_ifs at hs' with hblank hline hbrackets hcomment hbackslash hquote hword hdigit hbracket
    hoperator
  · exact henter hs' trivial
  · cases hs'
    exact (h.emit (t := .NEWLINE) trivial).enter trivial
  · exact henter hs' trivial
  · exact henter hs' trivial
  · exact henter hs' trivial
  · exact henter hs' trivial
  · exact henter hs' trivial
  · exact henter hs' trivial
  · exact h.emit_bracket hs'
  · exact henter hs' trivial

/-- What the lexer has seen of a body, the rest of it decides. -/
theorem Begun.push {letters body : List Char} {quote : Char} {escaped escaped' : Bool}
    (h : Begun (.string letters quote body escaped))
    (hc : ∀ rest, is_body quote escaped (c :: rest) = is_body quote escaped' rest) :
    Begun (.string letters quote (body ++ [c]) escaped') := by
  intro rest
  rw [List.append_assoc, List.singleton_append, h, hc]

theorem Sound.string_char {letters body : List Char} {quote : Char} {escaped : Bool}
    (h : Sound unicode_identifier s) (hbody : Begun (.string letters quote body escaped))
    (hs' : string_char s letters quote body escaped c = some s') :
    Sound unicode_identifier s' := by
  unfold PythonLexer.string_char at hs'
  split_ifs at hs' with hescaped hbackslash hquote hline
  · cases hs'
    exact h.enter (hbody.push fun rest => by rw [hescaped, is_body])
  · cases hs'
    rw [Bool.not_eq_true] at hescaped
    exact h.enter (hbody.push fun rest => by rw [hescaped, is_body, if_pos hbackslash])
  · cases hs'
    rw [Bool.not_eq_true] at hescaped
    have hend : is_body quote false body = true := by
      simpa [hescaped, is_body] using hbody []
    exact h.emit (by simpa [Lexeme] using hend)
  · cases hs'
    rw [Bool.not_eq_true] at hescaped
    exact h.enter (hbody.push fun rest => by
      rw [hescaped, is_body, if_neg hbackslash]
      simp [hquote, hline])

theorem Sound.triple_char {letters body : List Char} {quote : Char} {escaped : Bool}
    {closing : Nat} (h : Sound unicode_identifier s)
    (hs' : triple_char s letters quote body escaped closing c = some s') :
    Sound unicode_identifier s' := by
  unfold PythonLexer.triple_char at hs'
  split_ifs at hs' with hescaped hbackslash hquote hclosing
  · cases hs'; exact h.enter trivial
  · cases hs'; exact h.enter trivial
  · cases hs'; exact h.emit trivial
  · cases hs'; exact h.enter trivial
  · cases hs'; exact h.enter trivial

/-- One character more. -/
theorem Sound.step (h : Sound unicode_identifier s)
    (hs' : step unicode_identifier s c = some s') : Sound unicode_identifier s' := by
  have henter : ∀ {mode : Mode}, some (s.enter mode) = some s' → Begun mode →
      Sound unicode_identifier s' := by
    intro mode heq hmode
    cases heq
    exact h.enter hmode
  have hnext : ∀ {o : Option State}, (∀ s₁, o = some s₁ → Sound unicode_identifier s₁) →
      (o.bind fun s => PythonLexer.begin_token s c) = some s' → Sound unicode_identifier s' := by
    intro o ho heq
    obtain ⟨s₁, hs₁, hbegin⟩ := Option.bind_eq_some_iff.mp heq
    exact (ho s₁ hs₁).begin_token hbegin
  have hend : ((PythonLexer.end_token unicode_identifier s).bind fun s =>
      PythonLexer.begin_token s c) = some s' → Sound unicode_identifier s' :=
    hnext fun s₁ hs₁ => h.end_token hs₁
  have hpoint : Lexeme unicode_identifier (.OP ".") := show "." ∈ operators by decide
  unfold PythonLexer.step at hs'
  split at hs'
  case h_1 column altcolumn hmode =>
    split_ifs at hs'
    · exact henter hs' trivial
    · exact henter hs' trivial
    · exact henter hs' trivial
    · exact henter hs' trivial
    · exact henter hs' trivial
    · exact hnext (fun s₁ hs₁ => h.indent hs₁) hs'
  case h_2 hmode => exact h.begin_token hs'
  case h_3 blank hmode =>
    split_ifs at hs'
    · exact henter hs' trivial
    · exact h.begin_token hs'
    · cases hs'; exact h
  case h_4 hmode =>
    split_ifs at hs'
    exact henter hs' trivial
  case h_5 read hmode =>
    split_ifs at hs'
    · exact henter hs' trivial
    · exact henter hs' trivial
    · exact hend hs'
  case h_6 read hmode =>
    split_ifs at hs'
    · exact henter hs' trivial
    · exact hend hs'
  case h_7 read hmode =>
    split_ifs at hs'
    · exact henter hs' trivial
    · exact henter hs' trivial
    · cases hs'; exact (h.emit hpoint).enter trivial
    · exact hend hs'
  case h_8 letters quote hmode =>
    split_ifs at hs'
    · exact henter hs' trivial
    · exact h.string_char (fun rest => rfl) hs'
  case h_9 letters quote hmode =>
    split_ifs at hs'
    · exact henter hs' trivial
    · exact hend hs'
  case h_10 letters quote body escaped hmode =>
    have hbody := h.mode
    rw [hmode] at hbody
    exact h.string_char hbody hs'
  case h_11 letters quote body escaped closing hmode => exact h.triple_char hs'

/-- A text more. -/
theorem Sound.run {text : List Char} (h : Sound unicode_identifier s)
    (hs' : run unicode_identifier s text = some s') : Sound unicode_identifier s' := by
  induction text generalizing s with
  | nil =>
    cases hs'
    exact h
  | cons c text ih =>
    obtain ⟨s₁, hstep, hrest⟩ := Option.bind_eq_some_iff.mp hs'
    exact ih (h.step hstep) hrest

theorem tokenize_lexemes {text : String} {tokens : List Token}
    (h : tokenize unicode_identifier text = some tokens) :
    ∀ token ∈ tokens, Lexeme unicode_identifier token := by
  obtain ⟨s, hrun, hfinish⟩ := Option.bind_eq_some_iff.mp h
  have hinitial : Sound unicode_identifier State.initial :=
    ⟨fun token htoken => absurd htoken List.not_mem_nil, trivial⟩
  have hsound := hinitial.run hrun
  unfold finish at hfinish
  split at hfinish
  · cases hfinish
    intro token htoken
    rcases List.mem_append.mp htoken with htoken | htoken
    · exact hsound.tokens token (List.mem_reverse.mp htoken)
    · rw [List.eq_of_mem_replicate htoken]
      trivial
  · cases hfinish

/-! ### Texts that are read as one token -/

@[simp] theorem run_nil : run unicode_identifier s [] = some s := rfl

theorem run_cons (text : List Char) :
    run unicode_identifier s (c :: text) =
      (step unicode_identifier s c).bind fun s => run unicode_identifier s text :=
  rfl

theorem run_cons_of_step {text : List Char} (h : step unicode_identifier s c = some s') :
    run unicode_identifier s (c :: text) = run unicode_identifier s' text := by
  rw [run_cons, h, Option.bind_some]

theorem run_append (text rest : List Char) :
    run unicode_identifier s (text ++ rest) =
      (run unicode_identifier s text).bind fun s => run unicode_identifier s rest :=
  List.foldlM_append

theorem run_append_of_run {text rest : List Char} (h : run unicode_identifier s text = some s') :
    run unicode_identifier s (text ++ rest) = run unicode_identifier s' rest := by
  rw [run_append, h, Option.bind_some]

theorem is_identifier_iff {word : String} :
    is_identifier unicode_identifier word = true ↔
      ∃ c cs, word.toList = c :: cs ∧ is_identifier_start c = true ∧
        (∀ d ∈ cs, is_identifier_char d = true) ∧ is_name unicode_identifier word = true := by
  unfold is_identifier
  cases hword : word.toList with
  | nil => simp
  | cons c cs => simp [and_assoc]

/-- A name begins where any token may begin. -/
theorem begin_word (h : is_identifier_start c = true) :
    begin_token s c = some (s.enter (.word [c])) := by
  have hne : ∀ d : Char, is_identifier_start d = false → c ≠ d := by
    intro d hd heq
    rw [heq, hd] at h
    cases h
  have hblank : is_blank c = false := by
    simp [is_blank, hne ' ' rfl, hne '\t' rfl, hne '\x0c' rfl]
  have hquote : is_quote c = false := by
    simp [is_quote, hne '"' rfl, hne '\'' rfl]
  unfold begin_token
  rw [if_neg (by simp [hblank]), if_neg (hne '\n' rfl), if_neg (hne '#' rfl),
    if_neg (hne '\\' rfl), if_neg (by simp [hquote]), if_pos h]

/-- And it goes on. -/
theorem run_word {read word : List Char} (h : ∀ c ∈ word, is_identifier_char c = true) :
    run unicode_identifier (s.enter (.word read)) word =
      some (s.enter (.word (read ++ word))) := by
  induction word generalizing read with
  | nil => simp
  | cons c word ih =>
    obtain ⟨hc, hword⟩ := List.forall_mem_cons.mp h
    have hstep : step unicode_identifier (s.enter (.word read)) c =
        some (s.enter (.word (read ++ [c]))) := if_pos hc
    rw [run_cons_of_step hstep, ih hword, List.append_assoc, List.singleton_append]

/-- Neither a character of names nor a quote. -/
def EndsWord (c : Char) : Prop := is_identifier_char c = false ∧ is_quote c = false

instance : DecidablePred EndsWord := fun c =>
  inferInstanceAs (Decidable (is_identifier_char c = false ∧ is_quote c = false))

theorem step_end_word {word : String} (hword : is_identifier unicode_identifier word = true)
    (hc : EndsWord c) :
    step unicode_identifier (s.enter (.word word.toList)) c =
      begin_token (s.emit (.NAME word)) c := by
  have hend : end_token unicode_identifier (s.enter (.word word.toList)) =
      some (s.emit (.NAME word)) := by
    show emit_word unicode_identifier (s.enter (.word word.toList)) word.toList = _
    rw [emit_word, String.ofList_toList, if_pos hword]
    rfl
  show (if is_identifier_char c then _ else if is_quote c && starts_string _ then _ else _) = _
  rw [if_neg (by simp [hc.1]), if_neg (by simp [hc.2]), hend, Option.bind_some]

/-- The tokens of a name with points in it. -/
def dotted : List String → List Token
  | [] => []
  | [word] => [.NAME word]
  | word :: words => .NAME word :: .OP "." :: dotted words

def dotted_text (words : List String) : List Char := ['.'].intercalate (words.map String.toList)

/-- These tokens are next. -/
def State.emit_all (s : State) (tokens : List Token) : State := tokens.foldl State.emit s

/-- A word is read as a name where a name can begin. -/
theorem run_name {word : String} (hword : is_identifier unicode_identifier word = true)
    (hbegin : ∀ c, is_identifier_start c = true →
      step unicode_identifier s' c = some (s.enter (.word [c]))) :
    run unicode_identifier s' word.toList = some (s.enter (.word word.toList)) := by
  obtain ⟨c, cs, heq, hstart, hcs, -⟩ := is_identifier_iff.mp hword
  rw [heq, run_cons_of_step (hbegin c hstart), run_word hcs, List.singleton_append]

theorem begins_operator_point : begins_operator ['.', c] = decide (c = '.') := by
  simp [begins_operator, operators, List.isPrefixOf, beq_eq_decide]

theorem isDigit_of_start (hc : is_identifier_start c = true) : c.isDigit = false := by
  by_contra h
  rw [Bool.not_eq_false, Char.isDigit, Bool.and_eq_true, decide_eq_true_eq, decide_eq_true_eq] at h
  have hstart : (decide ('A'.val ≤ c.val ∧ c.val ≤ 'Z'.val) ||
      (decide ('a'.val ≤ c.val) && decide (c.val ≤ 'z'.val)) || decide (c = '_') ||
        decide (128 ≤ c.toNat)) = true := hc
  simp only [Bool.or_eq_true, Bool.and_eq_true, decide_eq_true_eq] at hstart
  rcases hstart with (hletter | rfl) | hc
  · grind
  · grind
  · have hle : c.toNat ≤ 57 := UInt32.le_iff_toNat_le.mp h.2
    omega

/-- Behind a point a name can begin. -/
theorem step_point (hc : is_identifier_start c = true) :
    step unicode_identifier (s.enter (.operator ['.'])) c =
      some ((s.emit (.OP ".")).enter (.word [c])) := by
  have hend : end_token unicode_identifier (s.enter (.operator ['.'])) =
      some (s.emit (.OP ".")) := rfl
  have hoperator : begins_operator (['.'] ++ [c]) = false := by
    rw [List.singleton_append, begins_operator_point, decide_eq_false_iff_not]
    rintro rfl
    cases hc
  show (if begins_operator (['.'] ++ [c]) then _ else if _ then _ else if _ then _ else _) = _
  rw [hoperator, if_neg Bool.false_ne_true, if_neg (by simp [isDigit_of_start hc]),
    if_neg (by simp), hend, Option.bind_some, begin_word hc]

/-- A dotted name is read as such where a name can begin, if it ends before a character that
    belongs to no name. -/
theorem run_dotted {words : List String} (hwords : words ≠ [])
    (hall : ∀ word ∈ words, is_identifier unicode_identifier word = true)
    (hbegin : ∀ c, is_identifier_start c = true →
      step unicode_identifier s' c = some (s.enter (.word [c])))
    (hc : EndsWord c) (rest : List Char) :
    run unicode_identifier s' (dotted_text words ++ c :: rest) =
      run unicode_identifier (s.emit_all (dotted words)) (c :: rest) := by
  induction words generalizing s s' with
  | nil => exact absurd rfl hwords
  | cons word words ih =>
    obtain ⟨hword, hall⟩ := List.forall_mem_cons.mp hall
    have hrun := run_name hword hbegin
    cases words with
    | nil =>
      have htext : dotted_text [word] = word.toList := by simp [dotted_text, List.intercalate]
      have hstep : step unicode_identifier (s.enter (.word word.toList)) c =
          step unicode_identifier (s.emit (.NAME word)) c := step_end_word hword hc
      rw [htext, run_append_of_run hrun, run_cons, hstep]
      rfl
    | cons word' words =>
      have htext : dotted_text (word :: word' :: words) =
          word.toList ++ '.' :: dotted_text (word' :: words) := by
        simp [dotted_text, List.intercalate]
      have hstep : step unicode_identifier (s.enter (.word word.toList)) '.' =
          some ((s.emit (.NAME word)).enter (.operator ['.'])) := by
        rw [step_end_word hword (by decide)]
        rfl
      rw [htext, List.append_assoc, run_append_of_run hrun, List.cons_append,
        run_cons_of_step hstep, ih (List.cons_ne_nil _ _) hall fun c hc => step_point hc]
      rfl

theorem step_string {letters body : List Char} {quote : Char} {escaped : Bool} :
    step unicode_identifier (s.enter (.string letters quote body escaped)) c =
      string_char (s.enter (.string letters quote body escaped)) letters quote body escaped c :=
  rfl

/-- A body is read to the next quote. -/
theorem run_body {letters body text : List Char} {quote : Char} {escaped : Bool}
    (hquote : is_quote quote = true) (htext : is_body quote escaped text = true)
    (rest : List Char) :
    run unicode_identifier (s.enter (.string letters quote body escaped)) (text ++ quote :: rest) =
      run unicode_identifier (s.emit (.STRING (String.ofList letters) quote false
        (String.ofList (body ++ text)))) rest := by
  have hbackslash : quote ≠ '\\' := by
    rintro rfl
    cases hquote
  induction text generalizing body escaped with
  | nil =>
    have hescaped : escaped = false := by simpa [is_body] using htext
    have hstep : step unicode_identifier (s.enter (.string letters quote body escaped)) quote =
        some (s.emit (.STRING (String.ofList letters) quote false (String.ofList body))) := by
      rw [step_string, string_char, hescaped, if_neg Bool.false_ne_true, if_neg hbackslash,
        if_pos rfl]
      rfl
    rw [List.nil_append, run_cons_of_step hstep, List.append_nil]
  | cons c text ih =>
    -- whichever way the character is read, it is a part of the body
    have hstep : ∃ escaped', is_body quote escaped' text = true ∧
        step unicode_identifier (s.enter (.string letters quote body escaped)) c =
          some (s.enter (.string letters quote (body ++ [c]) escaped')) := by
      rw [step_string, string_char]
      cases escaped with
      | true => exact ⟨false, htext, if_pos rfl⟩
      | false =>
        rw [if_neg Bool.false_ne_true]
        by_cases hc : c = '\\'
        · refine ⟨true, ?_, if_pos hc⟩
          rwa [is_body, if_pos hc] at htext
        · rw [is_body, if_neg hc] at htext
          simp only [Bool.and_eq_true, decide_eq_true_eq] at htext
          obtain ⟨⟨hne, hline⟩, htext⟩ := htext
          refine ⟨false, htext, ?_⟩
          rw [if_neg hc, if_neg hne, if_neg hline]
          rfl
    obtain ⟨escaped', htext, hstep⟩ := hstep
    rw [List.cons_append, run_cons_of_step hstep, ih htext, List.append_assoc,
      List.singleton_append]

/-- A literal on one line is read as a token, if it is not the beginning of one on several. -/
theorem run_quoted {letters text : List Char} {quote : Char} (hquote : is_quote quote = true)
    (htext : is_body quote false text = true) (hc : c ≠ quote) (rest : List Char) :
    run unicode_identifier (s.enter (.quote letters quote)) (text ++ quote :: c :: rest) =
      run unicode_identifier (s.emit (.STRING (String.ofList letters) quote false
        (String.ofList text))) (c :: rest) := by
  cases text with
  | nil =>
    have hfirst : step unicode_identifier (s.enter (.quote letters quote)) quote =
        some (s.enter (.quotes letters quote)) := if_pos rfl
    have hsecond : step unicode_identifier (s.enter (.quotes letters quote)) c =
        step unicode_identifier (s.emit (.STRING (String.ofList letters) quote false "")) c :=
      if_neg hc
    rw [List.nil_append, run_cons_of_step hfirst, run_cons, hsecond]
    rfl
  | cons d text =>
    have hd : d ≠ quote := by
      rintro rfl
      have hbackslash : d ≠ '\\' := by
        rintro rfl
        cases hquote
      rw [is_body, if_neg hbackslash] at htext
      simp at htext
    have hfirst : step unicode_identifier (s.enter (.quote letters quote)) d =
        step unicode_identifier (s.enter (.string letters quote [] false)) d := if_neg hd
    rw [List.cons_append, run_cons, hfirst, ← run_cons, ← List.cons_append, run_body hquote htext,
      List.nil_append]

/-! ### Line breaks -/

theorem translate_newlines_of_not_mem {text : List Char} (h : '\r' ∉ text) :
    translate_newlines text = text := by
  fun_induction translate_newlines text with
  | case1 text ih => exact absurd List.mem_cons_self h
  | case2 text hne ih => exact absurd List.mem_cons_self h
  | case3 c text hpair hreturn ih => rw [ih (List.not_mem_of_not_mem_cons h)]
  | case4 => rfl

/-- A text that does not begin with a line feed is translated on its own. -/
theorem translate_newlines_append (text : List Char) {c : Char} (hc : c ≠ '\n')
    (rest : List Char) :
    translate_newlines (text ++ c :: rest) =
      translate_newlines text ++ translate_newlines (c :: rest) := by
  fun_induction translate_newlines text with
  | case1 text ih => rw [List.cons_append, List.cons_append, translate_newlines, ih]; rfl
  | case2 text hne ih =>
    have hne' : ∀ after, text ++ c :: rest = '\n' :: after → False := by
      intro after heq
      cases text with
      | nil => exact hc (List.cons.inj heq).1
      | cons d text => exact hne text (by rw [(List.cons.inj heq).1])
    rw [List.cons_append, translate_newlines.eq_2 _ hne', ih, List.cons_append]
  | case3 d text hpair hreturn ih =>
    rw [List.cons_append, translate_newlines.eq_3 _ _ ?_ hreturn, ih, List.cons_append]
    intro after hd heq
    exact hreturn hd
  | case4 => rfl

end lexemes

end PythonLexer
