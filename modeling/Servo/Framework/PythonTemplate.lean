import Servo.Framework.PythonLexemes

/-! # Programs with Gaps

    A program text is put together from fixed texts and three others: the name
    of a module, the name of a function, which is imported and called, and a
    text that is mentioned twice, between double quotes. When does the program
    have the tokens that its author had in mind?

    It does if and only if both names are dotted names, and the third text is
    one that may stand between the quotes.
-/

namespace PythonLexer

/-! ### Dotted names -/

/-- What is between the points. -/
def words (text : String) : List String := (text.toList.splitOn '.').map String.ofList

section names

variable (unicode_identifier : String → Bool)

def is_dotted_name (text : String) : Bool := (words text).all (is_identifier unicode_identifier)

/-- A text that may stand between double quotes. -/
def is_quotable (text : String) : Bool := is_body '"' false (translate_newlines text.toList)

variable {unicode_identifier}

theorem words_ne_nil (text : String) : words text ≠ [] := by
  simp [words, List.splitOn_ne_nil]

theorem dotted_text_words (text : String) : dotted_text (words text) = text.toList := by
  have hcomp : String.toList ∘ String.ofList = id := funext fun l => String.toList_ofList
  rw [dotted_text, words, List.map_map, hcomp, List.map_id, List.intercalate_splitOn]

theorem is_dotted_name_iff {text : String} :
    is_dotted_name unicode_identifier text = true ↔
      ∀ word ∈ words text, is_identifier unicode_identifier word = true := by
  simp [is_dotted_name]

theorem forall_mem_dotted {words : List String} :
    (∀ token ∈ dotted words, Lexeme unicode_identifier token) ↔
      ∀ word ∈ words, is_identifier unicode_identifier word = true := by
  induction words with
  | nil => simp [dotted]
  | cons word words ih =>
    cases words with
    | nil => simp [dotted, Lexeme]
    | cons word' words =>
      have hpoint : Lexeme unicode_identifier (.OP ".") := show "." ∈ operators by decide
      rw [show dotted (word :: word' :: words) = .NAME word :: .OP "." :: dotted (word' :: words)
        from rfl, List.forall_mem_cons, List.forall_mem_cons, ih]
      refine ⟨fun h => List.forall_mem_cons.mpr ⟨h.1, h.2.2⟩, fun h => ?_⟩
      obtain ⟨hword, hwords⟩ := List.forall_mem_cons.mp h
      exact ⟨hword, hpoint, hwords⟩

theorem is_identifier_char_of_mem {word : String}
    (h : is_identifier unicode_identifier word = true) {c : Char} (hc : c ∈ word.toList) :
    is_identifier_char c = true := by
  obtain ⟨d, cs, heq, hd, hcs, -⟩ := is_identifier_iff.mp h
  rw [heq] at hc
  rcases List.mem_cons.mp hc with rfl | hc
  · simp [is_identifier_char, hd]
  · exact hcs c hc

theorem mem_dotted_text {words : List String} {c : Char} (h : c ∈ dotted_text words) :
    c = '.' ∨ ∃ word ∈ words, c ∈ word.toList := by
  induction words with
  | nil => simp [dotted_text] at h
  | cons word words ih =>
    cases words with
    | nil => exact .inr ⟨word, by simp, by simpa [dotted_text, List.intercalate] using h⟩
    | cons word' words =>
      have htext : dotted_text (word :: word' :: words) =
          word.toList ++ '.' :: dotted_text (word' :: words) := by
        simp [dotted_text, List.intercalate]
      rw [htext, List.mem_append, List.mem_cons] at h
      rcases h with h | h | h
      · exact .inr ⟨word, List.mem_cons_self, h⟩
      · exact .inl h
      · rcases ih h with hpoint | ⟨w, hw, hc⟩
        · exact .inl hpoint
        · exact .inr ⟨w, List.mem_cons_of_mem _ hw, hc⟩

/-- A dotted name has no line breaks. -/
theorem not_mem_of_is_dotted_name {text : String}
    (h : is_dotted_name unicode_identifier text = true) : '\r' ∉ text.toList := by
  intro hmem
  rw [← dotted_text_words] at hmem
  rcases mem_dotted_text hmem with hc | ⟨word, hword, hc⟩
  · cases hc
  · exact Bool.false_ne_true (is_identifier_char_of_mem (is_dotted_name_iff.mp h word hword) hc)

end names

/-! ### Filling the gaps -/

/-- What is fixed of a program: what comes before the name of the module, between the imported
    function and its call, from there to the text, from there to where it is mentioned again, and
    to the end. -/
structure Segments (α : Type) where
  head : α
  assignment : α
  call : α
  success : α
  failure : α

/-- The program text. -/
def Segments.fill (t : Segments String) (module function name : String) : String :=
  t.head ++ module ++ " import " ++ function ++ t.assignment ++ function ++ t.call ++ name ++
    t.success ++ name ++ t.failure

/-- The tokens that it should have. The last block ends with the text. -/
def Segments.tokens (t : Segments (List Token)) (module function name : String) : List Token :=
  let literal := .STRING "" '"' false (String.ofList (translate_newlines name.toList))
  t.head ++ dotted (words module) ++ [.NAME "import"] ++ dotted (words function) ++
    t.assignment ++ dotted (words function) ++ t.call ++ [literal] ++ t.success ++ [literal] ++
    t.failure ++ [.DEDENT]

/-- The fixed texts are read as these tokens. A block is open from the head on, and brackets while
    the literals are read. -/
structure Reads (unicode_identifier : String → Bool) (t : Segments String)
    (tokens : Segments (List Token)) (opened opened' : List Char) : Prop where
  head : run unicode_identifier State.initial t.head.toList =
    some ⟨tokens.head.reverse, [(4, 4)], [], .between⟩
  assignment : ∀ before, run unicode_identifier ⟨before, [(4, 4)], [], .between⟩
    t.assignment.toList = some ⟨tokens.assignment.reverse ++ before, [(4, 4)], [], .between⟩
  call : ∀ before, run unicode_identifier ⟨before, [(4, 4)], [], .between⟩ t.call.toList =
    some ⟨tokens.call.reverse ++ before, [(4, 4)], opened, .quote [] '"'⟩
  success : ∀ before, run unicode_identifier ⟨before, [(4, 4)], opened, .between⟩
    t.success.toList.tail =
      some ⟨tokens.success.reverse ++ before, [(4, 4)], opened', .quote [] '"'⟩
  failure : ∀ before, run unicode_identifier ⟨before, [(4, 4)], opened', .between⟩
    t.failure.toList.tail = some ⟨tokens.failure.reverse ++ before, [(4, 4)], [], .indentation 0 0⟩
  assignment_starts : ∃ c rest, t.assignment.toList = c :: rest ∧ EndsWord c
  call_starts : ∃ c rest, t.call.toList = c :: rest ∧ EndsWord c
  success_starts : ∃ rest, t.success.toList = '"' :: ',' :: rest
  failure_starts : ∃ rest, t.failure.toList = '"' :: ',' :: rest
  failure_ends : t.failure.toList.getLast? = some '\n'
  plain : ∀ text ∈ [t.head, t.assignment, t.call, t.success, t.failure],
    '\r' ∉ text.toList ∧ '\x00' ∉ text.toList

/-- The characters of a literal, which need not be decoded. -/
theorem toList_literal (text : String) {chars : List Char} (h : text = String.ofList chars) :
    text.toList = chars := by
  rw [h, String.toList_ofList]

theorem toList_append_of {text text' : String} {chars chars' : List Char}
    (h : text.toList = chars) (h' : text'.toList = chars') :
    (text ++ text').toList = chars ++ chars' := by
  rw [String.toList_append, h, h']

section gaps

variable {unicode_identifier : String → Bool} {before : List Token} {indents : List (Nat × Nat)}
  {brackets : List Char}

theorem emit_all_eq {tokens : List Token} (h : tokens ≠ []) (mode : Mode) :
    State.emit_all ⟨before, indents, brackets, mode⟩ tokens =
      ⟨tokens.reverse ++ before, indents, brackets, .between⟩ := by
  induction tokens generalizing before mode with
  | nil => exact absurd rfl h
  | cons t tokens ih =>
    cases tokens with
    | nil => rfl
    | cons t' tokens =>
      have hemit : State.emit_all ⟨before, indents, brackets, mode⟩ (t :: t' :: tokens) =
          State.emit_all ⟨t :: before, indents, brackets, .between⟩ (t' :: tokens) := rfl
      have hreverse : (t :: t' :: tokens).reverse = (t' :: tokens).reverse ++ [t] :=
        List.reverse_cons
      rw [hemit, ih (List.cons_ne_nil _ _), hreverse, List.append_assoc, List.singleton_append]

theorem dotted_ne_nil {words : List String} (h : words ≠ []) : dotted words ≠ [] := by
  match words with
  | [] => exact absurd rfl h
  | [word] => exact List.cons_ne_nil _ _
  | word :: word' :: words => exact List.cons_ne_nil _ _

/-- A gap for a name. -/
theorem run_name_gap {text : String} (h : is_dotted_name unicode_identifier text = true)
    {rest : List Char} (hrest : ∃ c after, rest = c :: after ∧ EndsWord c) (after : List Char) :
    run unicode_identifier ⟨before, indents, brackets, .between⟩ (text.toList ++ (rest ++ after)) =
      run unicode_identifier ⟨(dotted (words text)).reverse ++ before, indents, brackets, .between⟩
        (rest ++ after) := by
  obtain ⟨c, cs, rfl, hc⟩ := hrest
  have hbegin : ∀ d, is_identifier_start d = true →
      step unicode_identifier ⟨before, indents, brackets, .between⟩ d =
        some (State.enter ⟨before, indents, brackets, .between⟩ (.word [d])) :=
    fun d hd => begin_word hd
  rw [← dotted_text_words text, List.cons_append,
    run_dotted (words_ne_nil text) (is_dotted_name_iff.mp h) hbegin hc,
    emit_all_eq (dotted_ne_nil (words_ne_nil text))]

/-- A gap for a literal. -/
theorem run_literal_gap {name : String} (h : is_quotable name = true) {rest : List Char}
    (hrest : ∃ after, rest = '"' :: ',' :: after) (after : List Char) :
    run unicode_identifier ⟨before, indents, brackets, .quote [] '"'⟩
        (translate_newlines name.toList ++ (rest ++ after)) =
      run unicode_identifier ⟨.STRING "" '"' false (String.ofList (translate_newlines name.toList))
        :: before, indents, brackets, .between⟩ (rest.tail ++ after) := by
  obtain ⟨cs, rfl⟩ := hrest
  exact run_quoted (s := ⟨before, indents, brackets, .between⟩) rfl h (by decide) (cs ++ after)

theorem complete_line_append (text : List Char) {rest : List Char}
    (h : rest.getLast? = some '\n') : complete_line (text ++ rest) = text ++ rest := by
  rw [complete_line, List.getLast?_append, h, if_pos (by simp)]

theorem translate_newlines_append_of_not_mem {text : List Char} (h : '\r' ∉ text)
    (rest : List Char) :
    translate_newlines (text ++ rest) = text ++ translate_newlines rest := by
  induction text with
  | nil => rfl
  | cons c text ih =>
    have hc : c ≠ '\r' := fun hc => h (by rw [hc]; exact List.mem_cons_self)
    rw [List.cons_append, translate_newlines.eq_3 _ _ (fun after hc' _ => hc hc') hc,
      ih (List.not_mem_of_not_mem_cons h), List.cons_append]

end gaps

section program

variable {unicode_identifier : String → Bool} {t : Segments String}
  {tokens : Segments (List Token)} {opened opened' : List Char}

/-- The text that the lexer reads. Only the line breaks of the literals change. -/
theorem Reads.lines_fill (h : Reads unicode_identifier t tokens opened opened')
    {module function name : String} (hmodule : '\r' ∉ module.toList)
    (hfunction : '\r' ∉ function.toList) :
    complete_line (translate_newlines (t.fill module function name).toList) =
      t.head.toList ++ (module.toList ++ (" import ".toList ++ (function.toList ++
        (t.assignment.toList ++ (function.toList ++ (t.call.toList ++
        (translate_newlines name.toList ++ (t.success.toList ++
        (translate_newlines name.toList ++ t.failure.toList))))))))) := by
  have hsegment : ∀ text ∈ [t.head, t.assignment, t.call, t.success, t.failure], ∀ rest,
      translate_newlines (text.toList ++ rest) = text.toList ++ translate_newlines rest :=
    fun text htext rest => translate_newlines_append_of_not_mem (h.plain text htext).1 rest
  have hliteral : ∀ {text after : List Char}, (∃ rest, text = '"' :: ',' :: rest) →
      translate_newlines (name.toList ++ (text ++ after)) =
        translate_newlines name.toList ++ translate_newlines (text ++ after) := by
    rintro text after ⟨rest, rfl⟩
    exact translate_newlines_append _ (by decide) _
  have hend : translate_newlines t.failure.toList = t.failure.toList :=
    translate_newlines_of_not_mem (h.plain _ (by simp)).1
  have hlast : translate_newlines (name.toList ++ t.failure.toList) =
      translate_newlines name.toList ++ t.failure.toList := by
    have hafter : translate_newlines (name.toList ++ (t.failure.toList ++ [])) =
        translate_newlines name.toList ++ translate_newlines (t.failure.toList ++ []) :=
      hliteral h.failure_starts
    rwa [List.append_nil, hend] at hafter
  have hlines : translate_newlines (t.fill module function name).toList =
      t.head.toList ++ (module.toList ++ (" import ".toList ++ (function.toList ++
        (t.assignment.toList ++ (function.toList ++ (t.call.toList ++
        (translate_newlines name.toList ++ (t.success.toList ++
        (translate_newlines name.toList ++ t.failure.toList))))))))) := by
    simp only [Segments.fill, String.toList_append, List.append_assoc]
    rw [hsegment _ (by simp), translate_newlines_append_of_not_mem hmodule,
      translate_newlines_append_of_not_mem (by decide),
      translate_newlines_append_of_not_mem hfunction, hsegment _ (by simp),
      translate_newlines_append_of_not_mem hfunction, hsegment _ (by simp),
      hliteral h.success_starts, hsegment _ (by simp), hlast]
  rw [hlines]
  simp only [← List.append_assoc]
  rw [complete_line_append _ h.failure_ends]

/-- NUL characters come from the gaps. -/
theorem Reads.mem_fill_iff (h : Reads unicode_identifier t tokens opened opened')
    {module function name : String} :
    '\x00' ∈ (t.fill module function name).toList ↔
      '\x00' ∈ module.toList ∨ '\x00' ∈ function.toList ∨ '\x00' ∈ name.toList := by
  have hsegment : ∀ text ∈ [t.head, t.assignment, t.call, t.success, t.failure],
      '\x00' ∉ text.toList := fun text htext => (h.plain text htext).2
  simp only [List.forall_mem_cons, List.not_mem_nil, false_implies, implies_true, and_true]
    at hsegment
  obtain ⟨hhead, hassignment, hcall, hsuccess, hfailure⟩ := hsegment
  have himport : '\x00' ∉ " import ".toList := by decide
  simp only [Segments.fill, String.toList_append, List.mem_append, hhead, hassignment, hcall,
    hsuccess, hfailure, himport, false_or, or_false]
  tauto

/-- With texts that fit, the program has the tokens that it should have. -/
theorem Reads.tokenize_fill (h : Reads unicode_identifier t tokens opened opened')
    {module function name : String} (hmodule : is_dotted_name unicode_identifier module = true)
    (hfunction : is_dotted_name unicode_identifier function = true)
    (hname : is_quotable name = true) :
    tokenize unicode_identifier (t.fill module function name) =
      some (tokens.tokens module function name) := by
  have himport : ∀ before, run unicode_identifier ⟨before, [(4, 4)], [], .between⟩
      " import ".toList = some ⟨.NAME "import" :: before, [(4, 4)], [], .between⟩ := fun _ => rfl
  have himport_starts : ∃ c rest, " import ".toList = c :: rest ∧ EndsWord c :=
    ⟨' ', _, rfl, by decide⟩
  rw [tokenize, h.lines_fill (not_mem_of_is_dotted_name hmodule)
      (not_mem_of_is_dotted_name hfunction), run_append_of_run h.head,
    run_name_gap hmodule himport_starts, run_append_of_run (himport _),
    run_name_gap hfunction h.assignment_starts, run_append_of_run (h.assignment _),
    run_name_gap hfunction h.call_starts, run_append_of_run (h.call _),
    run_literal_gap hname h.success_starts, run_append_of_run (h.success _)]
  have hlast : ∀ before, run unicode_identifier ⟨before, [(4, 4)], opened', .quote [] '"'⟩
      (translate_newlines name.toList ++ t.failure.toList) =
        run unicode_identifier ⟨.STRING "" '"' false
          (String.ofList (translate_newlines name.toList)) :: before, [(4, 4)], opened', .between⟩
          t.failure.toList.tail := by
    intro before
    have hgap : run unicode_identifier ⟨before, [(4, 4)], opened', .quote [] '"'⟩
        (translate_newlines name.toList ++ (t.failure.toList ++ [])) =
          run unicode_identifier ⟨.STRING "" '"' false
            (String.ofList (translate_newlines name.toList)) :: before, [(4, 4)], opened', .between⟩
            (t.failure.toList.tail ++ []) := run_literal_gap hname h.failure_starts []
    rwa [List.append_nil, List.append_nil] at hgap
  rw [hlast, h.failure, Option.bind_some]
  simp [finish, Segments.tokens, List.append_assoc]

theorem Reads.tokenize_fill_iff (h : Reads unicode_identifier t tokens opened opened')
    {module function name : String} :
    tokenize unicode_identifier (t.fill module function name) =
        some (tokens.tokens module function name) ↔
      is_dotted_name unicode_identifier module = true ∧
        is_dotted_name unicode_identifier function = true ∧ is_quotable name = true := by
  constructor
  · intro htokens
    have hlexemes := tokenize_lexemes htokens
    have hmem : ∀ {tokens' : List Token}, tokens' ⊆ tokens.tokens module function name →
        ∀ token ∈ tokens', Lexeme unicode_identifier token :=
      fun hsubset token htoken => hlexemes token (hsubset htoken)
    have hdotted : ∀ text, dotted (words text) ⊆ tokens.tokens module function name →
        is_dotted_name unicode_identifier text = true :=
      fun text hsubset => is_dotted_name_iff.mpr (forall_mem_dotted.mp (hmem hsubset))
    refine ⟨hdotted module ?_, hdotted function ?_, ?_⟩
    · intro token htoken
      simp [Segments.tokens, htoken]
    · intro token htoken
      simp [Segments.tokens, htoken]
    · have hliteral : Lexeme unicode_identifier
          (.STRING "" '"' false (String.ofList (translate_newlines name.toList))) :=
        hlexemes _ (by simp [Segments.tokens])
      simpa [Lexeme, is_quotable] using hliteral
  · intro hfits
    obtain ⟨hmodule, hfunction, hname⟩ := hfits
    exact h.tokenize_fill hmodule hfunction hname

end program

end PythonLexer
