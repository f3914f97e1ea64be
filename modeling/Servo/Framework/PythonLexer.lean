import Mathlib.Data.List.Basic

/-! # The Lexical Structure of Python

    A text is read character by character. The lexer knows which tokens there
    have been, how far the lines are indented, which brackets are open, and
    what of the next token it has seen. A text that it refuses is no program.

    * Line breaks are translated first, and the last line gets one if it has
      none. Inside brackets and behind a backslash they do not count.
    * Blank lines, comments and blanks between tokens leave no token. The
      blanks at the front of a line are measured twice, with tabs to the next
      multiple of eight and with tabs as one column; the two must agree.
    * Keywords are names. An f-string is one literal.
    * A word with characters other than ASCII is a name if the database of
      Unicode says so. That is a parameter here.
-/

namespace PythonLexer

inductive Token where
  | NAME (word : String)
  | NUMBER (literal : String)
  /-- The letters in front, the quotes, which may be three, and what is between them. -/
  | STRING (letters : String) (quote : Char) (triple : Bool) (body : String)
  | OP (operator : String)
  | NEWLINE
  | INDENT
  | DEDENT
  deriving DecidableEq

/-! ### Characters -/

def is_identifier_start (c : Char) : Bool := c.isAlpha || c = '_' || 128 ≤ c.toNat

def is_identifier_char (c : Char) : Bool := is_identifier_start c || c.isDigit

def is_blank (c : Char) : Bool := c = ' ' || c = '\t' || c = '\x0c'

def is_quote (c : Char) : Bool := c = '"' || c = '\''

/-! ### Words -/

section words

variable (unicode_identifier : String → Bool)

/-- `str.isidentifier`, of a word that consists of identifier characters. -/
def is_name (word : String) : Bool :=
  word.toList.all (·.toNat < 128) || unicode_identifier word

/-- A letter and what may follow it. -/
def is_identifier (word : String) : Bool :=
  match word.toList with
  | [] => false
  | c :: cs => is_identifier_start c && cs.all is_identifier_char && is_name unicode_identifier word

end words

/-- The letters that make a string a raw string, a bytes literal or an f-string. -/
def string_letters : List String := ["r", "u", "b", "f", "br", "rb", "fr", "rf"]

def starts_string (word : List Char) : Bool :=
  string_letters.any (·.toList = word.map Char.toLower)

/-! ### Numbers -/

/-- Digits, with underscores between them. -/
def is_digitpart (digit : Char → Bool) : List Char → Bool
  | [] => false
  | [c] => digit c
  | c :: '_' :: cs => digit c && is_digitpart digit cs
  | c :: cs => digit c && is_digitpart digit cs

def is_decimal_digits : List Char → Bool := is_digitpart Char.isDigit

/-- The digits of a hexadecimal, octal or binary number, with the letter in front of them. -/
def is_radix_part : List Char → Bool
  | letter :: '_' :: digits => radix_digits letter digits
  | letter :: digits => radix_digits letter digits
  | [] => false
where
  radix_digits (letter : Char) (digits : List Char) : Bool :=
    match letter.toLower with
    | 'x' => is_digitpart (fun c => c.isDigit || c.toLower ∈ ['a', 'b', 'c', 'd', 'e', 'f']) digits
    | 'o' => is_digitpart (· ∈ ['0', '1', '2', '3', '4', '5', '6', '7']) digits
    | 'b' => is_digitpart (· ∈ ['0', '1']) digits
    | _ => false

/-- Only zero has a zero in front. -/
def is_integer (literal : List Char) : Bool :=
  match literal with
  | '0' :: rest => is_radix_part rest ||
      is_decimal_digits literal && rest.all fun c => c = '0' || c = '_'
  | _ => is_decimal_digits literal

/-- A decimal point, with digits on at least one side. -/
def is_pointfloat (literal : List Char) : Bool :=
  match literal.span (· ≠ '.') with
  | (whole, _ :: fraction) =>
    (is_decimal_digits whole || whole.isEmpty && !fraction.isEmpty) &&
      (is_decimal_digits fraction || fraction.isEmpty)
  | (_, []) => false

def is_exponent : List Char → Bool
  | '+' :: digits => is_decimal_digits digits
  | '-' :: digits => is_decimal_digits digits
  | digits => is_decimal_digits digits

def is_float (literal : List Char) : Bool :=
  match literal.span (·.toLower ≠ 'e') with
  | (mantissa, _ :: exponent) =>
    (is_pointfloat mantissa || is_decimal_digits mantissa) && is_exponent exponent
  | (mantissa, []) => is_pointfloat mantissa

def is_imaginary (literal : List Char) : Bool :=
  (literal.getLast?.any fun c => c.toLower = 'j') &&
    (is_float literal.dropLast || is_decimal_digits literal.dropLast)

def is_number (literal : List Char) : Bool :=
  is_integer literal || is_float literal || is_imaginary literal

/-- May the character belong to the number that begins like this? A point follows digits, a sign
    the mark of an exponent. -/
def continues_number (read : List Char) (c : Char) : Bool :=
  is_identifier_char c ||
    c = '.' && (read.all fun d => d.isDigit || d = '_') ||
    (c = '+' || c = '-') && (read.getLast?.any fun d => d.toLower = 'e') &&
      (read.dropLast.all fun d => d.isDigit || d = '_' || d = '.')

/-- The only words that may follow a number at once. -/
def words_behind_number : List String := ["and", "else", "for", "if", "in", "is", "or", "not"]

/-- The number at the front of what has been read as one, and the word behind it. -/
def split_number (read : List Char) : Option (List Char × List Char) :=
  (read.inits.reverse.find? is_number).bind fun literal =>
    let word := read.drop literal.length
    if words_behind_number.any fun w => w.toList.isPrefixOf word then some (literal, word) else none

/-! ### Operators -/

def operators : List String :=
  ["%", "&", "(", ")", "*", "+", ",", "-", ".", "/", ":", ";", "<", "=", ">", "@", "[", "]", "^",
    "\x7b", "|", "\x7d", "~", "!=", "%=", "&=", "**", "*=", "+=", "-=", "->", "//", "/=", ":=",
    "<<", "<=", "<>", "==", ">=", ">>", "@=", "^=", "|=", "**=", "//=", ">>=", "<<=", "..."]

/-- Is this the beginning of an operator? -/
def begins_operator (read : List Char) : Bool := operators.any fun o => read.isPrefixOf o.toList

/-- The bracket that this one closes. -/
def closes : Char → Option Char
  | ')' => some '('
  | ']' => some '['
  | '\x7d' => some '\x7b'
  | _ => none

def is_open_bracket (c : Char) : Bool := c = '(' || c = '[' || c = '\x7b'

/-! ### The lexer -/

/-- What has been read of the line and of the next token. -/
inductive Mode where
  /-- The blanks at the front of a line. -/
  | indentation (column altcolumn : Nat)
  | between
  /-- A comment; is there nothing else on the line? -/
  | comment (blank : Bool)
  /-- A backslash. -/
  | continuation
  | word (read : List Char)
  | number (read : List Char)
  | operator (read : List Char)
  /-- A quote, or two of them. -/
  | quote (letters : List Char) (quote : Char)
  | quotes (letters : List Char) (quote : Char)
  | string (letters : List Char) (quote : Char) (body : List Char) (escaped : Bool)
  /-- Behind three quotes. `closing` counts the quotes at the end of `body`. -/
  | triple (letters : List Char) (quote : Char) (body : List Char) (escaped : Bool) (closing : Nat)
  deriving DecidableEq

structure State where
  /-- The latest first. -/
  tokens : List Token
  /-- The columns of the blocks that are open, the innermost first. -/
  indents : List (Nat × Nat)
  brackets : List Char
  mode : Mode
  deriving DecidableEq

namespace State

def initial : State := ⟨[], [], [], .indentation 0 0⟩

def enter (s : State) (mode : Mode) : State := { s with mode }

/-- A token ends. -/
def emit (s : State) (token : Token) : State :=
  { s with tokens := token :: s.tokens, mode := .between }

/-- The blocks that are indented further end. -/
def dedent (s : State) (column altcolumn : Nat) : List (Nat × Nat) → Option State
  | [] => if column = 0 ∧ altcolumn = 0 then some { s with indents := [] } else none
  | (top, alttop) :: indents =>
    if column = top then
      if altcolumn = alttop then some { s with indents := (top, alttop) :: indents } else none
    else if column < top then (s.emit .DEDENT).dedent column altcolumn indents
    else none

/-- The first token of a line begins in this column. -/
def indent (s : State) (column altcolumn : Nat) : Option State :=
  let (top, alttop) := s.indents.headD (0, 0)
  if top < column then
    if alttop < altcolumn then
      some { s.emit .INDENT with indents := (column, altcolumn) :: s.indents }
    else none
  else s.dedent column altcolumn s.indents

end State

open State

section lexer

variable (unicode_identifier : String → Bool)

def emit_word (s : State) (word : List Char) : Option State :=
  if is_identifier unicode_identifier (String.ofList word) then
    some (s.emit (.NAME (String.ofList word)))
  else none

def emit_number (s : State) (read : List Char) : Option State :=
  if is_number read then some (s.emit (.NUMBER (String.ofList read)))
  else (split_number read).bind fun (literal, word) =>
    emit_word unicode_identifier (s.emit (.NUMBER (String.ofList literal))) word

/-- Two points are two operators, since three would be one. -/
def emit_operator (s : State) (read : List Char) : Option State :=
  if String.ofList read ∈ operators then some (s.emit (.OP (String.ofList read)))
  else if read = ['.', '.'] then some ((s.emit (.OP ".")).emit (.OP "."))
  else none

/-- Brackets are operators of one character. -/
def emit_bracket (s : State) (c : Char) : Option State :=
  if is_open_bracket c then
    some { s.emit (.OP (String.singleton c)) with brackets := c :: s.brackets }
  else if closes c ≠ none ∧ s.brackets.head? = closes c then
    some { s.emit (.OP (String.singleton c)) with brackets := s.brackets.tail }
  else none

/-- The token that ends where no further character belongs to it. -/
def end_token (s : State) : Option State :=
  match s.mode with
  | .word read => emit_word unicode_identifier s read
  | .number read => emit_number unicode_identifier s read
  | .operator read => emit_operator s read
  | .quotes letters quote => some (s.emit (.STRING (String.ofList letters) quote false ""))
  | _ => some s

/-- A character that no token before it includes. -/
def begin_token (s : State) (c : Char) : Option State :=
  if is_blank c then some (s.enter .between)
  else if c = '\n' then
    if s.brackets = [] then some ((s.emit .NEWLINE).enter (.indentation 0 0))
    else some (s.enter .between)
  else if c = '#' then some (s.enter (.comment false))
  else if c = '\\' then some (s.enter .continuation)
  else if is_quote c then some (s.enter (.quote [] c))
  else if is_identifier_start c then some (s.enter (.word [c]))
  else if c.isDigit then some (s.enter (.number [c]))
  else if is_open_bracket c || closes c ≠ none then emit_bracket s c
  else if begins_operator [c] then some (s.enter (.operator [c]))
  else none

/-- A character between the quotes of a string, on one line. -/
def string_char (s : State) (letters : List Char) (quote : Char) (body : List Char)
    (escaped : Bool) (c : Char) : Option State :=
  if escaped then some (s.enter (.string letters quote (body ++ [c]) false))
  else if c = '\\' then some (s.enter (.string letters quote (body ++ [c]) true))
  else if c = quote then
    some (s.emit (.STRING (String.ofList letters) quote false (String.ofList body)))
  else if c = '\n' then none
  else some (s.enter (.string letters quote (body ++ [c]) false))

/-- The third quote in a row is the end. -/
def triple_char (s : State) (letters : List Char) (quote : Char) (body : List Char)
    (escaped : Bool) (closing : Nat) (c : Char) : Option State :=
  if escaped then some (s.enter (.triple letters quote (body ++ [c]) false 0))
  else if c = '\\' then some (s.enter (.triple letters quote (body ++ [c]) true 0))
  else if c = quote then
    if closing = 2 then
      some (s.emit (.STRING (String.ofList letters) quote true
        (String.ofList (body.dropLast.dropLast))))
    else some (s.enter (.triple letters quote (body ++ [c]) false (closing + 1)))
  else some (s.enter (.triple letters quote (body ++ [c]) false 0))

def step (s : State) (c : Char) : Option State :=
  match s.mode with
  | .indentation column altcolumn =>
    if c = ' ' then some (s.enter (.indentation (column + 1) (altcolumn + 1)))
    else if c = '\t' then some (s.enter (.indentation ((column / 8 + 1) * 8) (altcolumn + 1)))
    else if c = '\x0c' then some (s.enter (.indentation 0 0))
    else if c = '\n' then some (s.enter (.indentation 0 0))
    else if c = '#' then some (s.enter (.comment true))
    else (s.indent column altcolumn).bind fun s => begin_token s c
  | .between => begin_token s c
  | .comment blank =>
    if c = '\n' then
      if blank then some (s.enter (.indentation 0 0)) else begin_token s c
    else some s
  | .continuation => if c = '\n' then some (s.enter .between) else none
  | .word read =>
    if is_identifier_char c then some (s.enter (.word (read ++ [c])))
    else if is_quote c && starts_string read then some (s.enter (.quote read c))
    else (end_token unicode_identifier s).bind fun s => begin_token s c
  | .number read =>
    if continues_number read c then some (s.enter (.number (read ++ [c])))
    else (end_token unicode_identifier s).bind fun s => begin_token s c
  | .operator read =>
    if begins_operator (read ++ [c]) then some (s.enter (.operator (read ++ [c])))
    else if read = ['.'] && c.isDigit then some (s.enter (.number ['.', c]))
    else if read = ['.', '.'] && c.isDigit then
      some ((s.emit (.OP ".")).enter (.number ['.', c]))
    else (end_token unicode_identifier s).bind fun s => begin_token s c
  | .quote letters quote =>
    if c = quote then some (s.enter (.quotes letters quote))
    else string_char s letters quote [] false c
  | .quotes letters quote =>
    if c = quote then some (s.enter (.triple letters quote [] false 0))
    else (end_token unicode_identifier s).bind fun s => begin_token s c
  | .string letters quote body escaped => string_char s letters quote body escaped c
  | .triple letters quote body escaped closing =>
    triple_char s letters quote body escaped closing c

def run (s : State) (text : List Char) : Option State := text.foldlM (step unicode_identifier) s

/-- The text ends where a line does, outside of brackets and strings. The open blocks end with
    it. -/
def finish (s : State) : Option (List Token) :=
  match s.mode, s.brackets with
  | .indentation _ _, [] => some (s.tokens.reverse ++ List.replicate s.indents.length .DEDENT)
  | _, _ => none

/-- Every line break is a line feed. -/
def translate_newlines : List Char → List Char
  | '\r' :: '\n' :: text => '\n' :: translate_newlines text
  | '\r' :: text => '\n' :: translate_newlines text
  | c :: text => c :: translate_newlines text
  | [] => []

/-- The last line is complete. -/
def complete_line (text : List Char) : List Char :=
  if text.getLast? = some '\n' then text else text ++ ['\n']

/-- The tokens of a text, if it has any. -/
def tokenize (text : String) : Option (List Token) :=
  (run unicode_identifier initial (complete_line (translate_newlines text.toList))).bind finish

end lexer

end PythonLexer
