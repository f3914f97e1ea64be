import Servo.Core.StrMethods
import Servo.Core.Value
import Servo.Framework.Pattern

/-! # The Filter for Personal Data

    `redact` replaces one kind of personal data after the other by a label, and
    cuts the text at a number of bytes. `redact_json` does so with every string
    of a value.
-/

namespace Servo.Pii

/-! ### Patterns -/

/-- The Unicode classes of `\d` and `\w`, beyond ASCII. -/
structure UnicodeClasses where
  digit : Char → Bool
  word : Char → Bool
  digit_word : ∀ c, digit c = true → word c = true

def is_ascii (c : Char) : Bool := c.toNat < 128

/-- `[0-9]`. -/
def is_ascii_digit (c : Char) : Bool := '0' ≤ c && c ≤ '9'

/-- `[a-zA-Z]`. -/
def is_ascii_letter (c : Char) : Bool := ('a' ≤ c && c ≤ 'z') || ('A' ≤ c && c ≤ 'Z')

/-- The symbols of a class in brackets. -/
def one_of (chars : List Char) (c : Char) : Bool := chars.contains c

namespace UnicodeClasses

variable (classes : UnicodeClasses)

/-- `\d`. -/
def is_digit (c : Char) : Bool := if is_ascii c then is_ascii_digit c else classes.digit c

/-- `\w`, which decides about `\b`. -/
def is_word (c : Char) : Bool :=
  if is_ascii c then is_ascii_letter c || is_ascii_digit c || c = '_' else classes.word c

end UnicodeClasses

section patterns

open Pattern (one optional times between at_least guarded)

variable (classes : UnicodeClasses)

/-- `[a-zA-Z0-9._%+-]+@[a-zA-Z0-9.-]+\.[a-zA-Z]{2,}`. -/
def email : Pattern Char :=
  at_least 1 (fun c => is_ascii_letter c || is_ascii_digit c || one_of ['.', '_', '%', '+', '-'] c)
    ++ one (· = '@')
    ++ at_least 1 (fun c => is_ascii_letter c || is_ascii_digit c || one_of ['.', '-'] c)
    ++ one (· = '.') ++ at_least 2 is_ascii_letter

/-- `\b\d{3}-\d{2}-\d{4}\b|\b\d{9}\b`. -/
def ssn : Pattern Char :=
  .alt
    (guarded classes.is_word (times 3 classes.is_digit ++ one (· = '-') ++
      times 2 classes.is_digit ++ one (· = '-') ++ times 4 classes.is_digit))
    (guarded classes.is_word (times 9 classes.is_digit))

/-- `\d{4}[-\s]?`. -/
def card_group : Pattern Char :=
  times 4 classes.is_digit ++ optional fun c => c = '-' || is_whitespace c

/-- `\b(?:\d{4}[-\s]?){3}\d{1,7}\b|\b\d{13,19}\b`. -/
def credit_card : Pattern Char :=
  .alt
    (guarded classes.is_word (card_group classes ++ card_group classes ++ card_group classes ++
      between 1 7 classes.is_digit))
    (guarded classes.is_word (between 13 19 classes.is_digit))

/-- `[-.]?`. -/
def separator : Pattern Char := optional (one_of ['-', '.'])

/-- `\(\d{3}\)\s*\d{3}[-.]?\d{4}`. -/
def phone_with_area : Pattern Char :=
  one (· = '(') ++ times 3 classes.is_digit ++ one (· = ')') ++ at_least 0 is_whitespace ++
    times 3 classes.is_digit ++ separator ++ times 4 classes.is_digit

/-- `(?:\(\d{3}\)\s*\d{3}[-.]?\d{4}|\b\d{3}[-.]?\d{3}[-.]?\d{4}\b)`. -/
def phone : Pattern Char :=
  .alt (phone_with_area classes)
    (guarded classes.is_word (times 3 classes.is_digit ++ separator ++
      times 3 classes.is_digit ++ separator ++ times 4 classes.is_digit))

/-- `(?:25[0-5]|2[0-4][0-9]|[01]?[0-9][0-9]?)`. -/
def octet : Pattern Char :=
  .alt (.alt
      (one (· = '2') ++ one (· = '5') ++ one fun c => '0' ≤ c && c ≤ '5')
      (one (· = '2') ++ one (fun c => '0' ≤ c && c ≤ '4') ++ one is_ascii_digit))
    (optional (one_of ['0', '1']) ++ one is_ascii_digit ++ optional is_ascii_digit)

/-- `\b(?:octet\.){3}octet\b`. -/
def ipv4 : Pattern Char :=
  guarded classes.is_word (octet ++ one (· = '.') ++ octet ++ one (· = '.') ++ octet ++
    one (· = '.') ++ octet)

end patterns

/-! ### The filter -/

structure PiiFilterConfig where
  redact_emails : Bool
  redact_ssn : Bool
  redact_credit_cards : Bool
  redact_phone_numbers : Bool
  redact_ip_addresses : Bool
  /-- In bytes. -/
  max_sample_length : Nat

def PiiFilterConfig.default : PiiFilterConfig := ⟨true, true, true, true, true, 1000⟩

section redact

variable (classes : UnicodeClasses) (config : PiiFilterConfig)

/-- The text in which the enabled patterns have been replaced, one after the other. -/
def replaced (input : List Char) : List Char :=
  let result := input
  let result :=
    if config.redact_emails then email.replace_all "[EMAIL]".toList result else result
  let result :=
    if config.redact_ssn then (ssn classes).replace_all "[SSN]".toList result else result
  let result :=
    if config.redact_credit_cards then (credit_card classes).replace_all "[CARD]".toList result
    else result
  let result :=
    if config.redact_phone_numbers then (phone classes).replace_all "[PHONE]".toList result
    else result
  if config.redact_ip_addresses then (ipv4 classes).replace_all "[IP]".toList result else result

/-- `redact`. It panics where the limit is inside a character. -/
def redact (input : String) : Option String :=
  let result := String.ofList (replaced classes config input.toList)
  if config.max_sample_length < result.utf8ByteSize then
    (slice 0 config.max_sample_length result).map fun kept => kept ++ "...[TRUNCATED]"
  else some result

variable {F : Type}

mutual

def redact_json : Value F → Option (Value F)
  | .string text => (redact classes config text).map .string
  | .array items => (redact_items items).map .array
  | .object members => (redact_members members).map .object
  | .null => some .null
  | .bool b => some (.bool b)
  | .number n => some (.number n)

def redact_items : List (Value F) → Option (List (Value F))
  | [] => some []
  | item :: items => do
    let item ← redact_json item
    let items ← redact_items items
    return item :: items

def redact_members : List (String × Value F) → Option (List (String × Value F))
  | [] => some []
  | (name, value) :: members => do
    let value ← redact_json value
    let members ← redact_members members
    return (name, value) :: members

end

end redact

end Servo.Pii
