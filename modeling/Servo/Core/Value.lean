import Servo.Core.Json

/-! # JSON Values

    `serde_json::Value`. Numbers are integers of 64 bits or double-precision
    numbers; the latter are a parameter, of which the program uses what is in
    `F64`.
-/

namespace Servo

/-- Double-precision numbers. -/
class F64 (F : Type) where
  /-- `n as f64`. -/
  of_int : Int → F
  lt : F → F → Bool
  is_finite : F → Bool
  /-- The text that `serde_json` writes. -/
  to_text : F → String
  /-- The text of `Debug`. -/
  debug : F → String

/-- Integers for double-precision numbers, where nothing is rounded. -/
instance exact_f64 : F64 Int where
  of_int n := n
  lt x y := x < y
  is_finite _ := true
  to_text x := toString x ++ ".0"
  debug x := toString x ++ ".0"

inductive Number (F : Type) where
  | int (n : Int)
  | float (x : F)

inductive Value (F : Type) where
  | null
  | bool (b : Bool)
  | number (n : Number F)
  | string (text : String)
  | array (items : List (Value F))
  /-- The members in the order of their names. -/
  | object (members : List (String × Value F))

variable {F : Type}

section f64
variable [F64 F]

def Number.to_text : Number F → String
  | .int n => toString n
  | .float x => F64.to_text x

/-- `Number::as_f64`. -/
def Number.as_f64 : Number F → F
  | .int n => F64.of_int n
  | .float x => x

mutual

/-- The `Display` text. -/
def Value.to_text : Value F → Json
  | .null => "null"
  | .bool b => if b then "true" else "false"
  | .number n => n.to_text
  | .string text => json_string text
  | .array items => "[" ++ ",".intercalate (items_text items) ++ "]"
  | .object members => "\x7b" ++ ",".intercalate (members_text members) ++ "\x7d"

/-- The texts of the items of an array. -/
def items_text : List (Value F) → List Json
  | [] => []
  | item :: items => item.to_text :: items_text items

/-- The texts of the members of an object. -/
def members_text : List (String × Value F) → List Json
  | [] => []
  | (name, value) :: members =>
    (json_string name ++ ":" ++ value.to_text) :: members_text members

end

theorem Value.to_text_null : (Value.null : Value F).to_text = "null" := rfl

theorem Value.to_text_bool (b : Bool) :
    (Value.bool b : Value F).to_text = if b then "true" else "false" := rfl

theorem Value.to_text_number (n : Number F) : (Value.number n).to_text = n.to_text := rfl

theorem Value.to_text_string (text : String) :
    (Value.string text : Value F).to_text = json_string text := rfl

/-- `json!` of an `f64`. -/
def Value.of_f64 (x : F) : Value F := if F64.is_finite x then .number (.float x) else .null

end f64

namespace Value

def is_null : Value F → Bool
  | .null => true
  | _ => false

/-- `json!` of an integer. -/
def of_nat (n : Nat) : Value F := .number (.int n)

/-- `json!` of an `Option`. -/
def of_option {α : Type} (of : α → Value F) : Option α → Value F
  | some x => of x
  | none => .null

/-! ### What `serde` reads -/

def as_bool : Value F → Option Bool
  | .bool b => some b
  | _ => none

def as_string : Value F → Option String
  | .string text => some text
  | _ => none

/-- An `i64`. -/
def as_i64 : Value F → Option Int
  | .number (.int n) => if -2 ^ 63 ≤ n ∧ n < 2 ^ 63 then some n else none
  | _ => none

def as_f64 [F64 F] : Value F → Option F
  | .number n => some n.as_f64
  | _ => none

/-- A `Vec`. -/
def as_vec {α : Type} (read : Value F → Option α) : Value F → Option (List α)
  | .array items => items.mapM read
  | _ => none

def as_strings : Value F → Option (List String) := as_vec as_string

/-- An `Option`. -/
def as_option {α : Type} (read : Value F → Option α) : Value F → Option (Option α)
  | .null => some none
  | value => (read value).map some

end Value

end Servo
