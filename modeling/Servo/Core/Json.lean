import Servo.Core.Uuid

/-! # JSON Text

    Strings and small objects as `serde_json` writes them: without blanks, the
    members of an object in the order of their names.
-/

namespace Servo

/-- `serde_json::Value`, by its text. -/
abbrev Json : Type := String

/-- A character in a string. -/
def json_char (c : Char) : String :=
  if c.toNat = 34 then "\\\"" else if c.toNat = 92 then "\\\\"
  else if c.toNat = 8 then "\\b" else if c.toNat = 9 then "\\t" else if c.toNat = 10 then "\\n"
  else if c.toNat = 12 then "\\f" else if c.toNat = 13 then "\\r"
  else if c.toNat < 32 then
    "\\u00" ++ String.ofList [Uuid.hex_digit (.ofNat 4 (c.toNat / 16)),
      Uuid.hex_digit (.ofNat 4 (c.toNat % 16))]
  else String.ofList [c]

def json_string (text : String) : Json :=
  "\"" ++ String.join (text.toList.map json_char) ++ "\""

/-- An object, from its members in the order of their names. -/
def json_object (members : List (String × Json)) : Json :=
  "\x7b" ++ ",".intercalate (members.map fun m => json_string m.1 ++ ":" ++ m.2) ++ "\x7d"

end Servo
