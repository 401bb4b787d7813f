import SchemaSynth.Json.Basic

/-!
# Texts of documents

`Json.compact` writes a value without any space, `Json.pretty` with two spaces of indentation a
level. Strings escape the quote, the backslash and the characters below the space.
-/

namespace SchemaSynth

namespace Json

def hexDigit (n : Nat) : Char := (Nat.digitChar (n % 16))

def escapedChar (c : Char) : String :=
  if c = '"' then "\\\""
  else if c = '\\' then "\\\\"
  else if c.toNat = 0x08 then "\\b"
  else if c = '\t' then "\\t"
  else if c = '\n' then "\\n"
  else if c.toNat = 0x0C then "\\f"
  else if c = '\r' then "\\r"
  else if c.toNat < 0x20 then
    String.ofList ['\\', 'u', '0', '0', hexDigit (c.toNat / 16), hexDigit c.toNat]
  else c.toString

def stringText (s : String) : String :=
  s.foldl (fun out c => out ++ escapedChar c) "\"" ++ "\""

mutual

def compact : Json → String
  | .null => "null"
  | .bool b => if b then "true" else "false"
  | .number n => n.text
  | .string s => stringText s
  | .array items => "[" ++ ",".intercalate (compactItems items) ++ "]"
  | .object fields => "\x7b" ++ ",".intercalate (compactFields fields) ++ "\x7d"

def compactItems : List Json → List String
  | [] => []
  | x :: xs => compact x :: compactItems xs

def compactFields : List (String × Json) → List String
  | [] => []
  | (key, x) :: xs => (stringText key ++ ":" ++ compact x) :: compactFields xs

end

/-- A line break and the indentation of a level. -/
def newline (level : Nat) : String := "\n" ++ String.ofList (List.replicate (2 * level) ' ')

/-- Items on lines of their own between two brackets. -/
def block (level : Nat) (opening closing : String) (items : List String) : String :=
  if items.isEmpty then opening ++ closing
  else opening ++ newline (level + 1) ++ ("," ++ newline (level + 1)).intercalate items ++
    newline level ++ closing

mutual

/-- The text with its lines indented from a level on. -/
def prettyAt (level : Nat) : Json → String
  | .array items => block level "[" "]" (prettyItems (level + 1) items)
  | .object fields => block level "\x7b" "\x7d" (prettyFields (level + 1) fields)
  | .null => "null"
  | .bool b => if b then "true" else "false"
  | .number n => n.text
  | .string s => stringText s

def prettyItems (level : Nat) : List Json → List String
  | [] => []
  | x :: xs => prettyAt level x :: prettyItems level xs

def prettyFields (level : Nat) : List (String × Json) → List String
  | [] => []
  | (key, x) :: xs => (stringText key ++ ": " ++ prettyAt level x) :: prettyFields level xs

end

/-- The text with two spaces of indentation a level. -/
def pretty (value : Json) : String := prettyAt 0 value

end Json

end SchemaSynth
