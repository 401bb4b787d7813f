import SchemaSynth.Json.Basic
import SchemaSynth.Json.Token

/-!
# What a text offers to its reader

A text is read only as far as it is well formed, and a reader may find fault with an early part
before it reaches a later one. `Raw` is the first value of a text in that spirit: objects keep
repeated keys, `broken` stands where the text goes wrong, and `unreadable` where it is well formed
but has no value (a lone surrogate, a number too big, arrays or objects nested too deep), which
matters only if that part is read. `Raw.toJson?` is the plain value, if all of it is readable.
-/

namespace SchemaSynth

/-- The first value of a text, as far as it goes. A key without a value is `none`. -/
inductive Raw where
  | null
  | bool (value : Bool)
  | number (value : Number)
  | string (value : String)
  | array (items : List Raw)
  | object (fields : List (Option String × Raw))
  | unreadable
  | broken
deriving Inhabited

namespace Raw

/-- Arrays and objects may be nested in at most this many levels. -/
def maxNesting : Nat := 127

/-- An array or object whose text ends here, or goes wrong if there is no rest. -/
def close (depth : Nat) (value : Raw) (rest : Option (List Token)) : Raw × Option (List Token) :=
  if depth < maxNesting then (value, rest)
  else (if rest.isSome then .unreadable else .broken, rest)

mutual

/-- Read the value at the start of the tokens, inside `depth` arrays and objects. The rest is `none`
if the text goes wrong within the value. -/
def readValue : Nat → Nat → List Token → Raw × Option (List Token)
  | 0, _, _ => (.broken, none)
  | fuel + 1, depth, tokens =>
    match tokens with
    | .null :: rest => (.null, some rest)
    | .bool b :: rest => (.bool b, some rest)
    | .number (some n) :: rest => (.number n, some rest)
    | .number none :: rest => (.unreadable, some rest)
    | .string (some s) :: rest => (.string s, some rest)
    | .string none :: rest => (.unreadable, some rest)
    | .beginArray :: .endArray :: rest => close depth (.array []) (some rest)
    | .beginArray :: rest =>
      let (items, rest) := readItems fuel (depth + 1) rest
      close depth (.array items) rest
    | .beginObject :: .endObject :: rest => close depth (.object []) (some rest)
    | .beginObject :: rest =>
      let (fields, rest) := readFields fuel (depth + 1) rest
      close depth (.object fields) rest
    | _ => (.broken, none)

/-- Read the items of an array up to its end; the first one starts here. -/
def readItems : Nat → Nat → List Token → List Raw × Option (List Token)
  | 0, _, _ => ([.broken], none)
  | fuel + 1, depth, tokens =>
    match readValue fuel depth tokens with
    | (item, none) => ([item], none)
    | (item, some (.endArray :: rest)) => ([item], some rest)
    | (item, some (.comma :: rest)) =>
      let (items, rest) := readItems fuel depth rest
      (item :: items, rest)
    | (item, some _) => ([item, .broken], none)

/-- Read the fields of an object up to its end; the first key stands here. -/
def readFields : Nat → Nat → List Token → List (Option String × Raw) × Option (List Token)
  | 0, _, _ => ([(none, .broken)], none)
  | fuel + 1, depth, tokens =>
    match tokens with
    | .string key :: .colon :: rest =>
      match readValue fuel depth rest with
      | (value, none) => ([(key, value)], none)
      | (value, some (.endObject :: rest)) => ([(key, value)], some rest)
      | (value, some (.comma :: rest)) =>
        let (fields, rest) := readFields fuel depth rest
        ((key, value) :: fields, rest)
      | (value, some _) => ([(key, value), (none, .broken)], none)
    | .string key :: _ => ([(key, .broken)], none)
    | _ => ([(none, .broken)], none)

end

/-- Read the first value of a list of tokens. Every second call takes a token. -/
def ofTokens (tokens : List Token) : Raw × Option (List Token) :=
  readValue (2 * tokens.length + 2) 0 tokens

def ofText (s : String) : Raw := (ofTokens (Token.scan s)).1

mutual

/-- The plain value, if all of it can be read. Of a repeated key the last value counts. -/
def toJson? : Raw → Option Json
  | .null => some .null
  | .bool b => some (.bool b)
  | .number n => some (.number n)
  | .string s => some (.string s)
  | .array items => (itemsToJson? items).map .array
  | .object fields => (fieldsToJson? fields).map fun entries => .object (Fields.ofList entries)
  | .unreadable => none
  | .broken => none

def itemsToJson? : List Raw → Option (List Json)
  | [] => some []
  | x :: xs =>
    match toJson? x, itemsToJson? xs with
    | some x, some xs => some (x :: xs)
    | _, _ => none

/-- The plain values of fields, repeated keys included. -/
def fieldsToJson? : List (Option String × Raw) → Option (List (String × Json))
  | [] => some []
  | (key, x) :: xs =>
    match key, toJson? x, fieldsToJson? xs with
    | some key, some x, some xs => some ((key, x) :: xs)
    | _, _, _ => none

end

mutual

/-- A plain value as a reader sees it. -/
def ofJson : Json → Raw
  | .null => .null
  | .bool b => .bool b
  | .number n => .number n
  | .string s => .string s
  | .array items => .array (ofItems items)
  | .object fields => .object (ofFields fields)

def ofItems : List Json → List Raw
  | [] => []
  | x :: xs => ofJson x :: ofItems xs

def ofFields : List (String × Json) → List (Option String × Raw)
  | [] => []
  | (key, x) :: xs => (some key, ofJson x) :: ofFields xs

end

mutual

/-- Whether all of a value can be read. -/
def readable : Raw → Bool
  | .array items => readableItems items
  | .object fields => readableFields fields
  | .unreadable => false
  | .broken => false
  | _ => true

def readableItems : List Raw → Bool
  | [] => true
  | x :: xs => readable x && readableItems xs

def readableFields : List (Option String × Raw) → Bool
  | [] => true
  | (key, x) :: xs => key.isSome && readable x && readableFields xs

end

mutual

/-- Whether a value is well formed to its end, readable or not. -/
def intact : Raw → Bool
  | .array items => intactItems items
  | .object fields => intactFields fields
  | .broken => false
  | _ => true

def intactItems : List Raw → Bool
  | [] => true
  | x :: xs => intact x && intactItems xs

def intactFields : List (Option String × Raw) → Bool
  | [] => true
  | (_, x) :: xs => intact x && intactFields xs

end

mutual

/-- How many levels of arrays and objects a value has, one more than its deepest part. -/
def height : Raw → Nat
  | .array items => heightItems items + 1
  | .object fields => heightFields fields + 1
  | _ => 1

def heightItems : List Raw → Nat
  | [] => 0
  | x :: xs => max (height x) (heightItems xs)

def heightFields : List (Option String × Raw) → Nat
  | [] => 0
  | (_, x) :: xs => max (height x) (heightFields xs)

end

end Raw

/-- The value of a text that holds one value and nothing else but blanks. -/
def Json.ofText? (s : String) : Option Json :=
  match Raw.ofTokens (Token.scan s) with
  | (raw, some []) => raw.toJson?
  | _ => none

end SchemaSynth
