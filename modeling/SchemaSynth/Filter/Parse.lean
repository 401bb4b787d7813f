import SchemaSynth.Filter.Basic

/-!
# Filters as texts

`Filter.ofText?` reads a filter. From loosest to tightest its operators are the pipe, the comma, the
alternative `//` (both first and last group to the right), equality and the sum; accesses and the
question mark follow what they apply to.
-/

namespace SchemaSynth

namespace Filter

/-- A token of a filter. A field is a name directly behind its dot. -/
inductive Lexeme where
  | name (name : String)
  | field (name : String)
  | string (value : String)
  | number (value : Option Number)
  | sign (text : String)
deriving DecidableEq

namespace Lexeme

def startsName (c : Char) : Bool := c.isAlpha || c == '_'

def inName (c : Char) : Bool := c.isAlphanum || c == '_'

/-- The name at the start of a text, and the rest. -/
def spanName (cs : List Char) : String × List Char :=
  (String.ofList (cs.takeWhile inName), cs.dropWhile inName)

/-- The token at the start of a text without leading blanks, and the rest. -/
def next? (cs : List Char) : Option (Lexeme × List Char) :=
  match cs with
  | '.' :: '.' :: rest => some (.sign "..", rest)
  | '.' :: c :: rest =>
    if startsName c then
      let (word, rest) := spanName (c :: rest)
      some (.field word, rest)
    else some (.sign ".", c :: rest)
  | '/' :: '/' :: rest => some (.sign "//", rest)
  | '=' :: '=' :: rest => some (.sign "==", rest)
  | '"' :: rest => do
    let (s, rest) ← Token.stringBody ⟨[], Option.none, true⟩ rest
    pure (.string (← s), rest)
  | c :: rest =>
    if startsName c then
      let (word, rest) := spanName cs
      some (.name word, rest)
    else if c.isDigit then
      (Token.unsignedNumber false cs).map fun (l, rest) => (.number l.value?, rest)
    else if ".[]\x7b\x7d()|,?:;+-".contains c then some (.sign c.toString, rest)
    else Option.none
  | [] => Option.none

/-- The tokens of a text without comments, put before `done`, which is in reverse order. -/
def scanFrom : Nat → List Char → List Lexeme → Option (List Lexeme)
  | 0, _, done => some done.reverse
  | _ + 1, [], done => some done.reverse
  | fuel + 1, c :: rest, done =>
    if Token.isSpace c then scanFrom fuel rest done
    else if c = '#' then scanFrom fuel (rest.dropWhile (· ≠ '\n')) done
    else
      match next? (c :: rest) with
      | some (token, rest) => scanFrom fuel rest (token :: done)
      | Option.none => Option.none

def scan? (s : String) : Option (List Lexeme) :=
  let cs := s.toList
  scanFrom cs.length cs []

end Lexeme

/-- A filter at the start of a list of tokens, and the rest. -/
abbrev Parsed := Option (Filter × List Lexeme)

def field (of : Filter) (name : String) (isLenient : Bool) : Filter :=
  .get of (.literal (.string name)) isLenient

/-- Drop question marks; tells whether there was one. -/
def spanLenient : List Lexeme → Bool × List Lexeme
  | .sign "?" :: rest => (true, (spanLenient rest).2)
  | tokens => (false, tokens)

/-- Filters that go by a name alone. -/
def ofName? (name : String) : Option Filter :=
  match name with
  | "null" => some (.literal .null)
  | "true" => some (.literal (.bool true))
  | "false" => some (.literal (.bool false))
  | "nan" => some (.literal .null)
  | "infinite" => some (.literal .null)
  | "empty" => some .none
  | "error" => some .fault
  | "not" => some (.branch .identity (.literal (.bool false)) (.literal (.bool true)))
  | "length" => some .length
  | "keys" => some .keys
  | _ => Option.none

/-- Filters that go by a name and an argument. -/
def ofCall? (name : String) (argument : Filter) : Option Filter :=
  match name with
  | "select" => some (.branch argument .identity .none)
  | "map" => some (.collect (.pipe (.each .identity false) argument))
  | "error" => some (.pipe argument .fault)
  | _ => Option.none

/-- The object of several entries, the last one counting where names repeat. -/
def objectOf : List (Filter × Filter) → Filter
  | [] => .literal (.object [])
  | entries => entries.tail.foldl (fun f e => .add f (.entry e.1 e.2))
    (match entries.head? with
      | some e => .entry e.1 e.2
      | Option.none => .literal (.object []))

mutual

/-- A pipe. Where a comma has another meaning, `comma` forbids it. -/
def pipe? (comma : Bool) : Nat → List Lexeme → Parsed
  | 0, _ => Option.none
  | fuel + 1, tokens => do
    let (f, rest) ← if comma then commas? fuel tokens else alternative? fuel tokens
    match rest with
    | .sign "|" :: rest => do
      let (g, rest) ← pipe? comma fuel rest
      pure (.pipe f g, rest)
    | _ => pure (f, rest)

def commas? : Nat → List Lexeme → Parsed
  | 0, _ => Option.none
  | fuel + 1, tokens => do
    let (f, rest) ← alternative? fuel tokens
    match rest with
    | .sign "," :: rest => do
      let (g, rest) ← commas? fuel rest
      pure (.both f g, rest)
    | _ => pure (f, rest)

def alternative? : Nat → List Lexeme → Parsed
  | 0, _ => Option.none
  | fuel + 1, tokens => do
    let (f, rest) ← equality? fuel tokens
    match rest with
    | .sign "//" :: rest => do
      let (g, rest) ← alternative? fuel rest
      pure (.orElse f g, rest)
    | _ => pure (f, rest)

/-- An equality, which does not group. -/
def equality? : Nat → List Lexeme → Parsed
  | 0, _ => Option.none
  | fuel + 1, tokens => do
    let (f, rest) ← sum? fuel tokens
    match rest with
    | .sign "==" :: rest => do
      let (g, rest) ← sum? fuel rest
      pure (.equal f g, rest)
    | _ => pure (f, rest)

def sum? : Nat → List Lexeme → Parsed
  | 0, _ => Option.none
  | fuel + 1, tokens => do
    let (f, rest) ← operand? fuel tokens
    sumTail? fuel f rest

def sumTail? : Nat → Filter → List Lexeme → Parsed
  | 0, _, _ => Option.none
  | fuel + 1, f, tokens =>
    match tokens with
    | .sign "+" :: rest => do
      let (g, rest) ← operand? fuel rest
      sumTail? fuel (.add f g) rest
    | _ => some (f, tokens)

def operand? : Nat → List Lexeme → Parsed
  | 0, _ => Option.none
  | fuel + 1, tokens =>
    match tokens with
    | .sign "-" :: rest => do
      let (f, rest) ← operand? fuel rest
      pure (.negate f, rest)
    | _ => do
      let (f, rest) ← atom? fuel tokens
      let (isLenient, rest) := spanLenient rest
      accesses? fuel (if isLenient then .lenient f else f) rest

def atom? : Nat → List Lexeme → Parsed
  | 0, _ => Option.none
  | fuel + 1, tokens =>
    match tokens with
    | .sign ".." :: rest => some (.recurse, rest)
    | .sign "." :: .string key :: rest =>
      let (isLenient, rest) := spanLenient rest
      some (field .identity key isLenient, rest)
    | .sign "." :: rest => some (.identity, rest)
    | .field key :: rest =>
      let (isLenient, rest) := spanLenient rest
      some (field .identity key isLenient, rest)
    | .string s :: rest => some (.literal (.string s), rest)
    | .number (some n) :: rest => some (.literal (.number n), rest)
    | .number Option.none :: rest => some (.fault, rest)
    | .sign "(" :: rest => do
      match ← pipe? true fuel rest with
      | (f, .sign ")" :: rest) => pure (f, rest)
      | _ => Option.none
    | .sign "[" :: .sign "]" :: rest => some (.literal (.array []), rest)
    | .sign "[" :: rest => do
      match ← pipe? true fuel rest with
      | (f, .sign "]" :: rest) => pure (.collect f, rest)
      | _ => Option.none
    | .sign "\x7b" :: .sign "\x7d" :: rest => some (objectOf [], rest)
    | .sign "\x7b" :: rest => do
      let (entries, rest) ← entries? fuel rest
      pure (objectOf entries, rest)
    | .name "if" :: rest => branch? fuel rest
    | .name name :: .sign "(" :: rest => do
      match ← pipe? true fuel rest with
      | (f, .sign ")" :: rest) => (ofCall? name f).map fun g => (g, rest)
      | _ => Option.none
    | .name name :: rest => (ofName? name).map fun f => (f, rest)
    | _ => Option.none

/-- A condition and its branches, behind the word that opens them. -/
def branch? : Nat → List Lexeme → Parsed
  | 0, _ => Option.none
  | fuel + 1, tokens => do
    match ← pipe? true fuel tokens with
    | (condition, .name "then" :: rest) => do
      let (yes, rest) ← pipe? true fuel rest
      match rest with
      | .name "end" :: rest => pure (.branch condition yes .identity, rest)
      | .name "elif" :: rest => do
        let (no, rest) ← branch? fuel rest
        pure (.branch condition yes no, rest)
      | .name "else" :: rest => do
        match ← pipe? true fuel rest with
        | (no, .name "end" :: rest) => pure (.branch condition yes no, rest)
        | _ => Option.none
      | _ => Option.none
    | _ => Option.none

def entries? : Nat → List Lexeme → Option (List (Filter × Filter) × List Lexeme)
  | 0, _ => Option.none
  | fuel + 1, tokens => do
    let (first, rest) ← entry? fuel tokens
    match rest with
    | .sign "\x7d" :: rest => pure ([first], rest)
    | .sign "," :: rest => do
      let (others, rest) ← entries? fuel rest
      pure (first :: others, rest)
    | _ => Option.none

/-- An entry of an object: a key and a value, or the name of a field. -/
def entry? : Nat → List Lexeme → Option ((Filter × Filter) × List Lexeme)
  | 0, _ => Option.none
  | fuel + 1, tokens => do
    let (key, name, rest) ← match tokens with
      | .name name :: rest => some (Filter.literal (.string name), some name, rest)
      | .string name :: rest => some (Filter.literal (.string name), some name, rest)
      | .sign "(" :: rest =>
        match pipe? true fuel rest with
        | some (f, .sign ")" :: rest) => some (f, Option.none, rest)
        | _ => Option.none
      | _ => Option.none
    match rest, name with
    | .sign ":" :: rest, _ => do
      let (value, rest) ← pipe? false fuel rest
      pure ((key, value), rest)
    | _, some name => pure ((key, field .identity name false), rest)
    | _, Option.none => Option.none

def accesses? : Nat → Filter → List Lexeme → Parsed
  | 0, _, _ => Option.none
  | fuel + 1, f, tokens =>
    match tokens with
    | .field key :: rest =>
      let (isLenient, rest) := spanLenient rest
      accesses? fuel (field f key isLenient) rest
    | .sign "." :: .string key :: rest =>
      let (isLenient, rest) := spanLenient rest
      accesses? fuel (field f key isLenient) rest
    | .sign "." :: .sign "[" :: rest => bracket? fuel f rest
    | .sign "[" :: rest => bracket? fuel f rest
    | _ => some (f, tokens)

/-- An access in brackets, behind the opening one, and what follows it. -/
def bracket? : Nat → Filter → List Lexeme → Parsed
  | 0, _, _ => Option.none
  | fuel + 1, f, tokens => do
    let (access, rest) ← match tokens with
      | .sign "]" :: rest => some (Filter.each f, rest)
      | .sign ":" :: rest =>
        match pipe? true fuel rest with
        | some (stop, .sign "]" :: rest) => some (Filter.slice f Option.none (some stop), rest)
        | _ => Option.none
      | _ =>
        match pipe? true fuel tokens with
        | some (index, .sign "]" :: rest) => some (Filter.get f index, rest)
        | some (start, .sign ":" :: .sign "]" :: rest) =>
          some (Filter.slice f (some start) Option.none, rest)
        | some (start, .sign ":" :: rest) =>
          match pipe? true fuel rest with
          | some (stop, .sign "]" :: rest) => some (Filter.slice f (some start) (some stop), rest)
          | _ => Option.none
        | _ => Option.none
    let (isLenient, rest) := spanLenient rest
    accesses? fuel (access isLenient) rest

end

/-- The filter of a text; nothing at all is the identity. Each token is at the start of at most nine
calls before it is taken. -/
def ofText? (s : String) : Option Filter := do
  let tokens ← Lexeme.scan? s
  if tokens.isEmpty then pure .identity
  else
    match pipe? true (10 * tokens.length + 10) tokens with
    | some (f, []) => pure f
    | _ => Option.none

end Filter

end SchemaSynth
