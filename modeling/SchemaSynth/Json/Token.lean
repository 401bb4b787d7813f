import SchemaSynth.Number.Basic
import SchemaSynth.Text.Basic

/-!
# Tokens of a document text

`Token.scan` splits a text into tokens. A string with a lone surrogate and a number that is too big
are well formed but have no value; their tokens carry `none`. Where the text stops being made of
tokens, the list ends in `bad`.
-/

namespace SchemaSynth

inductive Token where
  | beginArray
  | endArray
  | beginObject
  | endObject
  | comma
  | colon
  | null
  | bool (value : Bool)
  | number (value : Option Number)
  | string (value : Option String)
  | bad
deriving DecidableEq

namespace Token

/-- The four blanks allowed between tokens. -/
def isSpace (c : Char) : Bool := c == ' ' || c == '\n' || c == '\t' || c == '\r'

def hexValue? (c : Char) : Option Nat :=
  if c.isDigit then some (c.toNat - '0'.toNat)
  else if 'a' ≤ c ∧ c ≤ 'f' then some (c.toNat - 'a'.toNat + 10)
  else if 'A' ≤ c ∧ c ≤ 'F' then some (c.toNat - 'A'.toNat + 10)
  else none

def hexValue4? (a b c d : Char) : Option Nat := do
  pure (((← hexValue? a) * 16 + (← hexValue? b)) * 256 + ((← hexValue? c) * 16 + (← hexValue? d)))

/-- The character a one-letter escape stands for. -/
def simpleEscape? (c : Char) : Option Char :=
  match c with
  | '"' => some '"'
  | '\\' => some '\\'
  | '/' => some '/'
  | 'b' => some '\x08'
  | 'f' => some '\x0c'
  | 'n' => some '\n'
  | 'r' => some '\r'
  | 't' => some '\t'
  | _ => none

/-- A string being read: the characters so far, last first, the first half of a surrogate pair that
waits for its second, and whether every surrogate so far was part of a pair. -/
structure Partial where
  chars : List Char
  high : Option Nat
  paired : Bool

namespace Partial

/-- Add a character. A first half that waits is left alone. -/
def push (p : Partial) (c : Char) : Partial := ⟨c :: p.chars, none, p.paired && p.high.isNone⟩

/-- Add the UTF-16 unit of an escape. -/
def pushUnit (p : Partial) (unit : Nat) : Partial :=
  if 0xD800 ≤ unit ∧ unit < 0xDC00 then ⟨p.chars, some unit, p.paired && p.high.isNone⟩
  else if 0xDC00 ≤ unit ∧ unit < 0xE000 then
    match p.high with
    | some high =>
      ⟨Char.ofNat (0x10000 + (high - 0xD800) * 0x400 + (unit - 0xDC00)) :: p.chars, none, p.paired⟩
    | none => ⟨p.chars, none, false⟩
  else p.push (Char.ofNat unit)

def value? (p : Partial) : Option String :=
  if p.paired && p.high.isNone then some (String.ofList p.chars.reverse) else none

end Partial

/-- Read a string up to its closing quote; fails where the text is no string. -/
def stringBody (p : Partial) : List Char → Option (Option String × List Char)
  | [] => none
  | '"' :: rest => some (p.value?, rest)
  | '\\' :: 'u' :: a :: b :: c :: d :: rest =>
    match hexValue4? a b c d with
    | some unit => stringBody (p.pushUnit unit) rest
    | none => none
  | '\\' :: c :: rest =>
    match simpleEscape? c with
    | some e => stringBody (p.push e) rest
    | none => none
  | c :: rest => if c.toNat < 0x20 ∨ c = '\\' then none else stringBody (p.push c) rest

def spanDigits (cs : List Char) : List Nat × List Char :=
  ((cs.takeWhile Char.isDigit).map fun c => c.toNat - '0'.toNat, cs.dropWhile Char.isDigit)

/-- The fraction of a number, if there is one; fails on a point without a digit. -/
def fraction (cs : List Char) : Option (Option (List Nat) × List Char) :=
  match cs with
  | '.' :: rest =>
    let (digits, rest) := spanDigits rest
    if digits.isEmpty then none else some (some digits, rest)
  | _ => some (none, cs)

/-- The digits of an exponent behind its sign; fails without a digit. -/
def exponentDigits (negative : Bool) (cs : List Char) : Option (Option Int × List Char) :=
  let (digits, rest) := spanDigits cs
  let n : Int := Text.ofDigits digits
  if digits.isEmpty then none else some (some (if negative then -n else n), rest)

/-- The exponent of a number, if there is one. -/
def exponent (cs : List Char) : Option (Option Int × List Char) :=
  match cs with
  | c :: rest =>
    if c = 'e' ∨ c = 'E' then
      match rest with
      | '-' :: rest => exponentDigits true rest
      | '+' :: rest => exponentDigits false rest
      | _ => exponentDigits false rest
    else some (none, cs)
  | [] => some (none, cs)

/-- A number behind its sign. A leading zero stands alone. -/
def unsignedNumber (negative : Bool) (cs : List Char) : Option (NumberLiteral × List Char) := do
  let (whole, rest) := spanDigits cs
  guard (!whole.isEmpty && (whole.length == 1 || whole.head? != some 0))
  let (fraction, rest) ← fraction rest
  let (exponent, rest) ← exponent rest
  pure (⟨negative, whole, fraction, exponent⟩, rest)

def numberLiteral (cs : List Char) : Option (NumberLiteral × List Char) :=
  match cs with
  | '-' :: rest => unsignedNumber true rest
  | _ => unsignedNumber false cs

/-- The token at the start of a text without leading blanks, and the rest; `none` if there is no
such token. -/
def next? (cs : List Char) : Option (Token × List Char) :=
  match cs with
  | [] => none
  | '[' :: rest => some (.beginArray, rest)
  | ']' :: rest => some (.endArray, rest)
  | '\x7b' :: rest => some (.beginObject, rest)
  | '\x7d' :: rest => some (.endObject, rest)
  | ',' :: rest => some (.comma, rest)
  | ':' :: rest => some (.colon, rest)
  | 'n' :: 'u' :: 'l' :: 'l' :: rest => some (.null, rest)
  | 't' :: 'r' :: 'u' :: 'e' :: rest => some (.bool true, rest)
  | 'f' :: 'a' :: 'l' :: 's' :: 'e' :: rest => some (.bool false, rest)
  | '"' :: rest => (stringBody ⟨[], none, true⟩ rest).map fun (s, rest) => (.string s, rest)
  | _ => (numberLiteral cs).map fun (l, rest) => (.number l.value?, rest)

/-- The tokens of a text, put before `done`, which is in reverse order. Each step takes a character
at least, so the length of the text is fuel enough. -/
def scanFrom : Nat → List Char → List Token → List Token
  | 0, _, done => done.reverse
  | _ + 1, [], done => done.reverse
  | fuel + 1, c :: rest, done =>
    if isSpace c then scanFrom fuel rest done
    else
      match next? (c :: rest) with
      | some (token, rest) => scanFrom fuel rest (token :: done)
      | none => (.bad :: done).reverse

def scan (s : String) : List Token :=
  let cs := s.toList
  scanFrom cs.length cs []

end Token

end SchemaSynth
