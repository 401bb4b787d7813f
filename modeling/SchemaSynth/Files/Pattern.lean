/-!
# Patterns for names

A `NamePattern` describes names: `?` stands for any character, `*` for any characters, `[abx-z]` for
one of a set and `[!abx-z]` for one outside of it; all else stands for itself. The pattern `**`
stands for directories at any depth. Not every text is a pattern.
-/

namespace SchemaSynth

structure CharRange where
  first : Char
  last : Char
deriving DecidableEq, Repr

namespace CharRange

def contains (range : CharRange) (c : Char) : Bool := range.first ≤ c && c ≤ range.last

end CharRange

inductive Wildcard where
  | char (c : Char)
  | anyChar
  | anyText
  | within (ranges : List CharRange)
  | except (ranges : List CharRange)
deriving DecidableEq, Repr

/-- A pattern for a name, or for directories at any depth. -/
inductive NamePattern where
  | name (parts : List Wildcard)
  | anyDepth
deriving DecidableEq, Repr

namespace Wildcard

/-- The ranges between two brackets. -/
def rangesOf : List Char → List CharRange
  | first :: '-' :: last :: rest => ⟨first, last⟩ :: rangesOf rest
  | c :: rest => ⟨c, c⟩ :: rangesOf rest
  | [] => []

/-- The ranges behind an opening bracket, and what follows the closing one. There is at least one
character between them, and it may be a closing bracket itself. -/
def bracket? : List Char → Option (List CharRange × List Char)
  | [] => none
  | c :: rest =>
    match rest.dropWhile (· ≠ ']') with
    | [] => none
    | _ :: behind => some (rangesOf (c :: rest.takeWhile (· ≠ ']')), behind)

/-- Parts at the start of a text. The first argument bounds their number. -/
def parseFrom : Nat → List Char → Option (List Wildcard)
  | 0, cs => if cs.isEmpty then some [] else none
  | _ + 1, [] => some []
  | fuel + 1, '?' :: rest => (parseFrom fuel rest).map (.anyChar :: ·)
  | _ + 1, '*' :: '*' :: _ => none
  | fuel + 1, '*' :: rest => (parseFrom fuel rest).map (.anyText :: ·)
  | fuel + 1, '[' :: '!' :: rest => do
    let (ranges, rest) ← bracket? rest
    (parseFrom fuel rest).map (.except ranges :: ·)
  | fuel + 1, '[' :: rest => do
    let (ranges, rest) ← bracket? rest
    (parseFrom fuel rest).map (.within ranges :: ·)
  | fuel + 1, c :: rest => (parseFrom fuel rest).map (.char c :: ·)

def matchAll : List Wildcard → List Char → Bool
  | [], cs => cs.isEmpty
  | .anyText :: parts, [] => matchAll parts []
  | .anyText :: parts, c :: rest => matchAll parts (c :: rest) || matchAll (.anyText :: parts) rest
  | _ :: _, [] => false
  | .char d :: parts, c :: rest => c == d && matchAll parts rest
  | .anyChar :: parts, _ :: rest => matchAll parts rest
  | .within ranges :: parts, c :: rest =>
    ranges.any (fun range => range.contains c) && matchAll parts rest
  | .except ranges :: parts, c :: rest =>
    !ranges.any (fun range => range.contains c) && matchAll parts rest
termination_by parts cs => (parts.length, cs.length)

/-- The character of a part that stands for itself. -/
def char? : Wildcard → Option Char
  | .char c => some c
  | _ => none

end Wildcard

namespace NamePattern

def ofText? (s : String) : Option NamePattern :=
  if s = "**" then some .anyDepth
  else (Wildcard.parseFrom s.length s.toList).map .name

def isMatch (pattern : NamePattern) (name : String) : Bool :=
  match pattern with
  | .name parts => Wildcard.matchAll parts name.toList
  | .anyDepth => true

/-- The only name that matches, if the pattern has none but characters that stand for themselves. -/
def literal? : NamePattern → Option String
  | .name parts => (parts.mapM Wildcard.char?).map String.ofList
  | .anyDepth => none

def startsWithDot : NamePattern → Bool
  | .name (.char '.' :: _) => true
  | _ => false

end NamePattern

end SchemaSynth
