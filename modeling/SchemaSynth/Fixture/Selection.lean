/-!
# Selections

A selection picks names by a text: one of several alternatives between bars has to occur in the
name. In an alternative `^` stands for the start of the name, `$` for its end, a dot for any
character, a backslash takes the next character as it is, and all else stands for itself.
-/

namespace SchemaSynth

/-- A part of an alternative. -/
inductive NameMark where
  | start
  | stop
  | any
  | char (c : Char)
deriving DecidableEq, Repr

/-- The alternatives of a selection. -/
abbrev Selection := List (List NameMark)

namespace Selection

/-- Put a mark at the start of the first alternative. -/
def cons (mark : NameMark) : Selection → Selection
  | [] => [[mark]]
  | alternative :: rest => (mark :: alternative) :: rest

/-- The selection of a text. -/
def ofChars : List Char → Selection
  | [] => [[]]
  | '|' :: rest => [] :: ofChars rest
  | '\\' :: c :: rest => cons (.char c) (ofChars rest)
  | '^' :: rest => cons .start (ofChars rest)
  | '$' :: rest => cons .stop (ofChars rest)
  | '.' :: rest => cons .any (ofChars rest)
  | c :: rest => cons (.char c) (ofChars rest)

def ofText (s : String) : Selection := ofChars s.toList

/-- The marks describe how a text begins. `atStart` tells whether nothing stands before it. -/
def matchHere : List NameMark → Bool → List Char → Bool
  | [], _, _ => true
  | .start :: marks, atStart, cs => atStart && matchHere marks atStart cs
  | .stop :: marks, atStart, cs => cs.isEmpty && matchHere marks atStart cs
  | .any :: marks, _, c :: rest => c != '\n' && matchHere marks false rest
  | .char d :: marks, _, c :: rest => c == d && matchHere marks false rest
  | _ :: _, _, [] => false

/-- The marks describe a part of a text. -/
def occursIn (marks : List NameMark) (atStart : Bool) : List Char → Bool
  | [] => matchHere marks atStart []
  | c :: rest => matchHere marks atStart (c :: rest) || occursIn marks false rest

def picks (selection : Selection) (name : String) : Bool :=
  selection.any fun marks => occursIn marks true name.toList

end Selection

end SchemaSynth
