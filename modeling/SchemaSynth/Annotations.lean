import SchemaSynth.Table.Basic
import SchemaSynth.Text.Basic

/-!
# Annotations

A documentation tag annotates a type or a member with a key and a value. `DocTag.entry?` finds
them in either form of a tag, and `coerce` decides what the text of a tag stands for: a truth value,
a number, or itself.
-/

namespace SchemaSynth

/-- Keys and values that stand beside the `type` of a schema. -/
abbrev Extras := Fields Json

namespace TagText

/-- A text split behind an optional sign. -/
def splitSign : List Char → Bool × List Char
  | '-' :: rest => (true, rest)
  | '+' :: rest => (false, rest)
  | cs => (false, cs)

/-- The whole part and the fraction of a decimal number: digits, and perhaps a point and more of
them. Digits of any script count. -/
def splitDecimal? (cs : List Char) : Option (List Char × List Char) :=
  let whole := cs.takeWhile Text.isDecimalDigit
  match cs.dropWhile Text.isDecimalDigit with
  | [] => if whole.isEmpty then none else some (whole, [])
  | '.' :: fraction =>
    if whole.isEmpty || fraction.isEmpty || !fraction.all Text.isDecimalDigit then none
    else some (whole, fraction)
  | _ => none

/-- The number that whole part and fraction stand for, rounded once; `null` if it is too big. -/
def decimalValue (negative : Bool) (whole fraction : List Nat) : Json :=
  match Binary64.round? negative (Text.ofDigits (whole ++ fraction)) (tenTo fraction.length) with
  | some x => .number (Number.preferInt x)
  | none => .null

def number? (cs : List Char) : Option Json := do
  let (negative, unsigned) := splitSign cs
  let (whole, fraction) ← splitDecimal? unsigned
  pure (decimalValue negative (← Text.digitValues? whole) (← Text.digitValues? fraction))

/-- What a text without blanks at its ends stands for; nothing at all says "yes". -/
def coerceTrimmed (cs : List Char) : Json :=
  let s := String.ofList cs
  if cs.isEmpty || s = "true" then .bool true
  else if s = "false" then .bool false
  else (number? cs).getD (.string s)

def coerce (text : Option String) : Json :=
  coerceTrimmed (Text.trim ((text.getD "").toList))

end TagText

namespace DocTag

/-- A line without its sign `@`, unless nothing but the sign stands there. -/
def dropSign : List Char → List Char
  | '@' :: c :: rest => if Text.isBlank c then '@' :: c :: rest else c :: rest
  | cs => cs

/-- The key and the value of a raw line: the first word, and all that follows it. -/
def lineEntry? (text : String) : Option (String × Json) :=
  let cs := dropSign (Text.trimStart text.toList)
  let word := cs.takeWhile fun c => !Text.isBlank c
  let rest := cs.dropWhile fun c => !Text.isBlank c
  if word.isEmpty then none
  else some (String.ofList word, TagText.coerce (some (String.ofList rest)))

/-- The key and the value of a tag that comes in two parts. -/
def splitEntry? (name : String) (text : Option String) : Option (String × Json) :=
  let cs := name.toList.dropWhile (· == '@')
  if cs.isEmpty then none else some (String.ofList cs, TagText.coerce text)

def entry? : DocTag → Option (String × Json)
  | .line text => lineEntry? text
  | .split name text => splitEntry? name text

/-- The annotations of several tags. Of a repeated key the last value counts. -/
def annotations (tags : List DocTag) : Extras := Fields.ofList (tags.filterMap entry?)

end DocTag

end SchemaSynth
