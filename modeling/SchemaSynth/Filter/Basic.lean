import SchemaSynth.Json.Raw
import SchemaSynth.Json.Text

/-!
# Filters

A filter turns a value into a list of results, each a value or a fault. Faults go on through the
list, so that a lenient access may drop them; `Filter.run?` refuses a list with a fault in it.

These are the filters that `Tools.builtIn` understands, a small part of their language. A run takes
its filters from whatever `Tools` it is given.
-/

namespace SchemaSynth

inductive Filter where
  | identity
  /-- A value and all its parts, outermost first. -/
  | recurse
  | literal (value : Json)
  | fault
  | none
  /-- The item or field that another filter selects. Lenient access drops faults. -/
  | get (of index : Filter) (isLenient : Bool)
  | slice (of : Filter) (start stop : Option Filter) (isLenient : Bool)
  | each (of : Filter) (isLenient : Bool)
  | lenient (of : Filter)
  | collect (of : Filter)
  /-- The objects of a key and a value. -/
  | entry (key value : Filter)
  | pipe (first second : Filter)
  | both (first second : Filter)
  | orElse (first second : Filter)
  | equal (left right : Filter)
  | add (left right : Filter)
  | negate (of : Filter)
  | branch (condition yes no : Filter)
  | length
  | keys

namespace Filter

/-- The results of a filter; `none` is a fault. -/
abbrev Results := List (Option Json)

/-- Neither `null` nor `false`. -/
def isTrue : Json → Bool
  | .null => false
  | .bool b => b
  | _ => true

/-- A position in a list of a length; negative ones count from the end. -/
def position (length : Nat) (i : Int) : Int := if i < 0 then length + i else i

def getPart : Json → Json → Option Json
  | .object fields, .string key => some ((Fields.get? fields key).getD .null)
  | .array items, .number (.int i) =>
    let p := position items.length i
    some (if p < 0 then .null else (items[p.toNat]?).getD .null)
  | _, _ => Option.none

/-- The position of a bound of a slice, cut to the length. -/
def bound (length : Nat) (missing : Nat) : Option Json → Option Nat
  | Option.none => some missing
  | some (.number (.int i)) => some (min (position length i).toNat length)
  | some _ => Option.none

/-- The part of a list between two bounds. -/
def sliceList {α : Type} (xs : List α) (start stop : Option Json) : Option (List α) := do
  let start ← bound xs.length 0 start
  let stop ← bound xs.length xs.length stop
  pure ((xs.take stop).drop start)

def sliceOf (value : Json) (start stop : Option Json) : Option Json :=
  match value with
  | .array items => (sliceList items start stop).map .array
  | .string s => (sliceList s.toList start stop).map fun cs => .string (String.ofList cs)
  | _ => Option.none

def parts : Json → Results
  | .array items => items.map some
  | .object fields => fields.map fun field => some field.2
  | _ => [Option.none]

mutual

/-- A value and all its parts, outermost first. -/
def descend : Json → List Json
  | .array items => .array items :: descendItems items
  | .object fields => .object fields :: descendFields fields
  | value => [value]

def descendItems : List Json → List Json
  | [] => []
  | x :: xs => descend x ++ descendItems xs

def descendFields : List (String × Json) → List Json
  | [] => []
  | (_, x) :: xs => descend x ++ descendFields xs

end

/-- Equality of numbers: exact for signed integers of 64 bits, else in binary64. -/
def sameNumber : Number → Number → Bool
  | .int a, .int b =>
    if a ≤ Number.maxSigned ∧ b ≤ Number.maxSigned then a == b
    else (Binary64.ofInt a).same (Binary64.ofInt b)
  | a, b => a.toBinary64.same b.toBinary64

mutual

/-- Equality of values, numbers by their value and objects without regard to order. -/
def same : Json → Json → Bool
  | .null, .null => true
  | .bool a, .bool b => a == b
  | .number a, .number b => sameNumber a b
  | .string a, .string b => a == b
  | .array xs, .array ys => sameItems xs ys
  | .object xs, .object ys => xs.length == ys.length && sameFields xs ys
  | _, _ => false

def sameItems : List Json → List Json → Bool
  | [], [] => true
  | x :: xs, y :: ys => same x y && sameItems xs ys
  | _, _ => false

def sameFields : List (String × Json) → List (String × Json) → Bool
  | [], _ => true
  | (key, x) :: xs, ys =>
    (match Fields.get? ys key with
      | some y => same x y
      | Option.none => false) && sameFields xs ys

end

/-- A number that may be too big, in which case it is written as `null`. -/
def ofBinary64? (x : Option Binary64) : Json := (x.map fun x => Json.number (.double x)).getD .null

/-- The sum of two numbers: exact where signed integers of 64 bits allow. -/
def addNumbers : Number → Number → Json
  | .int a, .int b =>
    if a ≤ Number.maxSigned ∧ b ≤ Number.maxSigned ∧ Number.minInt ≤ a + b ∧
        a + b ≤ Number.maxSigned then .int (a + b)
    else ofBinary64? ((Binary64.ofInt a).add? (Binary64.ofInt b))
  | a, b => ofBinary64? (a.toBinary64.add? b.toBinary64)

/-- The sum of two values: `null` adds nothing, texts and lists are joined, of fields of the same
name the second counts. -/
def addValues : Json → Json → Option Json
  | .null, y => some y
  | x, .null => some x
  | .number a, .number b => some (addNumbers a b)
  | .string a, .string b => some (.string (a ++ b))
  | .array xs, .array ys => some (.array (xs ++ ys))
  | .object xs, .object ys => some (.object (Fields.merge xs ys))
  | _, _ => Option.none

def negateValue : Json → Option Json
  | .number (.int n) =>
    some (.number (if n ≤ Number.maxSigned ∧ Number.minInt < n then .int (-n)
      else .double (Binary64.ofInt (-n))))
  | .number (.double x) => some (.number (.double { x with negative := !x.negative }))
  | _ => Option.none

/-- How long a value is: the characters of a text, the parts of a list or an object, the size of a
number, nothing for `null`. -/
def lengthOf : Json → Option Json
  | .null => some (.int 0)
  | .number (.int n) =>
    some (if n ≤ Number.maxSigned then .int n.natAbs else .number (.double (Binary64.ofInt n)))
  | .number (.double x) => some (.number (.double { x with negative := false }))
  | .string s => some (.int s.length)
  | .array items => some (.int items.length)
  | .object fields => some (.int fields.length)
  | .bool _ => Option.none

/-- The sorted keys of an object, or the positions of a list. -/
def keysOf : Json → Option Json
  | .object fields => some (.array (((Fields.keys fields).mergeSort fun a b => a ≤ b).map .string))
  | .array items => some (.array ((List.range items.length).map fun (i : Nat) => Json.int i))
  | _ => Option.none

def single : Json → Json → Option Json
  | .string key, value => some (.object [(key, value)])
  | _, _ => Option.none

/-- Results without faults, if these are to be dropped. -/
def soften (isLenient : Bool) (results : Results) : Results :=
  if isLenient then results.filter Option.isSome else results

/-- Go on with every result that is a value. -/
def andThen (results : Results) (next : Json → Results) : Results :=
  results.flatMap fun result =>
    match result with
    | some value => next value
    | Option.none => [Option.none]

/-- Combine every result of a list with every one of another, the first list outermost. -/
def combine (combiner : Json → Json → Option Json) (left right : Results) : Results :=
  left.flatMap fun x => right.map fun y => do combiner (← x) (← y)

def eval : Filter → Json → Results
  | identity, v => [some v]
  | recurse, v => (descend v).map some
  | literal value, _ => [some value]
  | fault, _ => [Option.none]
  | none, _ => []
  | get f index isLenient, v =>
    andThen (eval f v) fun x =>
      soften isLenient (andThen (eval index v) fun i => [getPart x i])
  | slice f start stop isLenient, v =>
    let starts := match start with
      | some g => (eval g v).map fun (i : Option Json) => i.map some
      | Option.none => [some Option.none]
    let stops := match stop with
      | some g => (eval g v).map fun (i : Option Json) => i.map some
      | Option.none => [some Option.none]
    andThen (eval f v) fun x =>
      soften isLenient
        (starts.flatMap fun start => stops.map fun stop => do sliceOf x (← start) (← stop))
  | each f isLenient, v => andThen (eval f v) fun x => soften isLenient (parts x)
  | .lenient f, v => soften true (eval f v)
  | collect f, v => [((eval f v).mapM id).map .array]
  | entry key value, v => combine single (eval key v) (eval value v)
  | pipe f g, v => andThen (eval f v) (eval g)
  | both f g, v => eval f v ++ eval g v
  | orElse f g, v =>
    let found := (eval f v).filter fun result => (result.map isTrue).getD true
    if found.isEmpty then eval g v else found
  | equal f g, v => combine (fun x y => some (.bool (same x y))) (eval f v) (eval g v)
  | add f g, v => combine addValues (eval f v) (eval g v)
  | negate f, v => andThen (eval f v) fun x => [negateValue x]
  | branch condition yes no, v =>
    andThen (eval condition v) fun c => if isTrue c then eval yes v else eval no v
  | length, v => [lengthOf v]
  | keys, v => [keysOf v]

/-- The results of a filter, unless there is a fault among them. Results are written out as texts
and read back, so their numbers are read as literals are, and they must not nest too deep. -/
def run? (f : Filter) (input : Json) : Option (List Json) :=
  (eval f input).mapM fun result => result.bind fun value => Json.ofText? value.compact

end Filter

end SchemaSynth
