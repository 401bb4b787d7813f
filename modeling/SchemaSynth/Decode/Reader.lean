import SchemaSynth.Json.Raw
import SchemaSynth.Decode.Mismatch

/-!
# Reading documents

Readers turn a `Raw` value into a value of the domain, parts in document order, so that of several
faults the first is reported. A record is an object with the fields of its `Layout`, in any order
and with unknown ones ignored, or an array of them in the order of the layout. A choice of names is
a string, or an object with the name as its only key over `null`.

Where the value comes from shows in a few answers. In a text some faults count as malformed text,
while a parsed value has a mismatch there; and a part that has to be read whole before its kind is
known is reported at its own place, whatever lies at fault inside.
-/

namespace SchemaSynth

/-- Where a value comes from: a text, a parsed value, or a part that was read whole first. -/
inductive Source where
  | text
  | value
  | whole
deriving DecidableEq, Repr

namespace Source

/-- A fault inside a part, as seen from the whole. -/
def within {α : Type} (source : Source) (step : Step) (result : Except ReadError α) :
    Except ReadError α :=
  match source with
  | .whole => result
  | _ => result.mapError (ReadError.outward step)

end Source

namespace Raw

/-- What a value looks like, if it can be read. -/
def found? : Raw → Option Found
  | .null => some .null
  | .bool b => some (.boolean b)
  | .number n => some (.number n)
  | .string s => some (.string s)
  | .array _ => some .sequence
  | .object _ => some .map
  | .unreadable => none
  | .broken => none

def unexpected (raw : Raw) (expected : String) : ReadError :=
  match raw.found? with
  | some found => .here (.invalidType found expected)
  | none => .malformed

def readString : Raw → Except ReadError String
  | .string s => pure s
  | raw => throw (raw.unexpected "a string")

def readBool : Raw → Except ReadError Bool
  | .bool b => pure b
  | raw => throw (raw.unexpected "a boolean")

/-- Read a natural number below `2 ^ bits`. -/
def readNat (bits : Nat) (expected : String) : Raw → Except ReadError Nat
  | .number (.int n) =>
    if 0 ≤ n ∧ n < twoTo bits then pure n.toNat
    else throw (.here (.invalidValue (.number (.int n)) expected))
  | raw => throw (raw.unexpected expected)

def readJson (raw : Raw) : Except ReadError Json :=
  match raw.toJson? with
  | some value => pure value
  | none => throw .malformed

/-- Read a value that may be absent, which `null` says. -/
def readOption {α : Type} (read : Raw → Except ReadError α) : Raw → Except ReadError (Option α)
  | .null => pure none
  | raw => some <$> read raw

def readItemsFrom {α : Type} (source : Source) (read : Raw → Except ReadError α) :
    Nat → List Raw → Except ReadError (List α)
  | _, [] => pure []
  | i, raw :: rest => do
    let x ← source.within (.index i) (read raw)
    let xs ← readItemsFrom source read (i + 1) rest
    pure (x :: xs)

def readList {α : Type} (source : Source) (read : Raw → Except ReadError α) :
    Raw → Except ReadError (List α)
  | .array items => readItemsFrom source read 0 items
  | raw => throw (raw.unexpected "a sequence")

/-- Read named values on top of those read before: last values at first places. -/
def readEntries {α : Type} (source : Source) (read : Raw → Except ReadError α) :
    Fields α → List (Option String × Raw) → Except ReadError (Fields α)
  | done, [] => pure done
  | _, (none, _) :: _ => throw .malformed
  | done, (some key, raw) :: rest => do
    let x ← source.within (.key key) (read raw)
    readEntries source read (Fields.insert done key x) rest

def readMap {α : Type} (source : Source) (read : Raw → Except ReadError α) :
    Raw → Except ReadError (Fields α)
  | .object fields => readEntries source read [] fields
  | raw => throw (raw.unexpected "a map")

/-! ## Choices of names -/

/-- Read the `null` under a name. -/
def readNothing : Raw → Except ReadError Unit
  | .null => pure ()
  | raw => throw (raw.unexpected "unit")

def choose {α : Type} (known : Fields α) (name : String) : Except ReadError α :=
  match Fields.get? known name with
  | some x => pure x
  | none => throw (.here (.unknownVariant name (Fields.keys known)))

/-- Read one of several names. -/
def readChoice {α : Type} (source : Source) (known : Fields α) : Raw → Except ReadError α
  | .string name => choose known name
  | .object [(some name, raw)] => do
    let x ← choose known name
    source.within (.key name) (readNothing raw)
    pure x
  | .object fields =>
    match source, fields with
    | .text, (some name, raw) :: _ => do
      let _ ← choose known name
      source.within (.key name) (readNothing raw)
      throw .malformed
    | .text, _ => throw .malformed
    | _, _ => throw (.here (.invalidValue .map "map with a single key"))
  | raw =>
    match source with
    | .text => throw .malformed
    | _ => throw (raw.unexpected "string or map")

/-! ## Records -/

/-- The fields of a record in order, each with whether it must be given, and the record's name. -/
structure Layout where
  title : String
  fields : List (String × Bool)

namespace Layout

def names (layout : Layout) : List String := layout.fields.map Prod.fst

/-- What is expected of an array in the place of a record. -/
def lengthText (layout : Layout) : String :=
  let n := layout.fields.length
  layout.title ++ " with " ++ toString n ++ (if n = 1 then " element" else " elements")

/-- The position of the first field from `count` on that must be given. -/
def shortfall? (layout : Layout) (count : Nat) : Option Nat :=
  (List.range layout.fields.length).find? fun i =>
    count ≤ i && (layout.fields[i]?.map Prod.snd).getD false

/-- The first field that must be given and was not. -/
def missing? (layout : Layout) (seen : List String) : Option String :=
  (layout.fields.find? fun field => field.2 && !seen.contains field.1).map Prod.fst

end Layout

variable {σ : Type}

/-- Read the fields of an object on top of a state. `seen` holds the fields met before. -/
def visitFields (source : Source) (layout : Layout)
    (visit : String → Raw → σ → Except ReadError σ) :
    List (Option String × Raw) → List String → σ → Except ReadError (σ × List String)
  | [], seen, state => pure (state, seen)
  | (none, _) :: _, _, _ => throw .malformed
  | (some key, raw) :: rest, seen, state =>
    if layout.names.contains key then
      if seen.contains key then throw (.here (.duplicateField key))
      else do
        let state ← source.within (.key key) (visit key raw state)
        visitFields source layout visit rest (key :: seen) state
    else if raw.intact then visitFields source layout visit rest seen state
    else throw .malformed

/-- Read the items of an array as fields from a position on. `names` are the fields still to come;
the items behind the last one are left over. -/
def visitItems (source : Source) (visit : String → Raw → σ → Except ReadError σ) :
    Nat → List String → List Raw → σ → Except ReadError (σ × List Raw)
  | i, name :: names, raw :: rest, state => do
    let state ← source.within (.index i) (visit name raw state)
    visitItems source visit (i + 1) names rest state
  | _, _, rest, state => pure (state, rest)

def tooLong (source : Source) (length fields : Nat) : ReadError :=
  match source with
  | .text => .malformed
  | .value => .here (.invalidLength length "fewer elements in array")
  | .whole =>
    .here (.invalidLength length
      (toString fields ++ (if fields = 1 then " element" else " elements") ++ " in sequence"))

def readObject (source : Source) (layout : Layout)
    (visit : String → Raw → σ → Except ReadError σ) (start : σ)
    (fields : List (Option String × Raw)) : Except ReadError σ := do
  let (state, seen) ← visitFields source layout visit fields [] start
  match layout.missing? seen with
  | some name => throw (.here (.missingField name))
  | none => pure state

def readArray (source : Source) (layout : Layout)
    (visit : String → Raw → σ → Except ReadError σ) (start : σ) (items : List Raw) :
    Except ReadError σ := do
  let (state, rest) ← visitItems source visit 0 layout.names items start
  match layout.shortfall? items.length with
  | some i => throw (.here (.invalidLength i layout.lengthText))
  | none =>
    if rest.isEmpty then pure state
    else throw (tooLong source items.length layout.fields.length)

/-- Read a record: `visit` puts the value of a field into the state, `start` has the defaults. Every
field that must be given has been visited in the end. -/
def readRecord (source : Source) (layout : Layout)
    (visit : String → Raw → σ → Except ReadError σ) (start : σ) : Raw → Except ReadError σ
  | .object fields => readObject source layout visit start fields
  | .array items => readArray source layout visit start items
  | raw => throw (raw.unexpected layout.title)

end Raw

end SchemaSynth
