import SchemaSynth.Unit.Basic
import SchemaSynth.Walk

/-!
# Expansion of call sites

A call is designated if it resolves to the function of the configuration. `Node.expand` replaces
every designated call by the literal of its schema, and looks for more of them in what is left; the
arguments of a call that is replaced go with it.
-/

namespace SchemaSynth

/-- The declaration is the function of the configuration: it has its name, and its file ends in the
path of the module, if one is given. -/
def Config.designates (config : Config) (signature : Option Signature) : Bool :=
  match signature with
  | none => false
  | some s =>
    s.name == config.functionName &&
      match config.module, s.file with
      | none, _ => true
      | some path, some file => file.endsWith path
      | some _, none => false

namespace Call

/-- Whether a call resolves to the function of the configuration. -/
def isDesignated (config : Config) (c : Call) : Bool := config.designates c.signature

/-- Annotations are on unless the first argument is known to be `false`. -/
def additional (c : Call) : Bool :=
  match c.arguments.head?.bind Argument.constant with
  | some (.bool false) => false
  | _ => true

/-- The schema that takes the place of a designated call: that of its first type argument. -/
def literal (table : TypeTable) (config : Config) (c : Call) : Except WalkError Json :=
  match c.typeArguments with
  | [] => pure (.object [])
  | type :: _ => Fragment.toJson <$> table.schema config type c.additional

/-- The schema that takes the place of a call, if the call is designated. -/
def expansion? (table : TypeTable) (config : Config) (c : Call) :
    Except WalkError (Option Json) :=
  if c.isDesignated config then some <$> c.literal table config else pure none

end Call

namespace Node

variable (table : TypeTable) (config : Config)

mutual

/-- Replace the designated calls in a node; the result comes with their number. -/
def expand : Node → Except WalkError (Node × Nat)
  | .call callee signature typeArguments arguments => do
    match ← Call.expansion? table config ⟨callee, signature, typeArguments, arguments⟩ with
    | some value => pure (.literal value, 1)
    | none =>
      let (arguments, count) ← expandArguments arguments
      pure (.call callee signature typeArguments arguments, count)
  | .literal value => pure (.literal value, 0)
  | .other label children => do
    let (children, count) ← expandAll children
    pure (.other label children, count)

def expandArguments : List (Argument Node) → Except WalkError (List (Argument Node) × Nat)
  | [] => pure ([], 0)
  | ⟨constant, expression⟩ :: rest => do
    let (expression, n) ← expand expression
    let (rest, count) ← expandArguments rest
    pure (⟨constant, expression⟩ :: rest, n + count)

def expandAll : List Node → Except WalkError (List Node × Nat)
  | [] => pure ([], 0)
  | node :: rest => do
    let (node, n) ← expand node
    let (rest, count) ← expandAll rest
    pure (node :: rest, n + count)

end

end Node

/-- Replace the designated calls of a unit; the result comes with their number. -/
def CompiledUnit.expand (config : Config) (u : CompiledUnit) :
    Except WalkError (CompiledUnit × Nat) := do
  let (body, count) ← Node.expandAll u.types config u.body
  pure ({ u with body }, count)

end SchemaSynth
