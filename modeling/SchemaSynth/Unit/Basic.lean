import SchemaSynth.Table.Basic

/-!
# Compiled units

A compiled unit is a syntax tree next to the table of the types in it. Its calls carry what the
checker found out: the declaration that is called, the type arguments, and the arguments that are
constant.
-/

namespace SchemaSynth

/-- The declaration a call resolves to. -/
structure Signature where
  name : String
  file : Option String := none
deriving DecidableEq, Repr

/-- An argument of a call, whose expression is of type `ν`. -/
structure Argument (ν : Type) where
  /-- The value of the argument, if the checker knows it. -/
  constant : Option Json := none
  expression : ν

inductive Node where
  | call (callee : String) (signature : Option Signature) (typeArguments : List TypeId)
    (arguments : List (Argument Node))
  | literal (value : Json)
  | other (label : Option String) (children : List Node)

instance : Inhabited Node := ⟨.literal .null⟩

structure Call where
  /-- The text of what is called. -/
  callee : String
  signature : Option Signature := none
  typeArguments : List TypeId := []
  arguments : List (Argument Node) := []

def Call.toNode (c : Call) : Node := .call c.callee c.signature c.typeArguments c.arguments

/-- A syntax tree and the types in it. -/
structure CompiledUnit where
  file : Option String := none
  types : TypeTable
  body : List Node := []

end SchemaSynth
