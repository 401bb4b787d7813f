import SchemaSynth.Proofs.Decode.Unit

/-!
# Documents passed on

Tools hand documents on to each other, so it matters that none of them changes what it has read by
writing it. Every type of which there are documents has a stable format (`Interchange.stable`): in
whatever form a value came, it is read again from the one form that is written for it.
-/

namespace SchemaSynth

/-- What a document may be about. -/
inductive Interchange where
  | table
  | descriptor
  | member
  | tag
  | flag
  | mode
  | config
  | call
  | node
  | unit
deriving DecidableEq, Repr

namespace Interchange

def Content : Interchange → Type
  | .table => TypeTable
  | .descriptor => Descriptor
  | .member => Member
  | .tag => DocTag
  | .flag => Flag
  | .mode => Mode
  | .config => Config
  | .call => Call
  | .node => Node
  | .unit => CompiledUnit

def format : (kind : Interchange) → Format kind.Content
  | .table => TypeTable.format
  | .descriptor => Descriptor.format
  | .member => Member.format
  | .tag => DocTag.format
  | .flag => Flag.format
  | .mode => Mode.format
  | .config => Config.format
  | .call => Call.format
  | .node => Node.format
  | .unit => CompiledUnit.format

theorem stable : ∀ kind : Interchange, kind.format.Stable
  | .table => TypeTable.stable
  | .descriptor => Descriptor.stable
  | .member => Member.stable
  | .tag => fun _ _ tag _ => DocTag.rereads tag
  | .flag => Flag.stable
  | .mode => fun _ _ m _ => Mode.rereads m
  | .config => Config.stable
  | .call => Call.stable
  | .node => Node.stable
  | .unit => CompiledUnit.stable

/-- A value that has been read from any document is read again from the document that is written for
it, and that document is written again as it is. -/
theorem read_toJson_of_read (kind : Interchange) (source : Source) (raw : Raw) (x : kind.Content)
    (h : kind.format.read source raw = .ok x) (source' : Source) :
    kind.format.read source' (Raw.ofJson (kind.format.toJson x)) = .ok x ∧
      kind.format.recode source' (Raw.ofJson (kind.format.toJson x)) =
        .ok (kind.format.toJson x) :=
  have rereads := kind.stable source h
  ⟨rereads source', rereads.recode source'⟩

/-- A unit in another form than the one it is written in: an array in the place of each record and
each node but the call, `null` for what is absent, and a category as an object. -/
def terseUnit : Json :=
  .array [.null,
    .array [.array [.array [.array [.object [("string", .null)], .string "void"], .null]],
      .object [("Root", .int 0)]],
    .array [.array [.string "other", .null, .array [
      .object [("callee", .string "schema"), ("colour", .null), ("kind", .string "call"),
        ("signature", .null), ("arguments", .array [.array [.null, .array [.string "literal",
          .object [("b", .int 1), ("a", .null)]]]])]]]]]

theorem read_toJson_of_read_terseUnit :
    let u : CompiledUnit := {
      types := { types := #[{ flags := [.string, .other "void"] }], roots := [("Root", 0)] }
      body := [.other none [.call "schema" none []
        [⟨none, .literal (.object [("b", .int 1), ("a", .null)])⟩]]] }
    let document := Raw.ofJson u.toJson
    CompiledUnit.read .value (Raw.ofJson terseUnit) = .ok u ∧
      CompiledUnit.read .text document = .ok u ∧
      CompiledUnit.format.recode .text document = .ok u.toJson := by
  intro u document
  have hread : CompiledUnit.read .value (Raw.ofJson terseUnit) = .ok u := rfl
  exact ⟨hread, read_toJson_of_read .unit .value (Raw.ofJson terseUnit) u hread .text⟩

end Interchange

end SchemaSynth
