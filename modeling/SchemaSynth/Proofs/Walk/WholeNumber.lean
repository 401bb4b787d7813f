import SchemaSynth.Proofs.Tag.Coercion
import SchemaSynth.Proofs.Walk.Enum

/-!
# Whole numbers in schemas

A whole number comes into a schema as the value of a literal type or as the text of a tag, and both
ways it is a binary64 number in between. `whole_number_kept` says that one with a place there keeps
its value, but for `2 ^ 63`: that one is written as the largest signed integer, one less.
-/

namespace SchemaSynth

/-- The value that a whole number has in a schema. -/
def Number.Writes (m : Number) (n : ℤ) : Prop := m.value = if n = 2 ^ 63 then 2 ^ 63 - 1 else n

/-- A schema is an enum with a value at a place. -/
def Json.HasValueAt (schema : Json) (i : Nat) (value : Json) : Prop :=
  ∃ fields items, schema = .object fields ∧ Fields.get? fields "type" = some (.string "enum") ∧
    Fields.get? fields "values" = some (.array items) ∧ items[i]? = some value

/-- The descriptor of a type with one value, a number. -/
structure Descriptor.IsNumberLiteral (d : Descriptor) (k : Number) : Prop where
  number : d.has .number = true
  literal : d.has .literal = true
  value : d.value = some (.number k)

theorem Descriptor.IsNumberLiteral.ofDescriptor {d : Descriptor} {k : Number}
    (h : d.IsNumberLiteral k) : TypeShape.ofDescriptor d = .literal (.ofNumber k) := by
  obtain ⟨p, hp⟩ : ∃ p, d.primitive? = some p := by
    unfold primitive?
    rw [h.number]
    split
    · exact ⟨_, rfl⟩
    · exact ⟨_, rfl⟩
  have hvalue : d.literal? = some (.ofNumber k) := by
    unfold literal?
    rw [h.value]
  unfold TypeShape.ofDescriptor
  rw [hp, hvalue, h.literal]
  rfl

/-! ## Enums -/

namespace TypeTable

/-- The types that a type takes its values from: a constant is one of its own, an enum has members
and a union branches. -/
inductive ValuesFrom (table : TypeTable) (id : TypeId) : List TypeId → Prop
  | literal : ValuesFrom table id [id]
  | enum {types : List TypeId} (shape : table.shape? id = some (.enum types)) :
    ValuesFrom table id types
  | union {constituents : List TypeId} (shape : table.shape? id = some (.union constituents))
    (defined_ne_nil : table.defined constituents ≠ []) :
    ValuesFrom table id (table.defined constituents)

section

variable {table : TypeTable} {id : TypeId} {types : List TypeId} {values : List LiteralValue}

theorem shape?_of_numberLiteral {d : Descriptor} {k : Number}
    (hd : table.get? id = some d) (hliteral : d.IsNumberLiteral k) :
    table.shape? id = some (.literal (.ofNumber k)) := by
  unfold TypeTable.shape?
  rw [hd]
  exact congrArg some hliteral.ofDescriptor

theorem getElem?_of_constants (hconstants : List.Forall₂ table.ConstantOf types values) {i : Nat}
    (hi : types[i]? = some id) {value : LiteralValue}
    (hshape : table.shape? id = some (.literal value)) : values[i]? = some value := by
  obtain ⟨hlt, rfl⟩ := List.getElem?_eq_some_iff.1 hi
  have hlt' : i < values.length := hconstants.length_eq ▸ hlt
  have hvalue : table.shape? types[i] = some (.literal values[i]) :=
    (hconstants.get hlt hlt').shape?_eq
  rw [List.getElem?_eq_getElem hlt']
  exact congrArg some (TypeShape.literal.inj (Option.some.inj (hvalue.symm.trans hshape)))

end

end TypeTable

namespace Walk

section

variable {table : TypeTable} {config : Config} {v : Visit} {types : List TypeId}
  {values : List LiteralValue}

/-- The values of a type are those of its constants, in order. -/
theorem walk_of_valuesFrom (h : table.ValuesFrom v.id types)
    (hconstants : List.Forall₂ table.ConstantOf types values)
    (hd : v.frame.depth ≤ config.maxDepth) (steps : Nat) :
    ∃ mark, v.walk table config (steps + 2) = .ok (.leaf (.enum values) { optional := mark }) := by
  cases h with
  | literal =>
    cases hconstants with
    | cons hvalue hrest =>
      cases hrest
      exact ⟨_, walk_literal hvalue.shape?_eq hd (steps + 1)⟩
  | enum shape => exact ⟨_, walk_enum_of_constants shape hconstants hd (steps + 1)⟩
  | union shape hne => exact ⟨_, walk_union_of_constants shape hconstants hne rfl hd steps⟩

theorem hasValueAt_enum {i : Nat} {value : LiteralValue} (h : values[i]? = some value)
    (mark : Bool) :
    (Fragment.leaf (.enum values) { optional := mark }).toJson.HasValueAt i value.toJson := by
  have hitem : (values.map LiteralValue.toJson)[i]? = some value.toJson := by
    rw [List.getElem?_map, h]
    rfl
  cases mark with
  | false => exact ⟨_, _, rfl, rfl, rfl, hitem⟩
  | true => exact ⟨_, _, rfl, rfl, rfl, hitem⟩

theorem toJson_ofNumber {n : ℤ} {k : Number} (hk : k.value = n)
    (hexact : ∃ y : Binary64, y.value = n) :
    ∃ m : Number, m.Writes n ∧ (LiteralValue.ofNumber k).toJson = .number m :=
  ⟨_, Number.value_preferInt ((Binary64.value_unsignedZero _).trans
    (Number.value_toBinary64 hk hexact)), rfl⟩

end

end Walk

/-! ## Texts -/

namespace TagText

/-- The decimal text of a whole number, perhaps with a sign `+`. -/
def IsDecimalText (n : ℤ) (text : String) : Prop :=
  text = toString n ∨ 0 ≤ n ∧ text = "+" ++ toString n

theorem exists_numeral_of_isDecimalText {n : ℤ} {text : String} (h : IsDecimalText n text) :
    ∃ numeral : Numeral, text = String.ofList numeral.text ∧ numeral.value = n := by
  cases n with
  | ofNat m =>
    obtain rfl | ⟨-, rfl⟩ := h
    · exact ⟨.ofNat .none m, ((ofList_text_ofNat .none m).trans String.empty_append).symm,
        value_ofNat .none m⟩
    · exact ⟨.ofNat .plus m, (ofList_text_ofNat .plus m).symm, value_ofNat .plus m⟩
  | negSucc m =>
    obtain rfl | ⟨hnonneg, -⟩ := h
    · refine ⟨.ofNat .minus (m + 1), (ofList_text_ofNat .minus (m + 1)).symm, ?_⟩
      rw [value_ofNat]
      exact (Int.cast_negSucc m).symm
    · exact ((Int.negSucc_not_nonneg m).1 hnonneg).elim

theorem coerce_decimalText {n : ℤ} {text : String} (h : IsDecimalText n text)
    (hexact : ∃ y : Binary64, y.isFinite = true ∧ y.value = n) :
    ∃ m : Number, m.Writes n ∧ coerce (some text) = .number m := by
  obtain ⟨numeral, rfl, hvalue⟩ := exists_numeral_of_isDecimalText h
  obtain ⟨y, hfinite, hy⟩ := hexact
  have hlt : |numeral.value| < Binary64.limit := by
    rw [hvalue, ← hy, Binary64.abs_value]
    exact Binary64.magnitude_lt_limit hfinite
  obtain ⟨x, nearest, hx⟩ := coerceTrimmed_of_lt hlt
  rw [hvalue, ← hy] at nearest
  exact ⟨_, Number.value_preferInt ((nearest.value_eq hfinite).trans hy), coerce_text numeral ▸ hx⟩

end TagText

/-! ## Both ways -/

/-- A whole number with a place in binary64 stands in the values of a schema as it is, wherever a
literal type brings it there, and so does one in the text of a tag. Only `2 ^ 63` becomes one
less. -/
theorem whole_number_kept {n : ℤ} (hexact : ∃ y : Binary64, y.isFinite = true ∧ y.value = n) :
    (∀ {table : TypeTable} {config : Config} {id owner : TypeId} {d : Descriptor} {k : Number}
        {types : List TypeId} {values : List LiteralValue} {i : Nat} {frame : Frame} {steps : Nat},
      table.get? id = some d → d.IsNumberLiteral k → k.value = n →
      table.ValuesFrom owner types → List.Forall₂ table.ConstantOf types values →
      types[i]? = some id → frame.depth ≤ config.maxDepth → 2 ≤ steps → ∀ optional : Bool,
      ∃ f, ∃ m : Number, Walk.walk table config steps owner frame optional = .ok f ∧
        f.toJson.HasValueAt i (.number m) ∧ m.Writes n) ∧
    (∀ {text : String}, TagText.IsDecimalText n text →
      ∃ m : Number, TagText.coerce (some text) = .number m ∧ m.Writes n) := by
  constructor
  · intro table config id owner d k types values i frame steps hd hliteral hk howner hconstants hi
      hdepth hsteps optional
    obtain ⟨more, rfl⟩ := Nat.exists_eq_add_of_le' hsteps
    obtain ⟨mark, hwalk⟩ := Walk.walk_of_valuesFrom (v := ⟨owner, frame, optional⟩) howner
      hconstants hdepth more
    have hvalue : values[i]? = some (.ofNumber k) := TypeTable.getElem?_of_constants hconstants hi
      (TypeTable.shape?_of_numberLiteral hd hliteral)
    obtain ⟨m, hm, hjson⟩ := Walk.toJson_ofNumber hk (hexact.imp fun _ h => h.2)
    exact ⟨_, m, hwalk, hjson ▸ Walk.hasValueAt_enum hvalue mark, hm⟩
  · intro text htext
    obtain ⟨m, hm, hcoerce⟩ := TagText.coerce_decimalText htext hexact
    exact ⟨m, hcoerce, hm⟩

/-- The bounds of signed integers, the upper one not among them, as an enum. -/
def bounds : TypeTable where
  types := #[{ flags := [.number, .literal], value := some (.number (.int (-2 ^ 63))) },
    { flags := [.number, .literal], value := some (.number (.int (2 ^ 63))) },
    { flags := [.enumLike], types := [0, 1] }]

/-- `2 ^ 63` has a place in binary64, but is written as the integer below it. -/
theorem bounds_lose_upper :
    (∃ y : Binary64, y.isFinite = true ∧ y.value = ((2 ^ 63 : ℤ) : ℚ)) ∧
      (bounds.schema {} 1 false).map Fragment.toJson =
        .ok (.object [("type", .string "enum"),
          ("values", .array [.number (.int 9223372036854775807)])]) ∧
      TagText.coerce (some (toString (2 ^ 63 : ℤ))) = .number (.int 9223372036854775807) := by
  have hshape : bounds.shape? 1 = some (.literal (.ofNumber (.int (2 ^ 63)))) :=
    TypeTable.shape?_of_numberLiteral rfl ⟨rfl, rfl, rfl⟩
  have hvalue : (LiteralValue.ofNumber (.int (2 ^ 63))).toJson =
      .number (.int 9223372036854775807) := rfl
  have hschema : bounds.schema {} 1 false =
      .ok (.leaf (.enum [.ofNumber (.int (2 ^ 63))]) {}) := by
    let root : Walk.Visit := ⟨1, { additional := false }, false⟩
    have hwalk : root.walk bounds {} (Walk.budget bounds {}) = _ :=
      Walk.walk_literal hshape (by decide) 1031
    exact congrArg (· >>= Except.ok) hwalk
  refine ⟨⟨⟨false, 2 ^ 52, 11, by decide⟩, by decide, ?_⟩, ?_, rfl⟩
  · norm_num [Binary64.value, signed, Binary64.magnitude]
  · rw [hschema, ← hvalue]
    rfl

/-- The lower bound stands first in the enum, and is what its text stands for. -/
theorem whole_number_kept_bounds :
    let frame : Frame := { depth := 4, additional := false }
    let constants : List LiteralValue := [.ofNumber (.int (-2 ^ 63)), .ofNumber (.int (2 ^ 63))]
    ((∃ y : Binary64, y.isFinite = true ∧ y.value = ((-2 ^ 63 : ℤ) : ℚ)) ∧
      bounds.ValuesFrom 2 [0, 1] ∧ List.Forall₂ bounds.ConstantOf [0, 1] constants ∧
      frame.depth ≤ ({} : Config).maxDepth ∧ 2 ≤ Walk.budget bounds {} ∧
      TagText.IsDecimalText (-2 ^ 63) "-9223372036854775808") ∧
    (∃ f, ∃ m : Number, Walk.walk bounds {} (Walk.budget bounds {}) 2 frame true = .ok f ∧
      f.toJson.HasValueAt 0 (.number m) ∧ m.Writes (-2 ^ 63)) ∧
    ∃ m : Number,
      TagText.coerce (some "-9223372036854775808") = .number m ∧ m.Writes (-2 ^ 63) := by
  intro frame constants
  have hexact : ∃ y : Binary64, y.isFinite = true ∧ y.value = ((-2 ^ 63 : ℤ) : ℚ) := by
    refine ⟨⟨true, 2 ^ 52, 11, by decide⟩, by decide, ?_⟩
    norm_num [Binary64.value, signed, Binary64.magnitude]
  have howner : bounds.ValuesFrom 2 [0, 1] := .enum rfl
  have hconstants : List.Forall₂ bounds.ConstantOf [0, 1] constants :=
    .cons (.number (TypeTable.shape?_of_numberLiteral rfl ⟨rfl, rfl, rfl⟩))
      (.cons (.number (TypeTable.shape?_of_numberLiteral rfl ⟨rfl, rfl, rfl⟩)) .nil)
  have hdepth : frame.depth ≤ ({} : Config).maxDepth := by decide
  have hbudget : 2 ≤ Walk.budget bounds {} := by decide
  have htext : TagText.IsDecimalText (-2 ^ 63) "-9223372036854775808" := .inl rfl
  have hfirst : ([0, 1] : List TypeId)[0]? = some 0 := rfl
  obtain ⟨walked, coerced⟩ := whole_number_kept hexact
  exact ⟨⟨hexact, howner, hconstants, hdepth, hbudget, htext⟩,
    walked rfl ⟨rfl, rfl, rfl⟩ rfl howner hconstants hfirst hdepth hbudget true, coerced htext⟩

end SchemaSynth
