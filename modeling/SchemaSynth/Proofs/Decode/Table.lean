import SchemaSynth.Config
import SchemaSynth.Proofs.Decode.Record

/-!
# Tables and settings read back

Tables and their parts, modes and configurations have stable formats. Most of what may stand in them
is read back in any case; what is not, a reader never makes: an id out of range, a category that is
known but under no name, a repeated name, a `null` in the place of a value.
-/

namespace SchemaSynth

open Format

/-! ## Categories, tags and members -/

namespace TypeId

def format : Format TypeId := ⟨fun _ => TypeId.read, TypeId.toJson⟩

theorem stable : format.Stable := nat_stable 32 "u32"

end TypeId

namespace Flag

def format : Format Flag := ⟨fun _ => Flag.read, Flag.toJson⟩

theorem name_of_known {name : String} {flag : Flag} (h : Fields.get? known name = some flag) :
    flag.name = name := by
  have names : ∀ entry ∈ known, entry.2.name = entry.1 := by decide
  exact names _ (Fields.mem_of_get? h)

theorem rereads_of_known {name : String} {flag : Flag} (h : Fields.get? known name = some flag) :
    format.Rereads flag := by
  intro source
  show Except.ok (ofName flag.name) = .ok flag
  rw [name_of_known h, ofName, h]
  rfl

/-- A name stands for itself only if it stands for nothing else. -/
theorem rereads_ofName (name : String) : format.Rereads (ofName name) := by
  cases h : Fields.get? known name with
  | some flag =>
    have hname : ofName name = flag := by rw [ofName, h]; rfl
    exact hname ▸ rereads_of_known h
  | none =>
    have hname : ofName name = .other name := by rw [ofName, h]; rfl
    intro source
    rw [hname]
    exact congrArg Except.ok hname

theorem stable : format.Stable := by
  intro source raw flag h
  change Flag.read raw = .ok flag at h
  unfold Flag.read at h
  split at h
  · cases h
  split at h
  · cases h
    exact rereads_ofName _
  · split at h
    · next hknown =>
      cases h
      exact rereads_of_known hknown
    · cases h
  · cases h

end Flag

theorem IndexKind.rereads : ∀ kind, (choice IndexKind.known IndexKind.name).Rereads kind
  | .string | .number => choice_rereads rfl

theorem Origin.rereads : ∀ origin, (choice Origin.known Origin.name).Rereads origin
  | .declared | .synthetic | .undeclared => choice_rereads rfl

namespace DocTag

def format : Format DocTag := ⟨fun _ => DocTag.read, DocTag.toJson⟩

theorem rereads : ∀ tag, format.Rereads tag
  | .line _ | .split _ none | .split _ (some _) => fun _ => rfl

end DocTag

namespace Member

def format : Format Member := ⟨Member.read, Member.toJson⟩

/-- All parts are read back that need not be. -/
structure Settled (m : Member) : Prop where
  type : TypeId.format.Rereads m.type

theorem rereads {m : Member} (h : m.Settled) : format.Rereads m := by
  intro source
  refine Raw.readObject_of_writes ?_ (by decide)
  refine .field source (string_rereads _) (fun _ => rfl) ?_
  refine .field source h.type (fun _ => rfl) ?_
  refine .field source (bool_rereads _) (fun _ => rfl) ?_
  refine .field source (Origin.rereads _) (fun _ => rfl) ?_
  refine .field source (list_rereads fun tag _ => DocTag.rereads tag) (fun _ => rfl) ?_
  exact .done _

theorem settled_of_read {source : Source} {raw : Raw} {m : Member}
    (h : read source raw = .ok m) : m.Settled := by
  refine Raw.readRecord_preserves ?_ ⟨nat_rereads (by decide)⟩ h
  intro key raw s t hs ht
  unfold visit at ht
  split at ht
  case h_2 =>
    obtain ⟨id, hid, rfl⟩ := bind_pure_eq_ok.1 ht
    exact ⟨TypeId.stable source hid⟩
  case h_6 =>
    cases ht
    exact hs
  all_goals
    obtain ⟨x, -, rfl⟩ := bind_pure_eq_ok.1 ht
    exact ⟨hs.type⟩

theorem stable : format.Stable := fun _ _ _ h => rereads (settled_of_read h)

end Member

/-! ## Tables -/

namespace Descriptor

def format : Format Descriptor := ⟨Descriptor.read, Descriptor.toJson⟩

structure Settled (d : Descriptor) : Prop where
  flags : Flag.format.list.Rereads d.flags
  value : json.option.Rereads d.value
  types : TypeId.format.list.Rereads d.types
  typeArguments : TypeId.format.list.Rereads d.typeArguments
  members : Member.format.list.Rereads d.members

theorem rereads {d : Descriptor} (h : d.Settled) : format.Rereads d := by
  intro source
  have index : ∀ kind : Option IndexKind,
      (choice IndexKind.known IndexKind.name).option.Rereads kind
    | none => option_rereads_none
    | some kind => option_rereads_some (IndexKind.rereads kind) Json.noConfusion
  show (Raw.ofJson d.toJson).readRecord source layout (visit source) {} = .ok d
  rw [toJson, ← option_map_json d.value]
  simp only [List.append_assoc, List.singleton_append]
  rw [← List.append_nil (listField "tags" _)]
  refine Raw.readObject_of_writes ?_ (by decide)
  refine .field source h.flags (fun _ => rfl) ?_
  refine .optional source (option_string_rereads _) (fun _ => rfl) rfl ?_
  refine .optional source (option_string_rereads _) (fun _ => rfl) rfl ?_
  refine .optional source h.value (fun _ => rfl) rfl ?_
  refine .optional source (option_string_rereads _) (fun _ => rfl) rfl ?_
  refine .items source h.types (fun _ => rfl) rfl ?_
  refine .items source h.typeArguments (fun _ => rfl) rfl ?_
  refine .items source h.members (fun _ => rfl) rfl ?_
  refine .optional source (index _) (fun _ => rfl) rfl ?_
  refine .items source (list_rereads fun tag _ => DocTag.rereads tag) (fun _ => rfl) rfl ?_
  exact .done _

theorem settled_of_read {source : Source} {raw : Raw} {d : Descriptor}
    (h : read source raw = .ok d) : d.Settled := by
  have start : ({} : Descriptor).Settled := by constructor <;> exact fun _ => rfl
  refine Raw.readRecord_preserves ?_ start h
  intro key raw s t hs ht
  unfold visit at ht
  split at ht
  case h_1 =>
    obtain ⟨flags, hflags, rfl⟩ := bind_pure_eq_ok.1 ht
    exact { hs with flags := Flag.stable.list source hflags }
  case h_4 =>
    obtain ⟨value, hvalue, rfl⟩ := bind_pure_eq_ok.1 ht
    exact { hs with value := option_json_stable source hvalue }
  case h_6 =>
    obtain ⟨types, htypes, rfl⟩ := bind_pure_eq_ok.1 ht
    exact { hs with types := TypeId.stable.list source htypes }
  case h_7 =>
    obtain ⟨types, htypes, rfl⟩ := bind_pure_eq_ok.1 ht
    exact { hs with typeArguments := TypeId.stable.list source htypes }
  case h_8 =>
    obtain ⟨members, hmembers, rfl⟩ := bind_pure_eq_ok.1 ht
    exact { hs with members := Member.stable.list source hmembers }
  case h_11 =>
    cases ht
    exact hs
  all_goals
    obtain ⟨x, -, rfl⟩ := bind_pure_eq_ok.1 ht
    exact { hs with }

theorem stable : format.Stable := fun _ _ _ h => rereads (settled_of_read h)

end Descriptor

namespace TypeTable

def format : Format TypeTable := ⟨TypeTable.read, TypeTable.toJson⟩

structure Settled (t : TypeTable) : Prop where
  types : Descriptor.format.list.Rereads t.types.toList
  roots : TypeId.format.map.Rereads t.roots

theorem rereads {t : TypeTable} (h : t.Settled) : format.Rereads t := by
  intro source
  show (Raw.ofJson t.toJson).readRecord source layout (visit source) {} = .ok t
  rw [toJson, ← List.append_nil (if t.roots.isEmpty then _ else _)]
  refine Raw.readObject_of_writes ?_ (by decide)
  refine .field source h.types (fun _ => rfl) ?_
  refine .entries source h.roots (fun _ => rfl) rfl ?_
  exact .done _

theorem settled_of_read {source : Source} {raw : Raw} {t : TypeTable}
    (h : read source raw = .ok t) : t.Settled := by
  refine Raw.readRecord_preserves ?_ ⟨fun _ => rfl, fun _ => rfl⟩ h
  intro key raw s t hs ht
  unfold visit at ht
  split at ht
  · obtain ⟨types, htypes, rfl⟩ := bind_pure_eq_ok.1 ht
    exact { hs with types := Descriptor.stable.list source htypes }
  · obtain ⟨roots, hroots, rfl⟩ := bind_pure_eq_ok.1 ht
    exact { hs with roots := TypeId.stable.map source hroots }
  · cases ht
    exact hs

theorem stable : format.Stable := fun _ _ _ h => rereads (settled_of_read h)

end TypeTable

/-! ## Settings -/

theorem ObjectStyle.rereads : ∀ style, (choice ObjectStyle.known ObjectStyle.name).Rereads style
  | .wrapped | .flat => choice_rereads rfl

theorem ArrayStyle.rereads : ∀ style, (choice ArrayStyle.known ArrayStyle.name).Rereads style
  | .tracked | .opaqueItems => choice_rereads rfl

theorem LeafStyle.rereads : ∀ style, (choice LeafStyle.known LeafStyle.name).Rereads style
  | .typed | .bare => choice_rereads rfl

namespace Mode

def format : Format Mode := ⟨Mode.read, Mode.toJson⟩

theorem rereads (m : Mode) : format.Rereads m := by
  intro source
  refine Raw.readObject_of_writes ?_ (by decide)
  refine .field source (ObjectStyle.rereads _) (fun _ => rfl) ?_
  refine .field source (bool_rereads _) (fun _ => rfl) ?_
  refine .field source (ArrayStyle.rereads _) (fun _ => rfl) ?_
  refine .field source (LeafStyle.rereads _) (fun _ => rfl) ?_
  exact .done _

end Mode

namespace Config

def format : Format Config := ⟨Config.read, Config.toJson⟩

structure Settled (c : Config) : Prop where
  predefined : string.map.Rereads c.predefined
  maxDepth : (nat 64 "usize").Rereads c.maxDepth

theorem rereads {c : Config} (h : c.Settled) : format.Rereads c := by
  intro source
  refine Raw.readObject_of_writes ?_ (by decide)
  refine .field source (string_rereads _) (fun _ => rfl) ?_
  refine .field source (option_string_rereads _) (fun _ => rfl) ?_
  refine .field source h.predefined (fun _ => rfl) ?_
  refine .field source (list_rereads fun symbol _ => string_rereads symbol) (fun _ => rfl) ?_
  refine .field source h.maxDepth (fun _ => rfl) ?_
  refine .field source (Mode.rereads _) (fun _ => rfl) ?_
  exact .done _

theorem settled_of_read {source : Source} {raw : Raw} {c : Config}
    (h : read source raw = .ok c) : c.Settled := by
  have string_stable : string.Stable := fun _ _ _ _ => string_rereads _
  have distinct : Fields.Distinct ({} : Config).predefined := by
    unfold Fields.Distinct
    decide
  have start : ({} : Config).Settled :=
    ⟨map_rereads distinct fun _ _ => string_rereads _, nat_rereads (by decide)⟩
  refine Raw.readRecord_preserves ?_ start h
  intro key raw s t hs ht
  unfold visit at ht
  split at ht
  case h_3 =>
    obtain ⟨predefined, hpredefined, rfl⟩ := bind_pure_eq_ok.1 ht
    exact { hs with predefined := string_stable.map source hpredefined }
  case h_5 =>
    obtain ⟨maxDepth, hmaxDepth, rfl⟩ := bind_pure_eq_ok.1 ht
    exact { hs with maxDepth := nat_stable 64 "usize" source hmaxDepth }
  case h_7 =>
    cases ht
    exact hs
  all_goals
    obtain ⟨x, -, rfl⟩ := bind_pure_eq_ok.1 ht
    exact { hs with }

theorem stable : format.Stable := fun _ _ _ h => rereads (settled_of_read h)

end Config

end SchemaSynth
