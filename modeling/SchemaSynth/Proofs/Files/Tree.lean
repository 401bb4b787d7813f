import SchemaSynth.Files.Tree
import SchemaSynth.Proofs.Except
import SchemaSynth.Proofs.Files.Path

/-!
# Trees of files

What the operations on a `FileTree` leave in place. A new directory leaves all that was there
(`Extends`); a text that is written leaves what kind of item is where (`Grows`), so paths lead where
they led. `Holds` says that a path leads to a file by its last part, and what text is in the file.
This is so of the path that was written, and it stays so when a path with another last part is
written.
-/

namespace SchemaSynth

namespace FileTree

variable {tree tree' tree'' : FileTree} {place : Place} {path text name : String}

/-! ## Items -/

@[simp] theorem item?_nil (tree : FileTree) : tree.item? [] = some .directory := rfl

@[simp] theorem home_put (tree : FileTree) (place : Place) (item : FileItem) :
    (tree.put place item).home = tree.home := by
  unfold put
  split <;> rfl

theorem item?_eq_find? (tree : FileTree) (h : place ≠ []) :
    tree.item? place = (tree.items.find? fun entry => entry.1 == place).map Prod.snd := by
  simp [item?, h]

theorem find?_replace (items : List (Place × FileItem)) (place other : Place) (item : FileItem) :
    (items.map fun entry => if entry.1 == place then (place, item) else entry).find?
        (fun entry => entry.1 == other) =
      (items.find? fun entry => entry.1 == other).map fun entry =>
        if other = place then (place, item) else entry := by
  induction items with
  | nil => rfl
  | cons entry items ih =>
    have hkey : (if entry.1 == place then (place, item) else entry).1 = entry.1 := by
      split <;> simp_all
    rw [List.map_cons]
    by_cases hother : entry.1 = other
    · rw [List.find?_cons_of_pos (by rw [hkey]; simpa using hother),
        List.find?_cons_of_pos (by simpa using hother)]
      simp [← hother]
    · rw [List.find?_cons_of_neg (by rw [hkey]; simpa using hother),
        List.find?_cons_of_neg (by simpa using hother), ih]

theorem item?_put_self (tree : FileTree) (h : place ≠ []) (item : FileItem) :
    (tree.put place item).item? place = some item := by
  rw [item?_eq_find? _ h]
  unfold put
  split
  · rename_i hthere
    obtain ⟨entry, hentry⟩ := Option.isSome_iff_exists.1
      (List.find?_isSome.2 (List.any_eq_true.1 hthere))
    simp only [find?_replace, hentry, Option.map_some, if_pos]
  · rename_i hnew
    have hnone : (tree.items.find? fun entry => entry.1 == place) = none := by
      simpa only [List.find?_eq_none, List.any_eq_true, not_exists, not_and] using hnew
    simp [List.find?_append, hnone]

theorem item?_put_ne (tree : FileTree) {other : Place} (h : other ≠ place) (item : FileItem) :
    (tree.put place item).item? other = tree.item? other := by
  by_cases hroot : other = []
  · simp [hroot]
  rw [item?_eq_find? _ hroot, item?_eq_find? _ hroot]
  unfold put
  split
  · simp only [find?_replace, if_neg h, Option.map_id']
  · simp [List.find?_append, Ne.symm h]

/-! ## Trees that grow -/

/-- Another tree has an item of the same kind wherever a tree has one. -/
structure Grows (tree tree' : FileTree) : Prop where
  home : tree'.home = tree.home
  kind : ∀ place item, tree.item? place = some item →
    ∃ item', tree'.item? place = some item' ∧ item'.kind = item.kind

/-- Another tree has whatever a tree has. -/
structure Extends (tree tree' : FileTree) : Prop where
  home : tree'.home = tree.home
  item : ∀ place item, tree.item? place = some item → tree'.item? place = some item

theorem Extends.refl (tree : FileTree) : tree.Extends tree := ⟨rfl, fun _ _ h => h⟩

theorem Extends.trans (h : tree.Extends tree') (h' : tree'.Extends tree'') : tree.Extends tree'' :=
  ⟨h'.home.trans h.home, fun place item hitem => h'.item place item (h.item place item hitem)⟩

theorem Extends.grows (h : tree.Extends tree') : tree.Grows tree' :=
  ⟨h.home, fun place item hitem => ⟨item, h.item place item hitem, rfl⟩⟩

theorem Grows.directory (h : tree.Grows tree') (hplace : tree.item? place = some .directory) :
    tree'.item? place = some .directory := by
  obtain ⟨item, hitem, hkind⟩ := h.kind place .directory hplace
  cases item with
  | file => cases hkind
  | directory => exact hitem

theorem Grows.isSome (h : tree.Grows tree') (hplace : (tree.item? place).isSome) :
    (tree'.item? place).isSome := by
  obtain ⟨item, hitem⟩ := Option.isSome_iff_exists.1 hplace
  obtain ⟨item', hitem', -⟩ := h.kind place item hitem
  exact Option.isSome_iff_exists.2 ⟨item', hitem'⟩

/-! ## Paths in a tree that grows -/

theorem Grows.follow (h : tree.Grows tree') {part : String} {next : Place}
    (hnext : tree.follow place part = .ok next) : tree'.follow place part = .ok next := by
  unfold FileTree.follow at hnext ⊢
  split at hnext
  · cases hnext
  · cases hnext
  · rename_i hplace
    simp only [h.directory hplace]
    split_ifs at hnext ⊢ with hdot hdots hlong hthere' hthere hthere
    · exact hnext
    · exact hnext
    · exact hnext
    · exact absurd (h.isSome hthere) hthere'

theorem Grows.foldlM_follow (h : tree.Grows tree') {parts : List String} {last : Place}
    (hparts : parts.foldlM tree.follow place = .ok last) :
    parts.foldlM tree'.follow place = .ok last := by
  induction parts generalizing place with
  | nil => exact hparts
  | cons part parts ih =>
    rw [List.foldlM_cons, bind_eq_ok] at hparts ⊢
    obtain ⟨next, hnext, hlast⟩ := hparts
    exact ⟨next, h.follow hnext, ih hlast⟩

theorem resolveLast_eq_ok {last : Place × String} :
    tree.resolveLast path = .ok last ↔
      check path = .ok () ∧
        (steps path).dropLast.foldlM tree.follow (tree.start path) = .ok last.1 ∧
        tree.item? last.1 = some .directory ∧
        last.2.utf8ByteSize ≤ maxName ∧ last.2 = (steps path).getLast?.getD "." := by
  obtain ⟨place, name⟩ := last
  simp only [FileTree.resolveLast, bind_eq_ok]
  constructor
  · rintro ⟨_, hcheck, place, hplace, h⟩
    split at h
    · cases h
    · cases h
    · rename_i hdir
      split at h
      · cases h
      · rename_i hshort
        cases h
        exact ⟨hcheck, hplace, hdir, Nat.le_of_not_gt hshort, rfl⟩
  · rintro ⟨hcheck, hplace, hdir, hshort, rfl⟩
    refine ⟨(), hcheck, place, hplace, ?_⟩
    simp [hdir, Nat.not_lt.2 hshort, pure, Except.pure]

theorem Grows.resolveLast (h : tree.Grows tree') {last : Place × String}
    (hlast : tree.resolveLast path = .ok last) : tree'.resolveLast path = .ok last := by
  rw [resolveLast_eq_ok] at hlast ⊢
  obtain ⟨hcheck, hparts, hplace, hname⟩ := hlast
  have hstart : tree'.start path = tree.start path := by simp [start, h.home]
  exact ⟨hcheck, hstart ▸ h.foldlM_follow hparts, h.directory hplace, hname⟩

theorem steps_eq_of_resolveLast (h : tree.resolveLast path = .ok (place, name))
    (hname : isName name) : steps path = (steps path).dropLast ++ [name] := by
  obtain ⟨-, -, -, -, hlast⟩ := resolveLast_eq_ok.1 h
  simp only at hlast
  cases hsteps : (steps path).getLast? with
  | none => simp [hlast, hsteps, isName] at hname
  | some part =>
    obtain rfl : name = part := by simpa [hsteps] using hlast
    obtain ⟨front, hfront⟩ := List.getLast?_eq_some_iff.1 hsteps
    simp [hfront]

/-! ## Operations -/

theorem makeDirectory_eq_ok :
    tree.makeDirectory path = .ok tree' ↔
      ∃ place name, tree.resolveLast path = .ok (place, name) ∧ isName name ∧
        tree.item? (place ++ [name]) = none ∧ tree' = tree.put (place ++ [name]) .directory := by
  simp only [makeDirectory, bind_eq_ok, Prod.exists]
  refine exists_congr fun place => exists_congr fun name => and_congr_right fun _ => ?_
  split
  · rename_i h
    obtain ⟨hname, hnone⟩ := Bool.and_eq_true_iff.1 h
    exact ⟨fun h => ⟨hname, Option.isNone_iff_eq_none.1 hnone, (Except.ok.inj h).symm⟩,
      fun h => congrArg _ h.2.2.symm⟩
  · rename_i h
    constructor
    · intro h
      cases h
    · rintro ⟨hname, hnone, -⟩
      simp [hname, hnone] at h

theorem write_eq_ok :
    tree.write path text = .ok tree' ↔
      ∃ place name, tree.resolveLast path = .ok (place, name) ∧ isName name ∧
        Path.endsInSlash path = false ∧ tree.item? (place ++ [name]) ≠ some .directory ∧
        tree' = tree.put (place ++ [name]) (.file text.toUTF8) := by
  simp only [FileTree.write, bind_eq_ok, Prod.exists]
  refine exists_congr fun place => exists_congr fun name => and_congr_right fun _ => ?_
  split
  · rename_i h
    constructor
    · intro h
      cases h
    · rintro ⟨hname, hslash, -⟩
      simp [hname, hslash] at h
  · rename_i h
    simp only [Bool.or_eq_true, Bool.not_eq_true', not_or, Bool.not_eq_false,
      Bool.not_eq_true] at h
    simp only [h, true_and]
    split
    · rename_i hdir
      simp [hdir]
    · rename_i hdir
      exact ⟨fun h => ⟨hdir, (Except.ok.inj h).symm⟩, fun h => congrArg _ h.2.symm⟩

theorem extends_makeDirectory (h : tree.makeDirectory path = .ok tree') : tree.Extends tree' := by
  obtain ⟨place, name, -, -, hnone, rfl⟩ := makeDirectory_eq_ok.1 h
  refine ⟨home_put .., fun other item hitem => ?_⟩
  rwa [item?_put_ne _ fun heq => ?_]
  simp [heq, hnone] at hitem

theorem grows_write (h : tree.write path text = .ok tree') : tree.Grows tree' := by
  obtain ⟨place, name, -, -, -, hfile, rfl⟩ := write_eq_ok.1 h
  refine ⟨home_put .., fun other item hitem => ?_⟩
  by_cases heq : other = place ++ [name]
  · subst heq
    refine ⟨_, item?_put_self _ (by simp) _, ?_⟩
    cases item with
    | file => rfl
    | directory => exact absurd hitem hfile
  · exact ⟨item, by rwa [item?_put_ne _ heq], rfl⟩

/-! ## Texts in files -/

/-- A path leads to a file by its last part, and the file has a text. -/
def Holds (tree : FileTree) (path text : String) : Prop :=
  ∃ place name, tree.resolveLast path = .ok (place, name) ∧ isName name ∧
    Path.endsInSlash path = false ∧ tree.item? (place ++ [name]) = some (.file text.toUTF8)

theorem holds_write (h : tree.write path text = .ok tree') : tree'.Holds path text := by
  have hgrows := grows_write h
  obtain ⟨place, name, hlast, hname, hslash, -, rfl⟩ := write_eq_ok.1 h
  exact ⟨place, name, hgrows.resolveLast hlast, hname, hslash, item?_put_self _ (by simp) _⟩

theorem Holds.extends (h : tree.Holds path text) (hext : tree.Extends tree') :
    tree'.Holds path text := by
  obtain ⟨place, name, hlast, hname, hslash, hitem⟩ := h
  exact ⟨place, name, hext.grows.resolveLast hlast, hname, hslash, hext.item _ _ hitem⟩

theorem Holds.write (h : tree.Holds path text) {path' text' : String}
    (hwrite : tree.write path' text' = .ok tree')
    (hne : (steps path).getLast? ≠ (steps path').getLast?) : tree'.Holds path text := by
  have hgrows := grows_write hwrite
  obtain ⟨place, name, hlast, hname, hslash, hitem⟩ := h
  obtain ⟨place', name', hlast', hname', -, -, rfl⟩ := write_eq_ok.1 hwrite
  refine ⟨place, name, hgrows.resolveLast hlast, hname, hslash, ?_⟩
  rwa [item?_put_ne _ fun hplace => hne ?_]
  have hsame := congrArg List.getLast? hplace
  rw [steps_eq_of_resolveLast hlast hname, steps_eq_of_resolveLast hlast' hname']
  simpa using hsame

theorem Holds.read (h : tree.Holds path text) : tree.read path = .ok text := by
  obtain ⟨place, name, hlast, hname, hslash, hitem⟩ := h
  have hsteps := steps_eq_of_resolveLast hlast hname
  obtain ⟨hcheck, hplace, hdir, hshort, -⟩ := resolveLast_eq_ok.1 hlast
  have hfollow : tree.follow place name = .ok (place ++ [name]) := by
    simp only [isName, bne_iff_ne, Bool.and_eq_true] at hname
    simp [follow, hdir, hname, Nat.not_lt.2 hshort, hitem]
  have hfile : tree.resolve path = .ok (place ++ [name], .file text.toUTF8) := by
    refine bind_eq_ok.2 ⟨(), hcheck, bind_eq_ok.2 ⟨place ++ [name], ?_, ?_⟩⟩
    · rw [hsteps, List.foldlM_append]
      exact bind_eq_ok.2 ⟨place, hplace, bind_eq_ok.2 ⟨_, hfollow, rfl⟩⟩
    · simp [hitem, hslash, pure, Except.pure]
  refine bind_eq_ok.2 ⟨_, hfile, ?_⟩
  have htext : String.fromUTF8? text.toUTF8 = some text := dif_pos text.isValidUTF8
  simp only [htext]
  rfl

theorem steps_join (hname : '/' ∉ name.toList) (hne : name ≠ "") :
    steps (Path.join path name) = steps path ++ [name] := by
  have hsplit := Path.split_of_notMem hname
  obtain ⟨h, rfl⟩ | ⟨front, h, hpath⟩ := Path.toList_join path name
  · simp [steps, Path.parts, h, hsplit, hne, Path.split]
  · obtain hpath | hpath := hpath <;>
      simp [steps, Path.parts, Path.split_append_slash, Path.split, h, hpath, hsplit, hne]

end FileTree

end SchemaSynth
