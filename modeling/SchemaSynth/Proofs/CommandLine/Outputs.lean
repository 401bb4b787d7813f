import SchemaSynth.CommandLine.Outcome
import SchemaSynth.Proofs.Files.System

/-!
# Where units are written

A document is written to the file that its stem and its index name. Two documents go to one file
exactly if they clash (`Document.Clashes`): documents of one file never do, documents of different
files may. A run writes its documents one after another, so each unit is in its file in the end
unless a later document clashes with it (`Command.expand_loses_only_clashes`).
-/

namespace SchemaSynth

/-! ## Names -/

namespace Document

variable {doc doc' : Document}

def stem (doc : Document) : String := (Path.stem? doc.path).getD "unit"

/-- Two documents that are written to one file: they have one index and their files one stem, or one
of them is the first of its file, and the stem of that is the other's with the other's index. -/
def Clashes (doc doc' : Document) : Prop :=
  doc.index = doc'.index ∧ doc.stem = doc'.stem ∨
    doc.index = 0 ∧ doc'.index ≠ 0 ∧ doc.stem = doc'.stem ++ "." ++ toString doc'.index ∨
    doc'.index = 0 ∧ doc.index ≠ 0 ∧ doc'.stem = doc.stem ++ "." ++ toString doc.index

instance (doc doc' : Document) : Decidable (doc.Clashes doc') :=
  inferInstanceAs (Decidable (_ ∨ _ ∨ _))

theorem notMem_toString {c : Char} (hc : c.isDigit = false) (n : Nat) :
    c ∉ (toString n).toList := by
  rw [Nat.toString_eq_repr, Nat.toList_repr]
  intro h
  simp [Nat.isDigit_of_mem_toDigits (by decide) (by decide) h] at hc

theorem toString_inj {n n' : Nat} (h : toString n = toString n') : n = n' := by
  have hdigits : Nat.toDigits 10 n = Nat.toDigits 10 n' := by
    simpa only [Nat.toString_eq_repr, Nat.toList_repr] using congrArg String.toList h
  simpa using congrArg (Nat.ofDigitChars 10 · 0) hdigits

/-- What stands behind the last dot of a text that ends in a number. -/
theorem takeWhile_reverse_dot (stem : String) (n : Nat) :
    (stem ++ "." ++ toString n).toList.reverse.takeWhile (· ≠ '.') =
      (toString n).toList.reverse := by
  have hdigits : ∀ c ∈ (toString n).toList.reverse, decide (c ≠ '.') = true := fun c hc =>
    decide_eq_true fun hdot => notMem_toString rfl n (hdot ▸ List.mem_reverse.1 hc)
  simp only [String.toList_append, List.reverse_append]
  rw [List.takeWhile_append_of_pos hdigits]
  simp

theorem dot_number_inj {stem stem' : String} {n n' : Nat} :
    stem ++ "." ++ toString n = stem' ++ "." ++ toString n' ↔ stem = stem' ∧ n = n' := by
  constructor
  · intro h
    have hn : toString n = toString n' := by
      rw [← String.toList_inj, ← List.reverse_inj, ← takeWhile_reverse_dot stem,
        ← takeWhile_reverse_dot stem', h]
    rw [hn, String.append_left_inj, String.append_left_inj] at h
    exact ⟨h, toString_inj hn⟩
  · rintro ⟨rfl, rfl⟩
    rfl

theorem outputName_of_eq_zero (h : doc.index = 0) : doc.outputName = doc.stem ++ ".json" := by
  simp [outputName, stem, h]

theorem outputName_of_ne_zero (h : doc.index ≠ 0) :
    doc.outputName = doc.stem ++ "." ++ toString doc.index ++ ".json" := by
  simp [outputName, stem, h]

theorem outputName_eq_iff : doc.outputName = doc'.outputName ↔ doc.Clashes doc' := by
  unfold Clashes
  by_cases h : doc.index = 0 <;> by_cases h' : doc'.index = 0
  · rw [outputName_of_eq_zero h, outputName_of_eq_zero h', String.append_left_inj]
    simp [h, h']
  · rw [outputName_of_eq_zero h, outputName_of_ne_zero h', String.append_left_inj]
    simp [h, h', Ne.symm h']
  · rw [outputName_of_ne_zero h, outputName_of_eq_zero h', String.append_left_inj]
    simp [h, h', eq_comm]
  · rw [outputName_of_ne_zero h, outputName_of_ne_zero h', String.append_left_inj, dot_number_inj]
    simp [h, h', and_comm]

/-- A later document of one file and the first document of another. -/
example : Clashes ⟨"p/x.json", 1, .null⟩ ⟨"q/x.1.json", 0, .null⟩ := by decide +kernel

theorem not_clashes_of_path_eq (hpath : doc.path = doc'.path) (hindex : doc.index ≠ doc'.index) :
    ¬ doc.Clashes doc' := by
  have hstem : doc.stem = doc'.stem := by simp only [stem, hpath]
  have hlonger : ∀ (s : String) (n : Nat), s ≠ s ++ "." ++ toString n := fun s n h => by
    have hlength := congrArg String.length h
    simp only [String.length_append] at hlength
    have : ".".length = 1 := rfl
    omega
  rintro (⟨h, -⟩ | ⟨-, -, h⟩ | ⟨-, -, h⟩)
  · exact hindex h
  · exact hlonger _ _ (hstem ▸ h)
  · exact hlonger _ _ (hstem ▸ h)

theorem slash_notMem_stem (doc : Document) : '/' ∉ doc.stem.toList := by
  unfold stem
  cases h : Path.stem? doc.path with
  | none => decide
  | some stem => exact Path.slash_notMem_of_stem? h

theorem slash_notMem_outputName (doc : Document) : '/' ∉ doc.outputName.toList := by
  by_cases h : doc.index = 0
  · simp [outputName_of_eq_zero h, slash_notMem_stem]
  · simp only [outputName_of_ne_zero h, String.toList_append, List.mem_append, not_or]
    exact ⟨⟨⟨slash_notMem_stem doc, by decide⟩, notMem_toString rfl _⟩, by decide⟩

theorem outputName_ne_empty (doc : Document) : doc.outputName ≠ "" := by
  by_cases h : doc.index = 0
  · simp [outputName_of_eq_zero h]
  · simp [outputName_of_ne_zero h]

theorem getLast?_steps_join (dir : String) (doc : Document) :
    (FileTree.steps (Path.join dir doc.outputName)).getLast? = some doc.outputName := by
  rw [FileTree.steps_join doc.slash_notMem_outputName doc.outputName_ne_empty]
  simp

end Document

/-! ## Steps of a run -/

section

open FileTree (system)

variable {ε α β : Type} {tree tree' : FileTree} {tools : Tools (StateM FileTree)}

theorem run_bind_eq_ok {x : ExceptT ε (StateM FileTree) α}
    {f : α → ExceptT ε (StateM FileTree) β} {b : β} :
    (x >>= f).run.run tree = (.ok b, tree') ↔
      ∃ a mid, x.run.run tree = (.ok a, mid) ∧ (f a).run.run mid = (.ok b, tree') := by
  rw [ExceptT.run_bind, StateT.run_bind]
  cases hx : x.run.run tree with
  | mk result mid =>
    cases result with
    | ok a =>
      constructor
      · exact fun h => ⟨a, mid, rfl, h⟩
      · rintro ⟨_, _, heq, h⟩
        cases heq
        exact h
    | error e =>
      constructor
      · intro h
        cases h
      · rintro ⟨_, _, heq, -⟩
        cases heq

theorem run_pureStep_eq_ok {result : Except RunError α} {a : α} :
    (pureStep result : ExceptT RunError (StateM FileTree) α).run.run tree = (.ok a, tree') ↔
      result = .ok a ∧ tree = tree' :=
  Prod.mk.injEq .. ▸ Iff.rfl

theorem run_fileStep_eq_ok {context : String} {operation : StateM FileTree (Except FileError α)}
    {a : α} :
    (fileStep context operation).run.run tree = (.ok a, tree') ↔
      operation.run tree = (.ok a, tree') := by
  change (inContext context .file (operation.run tree).1, (operation.run tree).2) = _ ↔ _
  cases hresult : operation.run tree with
  | mk result after =>
    cases result with
    | ok value => exact ⟨fun h => by cases h; rfl, fun h => by cases h; rfl⟩
    | error e => constructor <;> (intro h; cases h)

theorem looks_fileStep {context : String} {operation : StateM FileTree (Except FileError α)}
    (h : FileTree.Looks operation) : FileTree.Looks (fileStep context operation).run := fun tree =>
  h tree

theorem looks_config (settings : ConfigSettings) : FileTree.Looks (settings.config system).run := by
  unfold ConfigSettings.config
  split
  · exact FileTree.moves_pure_except _
  · refine FileTree.Moves.bind_except ?_ fun _ => FileTree.moves_pure_except _
    exact (looks_fileStep (FileTree.looks_read _)).bind_except fun _ => FileTree.moves_pure _

/-- Filters and searches leave the files as they are. -/
structure Tools.OnlyLook (tools : Tools (StateM FileTree)) : Prop where
  filter : ∀ text value, FileTree.Looks (tools.filter text value)
  search : ∀ pattern search, tools.search pattern = some search → FileTree.Looks search

theorem onlyLook_builtIn : (Tools.builtIn system).OnlyLook where
  filter _ _ := FileTree.moves_pure _
  search pattern search h := by
    obtain ⟨glob, -, rfl⟩ := Option.map_eq_some_iff.1 h
    exact FileTree.looks_find glob

theorem looks_resolve (htools : tools.OnlyLook) (pattern : String) :
    FileTree.Looks (InputSettings.resolve tools pattern).run := by
  unfold InputSettings.resolve
  split
  · split
    · exact FileTree.moves_throw _
    · next hsearch =>
      refine (htools.search _ _ hsearch).lift.bind_except fun found => ?_
      split
      · exact FileTree.moves_throw _
      · exact FileTree.moves_throw _
      · exact FileTree.moves_pure_except _
  · exact FileTree.moves_pure_except _

theorem looks_filtered (htools : tools.OnlyLook) (filter : Option String) (path : String)
    (value : Json) : FileTree.Looks (InputSettings.filtered tools filter path value).run := by
  unfold InputSettings.filtered
  split
  · exact FileTree.moves_pure_except _
  · refine (htools.filter _ _).lift.bind_except fun values => ?_
    split
    · exact FileTree.moves_pure_except _
    · exact FileTree.moves_throw _

theorem looks_documentsOf (htools : tools.OnlyLook) (input : InputSettings) (path : String) :
    FileTree.Looks (input.documentsOf tools system path).run := by
  refine (looks_fileStep (FileTree.looks_read path)).bind_except fun text => ?_
  refine FileTree.Moves.bind_except (FileTree.moves_pure _) fun value => ?_
  exact (looks_filtered htools _ path value).bind_except fun _ => FileTree.moves_pure_except _

theorem looks_documents (htools : tools.OnlyLook) (input : InputSettings) :
    FileTree.Looks (input.documents tools system).run := by
  refine (FileTree.Moves.mapM_except (looks_resolve htools) _).bind_except fun paths => ?_
  exact (FileTree.Moves.mapM_except (looks_documentsOf htools input) _).bind_except fun documents =>
    FileTree.moves_pure_except _

theorem write_of_run_fileStep {context path text : String}
    (h : (fileStep context (system.write path text)).run.run tree = (.ok (), tree')) :
    tree.write path text = .ok tree' := by
  have hupdate := run_fileStep_eq_ok.1 h
  simp only [system, StateT.run, FileTree.update] at hupdate
  split at hupdate
  · rename_i htree
    cases hupdate
    exact htree
  · cases hupdate

theorem write_of_run_writeFile {path text : String}
    (h : (writeFile system path text).run.run tree = (.ok (), tree')) :
    ∃ mid, tree.Extends mid ∧ mid.write path text = .ok tree' := by
  unfold writeFile at h
  split at h
  · exact ⟨tree, .refl tree, write_of_run_fileStep h⟩
  · rename_i parent _
    obtain ⟨_, mid, hmade, hwrite⟩ := run_bind_eq_ok.1 h
    have hextends := FileTree.extends_makeDirectoriesWithin (parent.length + 1) parent tree
    have hmid := run_fileStep_eq_ok.1 hmade
    simp only [FileSystem.makeDirectories] at hmid
    rw [hmid] at hextends
    exact ⟨mid, hextends, write_of_run_fileStep hwrite⟩

/-! ## Runs -/

namespace Command

variable {dir : String} {doc : Document} {text : String} {value : Json}

/-- Units that are written leave what is in a file that none of them is written to. -/
theorem keeps_run_writeUnits {units : List (Document × Json)}
    (h : (writeUnits system dir units).run.run tree = (.ok (), tree'))
    (hholds : tree.Holds (Path.join dir doc.outputName) text)
    (hothers : ∀ unit ∈ units, ¬ doc.Clashes unit.1) :
    tree'.Holds (Path.join dir doc.outputName) text := by
  induction units generalizing tree with
  | nil =>
    cases h
    exact hholds
  | cons unit units ih =>
    obtain ⟨_, mid, hfirst, hrest⟩ := run_bind_eq_ok.1 h
    refine ih hrest ?_ fun other hother => hothers other (List.mem_cons_of_mem _ hother)
    obtain ⟨made, hmade, hwrite⟩ := write_of_run_writeFile hfirst
    refine (hholds.extends hmade).write hwrite ?_
    rw [doc.getLast?_steps_join, unit.1.getLast?_steps_join]
    intro hname
    exact hothers unit List.mem_cons_self (Document.outputName_eq_iff.1 (Option.some.inj hname))

/-- A unit that is written is in its file in the end, unless a later one is written there. -/
theorem holds_run_writeUnits {before after : List (Document × Json)}
    (h : (writeUnits system dir (before ++ (doc, value) :: after)).run.run tree = (.ok (), tree'))
    (hlater : ∀ unit ∈ after, ¬ doc.Clashes unit.1) :
    tree'.Holds (Path.join dir doc.outputName) value.pretty := by
  induction before generalizing tree with
  | nil =>
    obtain ⟨_, mid, hfirst, hrest⟩ := run_bind_eq_ok.1 h
    obtain ⟨made, -, hwrite⟩ := write_of_run_writeFile hfirst
    exact keeps_run_writeUnits hrest (FileTree.holds_write hwrite) hlater
  | cons unit before ih =>
    obtain ⟨_, mid, -, hrest⟩ := run_bind_eq_ok.1 h
    exact ih hrest

/-- What a run that writes files does: it looks for its documents, expands all, and writes them. -/
theorem steps_of_run_runExpand {command : ExpandCommand} {report : Report}
    (hdir : command.outDir = some dir)
    (h : (runExpand tools system command).run.run tree = (.ok report, tree')) :
    ∃ config documents found results,
      (command.config.config system).run.run tree = (.ok config, tree) ∧
        (command.input.documents tools system).run.run tree = (.ok documents, found) ∧
        documents.mapM (Document.expand config) = .ok results ∧
        (writeUnits system dir
          (documents.zip (results.map fun result => result.1.toJson))).run.run found =
            (.ok (), tree') := by
  obtain ⟨config, tree₁, hconfig, h⟩ := run_bind_eq_ok.1 h
  obtain rfl : tree = tree₁ := by simpa only [hconfig] using looks_config command.config tree
  obtain ⟨documents, found, hdocuments, h⟩ := run_bind_eq_ok.1 h
  obtain ⟨results, tree₃, hresults, h⟩ := run_bind_eq_ok.1 h
  obtain ⟨hmap, rfl⟩ := run_pureStep_eq_ok.1 hresults
  simp only [hdir] at h
  obtain ⟨_, tree₄, hwrite, h⟩ := run_bind_eq_ok.1 h
  cases h
  exact ⟨config, documents, found, results, hconfig, hdocuments, hmap, hwrite⟩

/-- Documents of one run are written to one path exactly if they clash, which documents of one file
at different indices never do. In a run that succeeds, with whatever filters and searches, each unit
is in its file in the end unless a later document clashes with it. -/
theorem expand_loses_only_clashes (tools : Tools (StateM FileTree)) (dir : String) :
    (∀ doc doc' : Document,
        Path.join dir doc.outputName = Path.join dir doc'.outputName ↔ doc.Clashes doc') ∧
      (∀ doc doc' : Document,
        doc.path = doc'.path → doc.index ≠ doc'.index → ¬ doc.Clashes doc') ∧
      ∀ command report tree tree', command.outDir = some dir →
        (runExpand tools system command).run.run tree = (.ok report, tree') →
          ∃ config documents found,
            (command.config.config system).run.run tree = (.ok config, tree) ∧
              (command.input.documents tools system).run.run tree = (.ok documents, found) ∧
              (tools.OnlyLook → found = tree) ∧
              ∀ before doc after, documents = before ++ doc :: after →
                (∀ later ∈ after, ¬ doc.Clashes later) →
                  ∃ u count, doc.expand config = .ok (u, count) ∧
                    tree'.read (Path.join dir doc.outputName) = .ok u.toJson.pretty := by
  refine ⟨fun _ _ => Path.join_inj.trans Document.outputName_eq_iff,
    fun _ _ => Document.not_clashes_of_path_eq, fun command report tree tree' hdir h => ?_⟩
  obtain ⟨config, documents, found, results, hconfig, hdocuments, hresults, hwrite⟩ :=
    steps_of_run_runExpand hdir h
  have hfound : tools.OnlyLook → found = tree := fun htools => by
    simpa only [hdocuments, eq_comm] using looks_documents htools command.input tree
  refine ⟨config, documents, found, hconfig, hdocuments, hfound, ?_⟩
  intro before doc after heq hlater
  subst heq
  obtain ⟨front, ⟨u, count⟩, back, rfl, hlength, hdoc⟩ := exists_of_mapM_append_cons hresults
  rw [List.map_append, List.map_cons, List.zip_append (by simpa using hlength.symm)] at hwrite
  have hholds := holds_run_writeUnits hwrite fun unit hunit =>
    hlater unit.1 (List.of_mem_zip hunit).1
  exact ⟨u, count, hdoc, hholds.read⟩

/-- Two units, written as lists of their fields, in files of one stem. -/
def sameStems : FileTree :=
  ((FileTree.empty "work").plant ["work", "p", "x.json"] "[\"first\",[[]]]".toUTF8).plant
    ["work", "q", "x.json"] "[\"second\",[[]]]".toUTF8

/-- The filter that keeps each value, and the pattern that both files match. -/
def sameStemsTools : Tools (StateM FileTree) where
  filter text value := pure (if text = "." then some [value] else none)
  search pattern := if pattern = "?/x.json" then some (pure (.ok ["p/x.json", "q/x.json"])) else none

theorem onlyLook_sameStemsTools : sameStemsTools.OnlyLook where
  filter _ _ := FileTree.moves_pure _
  search pattern search h := by
    obtain ⟨-, h⟩ := Option.ite_none_right_eq_some.1 h
    cases h
    exact FileTree.moves_pure _

def expandSameStems (input : InputSettings) : ExpandCommand where
  input := input
  config := {}
  outDir := some "o"

/-- The second unit clashes with no later one, so it is in its file in the end. -/
theorem expand_loses_only_clashes_sameStems :
    let command := expandSameStems { paths := ["?/x.json"], filter := some "." }
    command.outDir = some "o" ∧
      ∃ tree' config first second,
        (runExpand sameStemsTools system command).run.run sameStems =
            (.ok { summary := some "✔ rewrote 0 call site(s) in 2 unit(s)" }, tree') ∧
          (command.config.config system).run.run sameStems = (.ok config, sameStems) ∧
          (command.input.documents sameStemsTools system).run.run sameStems =
            (.ok [first, second], sameStems) ∧
          first.path = "p/x.json" ∧ second.path = "q/x.json" ∧
          ∃ u count, second.expand config = .ok (u, count) ∧
            tree'.read (Path.join "o" second.outputName) = .ok u.toJson.pretty := by
  intro command
  have hreport : ((runExpand sameStemsTools system command).run.run sameStems).1.toOption =
      some { summary := some "✔ rewrote 0 call site(s) in 2 unit(s)" } := by decide +kernel
  have hpaths : ((command.input.documents sameStemsTools system).run.run sameStems).1.toOption.map
      (List.map Document.path) = some ["p/x.json", "q/x.json"] := by decide +kernel
  cases hrun : (runExpand sameStemsTools system command).run.run sameStems with
  | mk result tree' =>
    rw [hrun] at hreport
    cases result with
    | error e => cases hreport
    | ok report =>
      obtain rfl := Option.some.inj hreport
      obtain ⟨config, documents, found, hconfig, hdocuments, hfound, hkept⟩ :=
        (expand_loses_only_clashes sameStemsTools "o").2.2 _ _ sameStems tree' rfl hrun
      obtain rfl := hfound onlyLook_sameStemsTools
      rw [hdocuments] at hpaths
      obtain ⟨first, rest, rfl, hfirst, hrest⟩ := List.map_eq_cons_iff.1 (Option.some.inj hpaths)
      obtain ⟨second, more, rfl, hsecond, hmore⟩ := List.map_eq_cons_iff.1 hrest
      obtain rfl := List.map_eq_nil_iff.1 hmore
      exact ⟨rfl, tree', config, first, second, rfl, hconfig, hdocuments, hfirst, hsecond,
        hkept [first] second [] rfl (by simp)⟩

/-- Units in files of one stem are written to one file, so that one of them is lost. -/
theorem expand_same_stems_one_file :
    let command := expandSameStems { paths := ["p/x.json", "q/x.json"] }
    ((command.input.documents sameStemsTools system).run.run sameStems).1.toOption.map
          (List.map fun doc => (doc.path, doc.index, Path.join "o" doc.outputName)) =
        some [("p/x.json", 0, "o/x.json"), ("q/x.json", 0, "o/x.json")] ∧
      ((runExpand sameStemsTools system command).run.run sameStems).1.toOption =
        some { summary := some "✔ rewrote 0 call site(s) in 2 unit(s)" } ∧
      ((runExpand sameStemsTools system command).run.run sameStems).2.files.map Prod.fst =
        ["p/x.json", "q/x.json", "o/x.json"] := by
  decide +kernel

end Command

end

end SchemaSynth
