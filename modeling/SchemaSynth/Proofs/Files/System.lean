import Mathlib.Order.RelClasses
import SchemaSynth.Files.Glob
import SchemaSynth.Proofs.Files.Tree

/-!
# Programs on trees of files

`Moves R x` says that the program `x` leads from every tree to one that the relation `R` holds of.
What only looks at files leaves the tree as it is, and so does a search for the files of a pattern.
What makes directories leaves all that was there.
-/

namespace SchemaSynth

namespace FileTree

/-- From each tree, a program goes to one that the relation holds of. -/
def Moves (R : FileTree → FileTree → Prop) {α : Type} (x : StateM FileTree α) : Prop :=
  ∀ tree, R tree (x.run tree).2

section

variable {R : FileTree → FileTree → Prop} [IsPreorder FileTree R] {ε α β : Type}

theorem moves_pure (a : α) : Moves R (pure a) := fun tree => refl_of R tree

theorem Moves.bind {x : StateM FileTree α} {f : α → StateM FileTree β} (hx : Moves R x)
    (hf : ∀ a, Moves R (f a)) : Moves R (x >>= f) := fun tree => trans_of R (hx tree) (hf _ _)

theorem moves_pure_except (a : α) : Moves R (pure a : ExceptT ε (StateM FileTree) α).run :=
  moves_pure _

theorem moves_throw (e : ε) : Moves R (throw e : ExceptT ε (StateM FileTree) α).run :=
  moves_pure _

theorem Moves.bind_except {x : ExceptT ε (StateM FileTree) α}
    {f : α → ExceptT ε (StateM FileTree) β} (hx : Moves R x.run) (hf : ∀ a, Moves R (f a).run) :
    Moves R (x >>= f).run := by
  rw [ExceptT.run_bind]
  refine hx.bind fun result => ?_
  cases result with
  | ok a => exact hf a
  | error e => exact moves_pure _

theorem Moves.mapM_except {f : α → ExceptT ε (StateM FileTree) β}
    (h : ∀ x, Moves R (f x).run) (xs : List α) : Moves R (xs.mapM f).run := by
  induction xs with
  | nil => exact moves_pure _
  | cons x xs ih =>
    rw [List.mapM_cons]
    exact (h x).bind_except fun _ => ih.bind_except fun _ => moves_pure_except _

theorem Moves.lift {x : StateM FileTree α} (hx : Moves R x) :
    Moves R (liftM x : ExceptT ε (StateM FileTree) α).run :=
  hx.bind fun _ => moves_pure _

end

/-- A program that only looks. -/
abbrev Looks {α : Type} (x : StateM FileTree α) : Prop := Moves Eq x

theorem looks_read (path : String) : Looks (system.read path) := fun _ => rfl

theorem looks_kind? (path : String) : Looks (system.kind? path) := fun _ => rfl

theorem looks_names (path : String) : Looks (system.names path) := fun _ => rfl

theorem looks_isDirectory (path : String) : Looks (system.isDirectory path) :=
  (looks_kind? path).bind fun _ => moves_pure _

/-! ## Searches -/

section

open Glob

variable {directories : Bool} {path name : String}

theorem looks_lookUp : Looks (lookUp system path name) := by
  unfold lookUp
  simp only
  split
  · exact (looks_isDirectory path).bind fun _ => moves_pure _
  · exact (looks_kind? _).bind fun _ => moves_pure _

theorem looks_sortedNames : Looks (sortedNames system path).run := by
  refine (looks_names path).lift.bind_except fun result => ?_
  cases result with
  | ok names => exact moves_pure_except _
  | error e => exact moves_throw _

variable {search : List NamePattern → String → Search (StateM FileTree)}

theorem looks_gather {α : Type} {search : α → Search (StateM FileTree)}
    (h : ∀ x, Looks (search x).run) (xs : List α) : Looks (gather search xs).run := by
  induction xs with
  | nil => exact moves_pure_except _
  | cons x xs ih =>
    exact (h x).bind_except fun _ => ih.bind_except fun _ => moves_pure_except _

theorem looks_visit (h : ∀ patterns path, Looks (search patterns path).run)
    (patterns : List NamePattern) : Looks (visit system search patterns path name).run := by
  unfold visit
  split
  · exact moves_pure_except _
  · split
    · exact h _ _
    · exact moves_pure_except _
  · refine (looks_isDirectory path).lift.bind_except fun isDirectory => ?_
    -- what is found below the entry follows each way of looking at the entry itself
    have hbelow : ∀ (here : List String) (patterns : List NamePattern),
        Looks (if isDirectory = true then search patterns path >>= fun below => pure (here ++ below)
          else pure [] >>= fun below => pure (here ++ below) : Search (StateM FileTree)).run := by
      intro here patterns
      split
      · exact (h _ _).bind_except fun _ => moves_pure_except _
      · exact moves_pure_except _
    simp only
    split
    · exact hbelow _ _
    · split
      · exact (h _ _).bind_except fun here => hbelow here _
      · exact hbelow _ _

theorem looks_findFrom (levels : Nat) (patterns : List NamePattern) :
    Looks (findFrom system directories levels patterns path).run := by
  induction levels generalizing patterns path with
  | zero => exact moves_pure_except _
  | succ levels ih =>
    cases patterns with
    | nil =>
      unfold findFrom
      split
      · exact (looks_isDirectory path).lift.bind_except fun _ => moves_pure_except _
      · exact moves_pure_except _
    | cons pattern rest =>
      unfold findFrom
      split
      · refine looks_lookUp.lift.bind_except fun next => ?_
        cases next with
        | none => exact moves_pure_except _
        | some next => exact ih _
      · refine (looks_isDirectory path).lift.bind_except fun isDirectory => ?_
        split
        · refine (looks_gather (fun _ => ih _) _).bind_except fun _ => ?_
          refine looks_sortedNames.bind_except fun _ => ?_
          refine (looks_gather (fun _ => looks_visit (fun _ _ => ih _) _) _).bind_except fun _ => ?_
          exact moves_pure_except _
        · exact moves_pure_except _

theorem looks_find (glob : Glob) : Looks (glob.find system).run := by
  unfold find
  split
  · exact moves_pure_except _
  · exact looks_findFrom _ _

end

/-! ## Making directories -/

instance : IsPreorder FileTree Extends where
  refl := .refl
  trans _ _ _ := .trans

theorem Looks.extends {α : Type} {x : StateM FileTree α} (h : Looks x) : Moves Extends x :=
  fun tree => h tree ▸ .refl tree

theorem extends_system_makeDirectory (path : String) :
    Moves Extends (system.makeDirectory path) := by
  intro tree
  simp only [system, StateT.run, update]
  split
  · rename_i h
    exact extends_makeDirectory h
  · exact .refl tree

theorem extends_ensureDirectory (path : String) : Moves Extends (system.ensureDirectory path) := by
  refine (extends_system_makeDirectory path).bind fun result => ?_
  cases result with
  | ok => exact moves_pure _
  | error e => exact (looks_isDirectory path).extends.bind fun _ => moves_pure _

theorem extends_makeDirectoriesWithin (levels : Nat) (path : String) :
    Moves Extends (system.makeDirectoriesWithin levels path) := by
  induction levels generalizing path with
  | zero => exact moves_pure _
  | succ levels ih =>
    unfold FileSystem.makeDirectoriesWithin
    split
    · exact moves_pure _
    · refine (extends_ensureDirectory path).bind fun result => ?_
      split
      · split
        · exact moves_pure _
        · refine (ih _).bind fun made => ?_
          cases made with
          | ok => exact extends_ensureDirectory path
          | error => exact moves_pure _
      · exact moves_pure _

end FileTree

end SchemaSynth
