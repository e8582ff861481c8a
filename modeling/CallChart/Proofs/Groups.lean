import CallChart.Proofs.Addresses
import Mathlib.Algebra.Order.BigOperators.Group.List
import Mathlib.Algebra.Ring.Nat
import Mathlib.Data.List.Induction

/-!
# What a grouping of symbols holds

`Grouping.Groups` says what a grouping holds by looking at it from the top : the functions at an
address, and the names of the directories, files and classes on each level. A name stands where it
was first needed, since entering a symbol leaves the names of every level as they are or puts one
behind them (`Grouping.keys_directoriesAt_insert`, `Grouping.keys_filesAt_insert`,
`Grouping.keys_classesAt_insert`), and that is how names are listed in the order of their first
appearance (`Grouping.eraseDups_of_insert`). Entering a symbol counts one function more
(`Grouping.functionCount_update`).

Main statement : `Grouping.ofSymbols_groups`.
-/

namespace List

variable {α : Type*} [BEq α] [LawfulBEq α]

/-- The first appearances in a list with one more element. -/
theorem eraseDups_concat (l : List α) (a : α) :
    (l ++ [a]).eraseDups = if a ∈ l.eraseDups then l.eraseDups else l.eraseDups ++ [a] := by
  rw [eraseDups_append]
  by_cases h : a ∈ l <;> simp [removeAll, h, eraseDups_cons]

end List

namespace CallChart

/-! ## Names on a level -/

namespace Entries

/-- Names with one more, if there is one. A name that is there keeps its place. -/
def addName (names : List String) : Option String → List String
  | none => names
  | some name => if name ∈ names then names else names ++ [name]

variable {α : Type} {k : String} {f : Option α → α}

theorem keys_alter_eq_addName (es : Entries α) : keys (alter k f es) = addName (keys es) (some k) :=
  keys_alter k f es

/-- A change that gives its entry one thing more to count, gives the table one more. -/
theorem sum_alter (count : α → Nat) (hf : ∀ o, count (f o) = o.elim 0 count + 1) :
    ∀ es : Entries α,
      ((alter k f es).map fun e => count e.2).sum = (es.map fun e => count e.2).sum + 1
  | [] => by simp [alter, hf]
  | (key, a) :: es => by
    have hrest := sum_alter count hf es
    by_cases hkey : key = k
    · simp only [alter, if_pos hkey, List.map_cons, List.sum_cons, hf, Option.elim_some]
      omega
    · simp only [alter, if_neg hkey, List.map_cons, List.sum_cons]
      omega

end Entries

namespace Grouping

open Entries (addName)

/-- The directories of the level that directories lead to, none where there is no such level. -/
def directoriesAt : List String → Grouping → List (String × Grouping)
  | [], .level _ directories => directories
  | name :: path, .level _ directories => directoriesAt path ((directories.lookup name).getD empty)

/-- The classes of a file of a level. -/
def classesAt (path : List String) (file : String) (g : Grouping) : Classes :=
  ((filesAt path g).lookup file).getD []

/-- The directory that comes behind `path` on the way along `steps`. -/
def nextDirectory? (path steps : List String) : Option String :=
  if path.isPrefixOf steps then steps[path.length]? else none

/-- What a grouping holds that has the functions of `symbols` and no more. On every level the names
stand in the order in which the symbols first need them. -/
structure Groups (root : Option Path) (symbols : List Symbol) (g : Grouping) : Prop where
  functions : ∀ path file owner, functionsAt g ⟨path, file, owner⟩ =
    (symbols.filter fun s =>
      directoriesOf root s = path ∧ s.fileStem = file ∧ s.groupingClass = owner).map Symbol.name
  directories : ∀ path, Entries.keys (directoriesAt path g) =
    (symbols.filterMap fun s => nextDirectory? path (directoriesOf root s)).eraseDups
  files : ∀ path, Entries.keys (filesAt path g) =
    ((symbols.filter fun s => directoriesOf root s = path).map Symbol.fileStem).eraseDups
  classes : ∀ path file, Entries.keys (classesAt path file g) =
    ((symbols.filter fun s =>
      directoriesOf root s = path ∧ s.fileStem = file).map Symbol.groupingClass).eraseDups
  directory_filled : ∀ path, ∀ d ∈ directoriesAt path g, d.2.hasFunctions = true
  file_filled : ∀ path, ∀ f ∈ filesAt path g, fileHasFunctions f.2 = true
  class_filled : ∀ path file, ∀ c ∈ classesAt path file g, c.2 ≠ []

/-! ## Entering one symbol -/

theorem keys_directoriesAt_update (f : Entries Classes → Entries Classes) :
    ∀ (steps path : List String) (g : Grouping),
      Entries.keys (directoriesAt path (updateFiles f steps g)) =
        addName (Entries.keys (directoriesAt path g)) (nextDirectory? path steps)
  | [], [], .level _ _ => rfl
  | [], _ :: _, .level _ _ => rfl
  | step :: steps, [], .level _ directories => Entries.keys_alter_eq_addName directories
  | step :: steps, name :: path, .level files directories => by
    rw [updateFiles, directoriesAt, directoriesAt, Entries.lookup_alter]
    by_cases h : name = step
    · subst h
      rw [if_pos rfl, Option.getD_some, keys_directoriesAt_update f steps path]
      simp [nextDirectory?]
    · have hnone : nextDirectory? (name :: path) (step :: steps) = none := by
        simp [nextDirectory?, h]
      rw [if_neg h, hnone, addName]

section Insert

variable (root : Option Path) (s : Symbol) (path : List String) (file : String) (g : Grouping)

theorem keys_directoriesAt_insert :
    Entries.keys (directoriesAt path (insert root g s)) =
      addName (Entries.keys (directoriesAt path g)) (nextDirectory? path (directoriesOf root s)) :=
  keys_directoriesAt_update _ (directoriesOf root s) path g

theorem keys_filesAt_insert :
    Entries.keys (filesAt path (insert root g s)) =
      addName (Entries.keys (filesAt path g))
        (if directoriesOf root s = path then some s.fileStem else none) := by
  rw [insert, filesAt_updateFiles]
  by_cases h : path = directoriesOf root s
  · rw [if_pos h, if_pos h.symm, h]
    exact Entries.keys_alter_eq_addName _
  · rw [if_neg h, if_neg (Ne.symm h), addName]

theorem keys_classesAt_insert :
    Entries.keys (classesAt path file (insert root g s)) =
      addName (Entries.keys (classesAt path file g))
        (if directoriesOf root s = path ∧ s.fileStem = file then some s.groupingClass
          else none) := by
  rw [classesAt, insert, filesAt_updateFiles]
  by_cases hpath : path = directoriesOf root s
  · rw [if_pos hpath, updateClass, Entries.lookup_alter]
    by_cases hfile : file = s.fileStem
    · rw [if_pos hfile, if_pos ⟨hpath.symm, hfile.symm⟩, classesAt, hpath, hfile]
      exact Entries.keys_alter_eq_addName _
    · rw [if_neg hfile, if_neg fun h => hfile h.2.symm, classesAt, hpath, addName]
  · rw [if_neg hpath, if_neg fun h => hpath h.1.symm, classesAt, addName]

end Insert

/-! ## Counting functions -/

theorem fileFunctionCount_eq : ∀ classes : Classes,
    fileFunctionCount classes = (classes.map fun c => c.2.length).sum
  | [] => rfl
  | (owner, functions) :: classes => by
    rw [fileFunctionCount, fileFunctionCount_eq classes, List.map_cons, List.sum_cons]

theorem filesFunctionCount_eq : ∀ files : Entries Classes,
    filesFunctionCount files = (files.map fun f => fileFunctionCount f.2).sum
  | [] => rfl
  | (file, classes) :: files => by
    rw [filesFunctionCount, filesFunctionCount_eq files, List.map_cons, List.sum_cons]

theorem totalCount_eq : ∀ directories : List (String × Grouping),
    totalCount directories = (directories.map fun d => d.2.functionCount).sum
  | [] => rfl
  | (name, g) :: rest => by
    rw [totalCount, totalCount_eq rest, List.map_cons, List.sum_cons]

/-- Entering a name counts one function more. -/
theorem functionCount_update (file owner name : String) : ∀ (path : List String) (g : Grouping),
    (updateFiles (updateClass file owner (· ++ [name])) path g).functionCount =
      g.functionCount + 1
  | [], .level files directories => by
    have hclass : ∀ o : Option (List String), (o.getD [] ++ [name]).length =
        o.elim 0 List.length + 1 := by
      rintro (_ | functions) <;> simp
    have hfile : ∀ o : Option Classes, fileFunctionCount (Entries.alter owner
        (fun functions => functions.getD [] ++ [name]) (o.getD [])) =
          o.elim 0 fileFunctionCount + 1 := by
      intro o
      rw [fileFunctionCount_eq, Entries.sum_alter List.length hclass, ← fileFunctionCount_eq]
      cases o <;> rfl
    rw [updateFiles, functionCount, functionCount, filesFunctionCount_eq, updateClass,
      Entries.sum_alter fileFunctionCount hfile, ← filesFunctionCount_eq]
    omega
  | step :: path, .level files directories => by
    have hbelow : ∀ o : Option Grouping, functionCount (updateFiles
        (updateClass file owner (· ++ [name])) path (o.getD empty)) =
          o.elim 0 functionCount + 1 := by
      intro o
      rw [functionCount_update file owner name path]
      cases o <;> rfl
    rw [updateFiles, functionCount, functionCount, totalCount_eq,
      Entries.sum_alter functionCount hbelow, ← totalCount_eq]
    omega

/-- There is a function in a grouping if any are counted. -/
theorem hasFunctions_iff_functionCount (g : Grouping) :
    g.hasFunctions = true ↔ 0 < g.functionCount := by
  have hfile : ∀ classes : Classes,
      fileHasFunctions classes = true ↔ 0 < fileFunctionCount classes := by
    intro classes
    rw [fileFunctionCount_eq, List.sum_pos_iff_exists_pos_nat]
    simp [fileHasFunctions, List.length_pos_iff]
  induction g using induct with
  | level files directories ih =>
    rw [hasFunctions, functionCount, anyHave_eq, filesFunctionCount_eq, totalCount_eq,
      Bool.or_eq_true, Nat.add_pos_iff_pos_or_pos, List.any_eq_true, List.any_eq_true,
      List.sum_pos_iff_exists_pos_nat, List.sum_pos_iff_exists_pos_nat]
    simp only [List.mem_map, exists_exists_and_eq_and]
    exact or_congr (exists_congr fun f => and_congr_right fun _ => hfile f.2)
      (exists_congr fun d => and_congr_right fun hd => ih d hd)

/-! ## Levels of a tidy grouping -/

/-- The level that a directory of a tidy grouping leads to is tidy. -/
theorem tidy_getD_lookup {directories : List (String × Grouping)} (h : ∀ d ∈ directories, Tidy d.2)
    (name : String) : Tidy ((directories.lookup name).getD empty) := by
  cases hname : directories.lookup name with
  | none => exact tidy_empty
  | some sub => exact h _ (Entries.mem_of_lookup_eq_some hname)

theorem Tidy.tidyFile_of_mem_filesAt : ∀ (path : List String) {g : Grouping}, Tidy g →
    ∀ f ∈ filesAt path g, TidyFile f.2
  | [], .level _ _, .level _ htidy _ _ _ => htidy
  | name :: path, .level _ _, .level _ _ _ _ hbelow =>
    tidyFile_of_mem_filesAt path (tidy_getD_lookup hbelow name)

theorem Tidy.hasFunctions_of_mem_directoriesAt : ∀ (path : List String) {g : Grouping}, Tidy g →
    ∀ d ∈ directoriesAt path g, d.2.hasFunctions = true
  | [], .level _ _, .level _ _ _ hfilled _ => hfilled
  | name :: path, .level _ _, .level _ _ _ _ hbelow =>
    hasFunctions_of_mem_directoriesAt path (tidy_getD_lookup hbelow name)

theorem TidyFile.hasFunctions {classes : Classes} (h : TidyFile classes) :
    fileHasFunctions classes = true := by
  obtain ⟨c, rest, rfl⟩ := List.exists_cons_of_ne_nil h.ne_nil
  exact List.any_eq_true.2 ⟨c, List.mem_cons_self, by simpa using h.filled c List.mem_cons_self⟩

theorem Tidy.ne_nil_of_mem_classesAt {g : Grouping} (h : Tidy g) (path : List String)
    (file : String) : ∀ c ∈ classesAt path file g, c.2 ≠ [] := by
  intro c hc
  rw [classesAt] at hc
  cases hfile : (filesAt path g).lookup file with
  | none => simp [hfile] at hc
  | some classes =>
    rw [hfile] at hc
    exact (h.tidyFile_of_mem_filesAt path _ (Entries.mem_of_lookup_eq_some hfile)).filled c hc

/-! ## Entering symbols one after another -/

theorem ofSymbols_concat (root : Option Path) (symbols : List Symbol) (s : Symbol) :
    ofSymbols root (symbols ++ [s]) = insert root (ofSymbols root symbols) s :=
  List.foldl_concat _ _ _ _

/-- Names that each symbol either leaves as they are or adds one to are listed in the order of
their first appearance. -/
theorem eraseDups_of_insert {root : Option Path} (names : Grouping → List String)
    {new : Symbol → Option String} (hempty : names empty = [])
    (hinsert : ∀ s g, names (insert root g s) = addName (names g) (new s))
    (symbols : List Symbol) :
    names (ofSymbols root symbols) = (symbols.filterMap new).eraseDups := by
  induction symbols using List.reverseRecOn with
  | nil => exact hempty
  | append_singleton symbols s ih =>
    rw [ofSymbols_concat, hinsert, ih, List.filterMap_append]
    cases hnew : new s with
    | none => simp [hnew, addName]
    | some name => simp [hnew, addName, List.eraseDups_concat]

theorem functionCount_ofSymbols (root : Option Path) (symbols : List Symbol) :
    (ofSymbols root symbols).functionCount = symbols.length := by
  induction symbols using List.reverseRecOn with
  | nil => rfl
  | append_singleton symbols s ih =>
    rw [ofSymbols_concat, insert, functionCount_update, ih, List.length_append,
      List.length_singleton]

theorem directoriesAt_empty (path : List String) : directoriesAt path empty = [] := by
  induction path with
  | nil => rfl
  | cons name path ih => exact ih

/-- The grouping of symbols has each of them once, at its address and in their order, and nothing
else : no directory, no file and no class without functions, and on every level the names in the
order of their first appearance. It counts as many functions as there are symbols. Of any grouping,
also of one with reserved places, it is told whether it has functions by counting them. -/
theorem ofSymbols_groups (root : Option Path) (symbols : List Symbol) :
    Groups root symbols (ofSymbols root symbols) ∧
      (ofSymbols root symbols).functionCount = symbols.length ∧
      ∀ g : Grouping, g.hasFunctions = true ↔ 0 < g.functionCount := by
  have htidy := tidy_ofSymbols root symbols
  refine ⟨⟨fun path file owner => ?_, fun path => ?_, fun path => ?_, fun path file => ?_,
    htidy.hasFunctions_of_mem_directoriesAt,
    fun path f hf => (htidy.tidyFile_of_mem_filesAt path f hf).hasFunctions,
    htidy.ne_nil_of_mem_classesAt⟩, functionCount_ofSymbols root symbols,
    hasFunctions_iff_functionCount⟩
  · rw [functionsAt_ofSymbols]
    simp only [Symbol.address, Address.mk.injEq]
  · refine eraseDups_of_insert (fun g => Entries.keys (directoriesAt path g)) ?_ ?_ symbols
    · simp [directoriesAt_empty]
    · exact fun s g => keys_directoriesAt_insert root s path g
  · refine (eraseDups_of_insert (fun g => Entries.keys (filesAt path g)) ?_
      (fun s g => keys_filesAt_insert root s path g) symbols).trans ?_
    · simp [filesAt_empty]
    · simp [← List.filterMap_eq_map, List.filterMap_filter]
  · refine (eraseDups_of_insert (fun g => Entries.keys (classesAt path file g)) ?_
      (fun s g => keys_classesAt_insert root s path file g) symbols).trans ?_
    · simp [classesAt, filesAt_empty]
    · simp [← List.filterMap_eq_map, List.filterMap_filter]

end Grouping

end CallChart
