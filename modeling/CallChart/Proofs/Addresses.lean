import CallChart.Grouping
import CallChart.Proofs.Tables
import Mathlib.Data.List.Nodup

/-!
# Addresses in a grouping

A function stands in a grouping at an `Address`, that is directories, a file and a class. There are
two ways to look at a grouping by addresses. `functionsAt` goes down from the top to the functions
at one address, and `leaves` lists all addresses with their functions, level by level. In a
grouping that is `Tidy`, with every name once on its level and nothing empty, the two say the same
(`functionsAt_of_mem_leaves`, `mem_leaves_functionsAt`), and no address is listed twice
(`Tidy.nodup_addresses`).

Entering a symbol puts its name behind the others at its address and changes no other address
(`functionsAt_insert`). So the grouping of symbols is tidy (`tidy_ofSymbols`) and has at each
address the names of the symbols that belong there, in order (`functionsAt_ofSymbols`).
-/

namespace CallChart

/-- Where a function stands in a grouping. -/
@[ext]
structure Address where
  directories : List String
  file : String
  owner : String
  deriving DecidableEq

/-- The address seen from the directory above. -/
def Address.under (name : String) (a : Address) : Address :=
  { a with directories := name :: a.directories }

/-- Where a symbol belongs. -/
def Symbol.address (root : Option Path) (s : Symbol) : Address :=
  ⟨Grouping.directoriesOf root s, s.fileStem, s.groupingClass⟩

/-! ## Changed entries -/

namespace Entries

variable {α : Type} {k : String} {f : Option α → α}

/-- What stands in a table after a change stood there before, or is what was changed. -/
theorem mem_alter {e : String × α} : ∀ {es : Entries α}, e ∈ alter k f es →
    e ∈ es ∨ ∃ o, (∀ a ∈ o, (k, a) ∈ es) ∧ e = (k, f o)
  | [], h => .inr ⟨none, by simp, List.mem_singleton.1 h⟩
  | (key, a) :: es, h => by
    by_cases hkey : key = k
    · subst hkey
      rw [alter, if_pos rfl, List.mem_cons] at h
      rcases h with rfl | h
      · exact .inr ⟨some a, by simp, rfl⟩
      · exact .inl (List.mem_cons_of_mem _ h)
    · rw [alter, if_neg hkey, List.mem_cons] at h
      rcases h with rfl | h
      · exact .inl List.mem_cons_self
      · rcases mem_alter h with h | ⟨o, ho, rfl⟩
        · exact .inl (List.mem_cons_of_mem _ h)
        · exact .inr ⟨o, fun a ha => List.mem_cons_of_mem _ (ho a ha), rfl⟩

/-- What was changed stands in the table after the change. -/
theorem changed_mem_alter : ∀ es : Entries α,
    ∃ o, (∀ a ∈ o, (k, a) ∈ es) ∧ (k, f o) ∈ alter k f es
  | [] => ⟨none, by simp, List.mem_singleton.2 rfl⟩
  | (key, a) :: es => by
    by_cases hkey : key = k
    · subst hkey
      exact ⟨some a, by simp, by simp [alter]⟩
    · obtain ⟨o, ho, hmem⟩ := changed_mem_alter es
      refine ⟨o, fun a ha => List.mem_cons_of_mem _ (ho a ha), ?_⟩
      rw [alter, if_neg hkey]
      exact List.mem_cons_of_mem _ hmem

end Entries

namespace Grouping

/-! ## Looking up an address -/

/-- The files of the level that directories lead to, none where there is no such level. -/
def filesAt : List String → Grouping → Entries Classes
  | [], .level files _ => files
  | name :: path, .level _ directories => filesAt path ((directories.lookup name).getD empty)

/-- The functions of a class of a file. -/
def functionsOf (file owner : String) (files : Entries Classes) : List String :=
  (((files.lookup file).getD []).lookup owner).getD []

/-- The functions at an address. -/
def functionsAt (g : Grouping) (a : Address) : List String :=
  functionsOf a.file a.owner (filesAt a.directories g)

theorem filesAt_empty : ∀ path : List String, filesAt path empty = []
  | [] => rfl
  | _ :: path => filesAt_empty path

theorem functionsAt_empty (a : Address) : functionsAt empty a = [] := by
  rw [functionsAt, filesAt_empty]
  rfl

/-- Changing the files of a level changes no other level. -/
theorem filesAt_updateFiles (f : Entries Classes → Entries Classes) :
    ∀ (path path' : List String) (g : Grouping), filesAt path' (updateFiles f path g) =
      if path' = path then f (filesAt path g) else filesAt path' g
  | [], [], .level _ _ => by simp [updateFiles, filesAt]
  | [], _ :: _, .level _ _ => by simp [updateFiles, filesAt]
  | _ :: _, [], .level _ _ => by simp [updateFiles, filesAt]
  | name :: path, name' :: path', .level files directories => by
    rw [updateFiles, filesAt, filesAt, filesAt, Entries.lookup_alter]
    by_cases h : name' = name
    · subst h
      rw [if_pos rfl, Option.getD_some, filesAt_updateFiles f path path']
      simp
    · simp [h]

theorem functionsOf_updateClass (file file' owner owner' : String)
    (f : List String → List String) (files : Entries Classes) :
    functionsOf file' owner' (updateClass file owner f files) =
      if file' = file ∧ owner' = owner then f (functionsOf file owner files)
      else functionsOf file' owner' files := by
  rw [functionsOf, updateClass, Entries.lookup_alter]
  by_cases hfile : file' = file
  · subst hfile
    rw [if_pos rfl, Option.getD_some, Entries.lookup_alter]
    by_cases howner : owner' = owner
    · subst howner
      simp [functionsOf]
    · simp [functionsOf, howner]
  · simp [functionsOf, hfile]

/-- Changing the functions at an address changes no other address. -/
theorem functionsAt_update (path : List String) (file owner : String)
    (f : List String → List String) (g : Grouping) (a : Address) :
    functionsAt (updateFiles (updateClass file owner f) path g) a =
      if a = ⟨path, file, owner⟩ then f (functionsAt g a) else functionsAt g a := by
  obtain ⟨path', file', owner'⟩ := a
  rw [functionsAt, functionsAt, filesAt_updateFiles]
  by_cases hpath : path' = path
  · subst hpath
    rw [if_pos rfl, functionsOf_updateClass]
    by_cases h : file' = file ∧ owner' = owner
    · obtain ⟨rfl, rfl⟩ := h
      simp
    · simp [h]
  · simp [hpath]

/-- A symbol is entered behind the others of its address. -/
theorem functionsAt_insert (root : Option Path) (g : Grouping) (s : Symbol) (a : Address) :
    functionsAt (insert root g s) a =
      functionsAt g a ++ if s.address root = a then [s.name] else [] := by
  rw [insert, functionsAt_update, Symbol.address]
  by_cases h : a = ⟨directoriesOf root s, s.fileStem, s.groupingClass⟩
  · rw [if_pos h, if_pos h.symm]
  · rw [if_neg h, if_neg (Ne.symm h), List.append_nil]

/-- At each address stand the names of the symbols that belong there, in order. -/
theorem functionsAt_ofSymbols (root : Option Path) (a : Address) (symbols : List Symbol) :
    functionsAt (ofSymbols root symbols) a =
      (symbols.filter fun s => s.address root = a).map Symbol.name := by
  have hfoldl : ∀ (symbols : List Symbol) (g : Grouping),
      functionsAt (symbols.foldl (insert root) g) a =
        functionsAt g a ++ (symbols.filter fun s => s.address root = a).map Symbol.name := by
    intro symbols
    induction symbols with
    | nil => simp
    | cons s symbols ih =>
      intro g
      rw [List.foldl_cons, ih, functionsAt_insert, List.append_assoc, List.filter_cons]
      by_cases h : s.address root = a <;> simp [h]
  rw [ofSymbols, hfoldl, functionsAt_empty, List.nil_append]

/-! ## Listing the addresses -/

mutual

/-- Every class of a grouping with its address and its functions, files before directories. -/
def leaves : Grouping → List (Address × List String)
  | .level files directories =>
    (files.flatMap fun f => f.2.map fun c => (⟨[], f.1, c.1⟩, c.2)) ++ directoryLeaves directories

def directoryLeaves : List (String × Grouping) → List (Address × List String)
  | [] => []
  | (name, g) :: rest => (leaves g).map (fun l => (l.1.under name, l.2)) ++ directoryLeaves rest

end

theorem directoryLeaves_eq : ∀ directories : List (String × Grouping),
    directoryLeaves directories =
      directories.flatMap fun d => (leaves d.2).map fun l => (l.1.under d.1, l.2)
  | [] => rfl
  | (name, g) :: rest => by rw [directoryLeaves, directoryLeaves_eq rest, List.flatMap_cons]

theorem mem_leaves_level {files : Entries Classes} {directories : List (String × Grouping)}
    {a : Address} {functions : List String} :
    (a, functions) ∈ leaves (.level files directories) ↔
      (∃ f ∈ files, ∃ c ∈ f.2, a = ⟨[], f.1, c.1⟩ ∧ functions = c.2) ∨
      ∃ d ∈ directories, ∃ a', (a', functions) ∈ leaves d.2 ∧ a = a'.under d.1 := by
  rw [leaves, directoryLeaves_eq, List.mem_append, List.mem_flatMap, List.mem_flatMap]
  simp only [List.mem_map, Prod.mk.injEq, Prod.exists]
  grind

/-- What holds of a level if it holds of the directories in it, holds of every grouping. -/
theorem induct {P : Grouping → Prop} (level : ∀ files directories,
    (∀ d ∈ directories, P d.2) → P (.level files directories)) : ∀ g, P g
  | .level files directories => level files directories fun d hd =>
    have : sizeOf d.2 < sizeOf directories :=
      Nat.lt_trans (by cases d; simp only [Prod.mk.sizeOf_spec]; omega) (List.sizeOf_lt_of_mem hd)
    induct level d.2

/-- Functions found at an address are listed with it. -/
theorem mem_leaves_functionsAt (g : Grouping) : ∀ a, functionsAt g a ≠ [] →
    (a, functionsAt g a) ∈ leaves g := by
  induction g using induct with
  | level files directories ih =>
    rintro ⟨_ | ⟨name, path⟩, file, owner⟩ ha
    · simp only [functionsAt, filesAt, functionsOf] at ha ⊢
      cases hfile : files.lookup file with
      | none => simp [hfile] at ha
      | some classes =>
        cases howner : classes.lookup owner with
        | none => simp [hfile, howner] at ha
        | some functions =>
          simp only [howner, Option.getD_some]
          exact mem_leaves_level.2 (.inl ⟨_, Entries.mem_of_lookup_eq_some hfile, _,
            Entries.mem_of_lookup_eq_some howner, rfl, rfl⟩)
    · have hdown : functionsAt (.level files directories) ⟨name :: path, file, owner⟩ =
          functionsAt ((directories.lookup name).getD empty) ⟨path, file, owner⟩ := rfl
      rw [hdown] at ha ⊢
      cases hname : directories.lookup name with
      | none => simp [hname, functionsAt_empty] at ha
      | some sub =>
        rw [hname, Option.getD_some] at ha
        exact mem_leaves_level.2 (.inr ⟨_, Entries.mem_of_lookup_eq_some hname, _,
          ih _ (Entries.mem_of_lookup_eq_some hname) _ ha, rfl⟩)

/-! ## Tidy groupings -/

/-- A file with classes of distinct names, each with functions. -/
structure TidyFile (classes : Classes) : Prop where
  nodup : (Entries.keys classes).Nodup
  ne_nil : classes ≠ []
  filled : ∀ c ∈ classes, c.2 ≠ []

/-- Every name stands once on its level, and nothing is empty. -/
inductive Tidy : Grouping → Prop
  | level {files : Entries Classes} {directories : List (String × Grouping)}
    (nodup_files : (Entries.keys files).Nodup) (tidyFile : ∀ f ∈ files, TidyFile f.2)
    (nodup_directories : (Entries.keys directories).Nodup)
    (filled : ∀ d ∈ directories, d.2.hasFunctions = true)
    (below : ∀ d ∈ directories, Tidy d.2) : Tidy (.level files directories)

theorem tidy_empty : Tidy empty :=
  .level (by simp) (by simp) (by simp) (by simp) (by simp)

/-- What is listed with an address is found there. -/
theorem Tidy.functionsAt_of_mem_leaves {g : Grouping} (h : Tidy g) :
    ∀ a functions, (a, functions) ∈ leaves g → functionsAt g a = functions := by
  induction h with
  | @level files directories hfiles htidy hdirectories hfilled hbelow ih =>
    intro a functions hmem
    rcases mem_leaves_level.1 hmem with ⟨f, hf, c, hc, rfl, rfl⟩ | ⟨d, hd, a', ha', rfl⟩
    · have hfile : files.lookup f.1 = some f.2 := Entries.lookup_eq_some_of_mem hfiles hf
      have howner : f.2.lookup c.1 = some c.2 :=
        Entries.lookup_eq_some_of_mem (htidy f hf).nodup hc
      simp [functionsAt, filesAt, functionsOf, hfile, howner]
    · have hname : directories.lookup d.1 = some d.2 :=
        Entries.lookup_eq_some_of_mem hdirectories hd
      rw [← ih d hd a' functions ha']
      simp [functionsAt, filesAt, Address.under, hname]

theorem Tidy.ne_nil_of_mem_leaves {g : Grouping} (h : Tidy g) :
    ∀ a functions, (a, functions) ∈ leaves g → functions ≠ [] := by
  induction h with
  | @level files directories hfiles htidy hdirectories hfilled hbelow ih =>
    intro a functions hmem
    rcases mem_leaves_level.1 hmem with ⟨f, hf, c, hc, -, rfl⟩ | ⟨d, hd, a', ha', -⟩
    · exact (htidy f hf).filled c hc
    · exact ih d hd a' functions ha'

theorem pairwise_keys_ne {α : Type} {es : Entries α} (h : (Entries.keys es).Nodup) :
    es.Pairwise fun e e' => e.1 ≠ e'.1 :=
  List.pairwise_map.1 h

/-- No address is listed twice. -/
theorem Tidy.nodup_addresses {g : Grouping} (h : Tidy g) : ((leaves g).map Prod.fst).Nodup := by
  induction h with
  | @level files directories hfiles htidy hdirectories hfilled hbelow ih =>
    rw [leaves, directoryLeaves_eq, List.map_append, List.map_flatMap, List.map_flatMap,
      List.nodup_append]
    refine ⟨?_, ?_, ?_⟩
    · refine List.pairwise_flatMap.2 ⟨fun f hf => ?_, (pairwise_keys_ne hfiles).imp ?_⟩
      · rw [List.map_map, List.pairwise_map]
        exact (pairwise_keys_ne (htidy f hf).nodup).imp fun hne h => hne (congrArg Address.owner h)
      · simp only [List.mem_map]
        rintro f f' hne _ ⟨_, ⟨c, -, rfl⟩, rfl⟩ _ ⟨_, ⟨c', -, rfl⟩, rfl⟩ h
        exact hne (congrArg Address.file h)
    · refine List.pairwise_flatMap.2 ⟨fun d hd => ?_, (pairwise_keys_ne hdirectories).imp ?_⟩
      · rw [List.map_map, List.pairwise_map]
        refine (List.pairwise_map.1 (ih d hd)).imp fun hne h => hne ?_
        simpa [Address.under, Address.ext_iff] using h
      · simp only [List.mem_map]
        rintro d d' hne _ ⟨_, ⟨l, -, rfl⟩, rfl⟩ _ ⟨_, ⟨l', -, rfl⟩, rfl⟩ h
        exact hne (List.cons.inj (congrArg Address.directories h)).1
    · simp only [List.mem_flatMap, List.mem_map]
      rintro _ ⟨f, -, _, ⟨c, -, rfl⟩, rfl⟩ _ ⟨d, -, _, ⟨l, -, rfl⟩, rfl⟩ h
      simp [Address.under] at h

/-! ## The grouping of symbols -/

theorem anyHave_eq : ∀ directories : List (String × Grouping),
    anyHave directories = directories.any fun d => d.2.hasFunctions
  | [] => rfl
  | (name, g) :: rest => by rw [anyHave, anyHave_eq rest, List.any_cons]

/-- A grouping has functions if an address with functions is listed. -/
theorem hasFunctions_iff (g : Grouping) :
    g.hasFunctions = true ↔ ∃ a functions, (a, functions) ∈ leaves g ∧ functions ≠ [] := by
  induction g using induct with
  | level files directories ih =>
    rw [hasFunctions, anyHave_eq, Bool.or_eq_true, List.any_eq_true, List.any_eq_true]
    simp only [fileHasFunctions, List.any_eq_true, mem_leaves_level]
    constructor
    · rintro (⟨f, hf, c, hc, hne⟩ | ⟨d, hd, hhas⟩)
      · exact ⟨_, c.2, .inl ⟨f, hf, c, hc, rfl, rfl⟩, by simpa using hne⟩
      · obtain ⟨a, functions, hmem, hne⟩ := (ih d hd).1 hhas
        exact ⟨_, functions, .inr ⟨d, hd, a, hmem, rfl⟩, hne⟩
    · rintro ⟨a, functions, ⟨f, hf, c, hc, -, rfl⟩ | ⟨d, hd, a', hmem, -⟩, hne⟩
      · exact .inl ⟨f, hf, c, hc, by simpa using hne⟩
      · exact .inr ⟨d, hd, (ih d hd).2 ⟨a', functions, hmem, hne⟩⟩

theorem hasFunctions_of_functionsAt {g : Grouping} {a : Address} (h : functionsAt g a ≠ []) :
    g.hasFunctions = true :=
  (hasFunctions_iff g).2 ⟨a, _, mem_leaves_functionsAt g a h, h⟩

theorem TidyFile.alter {classes : Option Classes} (h : ∀ cs ∈ classes, TidyFile cs)
    (owner name : String) : TidyFile (Entries.alter owner
      (fun functions => functions.getD [] ++ [name]) (classes.getD [])) where
  nodup := by
    refine Entries.nodup_keys_alter ?_
    cases classes with
    | none => exact List.nodup_nil
    | some cs => exact (h cs rfl).nodup
  ne_nil hnil := by
    obtain ⟨o, -, hmem⟩ := Entries.changed_mem_alter (k := owner)
      (f := fun functions => functions.getD [] ++ [name]) (classes.getD [])
    rw [hnil] at hmem
    exact List.not_mem_nil hmem
  filled c hc := by
    rcases Entries.mem_alter hc with hc | ⟨o, -, rfl⟩
    · cases classes with
      | none => exact absurd hc List.not_mem_nil
      | some cs => exact (h cs rfl).filled c hc
    · simp

/-- Entering a name keeps a grouping tidy. -/
theorem Tidy.update (file owner name : String) : ∀ (path : List String) {g : Grouping}, Tidy g →
    Tidy (updateFiles (updateClass file owner (· ++ [name])) path g)
  | [], .level files directories, .level hfiles htidy hdirectories hfilled hbelow => by
    refine .level (Entries.nodup_keys_alter hfiles) (fun f hf => ?_) hdirectories hfilled hbelow
    rcases Entries.mem_alter hf with hf | ⟨o, ho, rfl⟩
    · exact htidy f hf
    · exact .alter (fun cs hcs => htidy _ (ho cs hcs)) owner name
  | step :: path, .level files directories, .level hfiles htidy hdirectories hfilled hbelow => by
    have hsub : ∀ d ∈ Entries.alter step (fun sub =>
        updateFiles (updateClass file owner (· ++ [name])) path (sub.getD empty)) directories,
        Tidy d.2 ∧ d.2.hasFunctions = true := by
      intro d hd
      rcases Entries.mem_alter hd with hd | ⟨o, ho, rfl⟩
      · exact ⟨hbelow d hd, hfilled d hd⟩
      · have ho : Tidy (o.getD empty) := by
          cases o with
          | none => exact tidy_empty
          | some sub => exact hbelow _ (ho sub rfl)
        refine ⟨Tidy.update file owner name path ho,
          hasFunctions_of_functionsAt (a := ⟨path, file, owner⟩) ?_⟩
        simp [functionsAt_update]
    exact .level hfiles htidy (Entries.nodup_keys_alter hdirectories)
      (fun d hd => (hsub d hd).2) fun d hd => (hsub d hd).1

theorem tidy_ofSymbols (root : Option Path) (symbols : List Symbol) :
    Tidy (ofSymbols root symbols) := by
  have hfoldl : ∀ (symbols : List Symbol) (g : Grouping), Tidy g →
      Tidy (symbols.foldl (insert root) g) := by
    intro symbols
    induction symbols with
    | nil => exact fun _ h => h
    | cons s symbols ih => exact fun g h => ih _ (h.update _ _ _ _)
  exact hfoldl symbols empty tidy_empty

end Grouping

end CallChart
