import CallChart.Proofs.Groups
import CallChart.Proofs.Paths

/-!
# Moving a project

A relative path put behind a directory has the steps of the directory and then its own, less a dot
that it may begin with (`Path.exists_components_join`). Seen from that directory it leads through
the directories that it named before (`Path.directoryNames_stepsFrom_join`), and if it names a file
it names the same one (`Path.fileName?_join`). So where the root of a project lies makes no
difference to the grouping of its functions.

Main statement : `Grouping.ofSymbols_below`.
-/

namespace CallChart

/-- The function with its file in the directory `root`. -/
def Symbol.below (root : Path) (s : Symbol) : Symbol :=
  { s with path := root.join s.path }

namespace Path

variable {p : Path}

/-! ## Steps of relative paths -/

/-- What the segments of a path say behind a directory. -/
def innerSteps (p : Path) : List Component :=
  p.segments.filterMap innerComponent?

/-- A relative path says what it says behind a directory, and the dot that it begins with if it
does. -/
theorem components_of_relative (h : p.isAbsolute = false) :
    p.components = p.innerSteps ∨ p.components = .here :: p.innerSteps := by
  obtain ⟨first, rest, hsegments⟩ := List.exists_cons_of_ne_nil p.segments_ne_nil
  have hinner : p.innerSteps =
      (innerComponent? first).toList ++ rest.filterMap innerComponent? := by
    rw [innerSteps, hsegments, List.filterMap_cons]
    cases innerComponent? first <;> rfl
  rw [components_of_segments hsegments, hinner, h]
  by_cases hempty : first = ""
  · subst hempty
    exact .inl rfl
  by_cases hdot : first = "."
  · subst hdot
    exact .inr rfl
  · rw [firstStep?, if_neg hempty, if_neg hdot]
    exact .inl rfl

theorem components_join_of_ne_empty {base : Path} (hbase : base.text ≠ "")
    (h : p.isAbsolute = false) : (base.join p).components = base.components ++ p.innerSteps := by
  have hlead := components_lead base
  rcases base.isLead_lead with hempty | ⟨front, hfront⟩
  · rw [lead] at hempty
    split_ifs at hempty
    · exact absurd hempty hbase
    · exact absurd (congrArg String.length hempty) (by simp)
  · rw [hfront] at hlead
    rw [join_eq h, hfront, components_slash, hlead, innerSteps]

/-- Behind a directory, a relative path has its own steps, less a dot that it begins with. -/
theorem exists_components_join (base : Path) (h : p.isAbsolute = false) :
    ∃ steps, (base.join p).components = base.components ++ steps ∧
      (p.components = steps ∨ p.components = .here :: steps) := by
  by_cases hbase : base.text = ""
  · obtain rfl : base = ⟨""⟩ := congrArg Path.mk hbase
    have hjoin : join ⟨""⟩ p = p := by
      rw [join_eq h]
      exact congrArg Path.mk String.empty_append
    exact ⟨p.components, by rw [hjoin]; rfl, .inl rfl⟩
  · exact ⟨p.innerSteps, components_join_of_ne_empty hbase h, components_of_relative h⟩

theorem directoryNames_here (steps : List Component) :
    directoryNames (.here :: steps) = directoryNames steps := by
  cases steps <;> rfl

theorem stepsUnder?_of_components {root : Path} {steps : List Component}
    (h : p.components = root.components ++ steps) : p.stepsUnder? root = some steps := by
  rw [stepsUnder?, h, if_pos (List.isPrefixOf_iff_prefix.2 (List.prefix_append _ _)),
    List.drop_left]

/-- A relative path leads through the same directories from wherever it is put. -/
theorem directoryNames_stepsFrom_join (root : Path) (h : p.isAbsolute = false) :
    directoryNames (Grouping.stepsFrom (some root) (root.join p)) =
      directoryNames (Grouping.stepsFrom none p) := by
  obtain ⟨steps, hjoin, hsteps⟩ := exists_components_join root h
  have hunder : Grouping.stepsFrom (some root) (root.join p) = steps := by
    rw [Grouping.stepsFrom, Option.bind_some, stepsUnder?_of_components hjoin]
  rw [hunder, Grouping.stepsFrom, Option.bind_none]
  rcases hsteps with hsteps | hsteps
  · rw [hsteps]
  · rw [hsteps, directoryNames_here]

/-- A relative path that names a file names it from wherever it is put. -/
theorem fileName?_join (root : Path) (h : p.isAbsolute = false) (hname : p.fileName?.isSome) :
    (root.join p).fileName? = p.fileName? := by
  obtain ⟨steps, hjoin, hsteps⟩ := exists_components_join root h
  have hlast : p.components.getLast? = steps.getLast? := by
    rcases hsteps with hsteps | hsteps
    · rw [hsteps]
    · cases steps with
      | nil =>
        rw [fileName?, hsteps] at hname
        exact absurd hname Bool.false_ne_true
      | cons c steps => rw [hsteps, List.getLast?_cons_cons]
  have hne : steps ≠ [] := by
    rintro rfl
    rw [fileName?, hlast] at hname
    exact absurd hname Bool.false_ne_true
  rw [fileName?, fileName?, hlast, hjoin, List.getLast?_append_of_ne_nil _ hne]

end Path

namespace Grouping

/-- A function in a file of its own project is entered in the same place wherever the project
lies. -/
theorem insert_below (root : Path) (g : Grouping) {s : Symbol} (h : s.path.isAbsolute = false)
    (hname : s.path.fileName?.isSome) : insert (some root) g (s.below root) = insert none g s := by
  have hstem : (s.below root).fileStem = s.fileStem := by
    rw [Symbol.fileStem, Symbol.fileStem, Path.stem?, Path.stem?, Symbol.below,
      Path.fileName?_join root h hname]
  have hclass : (s.below root).groupingClass = s.groupingClass := by
    rw [Symbol.groupingClass, Symbol.groupingClass, hstem]
    rfl
  have hdirectories : directoriesOf (some root) (s.below root) = directoriesOf none s :=
    Path.directoryNames_stepsFrom_join root h
  rw [insert, insert, hstem, hclass, hdirectories]
  rfl

/-- The grouping of functions whose files are named by relative paths does not depend on where
their project lies. -/
theorem ofSymbols_below (root : Path) (symbols : List Symbol)
    (h : ∀ s ∈ symbols, s.path.isAbsolute = false ∧ s.path.fileName?.isSome) :
    ofSymbols (some root) (symbols.map (Symbol.below root)) = ofSymbols none symbols := by
  induction symbols using List.reverseRecOn with
  | nil => rfl
  | append_singleton symbols s ih =>
    obtain ⟨hrelative, hname⟩ := h s (by simp)
    rw [List.map_append, List.map_singleton, ofSymbols_concat, ofSymbols_concat,
      ih fun s hs => h s (List.mem_append_left _ hs), insert_below root _ hrelative hname]

/-- Files spelled in several ways, in a project that has the name of one of its directories. -/
theorem ofSymbols_below_spellings :
    let root : Path := ⟨"/work//./lib"⟩
    let symbols : List Symbol :=
      [{ name := "f", path := ⟨"./libs/../a.py"⟩ }, { name := "g", path := ⟨"lib//b.py/."⟩ }]
    (∀ s ∈ symbols, s.path.isAbsolute = false ∧ s.path.fileName?.isSome) ∧
      ofSymbols (some root) (symbols.map (Symbol.below root)) = ofSymbols none symbols := by
  intro root symbols
  have h : ∀ s ∈ symbols, s.path.isAbsolute = false ∧ s.path.fileName?.isSome := by decide +kernel
  exact ⟨h, ofSymbols_below root symbols h⟩

end Grouping

end CallChart
