import CallChart.Proofs.BlockIds
import CallChart.Proofs.Emission
import CallChart.Proofs.Layout

/-!
# Branches without functions

A grouping may hold directories, files and classes that have no function, and `Grouping.pruned` is
the grouping without them. Such directories and files leave no trace in a layout : the numbering,
the nodes and the blocks of directories and files are those of the pruned grouping
(`Item.numbering_layout`, `Grouping.shown_pruned`, `Item.frames_layout`).

`Grouping.Packed` says that no class without functions leaves a trace either : wherever classes get
blocks, each proper class and each class in front of one has functions. Then the two groupings have
the same layout (`Item.layout_pruned`).
-/

namespace CallChart

namespace Grouping

/-! ## Pruned groupings -/

/-- The classes that have functions. -/
def filledClasses (classes : Classes) : Classes :=
  classes.filter fun c => !c.2.isEmpty

/-- The files that have functions, less their classes that have none. -/
def prunedFiles (files : Entries Classes) : Entries Classes :=
  (files.map fun f => (f.1, filledClasses f.2)).filter fun f => !f.2.isEmpty

theorem pruned_level (files : Entries Classes) (directories : List (String × Grouping)) :
    pruned (.level files directories) =
      .level (prunedFiles files) (prunedDirectories directories) := by
  rw [pruned]
  rfl

theorem isEmpty_filledClasses (classes : Classes) :
    (filledClasses classes).isEmpty = !fileHasFunctions classes := by
  rw [Bool.eq_iff_iff]
  simp [filledClasses, fileHasFunctions]

theorem filledClasses_cons (c : String × List String) (classes : Classes) :
    filledClasses (c :: classes) =
      if c.2 = [] then filledClasses classes else c :: filledClasses classes := by
  obtain ⟨name, _ | _⟩ := c <;> rfl

theorem prunedFiles_cons (stem : String) (classes : Classes) (files : Entries Classes) :
    prunedFiles ((stem, classes) :: files) =
      if fileHasFunctions classes then (stem, filledClasses classes) :: prunedFiles files
      else prunedFiles files := by
  rw [prunedFiles, List.map_cons, List.filter_cons, isEmpty_filledClasses, Bool.not_not]
  rfl

theorem fileHasFunctions_filledClasses (classes : Classes) :
    fileHasFunctions (filledClasses classes) = fileHasFunctions classes := by
  rw [Bool.eq_iff_iff]
  simp [fileHasFunctions, filledClasses]

theorem flatMap_filledClasses {α : Type} {f : List String → List α} (hf : f [] = [])
    (classes : Classes) :
    (filledClasses classes).flatMap (fun c => f c.2) = classes.flatMap fun c => f c.2 := by
  induction classes with
  | nil => rfl
  | cons c classes ih =>
    rw [filledClasses_cons, List.flatMap_cons, ← ih]
    split
    next hempty => rw [hempty, hf, List.nil_append]
    next => rw [List.flatMap_cons]

theorem prunedDirectories_eq (directories : List (String × Grouping)) :
    prunedDirectories directories =
      (directories.filter fun d => d.2.hasFunctions).map fun d => (d.1, d.2.pruned) := by
  induction directories with
  | nil => rfl
  | cons d rest ih =>
    rw [prunedDirectories, ih, List.filter_cons]
    cases d.2.hasFunctions <;> rfl

theorem any_prunedFiles : ∀ files : Entries Classes,
    (prunedFiles files).any (fun f => fileHasFunctions f.2) =
      files.any fun f => fileHasFunctions f.2
  | [] => rfl
  | (stem, classes) :: files => by
    rw [prunedFiles_cons, List.any_cons]
    split
    next h => rw [List.any_cons, fileHasFunctions_filledClasses, any_prunedFiles files]
    next h => rw [any_prunedFiles files, Bool.of_not_eq_true h, Bool.false_or]

theorem hasFunctions_pruned (g : Grouping) : g.pruned.hasFunctions = g.hasFunctions := by
  induction g using induct with
  | level files directories ih =>
    have hbelow : (prunedDirectories directories).any (fun d => d.2.hasFunctions) =
        directories.any fun d => d.2.hasFunctions := by
      rw [prunedDirectories_eq, Bool.eq_iff_iff]
      simp only [List.any_eq_true, List.mem_map, List.mem_filter]
      constructor
      · rintro ⟨_, ⟨d, ⟨hd, hhas⟩, rfl⟩, -⟩
        exact ⟨d, hd, hhas⟩
      · rintro ⟨d, hd, hhas⟩
        exact ⟨_, ⟨d, ⟨hd, hhas⟩, rfl⟩, (ih d hd).trans hhas⟩
    rw [pruned_level, hasFunctions, hasFunctions, anyHave_eq, anyHave_eq, any_prunedFiles, hbelow]

/-- Pruning takes no function away. -/
theorem shown_pruned (most : Nat) (g : Grouping) : shown most g.pruned = shown most g := by
  have hclasses : ∀ classes : Classes, (filledClasses classes).flatMap (fun c => c.2.take most) =
      classes.flatMap fun c => c.2.take most := flatMap_filledClasses List.take_nil
  have hfiles : ∀ files : Entries Classes,
      ((prunedFiles files).flatMap fun f => f.2.flatMap fun c => c.2.take most) =
        files.flatMap fun f => f.2.flatMap fun c => c.2.take most := by
    intro files
    induction files with
    | nil => rfl
    | cons f files ih =>
      rw [prunedFiles_cons, List.flatMap_cons]
      split
      next => rw [List.flatMap_cons, hclasses, ih]
      next h =>
        have hnil : filledClasses f.2 = [] := by
          rw [← List.isEmpty_iff, isEmpty_filledClasses, Bool.of_not_eq_true h]
          rfl
        rw [ih, ← hclasses, hnil, List.flatMap_nil, List.nil_append]
  induction g using induct with
  | level files directories ih =>
    rw [pruned_level, shown_level, shown_level, hfiles, prunedDirectories_eq, List.flatMap_map]
    congr 1
    induction directories with
    | nil => rfl
    | cons d rest ihrest =>
      obtain ⟨hd, hrest⟩ := List.forall_mem_cons.1 ih
      rw [List.filter_cons, List.flatMap_cons, ← ihrest hrest]
      split
      next => rw [List.flatMap_cons, hd]
      next h => rw [shown_eq_nil (Bool.of_not_eq_true h), List.nil_append]

/-! ## Packed groupings -/

/-- Classes of which every proper one, and everyone in front of a proper one, has functions. -/
structure Unbroken (classes : Classes) : Prop where
  filled : ∀ c ∈ classes, isModuleClass c.1 = false → c.2 ≠ []
  front : classes.Pairwise fun before c => isModuleClass c.1 = false → before.2 ≠ []

/-- Where classes of a file get blocks, none without functions is among them or in front. -/
def PackedFile (classes : Classes) : Prop :=
  Item.wrapsClasses classes = true → Unbroken classes

/-- All files that have functions are packed. -/
inductive Packed : Grouping → Prop
  | level {files : Entries Classes} {directories : List (String × Grouping)}
    (packedFile : ∀ f ∈ files, fileHasFunctions f.2 = true → PackedFile f.2)
    (below : ∀ d ∈ directories, d.2.hasFunctions = true → Packed d.2) :
    Packed (.level files directories)

theorem Unbroken.tail {c : String × List String} {classes : Classes} (h : Unbroken (c :: classes)) :
    Unbroken classes :=
  ⟨fun d hd => h.filled d (List.mem_cons_of_mem _ hd), (List.pairwise_cons.1 h.front).2⟩

end Grouping

/-- The record of a directory or a file, but for the nodes that stand in it. -/
def BlockInfo.frame? (b : BlockInfo) : Option BlockInfo :=
  if b.kind = .ofClass then none else some { b with nodeIds := [] }

namespace Item

open Grouping (filledClasses filledClasses_cons prunedFiles prunedFiles_cons
  fileHasFunctions_filledClasses flatMap_filledClasses Unbroken PackedFile Packed)

variable (r : Roster) (most : Nat)

/-! ## The same numbering -/

theorem numbering_ofFiles : ∀ (c : Numbering) (files : Entries Classes),
    (ofFiles r most c (prunedFiles files)).2 = (ofFiles r most c files).2
  | _, [] => rfl
  | c, (stem, classes) :: files => by
    rw [prunedFiles_cons, ofFiles]
    split
    next h =>
      rw [ofFiles, fileHasFunctions_filledClasses, if_pos h]
      exact numbering_ofFiles c.nextFile.2 files
    next => exact numbering_ofFiles c files

mutual

theorem numbering_layout (c : Numbering) : ∀ g : Grouping,
    (layout r most c g.pruned).2 = (layout r most c g).2
  | .level files directories => by
    rw [Grouping.pruned_level, layout, layout]
    simp only [numbering_ofFiles]
    exact numbering_ofDirectories (ofFiles r most c files).2 directories

theorem numbering_ofDirectories (c : Numbering) : ∀ directories : List (String × Grouping),
    (ofDirectories r most c (Grouping.prunedDirectories directories)).2 =
      (ofDirectories r most c directories).2
  | [] => rfl
  | (name, g) :: rest => by
    rw [Grouping.prunedDirectories, ofDirectories]
    split
    next h =>
      rw [ofDirectories, Grouping.hasFunctions_pruned, if_pos h]
      simp only [numbering_layout c.nextDirectory.2 g]
      exact numbering_ofDirectories _ rest
    next => exact numbering_ofDirectories c rest

end

/-! ## The same items -/

variable {r most}

/-- Where no class gets a block, the places of the classes do not matter. -/
theorem flatMap_ofClass_of_plain {wraps : Bool} {file : String} :
    ∀ {classes : Classes} (k : Nat), (∀ c ∈ classes, (wraps && !isModuleClass c.1) = false) →
      (classes.zipIdx k).flatMap (ofClass r most wraps file) =
        classes.flatMap fun c => nodesOf r most c.2
  | [], _, _ => rfl
  | c :: classes, k, h => by
    obtain ⟨hc, hclasses⟩ := List.forall_mem_cons.1 h
    rw [List.zipIdx_cons, List.flatMap_cons, List.flatMap_cons,
      flatMap_ofClass_of_plain (k + 1) hclasses, ofClass, hc, if_neg Bool.false_ne_true]

theorem nodesOf_nil : nodesOf r most [] = [] := by
  simp [nodesOf]

/-- Among unbroken classes those without functions come last, and have no block. -/
theorem flatMap_ofClass_filledClasses {file : String} : ∀ {classes : Classes} (k : Nat),
    Unbroken classes →
      ((filledClasses classes).zipIdx k).flatMap (ofClass r most true file) =
        (classes.zipIdx k).flatMap (ofClass r most true file)
  | [], _, _ => rfl
  | c :: classes, k, h => by
    by_cases hc : c.2 = []
    · have hplain : ∀ d ∈ c :: classes, (true && !isModuleClass d.1) = false := by
        refine List.forall_mem_cons.2 ⟨?_, fun d hd => ?_⟩
        · simpa using fun hproper => h.filled c List.mem_cons_self hproper hc
        · simpa using fun hproper => (List.pairwise_cons.1 h.front).1 d hd hproper hc
      have hfilled : ∀ d ∈ filledClasses classes, (true && !isModuleClass d.1) = false :=
        fun d hd => hplain d (List.mem_cons_of_mem _ (List.mem_of_mem_filter hd))
      rw [filledClasses_cons, if_pos hc, flatMap_ofClass_of_plain k hfilled,
        flatMap_ofClass_of_plain k hplain, List.flatMap_cons, hc, nodesOf_nil, List.nil_append,
        flatMap_filledClasses nodesOf_nil]
    · rw [filledClasses_cons, if_neg hc, List.zipIdx_cons, List.zipIdx_cons, List.flatMap_cons,
        List.flatMap_cons, flatMap_ofClass_filledClasses (k + 1) h.tail]

theorem filter_filledClasses (classes : Classes) :
    ((filledClasses classes).filter fun c => !isModuleClass c.1) =
      (classes.filter fun c => !isModuleClass c.1).filter fun c => !c.2.isEmpty := by
  rw [filledClasses, List.filter_filter, List.filter_filter]
  exact List.filter_congr fun c _ => Bool.and_comm _ _

theorem wrapsClasses_of_filledClasses {classes : Classes}
    (h : wrapsClasses (filledClasses classes) = true) : wrapsClasses classes = true := by
  rw [wrapsClasses, decide_eq_true_iff, filter_filledClasses] at h
  rw [wrapsClasses, decide_eq_true_iff]
  exact Nat.lt_of_lt_of_le h (List.length_filter_le _ _)

/-- The items of a packed file are those of its classes that have functions. -/
theorem ofClasses_filledClasses {file : String} {classes : Classes} (h : PackedFile classes) :
    ofClasses r most file (filledClasses classes) = ofClasses r most file classes := by
  rw [ofClasses_eq, ofClasses_eq]
  cases hwraps : wrapsClasses classes with
  | true =>
    have hunbroken := h hwraps
    have hall : ∀ c ∈ classes.filter fun c => !isModuleClass c.1, (!c.2.isEmpty) = true := by
      intro c hc
      obtain ⟨hc, hproper⟩ := List.mem_filter.1 hc
      simpa using hunbroken.filled c hc (by simpa using hproper)
    have hsame : wrapsClasses (filledClasses classes) = true := by
      rw [wrapsClasses, filter_filledClasses, List.filter_eq_self.2 hall]
      exact hwraps
    rw [hsame]
    exact flatMap_ofClass_filledClasses 0 hunbroken
  | false =>
    have hsame : wrapsClasses (filledClasses classes) = false := by
      rw [← Bool.not_eq_true]
      exact fun htrue =>
        Bool.false_ne_true (hwraps.symm.trans (wrapsClasses_of_filledClasses htrue))
    rw [hsame, flatMap_ofClass_of_plain 0 fun _ _ => Bool.false_and _,
      flatMap_ofClass_of_plain 0 fun _ _ => Bool.false_and _, flatMap_filledClasses nodesOf_nil]

theorem ofFiles_prunedFiles : ∀ (c : Numbering) {files : Entries Classes},
    (∀ f ∈ files, Grouping.fileHasFunctions f.2 = true → PackedFile f.2) →
      ofFiles r most c (prunedFiles files) = ofFiles r most c files
  | _, [], _ => rfl
  | c, (stem, classes) :: files, h => by
    obtain ⟨hfile, hfiles⟩ := List.forall_mem_cons.1 h
    rw [prunedFiles_cons, ofFiles]
    split
    next hhas =>
      rw [ofFiles, fileHasFunctions_filledClasses, if_pos hhas]
      simp only [ofClasses_filledClasses (hfile hhas), ofFiles_prunedFiles c.nextFile.2 hfiles]
    next => exact ofFiles_prunedFiles c hfiles

mutual

/-- A packed grouping has the items of the pruned one. -/
theorem layout_pruned (c : Numbering) : ∀ {g : Grouping}, Packed g →
    layout r most c g.pruned = layout r most c g
  | .level files directories, .level hfiles hbelow => by
    rw [Grouping.pruned_level, layout, layout]
    simp only [ofFiles_prunedFiles c hfiles, ofDirectories_pruned _ hbelow]

theorem ofDirectories_pruned (c : Numbering) : ∀ {directories : List (String × Grouping)},
    (∀ d ∈ directories, d.2.hasFunctions = true → Packed d.2) →
      ofDirectories r most c (Grouping.prunedDirectories directories) =
        ofDirectories r most c directories
  | [], _ => rfl
  | (name, g) :: rest, h => by
    obtain ⟨hg, hrest⟩ := List.forall_mem_cons.1 h
    rw [Grouping.prunedDirectories, ofDirectories]
    split
    next hhas =>
      rw [ofDirectories, Grouping.hasFunctions_pruned, if_pos hhas]
      simp only [layout_pruned c.nextDirectory.2 (hg hhas), ofDirectories_pruned _ hrest]
    next => exact ofDirectories_pruned c hrest

end

/-! ## The same directories and files -/

section Frames

variable (r most)

theorem allInfos_nodesOf (level : Nat) (parent : Option String) (functions : List String) :
    allInfos level parent (nodesOf r most functions) = [] := by
  rw [allInfos_eq, List.flatMap_eq_nil_iff]
  intro item hitem
  obtain ⟨name, -, hname⟩ := List.mem_filterMap.1 hitem
  obtain ⟨id, -, rfl⟩ := Option.map_eq_some_iff.1 hname
  rw [infos]

/-- Inside a file there are blocks of classes only. -/
theorem kind_of_mem_ofClasses {level : Nat} {parent : Option String} {file : String}
    {classes : Classes} :
    ∀ b ∈ allInfos level parent (ofClasses r most file classes), b.kind = .ofClass := by
  intro b hb
  rw [allInfos_eq, ofClasses_eq, List.flatMap_assoc, List.mem_flatMap] at hb
  obtain ⟨p, -, hb⟩ := hb
  rw [← allInfos_eq, ofClass] at hb
  split at hb
  · rw [allInfos, infos, allInfos_nodesOf] at hb
    simp only [allInfos, List.append_nil, List.mem_singleton] at hb
    rw [hb]
  · simp [allInfos_nodesOf] at hb

theorem frames_ofClasses (level : Nat) (parent : Option String) (file : String)
    (classes : Classes) :
    (allInfos level parent (ofClasses r most file classes)).filterMap BlockInfo.frame? = [] := by
  rw [List.filterMap_eq_nil_iff]
  exact fun b hb => if_pos (kind_of_mem_ofClasses r most b hb)

theorem frames_ofFiles (level : Nat) (parent : Option String) :
    ∀ (c : Numbering) (files : Entries Classes),
      (allInfos level parent (ofFiles r most c (prunedFiles files)).1).filterMap
          BlockInfo.frame? =
        (allInfos level parent (ofFiles r most c files).1).filterMap BlockInfo.frame?
  | _, [] => rfl
  | c, (stem, classes) :: files => by
    rw [prunedFiles_cons, ofFiles]
    split
    next h =>
      rw [ofFiles, fileHasFunctions_filledClasses, if_pos h]
      simp only [allInfos, infos, List.cons_append, List.filterMap_cons, List.filterMap_append,
        frames_ofClasses, BlockInfo.frame?, frames_ofFiles level parent c.nextFile.2 files]
    next => exact frames_ofFiles level parent c files

mutual

/-- Pruning changes no directory and no file that has functions. -/
theorem frames_layout (level : Nat) (parent : Option String) (c : Numbering) : ∀ g : Grouping,
    (allInfos level parent (layout r most c g.pruned).1).filterMap BlockInfo.frame? =
      (allInfos level parent (layout r most c g).1).filterMap BlockInfo.frame?
  | .level files directories => by
    rw [Grouping.pruned_level, layout, layout]
    simp only [numbering_ofFiles, allInfos_append, List.filterMap_append, frames_ofFiles]
    rw [frames_ofDirectories level parent (ofFiles r most c files).2 directories]

theorem frames_ofDirectories (level : Nat) (parent : Option String) (c : Numbering) :
    ∀ directories : List (String × Grouping),
      (allInfos level parent
          (ofDirectories r most c (Grouping.prunedDirectories directories)).1).filterMap
        BlockInfo.frame? =
      (allInfos level parent (ofDirectories r most c directories).1).filterMap BlockInfo.frame?
  | [] => rfl
  | (name, g) :: rest => by
    rw [Grouping.prunedDirectories, ofDirectories]
    split
    next h =>
      have hg := frames_layout (level + 1) (some c.nextDirectory.1) c.nextDirectory.2 g
      have hrest := frames_ofDirectories level parent (layout r most c.nextDirectory.2 g).2 rest
      rw [ofDirectories, Grouping.hasFunctions_pruned, if_pos h]
      simp only [numbering_layout, allInfos, infos, List.cons_append, List.filterMap_cons,
        List.filterMap_append, BlockInfo.frame?, hg, hrest]
    next => exact frames_ofDirectories level parent c rest

end

end Frames

end Item

end CallChart
