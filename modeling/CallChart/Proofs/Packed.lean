import CallChart.Proofs.Pruning

/-!
# Classes without functions

A class that has no function can leave a trace in an emission. It counts among the classes that
decide whether classes get blocks, it gets a block of its own if they do, and it takes a place, from
which the classes behind it have their ids. So the emission of a grouping and that of the pruned
grouping are the same exactly if the grouping is packed.

That they are the same then is `Item.layout_pruned`. For the converse the records of class blocks
are found again among all records, by their kind and because they stand directly behind the record
of their file (`Item.eq_of_append_eq`). The ids of the class blocks of a file tell the places of its
proper classes, and these stay the same without the empty classes only if no proper class, and no
class in front of one, is empty (`Item.packedFile_of_allInfos`). Main statement :
`Emission.ofGrouping_pruned`.
-/

namespace CallChart

namespace Item

open Grouping (filledClasses filledClasses_cons prunedFiles prunedFiles_cons
  fileHasFunctions_filledClasses PackedFile Packed)

/-! ## The places of proper classes -/

/-- The places of the proper classes among classes of which the first is at place `k`. -/
def properPlaces (k : Nat) (classes : Classes) : List Nat :=
  ((classes.zipIdx k).filter fun p => !isModuleClass p.1.1).map Prod.snd

theorem properPlaces_cons (k : Nat) (c : String × List String) (classes : Classes) :
    properPlaces k (c :: classes) =
      if isModuleClass c.1 = false then k :: properPlaces (k + 1) classes
      else properPlaces (k + 1) classes := by
  rw [properPlaces, List.zipIdx_cons, List.filter_cons]
  cases isModuleClass c.1 <;> rfl

theorem length_properPlaces (classes : Classes) : ∀ k,
    (properPlaces k classes).length = (classes.filter fun c => !isModuleClass c.1).length := by
  induction classes with
  | nil => exact fun _ => rfl
  | cons c classes ih =>
    intro k
    rw [properPlaces_cons, List.filter_cons]
    cases isModuleClass c.1 <;> simp [ih]

/-- A proper class does not move to the front if it is to keep its place. -/
theorem isModuleClass_of_properPlaces_eq : ∀ {classes : Classes} {k l : Nat}, l < k →
    (∀ c ∈ classes, isModuleClass c.1 = false → c.2 ≠ []) →
      properPlaces l (filledClasses classes) = properPlaces k classes →
        ∀ c ∈ classes, isModuleClass c.1 = true
  | [], _, _, _, _, _ => fun _ hc => absurd hc List.not_mem_nil
  | c :: classes, k, l, hlt, hfilled, heq => by
    obtain ⟨hc, hclasses⟩ := List.forall_mem_cons.1 hfilled
    rw [filledClasses_cons, properPlaces_cons] at heq
    by_cases hproper : isModuleClass c.1 = false
    · rw [if_neg (hc hproper), properPlaces_cons, if_pos hproper, if_pos hproper] at heq
      exact absurd (List.cons.inj heq).1 (Nat.ne_of_lt hlt)
    · refine List.forall_mem_cons.2 ⟨by simpa using hproper, ?_⟩
      rw [if_neg hproper] at heq
      split at heq
      next => exact isModuleClass_of_properPlaces_eq (Nat.lt_succ_of_lt hlt) hclasses heq
      next =>
        rw [properPlaces_cons, if_neg hproper] at heq
        exact isModuleClass_of_properPlaces_eq (Nat.succ_lt_succ hlt) hclasses heq

/-- If the proper classes keep their places, none without functions stands in front of one. -/
theorem front_of_properPlaces_eq : ∀ {classes : Classes} {k : Nat},
    (∀ c ∈ classes, isModuleClass c.1 = false → c.2 ≠ []) →
      properPlaces k (filledClasses classes) = properPlaces k classes →
        classes.Pairwise fun before c => isModuleClass c.1 = false → before.2 ≠ []
  | [], _, _, _ => .nil
  | c :: classes, k, hfilled, heq => by
    obtain ⟨hc, hclasses⟩ := List.forall_mem_cons.1 hfilled
    rw [filledClasses_cons] at heq
    split at heq
    next hempty =>
      have hmodule : ¬isModuleClass c.1 = false := fun hproper => hc hproper hempty
      rw [properPlaces_cons, if_neg hmodule] at heq
      have hall := isModuleClass_of_properPlaces_eq (Nat.lt_succ_self k) hclasses heq
      have hnone : ∀ d ∈ classes, ¬isModuleClass d.1 = false := fun d hd hproper =>
        Bool.false_ne_true (hproper.symm.trans (hall d hd))
      exact List.pairwise_cons.2 ⟨fun d hd hproper => absurd hproper (hnone d hd),
        List.pairwise_iff_forall_sublist.2 fun hsub hproper =>
          absurd hproper (hnone _ (hsub.subset (List.mem_cons_of_mem _ List.mem_cons_self)))⟩
    next hne =>
      have htail : properPlaces (k + 1) (filledClasses classes) = properPlaces (k + 1) classes := by
        rw [properPlaces_cons, properPlaces_cons] at heq
        split at heq
        · exact (List.cons.inj heq).2
        · exact heq
      exact List.pairwise_cons.2 ⟨fun _ _ _ => hne, front_of_properPlaces_eq hclasses htail⟩

/-! ## What the records of class blocks tell -/

variable {r : Roster} {most : Nat}

/-- A file whose class blocks stay the same without its empty classes is packed. -/
theorem packedFile_of_allInfos {level n : Nat} {parent : Option String} {classes : Classes}
    (h : allInfos level parent (ofClasses r most (fileId n) (filledClasses classes)) =
      allInfos level parent (ofClasses r most (fileId n) classes)) : PackedFile classes := by
  intro hwraps
  have hinjective : Function.Injective (classId (fileId n)) := fun i j hij => (classId_inj.1 hij).2
  have hids := congrArg (List.map BlockInfo.id) h
  rw [map_id_allInfos, map_id_allInfos, blockIds_ofClasses, blockIds_ofClasses,
    hinjective.list_map.eq_iff] at hids
  simp only [hwraps, Bool.true_and] at hids
  have hplaces : properPlaces 0 (filledClasses classes) = properPlaces 0 classes := by
    cases hsame : wrapsClasses (filledClasses classes) with
    | true =>
      simp only [hsame, Bool.true_and] at hids
      exact hids
    | false =>
      simp only [hsame, Bool.false_and, List.filter_false, List.map_nil] at hids
      have hlength := length_properPlaces classes 0
      rw [properPlaces, ← hids, List.length_nil] at hlength
      rw [wrapsClasses, decide_eq_true_iff, ← hlength] at hwraps
      exact absurd hwraps (Nat.not_lt_zero 1)
  have hfilled : ∀ c ∈ classes, isModuleClass c.1 = false → c.2 ≠ [] := by
    have hlength := congrArg List.length hplaces
    rw [length_properPlaces, length_properPlaces, filter_filledClasses,
      List.length_filter_eq_length_iff] at hlength
    intro c hc hproper
    simpa using hlength c (List.mem_filter.2 ⟨hc, by simp [hproper]⟩)
  exact ⟨hfilled, front_of_properPlaces_eq hfilled hplaces⟩

/-- Records that do not begin with that of a class block. -/
def BeginsFrame (bs : List BlockInfo) : Prop :=
  ∀ b ∈ bs.head?, b.kind ≠ .ofClass

/-- Records of class blocks end where another record begins. -/
theorem eq_of_append_eq {own own' bs bs' : List BlockInfo} (hown : ∀ b ∈ own, b.kind = .ofClass)
    (hown' : ∀ b ∈ own', b.kind = .ofClass) (hbs : BeginsFrame bs) (hbs' : BeginsFrame bs')
    (h : own ++ bs = own' ++ bs') : own = own' ∧ bs = bs' := by
  have htake : ∀ {own bs : List BlockInfo}, (∀ b ∈ own, b.kind = .ofClass) → BeginsFrame bs →
      (own ++ bs).takeWhile (fun b => b.kind = .ofClass) = own := by
    intro own bs hown hbs
    rw [List.takeWhile_append_of_pos fun b hb => by simpa using hown b hb]
    cases bs with
    | nil => simp
    | cons b bs =>
      have hb : b.kind ≠ .ofClass := hbs b rfl
      simp [hb]
  have hsame : own = own' := by rw [← htake hown hbs, h, htake hown' hbs']
  exact ⟨hsame, List.append_cancel_left (hsame ▸ h)⟩

theorem beginsFrame_ofFiles {level : Nat} {parent : Option String} {bs : List BlockInfo}
    (hbs : BeginsFrame bs) : ∀ (c : Numbering) (files : Entries Classes),
      BeginsFrame (allInfos level parent (ofFiles r most c files).1 ++ bs)
  | _, [] => hbs
  | c, (stem, classes) :: files => by
    rw [ofFiles]
    split
    next => simp [allInfos, infos, BeginsFrame]
    next => exact beginsFrame_ofFiles hbs c files

theorem beginsFrame_ofDirectories {level : Nat} {parent : Option String} {bs : List BlockInfo}
    (hbs : BeginsFrame bs) : ∀ (c : Numbering) (directories : List (String × Grouping)),
      BeginsFrame (allInfos level parent (ofDirectories r most c directories).1 ++ bs)
  | _, [] => hbs
  | c, (name, g) :: rest => by
    rw [ofDirectories]
    split
    next => simp [allInfos, infos, BeginsFrame]
    next => exact beginsFrame_ofDirectories hbs c rest

theorem beginsFrame_nil : BeginsFrame [] :=
  fun _ h => nomatch h

/-- Files whose records stay the same are packed, whatever is recorded behind them. -/
theorem packedFile_of_ofFiles {level : Nat} {parent : Option String} :
    ∀ {c : Numbering} {files : Entries Classes} {bs bs' : List BlockInfo},
      BeginsFrame bs → BeginsFrame bs' →
      allInfos level parent (ofFiles r most c (prunedFiles files)).1 ++ bs =
        allInfos level parent (ofFiles r most c files).1 ++ bs' →
      (∀ f ∈ files, Grouping.fileHasFunctions f.2 = true → PackedFile f.2) ∧ bs = bs'
  | _, [], _, _, _, _, h => ⟨fun _ hf => absurd hf List.not_mem_nil, h⟩
  | c, (stem, classes) :: files, bs, bs', hbs, hbs', h => by
    rw [prunedFiles_cons, ofFiles] at h
    split at h
    next hhas =>
      rw [ofFiles, fileHasFunctions_filledClasses, if_pos hhas] at h
      simp only [allInfos, infos, List.cons_append, List.append_assoc, List.cons.injEq] at h
      obtain ⟨hown, hrest⟩ := eq_of_append_eq (kind_of_mem_ofClasses r most)
        (kind_of_mem_ofClasses r most) (beginsFrame_ofFiles hbs _ _)
        (beginsFrame_ofFiles hbs' _ _) h.2
      obtain ⟨hfiles, hsame⟩ := packedFile_of_ofFiles hbs hbs' hrest
      exact ⟨List.forall_mem_cons.2 ⟨fun _ => packedFile_of_allInfos hown, hfiles⟩, hsame⟩
    next hempty =>
      obtain ⟨hfiles, hsame⟩ := packedFile_of_ofFiles hbs hbs' h
      exact ⟨List.forall_mem_cons.2 ⟨fun hhas => absurd hhas hempty, hfiles⟩, hsame⟩

mutual

/-- A grouping whose records stay the same is packed, whatever is recorded behind it. -/
theorem packed_of_layout {level : Nat} {parent : Option String} {c : Numbering} :
    ∀ {g : Grouping} {bs bs' : List BlockInfo}, BeginsFrame bs → BeginsFrame bs' →
      allInfos level parent (layout r most c g.pruned).1 ++ bs =
        allInfos level parent (layout r most c g).1 ++ bs' →
      Packed g ∧ bs = bs'
  | .level files directories, bs, bs', hbs, hbs', h => by
    rw [Grouping.pruned_level, layout, layout] at h
    simp only [numbering_ofFiles, allInfos_append, List.append_assoc] at h
    obtain ⟨hfiles, hrest⟩ := packedFile_of_ofFiles (beginsFrame_ofDirectories hbs _ _)
      (beginsFrame_ofDirectories hbs' _ _) h
    obtain ⟨hbelow, hsame⟩ := packed_of_ofDirectories hbs hbs' hrest
    exact ⟨.level hfiles hbelow, hsame⟩

theorem packed_of_ofDirectories {level : Nat} {parent : Option String} {c : Numbering} :
    ∀ {directories : List (String × Grouping)} {bs bs' : List BlockInfo},
      BeginsFrame bs → BeginsFrame bs' →
      allInfos level parent
          (ofDirectories r most c (Grouping.prunedDirectories directories)).1 ++ bs =
        allInfos level parent (ofDirectories r most c directories).1 ++ bs' →
      (∀ d ∈ directories, d.2.hasFunctions = true → Packed d.2) ∧ bs = bs'
  | [], _, _, _, _, h => ⟨fun _ hd => absurd hd List.not_mem_nil, h⟩
  | (name, g) :: rest, bs, bs', hbs, hbs', h => by
    rw [Grouping.prunedDirectories, ofDirectories] at h
    split at h
    next hhas =>
      rw [ofDirectories, Grouping.hasFunctions_pruned, if_pos hhas] at h
      simp only [numbering_layout, allInfos, infos, List.cons_append, List.append_assoc,
        List.cons.injEq] at h
      obtain ⟨hg, hrest⟩ := packed_of_layout (beginsFrame_ofDirectories hbs _ _)
        (beginsFrame_ofDirectories hbs' _ _) h.2
      obtain ⟨hbelow, hsame⟩ := packed_of_ofDirectories hbs hbs' hrest
      exact ⟨List.forall_mem_cons.2 ⟨fun _ => hg, hbelow⟩, hsame⟩
    next hempty =>
      obtain ⟨hbelow, hsame⟩ := packed_of_ofDirectories hbs hbs' h
      exact ⟨List.forall_mem_cons.2 ⟨fun hhas => absurd hhas hempty, hbelow⟩, hsame⟩

end

end Item

/-! ## Emissions -/

/-- Directories and files without functions leave no trace : an emission gives out the same ids as
that of the pruned grouping, shows the same nodes, and opens the same blocks of directories and
files. It is the same altogether, in its lines and its records, exactly if the grouping is
packed. -/
theorem Emission.ofGrouping_pruned (r : Roster) (most : Nat) (c : Numbering) (g : Grouping) :
    let bare := Emission.ofGrouping r most c g.pruned
    let whole := Emission.ofGrouping r most c g
    bare.2 = whole.2 ∧ bare.1.nodeIds = whole.1.nodeIds ∧
      bare.1.blocks.filterMap BlockInfo.frame? = whole.1.blocks.filterMap BlockInfo.frame? ∧
      (bare.1.lines = whole.1.lines ∧ bare.1.blocks = whole.1.blocks ↔ g.Packed) := by
  intro bare whole
  have hbare : bare = _ := Emission.ofGrouping_eq r most c g.pruned
  have hwhole : whole = _ := Emission.ofGrouping_eq r most c g
  rw [hbare, hwhole]
  refine ⟨Item.numbering_layout r most c g, ?_, Item.frames_layout r most 0 none c g,
    fun h => ?_, fun h => ?_⟩
  · simp only [← Item.map_fst_allNodes, Item.nodes_layout, Grouping.shown_pruned]
  · have hblocks := congrArg (· ++ []) h.2
    exact (Item.packed_of_layout Item.beginsFrame_nil Item.beginsFrame_nil hblocks).1
  · rw [Item.layout_pruned c h]
    exact ⟨rfl, rfl⟩

/-- The one function of a file, a method of a class. -/
def soleMethod : Symbol :=
  { name := "a.f", owner := some "A", path := ⟨"a.py"⟩ }

/-- A class with a method, and beside it a class that is reserved and has none. -/
def besideReserved : Grouping :=
  (Grouping.ofSymbols none [soleMethod]).reserve [] (some "a") (some "B")

/-- A class that has no function has a block of its own, and is the reason why the other one has a
block. Without it there is none of these lines. -/
theorem Emission.ofGrouping_besideReserved :
    let r := Roster.create ⟨.minimal, []⟩ "a.f" (some soleMethod) false
    besideReserved.functionsAt ⟨[], "a", "B"⟩ = [] ∧
      (Emission.ofGrouping r 50 {} besideReserved).1.lines =
        ["    subgraph file_1[\"FILE: a\"]",
          "        subgraph file_1_0[\"CLASS: A\"]",
          "            N1[\"f\"]",
          "        end",
          "        subgraph file_1_1[\"CLASS: B\"]",
          "        end",
          "    end"] ∧
      (Emission.ofGrouping r 50 {} besideReserved.pruned).1.lines =
        ["    subgraph file_1[\"FILE: a\"]", "        N1[\"f\"]", "    end"] := by
  decide +kernel

end CallChart
