import CallChart.Proofs.Addresses
import CallChart.Proofs.Items

/-!
# What a layout shows

Of each address of a grouping a layout shows the first few functions (`Grouping.shown`). The nodes
of its items are those of the shown functions that are enrolled, with their ids and labels
(`Item.nodes_layout`) : the blocks around them take nothing away and add nothing. In the grouping
of symbols with distinct names a function is shown once if it is among the first of its address
(`Grouping.mem_shown_ofSymbols`, `Grouping.nodup_shown_ofSymbols`). If all its functions are
enrolled and no class is empty, every block of a layout has a node inside
(`Item.filled_layout`).
-/

namespace CallChart

namespace Grouping

/-- The first `most` functions of each address. -/
def shown (most : Nat) (g : Grouping) : List String :=
  (leaves g).flatMap fun l => l.2.take most

theorem shown_level (most : Nat) (files : Entries Classes)
    (directories : List (String × Grouping)) :
    shown most (.level files directories) =
      (files.flatMap fun f => f.2.flatMap fun c => c.2.take most) ++
        directories.flatMap fun d => shown most d.2 := by
  simp only [shown, leaves, directoryLeaves_eq, List.flatMap_append, List.flatMap_assoc,
    List.flatMap_map]

theorem mem_shown {most : Nat} {g : Grouping} {name : String} :
    name ∈ shown most g ↔
      ∃ a functions, (a, functions) ∈ leaves g ∧ name ∈ functions.take most := by
  simp [shown]

/-- A grouping without functions shows none. -/
theorem shown_eq_nil {most : Nat} {g : Grouping} (h : g.hasFunctions = false) :
    shown most g = [] := by
  rw [shown, List.flatMap_eq_nil_iff]
  rintro ⟨a, functions⟩ hmem
  rw [← Bool.not_eq_true, hasFunctions_iff] at h
  have hnil : functions = [] := Classical.byContradiction fun hne => h ⟨a, functions, hmem, hne⟩
  rw [hnil, List.take_nil]

/-- In a tidy grouping a function is shown where it is found among the first of an address. -/
theorem Tidy.mem_shown {most : Nat} {g : Grouping} (h : Tidy g) {name : String} :
    name ∈ shown most g ↔ ∃ a, name ∈ (functionsAt g a).take most := by
  rw [Grouping.mem_shown]
  constructor
  · rintro ⟨a, functions, hmem, hname⟩
    exact ⟨a, by rwa [h.functionsAt_of_mem_leaves a functions hmem]⟩
  · rintro ⟨a, hname⟩
    have hne : functionsAt g a ≠ [] := by
      intro hnil
      rw [hnil, List.take_nil] at hname
      exact List.not_mem_nil hname
    exact ⟨a, _, mem_leaves_functionsAt g a hne, hname⟩

/-- A symbol is shown if it is among the first that belong to its address. -/
theorem mem_shown_ofSymbols {root : Option Path} {symbols : List Symbol} {most : Nat}
    {name : String} : name ∈ shown most (ofSymbols root symbols) ↔
      ∃ a, name ∈ ((symbols.filter fun s => s.address root = a).map Symbol.name).take most := by
  rw [(tidy_ofSymbols root symbols).mem_shown]
  simp only [functionsAt_ofSymbols]

/-- Symbols of distinct names are shown once. -/
theorem nodup_shown_ofSymbols {root : Option Path} {symbols : List Symbol}
    (h : (symbolNames symbols).Nodup) (most : Nat) :
    (shown most (ofSymbols root symbols)).Nodup := by
  have htidy := tidy_ofSymbols root symbols
  -- The functions of an address are the names of the symbols that belong there.
  have hleaf : ∀ l ∈ leaves (ofSymbols root symbols),
      l.2 = (symbols.filter fun s => s.address root = l.1).map Symbol.name := by
    rintro ⟨a, functions⟩ hl
    rw [← functionsAt_ofSymbols, htidy.functionsAt_of_mem_leaves a functions hl]
  refine List.pairwise_flatMap.2 ⟨fun l hl => ?_, ?_⟩
  · rw [hleaf l hl]
    exact (h.sublist (List.filter_sublist.map _)).sublist (List.take_sublist _ _)
  · refine (List.pairwise_map.1 htidy.nodup_addresses).imp_of_mem ?_
    rintro l l' hl hl' hne _ hname _ hname' rfl
    have hname := List.mem_of_mem_take hname
    have hname' := List.mem_of_mem_take hname'
    rw [hleaf l hl] at hname
    rw [hleaf l' hl'] at hname'
    obtain ⟨s, hs, rfl⟩ := List.mem_map.1 hname
    obtain ⟨s', hs', heq⟩ := List.mem_map.1 hname'
    rw [List.mem_filter, decide_eq_true_iff] at hs hs'
    obtain rfl : s' = s := List.inj_on_of_nodup_map h hs'.1 hs.1 heq
    exact hne (hs.2.symm.trans hs'.2)

end Grouping

namespace Roster

/-- The ids and labels of the names that are enrolled. -/
def labelled (r : Roster) (names : List String) : List (String × String) :=
  names.filterMap fun name => (r.id? name).map fun id => (id, (r.label? id).getD "")

@[simp] theorem labelled_nil (r : Roster) : r.labelled [] = [] :=
  rfl

@[simp] theorem labelled_append (r : Roster) (names names' : List String) :
    r.labelled (names ++ names') = r.labelled names ++ r.labelled names' :=
  List.filterMap_append

theorem labelled_flatMap {α : Type} (r : Roster) (names : α → List String) (l : List α) :
    r.labelled (l.flatMap names) = l.flatMap fun a => r.labelled (names a) :=
  List.filterMap_flatMap

end Roster

namespace Item

open Grouping (shown leaves)

variable (r : Roster) (most : Nat)

/-! ## Nodes of a layout -/

theorem nodes_nodesOf (functions : List String) :
    (nodesOf r most functions).flatMap nodes = r.labelled (functions.take most) := by
  rw [nodesOf, Roster.labelled]
  induction functions.take most with
  | nil => rfl
  | cons name names ih => cases h : r.id? name <;> simp [h, ih]

theorem nodes_ofClasses (file : String) (classes : Classes) :
    (ofClasses r most file classes).flatMap nodes =
      r.labelled (classes.flatMap fun c => c.2.take most) := by
  have hplace : ∀ p : (String × List String) × Nat,
      (if wrapsClasses classes && !isModuleClass p.1.1 then
        [Item.block .ofClass (classId file p.2) p.1.1 (nodesOf r most p.1.2)]
        else nodesOf r most p.1.2).flatMap nodes = r.labelled (p.1.2.take most) := by
    intro p
    split <;> simp [nodes_nodesOf]
  have hfst : (classes.zipIdx.flatMap fun p => r.labelled (p.1.2.take most)) =
      (classes.zipIdx.map Prod.fst).flatMap fun c => r.labelled (c.2.take most) := by
    rw [List.flatMap_map]
  rw [ofClasses, List.flatMap_assoc, List.flatMap_congr fun p _ => hplace p, hfst,
    List.zipIdx_map_fst, Roster.labelled_flatMap]

theorem nodes_ofFiles : ∀ (c : Numbering) (files : Entries Classes),
    (ofFiles r most c files).1.flatMap nodes =
      r.labelled (files.flatMap fun f => f.2.flatMap fun c => c.2.take most)
  | _, [] => rfl
  | c, (stem, classes) :: files => by
    rw [ofFiles, List.flatMap_cons, Roster.labelled_append]
    split
    · simp [nodes_ofClasses, nodes_ofFiles c.nextFile.2 files]
    next hempty =>
      have hnil : classes.flatMap (fun c => c.2.take most) = [] := by
        rw [Grouping.fileHasFunctions, List.any_eq_true] at hempty
        rw [List.flatMap_eq_nil_iff]
        intro c hc
        have : c.2 = [] := Classical.byContradiction fun hne => hempty ⟨c, hc, by simpa using hne⟩
        rw [this, List.take_nil]
      rw [nodes_ofFiles c files, hnil, Roster.labelled_nil, List.nil_append]

mutual

/-- A layout has the nodes of the functions that are shown. -/
theorem nodes_layout (c : Numbering) : ∀ g : Grouping,
    (layout r most c g).1.flatMap nodes = r.labelled (shown most g)
  | .level files directories => by
    rw [layout, Grouping.shown_level, Roster.labelled_append]
    simp [nodes_ofFiles, nodes_ofDirectories (ofFiles r most c files).2 directories]

theorem nodes_ofDirectories (c : Numbering) : ∀ directories : List (String × Grouping),
    (ofDirectories r most c directories).1.flatMap nodes =
      r.labelled (directories.flatMap fun d => shown most d.2)
  | [] => rfl
  | (name, g) :: rest => by
    rw [ofDirectories, List.flatMap_cons, Roster.labelled_append]
    split
    · simp [nodes_layout c.nextDirectory.2 g,
        nodes_ofDirectories (layout r most c.nextDirectory.2 g).2 rest]
    next hempty =>
      rw [nodes_ofDirectories c rest, Grouping.shown_eq_nil (by simpa using hempty),
        Roster.labelled_nil, List.nil_append]

end

/-! ## Blocks of a layout -/

/-- Every block in an item has a node inside. -/
inductive Filled : Item → Prop
  | node {id label : String} : Filled (.node id label)
  | block {kind : BlockKind} {id name : String} {items : List Item}
    (filled : items.flatMap nodes ≠ []) (below : ∀ item ∈ items, Filled item) :
    Filled (.block kind id name items)

variable {r most}

theorem filled_nodesOf (functions : List String) : ∀ item ∈ nodesOf r most functions,
    Filled item := by
  intro item hitem
  obtain ⟨name, -, hname⟩ := List.mem_filterMap.1 hitem
  obtain ⟨id, -, rfl⟩ := Option.map_eq_some_iff.1 hname
  exact .node

/-- Enrolled functions make a node each. -/
theorem labelled_ne_nil {names : List String} (hne : names ≠ [])
    (henrolled : ∀ name ∈ names, (r.id? name).isSome = true) : r.labelled names ≠ [] := by
  obtain ⟨name, names', rfl⟩ := List.exists_cons_of_ne_nil hne
  obtain ⟨id, hid⟩ := Option.isSome_iff_exists.1 (henrolled name List.mem_cons_self)
  simp [Roster.labelled, hid]

/-- A class with functions, all of which are enrolled. -/
structure FilledClass (r : Roster) (functions : List String) : Prop where
  ne_nil : functions ≠ []
  enrolled : ∀ name ∈ functions, (r.id? name).isSome = true

theorem FilledClass.labelled_take_ne_nil {functions : List String} (h : FilledClass r functions)
    (hmost : 0 < most) : r.labelled (functions.take most) ≠ [] :=
  labelled_ne_nil (by simp [h.ne_nil, Nat.ne_of_gt hmost])
    fun name hname => h.enrolled name (List.mem_of_mem_take hname)

theorem filled_ofClasses (hmost : 0 < most) (file : String) {classes : Classes}
    (h : ∀ c ∈ classes, FilledClass r c.2) : ∀ item ∈ ofClasses r most file classes,
    Filled item := by
  intro item hitem
  obtain ⟨p, hp, hitem⟩ := List.mem_flatMap.1 hitem
  have hc : FilledClass r p.1.2 := h p.1 (List.fst_mem_of_mem_zipIdx hp)
  simp only at hitem
  split at hitem
  · obtain rfl := List.mem_singleton.1 hitem
    refine .block ?_ (filled_nodesOf p.1.2)
    rw [nodes_nodesOf]
    exact hc.labelled_take_ne_nil hmost
  · exact filled_nodesOf p.1.2 item hitem

theorem filled_ofFiles (hmost : 0 < most) : ∀ (c : Numbering) {files : Entries Classes},
    (∀ f ∈ files, ∀ c ∈ f.2, FilledClass r c.2) → ∀ item ∈ (ofFiles r most c files).1, Filled item
  | _, [], _ => by simp [ofFiles]
  | c, (stem, classes) :: files, h => by
    have hclasses : ∀ c ∈ classes, FilledClass r c.2 := h _ List.mem_cons_self
    have hfiles : ∀ f ∈ files, ∀ c ∈ f.2, FilledClass r c.2 :=
      fun f hf => h f (List.mem_cons_of_mem _ hf)
    rw [ofFiles]
    split
    next hhas =>
      refine List.forall_mem_cons.2 ⟨.block ?_ (filled_ofClasses hmost _ hclasses),
        filled_ofFiles hmost c.nextFile.2 hfiles⟩
      obtain ⟨owner, howner, -⟩ := List.any_eq_true.1 hhas
      rw [nodes_ofClasses, Roster.labelled_flatMap]
      exact fun hnil => (hclasses owner howner).labelled_take_ne_nil hmost
        (List.flatMap_eq_nil_iff.1 hnil owner howner)
    next => exact filled_ofFiles hmost c hfiles

mutual

/-- Every block of a layout has a node inside, if no class is empty and every function is
enrolled. -/
theorem filled_layout (hmost : 0 < most) (c : Numbering) : ∀ {g : Grouping},
    (∀ a functions, (a, functions) ∈ leaves g → FilledClass r functions) →
      ∀ item ∈ (layout r most c g).1, Filled item
  | .level files directories, h => by
    rw [layout]
    refine List.forall_mem_append.2
      ⟨filled_ofFiles hmost c fun f hf owner howner =>
        h _ _ (Grouping.mem_leaves_level.2 (.inl ⟨f, hf, owner, howner, rfl, rfl⟩)),
      filled_ofDirectories hmost _ fun d hd a functions hmem =>
        h _ _ (Grouping.mem_leaves_level.2 (.inr ⟨d, hd, a, hmem, rfl⟩))⟩

theorem filled_ofDirectories (hmost : 0 < most) (c : Numbering) :
    ∀ {directories : List (String × Grouping)},
    (∀ d ∈ directories, ∀ a functions, (a, functions) ∈ leaves d.2 → FilledClass r functions) →
      ∀ item ∈ (ofDirectories r most c directories).1, Filled item
  | [], _ => by simp [ofDirectories]
  | (name, g) :: rest, h => by
    have hg : ∀ a functions, (a, functions) ∈ leaves g → FilledClass r functions :=
      h _ List.mem_cons_self
    have hrest : ∀ d ∈ rest, ∀ a functions, (a, functions) ∈ leaves d.2 →
        FilledClass r functions := fun d hd => h d (List.mem_cons_of_mem _ hd)
    rw [ofDirectories]
    split
    next hhas =>
      refine List.forall_mem_cons.2 ⟨.block ?_ (filled_layout hmost c.nextDirectory.2 hg),
        filled_ofDirectories hmost _ hrest⟩
      obtain ⟨a, functions, hmem, -⟩ := (Grouping.hasFunctions_iff g).1 hhas
      rw [nodes_layout, Grouping.shown, Roster.labelled_flatMap]
      exact fun hnil => (hg a functions hmem).labelled_take_ne_nil hmost
        (List.flatMap_eq_nil_iff.1 hnil _ hmem)
    next => exact filled_ofDirectories hmost c hrest

end

end Item

end CallChart
