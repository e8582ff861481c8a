import CallChart.Emission
import CallChart.Proofs.Items

/-!
# What an emission writes

An emission writes the lines, records and ids that `Item.layout` lists (`Emission.ofGrouping_eq`).
`Emission.write` adds those of a list of items to what was written, at their level and inside their
parent. Each function of the emission writes some items in this way, and then enters the nodes
among them in the record of the block around them ; it does not matter to the record what was
written in the meantime (`Emission.enter_write`).
-/

namespace List

variable {α : Type*} {f : α → α}

theorem modify_append_of_lt : ∀ {l l' : List α} {k : Nat}, k < l.length →
    (l ++ l').modify k f = l.modify k f ++ l'
  | _ :: _, _, 0, _ => rfl
  | a :: l, l', k + 1, h => by
    rw [cons_append, modify_succ_cons, modify_succ_cons, cons_append,
      modify_append_of_lt (Nat.lt_of_succ_lt_succ h)]

theorem modify_length_append (l : List α) (a : α) (l' : List α) :
    (l ++ a :: l').modify l.length f = l ++ f a :: l' :=
  modifyTailIdx_add (modifyHead f) 0 l (a :: l')

end List

namespace CallChart

/-! ## Lists of items -/

namespace Item

theorem allLines_append (depth : Nat) (items items' : List Item) :
    allLines depth (items ++ items') = allLines depth items ++ allLines depth items' := by
  simp only [allLines_eq, List.flatMap_append]

theorem allInfos_append (level : Nat) (parent : Option String) (items items' : List Item) :
    allInfos level parent (items ++ items') =
      allInfos level parent items ++ allInfos level parent items' := by
  simp only [allInfos_eq, List.flatMap_append]

theorem allNodeIds_append (items items' : List Item) :
    allNodeIds (items ++ items') = allNodeIds items ++ allNodeIds items' := by
  simp only [allNodeIds_eq, List.flatMap_append]

/-- The items of the class at a place of a file. -/
def ofClass (r : Roster) (most : Nat) (wraps : Bool) (file : String)
    (p : (String × List String) × Nat) : List Item :=
  if wraps && !isModuleClass p.1.1 then
    [.block .ofClass (classId file p.2) p.1.1 (nodesOf r most p.1.2)]
  else nodesOf r most p.1.2

theorem ofClasses_eq (r : Roster) (most : Nat) (file : String) (classes : Classes) :
    ofClasses r most file classes =
      classes.zipIdx.flatMap (ofClass r most (wrapsClasses classes) file) :=
  rfl

/-! ## Nothing to lay out -/

theorem ofFiles_eq_nil {r : Roster} {most : Nat} : ∀ {c : Numbering} {files : Entries Classes},
    (files.any fun f => Grouping.fileHasFunctions f.2) = false → ofFiles r most c files = ([], c)
  | _, [], _ => rfl
  | c, (stem, classes) :: files, h => by
    rw [List.any_cons, Bool.or_eq_false_iff] at h
    rw [ofFiles, h.1, if_neg Bool.false_ne_true, ofFiles_eq_nil h.2]

theorem ofDirectories_eq_nil {r : Roster} {most : Nat} {c : Numbering} :
    ∀ {directories : List (String × Grouping)}, Grouping.anyHave directories = false →
      ofDirectories r most c directories = ([], c)
  | [], _ => rfl
  | (name, g) :: rest, h => by
    rw [Grouping.anyHave, Bool.or_eq_false_iff] at h
    rw [ofDirectories, h.1, if_neg Bool.false_ne_true, ofDirectories_eq_nil h.2]

/-- A grouping without functions has no blocks. -/
theorem layout_eq_nil {r : Roster} {most : Nat} {c : Numbering} : ∀ {g : Grouping},
    g.hasFunctions = false → layout r most c g = ([], c)
  | .level files directories, h => by
    rw [Grouping.hasFunctions, Bool.or_eq_false_iff] at h
    rw [layout, ofFiles_eq_nil h.1]
    simp [ofDirectories_eq_nil h.2]

/-! ## No nodes at the top -/

variable (r : Roster) (most : Nat)

theorem filterMap_nodeId?_ofFiles : ∀ (c : Numbering) (files : Entries Classes),
    (ofFiles r most c files).1.filterMap nodeId? = []
  | _, [] => rfl
  | c, (stem, classes) :: files => by
    rw [ofFiles]
    split
    · exact filterMap_nodeId?_ofFiles c.nextFile.2 files
    · exact filterMap_nodeId?_ofFiles c files

theorem filterMap_nodeId?_ofDirectories : ∀ (c : Numbering)
    (directories : List (String × Grouping)),
    (ofDirectories r most c directories).1.filterMap nodeId? = []
  | _, [] => by simp [ofDirectories]
  | c, (name, g) :: rest => by
    rw [ofDirectories]
    split
    · exact filterMap_nodeId?_ofDirectories _ rest
    · exact filterMap_nodeId?_ofDirectories c rest

/-- No node stands outside the blocks of a level. -/
theorem filterMap_nodeId?_layout (c : Numbering) (g : Grouping) :
    (layout r most c g).1.filterMap nodeId? = [] := by
  cases g with
  | level files directories =>
    rw [layout]
    exact List.filterMap_append.trans
      (by rw [filterMap_nodeId?_ofFiles, filterMap_nodeId?_ofDirectories, List.append_nil])

end Item

/-! ## Writing items -/

namespace Emission

/-- Write items that stand inside `level` blocks, the innermost being `parent`. -/
def write (level : Nat) (parent : Option String) (items : List Item) (out : Emission) :
    Emission where
  lines := out.lines ++ Item.allLines (level + 1) items
  blocks := out.blocks ++ Item.allInfos level parent items
  nodeIds := out.nodeIds ++ Item.allNodeIds items

variable {level : Nat} {parent : Option String} {out : Emission} {place : Nat}

@[simp] theorem write_nil : out.write level parent [] = out := by
  simp [write, Item.allLines, Item.allInfos, Item.allNodeIds]

theorem write_write (items items' : List Item) :
    (out.write level parent items).write level parent items' =
      out.write level parent (items ++ items') := by
  simp [write, Item.allLines_append, Item.allInfos_append, Item.allNodeIds_append]

theorem length_blocks_le (items : List Item) :
    out.blocks.length ≤ (out.write level parent items).blocks.length := by
  simp [write]

theorem enter_nil : out.enter place [] = out := by
  have hid : BlockInfo.enter [] = id := funext fun b => by simp [BlockInfo.enter]
  rw [enter, hid, List.modify_id]

theorem enter_enter (ids ids' : List String) :
    (out.enter place ids).enter place ids' = out.enter place (ids ++ ids') := by
  have hcomp : BlockInfo.enter ids' ∘ BlockInfo.enter ids = BlockInfo.enter (ids ++ ids') :=
    funext fun b => by simp [BlockInfo.enter]
  simp only [enter, List.modify_modify_eq, hcomp]

/-- What is entered in a record does not depend on what was written after it. -/
theorem enter_write (h : place < out.blocks.length) (ids : List String) (items : List Item) :
    (out.write level parent items).enter place ids =
      (out.enter place ids).write level parent items := by
  simp [enter, write, List.modify_append_of_lt h]

theorem write_node (id label : String) :
    out.write level parent [.node id label] = out.writeNode (level + 1) id label := by
  simp [write, writeNode, Item.allLines, Item.lines, Item.allInfos, Item.infos, Item.allNodeIds,
    Item.nodeIds]

/-- A block is opened, its items are written, its nodes are entered in its record, and it is
closed. -/
theorem write_block (out : Emission) (level : Nat) (parent : Option String) (kind : BlockKind)
    (id name : String) (items : List Item) :
    ((((out.openBlock kind id name (level + 1) parent).2.write (level + 1) (some id) items).enter
      out.blocks.length (items.filterMap Item.nodeId?)).closeBlock (level + 1)) =
      out.write level parent [.block kind id name items] := by
  simp [openBlock, write, enter, closeBlock, List.modify_length_append, BlockInfo.enter,
    Item.allLines, Item.lines, Item.allInfos, Item.infos, Item.allNodeIds, Item.nodeIds]

/-! ## Files -/

variable (r : Roster) (level parent)

theorem functions_eq : ∀ (most : Nat) (names : List String) (out : Emission),
    functions r (level + 1) (names.take most) out =
      ((Item.nodesOf r most names).filterMap Item.nodeId?,
        out.write level parent (Item.nodesOf r most names))
  | 0, names, out => by simp [functions, Item.nodesOf]
  | _ + 1, [], out => by simp [functions, Item.nodesOf]
  | most + 1, name :: names, out => by
    have hnodes : Item.nodesOf r (most + 1) (name :: names) =
        ((r.id? name).map fun id => Item.node id ((r.label? id).getD "")).toList ++
          Item.nodesOf r most names := by
      cases h : r.id? name <;> simp [Item.nodesOf, h]
    rw [List.take_succ_cons, functions]
    cases h : r.id? name with
    | none =>
      rw [functions_eq most names out, hnodes, h]
      rfl
    | some id =>
      rw [hnodes, h, Option.map_some, Option.toList_some, ← write_write, write_node]
      simp only [functions_eq most names]
      rfl

variable {level parent}

variable (most : Nat) (wraps : Bool) (file : String)

/-- A class is written, and the nodes that stand in the file itself are entered in its record. -/
theorem ofClass_eq (k : Nat) (name : String) (names : List String) (out : Emission) :
    ofClass r most (level + 1) wraps file place k name names out =
      let items := Item.ofClass r most wraps file ((name, names), k)
      (out.write (level + 1) (some file) items).enter place (items.filterMap Item.nodeId?) := by
  unfold ofClass Item.ofClass
  split
  · have hnodes := functions_eq (level + 2) (some (classId file k)) r most names
      (out.openBlock .ofClass (classId file k) name (level + 2) (some file)).2
    have hblock := write_block out (level + 1) (some file) .ofClass (classId file k) name
      (Item.nodesOf r most names)
    simp only [openBlock] at hnodes hblock ⊢
    simp only [hnodes, hblock]
    exact enter_nil.symm
  · simp only [functions_eq (level + 1) (some file) r most names out]

/-- The classes of a file are written one after another. -/
theorem classes_eq : ∀ (k : Nat) (owners : Classes) (out : Emission), place < out.blocks.length →
    classes r most (level + 1) wraps file place k owners out =
      let items := (owners.zipIdx k).flatMap (Item.ofClass r most wraps file)
      (out.write (level + 1) (some file) items).enter place (items.filterMap Item.nodeId?)
  | k, [], out, _ => by simp [classes, enter_nil]
  | k, (name, names) :: rest, out, h => by
    have hlater : ∀ items, place < (out.write (level + 1) (some file) items).blocks.length :=
      fun items => Nat.lt_of_lt_of_le h (length_blocks_le items)
    rw [classes, ofClass_eq r most wraps file k name names out, classes_eq (k + 1) rest _ ?_,
      List.zipIdx_cons, List.flatMap_cons]
    · simp only [← enter_write (hlater _), write_write, enter_enter, List.filterMap_append]
    · simpa [enter] using hlater _

theorem file_eq (parent : Option String) (id stem : String) (owners : Classes) (out : Emission) :
    Emission.file r most (level + 1) parent id stem owners out =
      out.write level parent [.block .ofFile id stem (Item.ofClasses r most id owners)] := by
  rw [Emission.file, ← write_block, Item.ofClasses_eq]
  simp only [openBlock]
  rw [classes_eq]
  simp

theorem files_eq (parent : Option String) : ∀ (c : Numbering) (out : Emission)
    (stems : Entries Classes), files r most (level + 1) parent c out stems =
      (out.write level parent (Item.ofFiles r most c stems).1, (Item.ofFiles r most c stems).2)
  | c, out, [] => by simp [files, Item.ofFiles]
  | c, out, (stem, owners) :: rest => by
    rw [files, Item.ofFiles]
    split
    · simp only [files_eq parent c.nextFile.2, file_eq, write_write]
      rfl
    · exact files_eq parent c out rest

mutual

theorem level_eq (level : Nat) (parent : Option String) (c : Numbering) (out : Emission) :
    ∀ g : Grouping, Emission.level r most (level + 1) parent c out g =
      (out.write level parent (Item.layout r most c g).1, (Item.layout r most c g).2)
  | .level stems subdirectories => by
    simp only [Emission.level, files_eq, Item.layout,
      directories_eq level parent (Item.ofFiles r most c stems).2 _ subdirectories, write_write]

theorem directories_eq (level : Nat) (parent : Option String) (c : Numbering) (out : Emission) :
    ∀ subdirectories : List (String × Grouping),
      directories r most (level + 1) parent c out subdirectories =
        (out.write level parent (Item.ofDirectories r most c subdirectories).1,
          (Item.ofDirectories r most c subdirectories).2)
  | [] => by simp [directories, Item.ofDirectories]
  | (name, g) :: rest => by
    rw [directories, Item.ofDirectories]
    split
    · have hlevel := level_eq (level + 1) (some c.nextDirectory.1) c.nextDirectory.2
        (out.openBlock .ofDirectory c.nextDirectory.1 name (level + 1) parent).2 g
      have hblock := write_block out level parent .ofDirectory c.nextDirectory.1 name
        (Item.layout r most c.nextDirectory.2 g).1
      rw [Item.filterMap_nodeId?_layout, enter_nil] at hblock
      simp only [hlevel, hblock, directories_eq level parent, write_write]
      rfl
    · exact directories_eq level parent c out rest

end

/-- An emission writes the lines, the records and the ids of the layout. -/
theorem ofGrouping_eq (c : Numbering) (g : Grouping) :
    ofGrouping r most c g =
      let (items, c') := Item.layout r most c g
      (⟨Item.allLines 1 items, Item.allInfos 0 none items, Item.allNodeIds items⟩, c') := by
  rw [ofGrouping]
  split
  · rw [level_eq]
    simp [write]
  next h =>
    rw [Item.layout_eq_nil (by simpa using h)]
    rfl

end Emission

end CallChart
