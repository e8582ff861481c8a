import CallChart.Proofs.Emission
import CallChart.Proofs.Layout
import CallChart.Proofs.Marks
import CallChart.Proofs.Roster

/-!
# Well-nested lines

The lines of an emission say what its records say. `Scan.line` reads one line after another with a
stack of the blocks that are open. A line that opens a block enters a reading of the block and puts
it on the stack, a line that closes one takes the block on top off, and a node belongs to the block
on top. Every line must stand as far in as blocks are open, four spaces for each and four for the
chart, and where no block is open none can be closed and no node be shown.

The lines of an item are read from any state of the stack, and leave the stack as it was
(`Scan.foldlM_lines`). So the lines of a whole emission are read to the end, with no block left
open, and the readings of the blocks are those of the records. Main statement :
`Emission.ofGrouping_wellNested`.
-/

namespace CallChart

/-! ## Reading lines -/

/-- What is read of a block. -/
structure BlockReading where
  id : String
  title : String
  /-- Blocks around it. -/
  level : Nat
  parent : Option String
  /-- Nodes that stand directly in it. -/
  nodeIds : List String

/-- Enter nodes in a reading, behind the others. -/
def BlockReading.enter (ids : List String) (b : BlockReading) : BlockReading :=
  { b with nodeIds := b.nodeIds ++ ids }

/-- What is to be read of a block by its record. -/
def BlockInfo.reading (b : BlockInfo) : BlockReading :=
  ⟨b.id, Mark.titleOf b.kind b.name, b.level, b.parent, b.nodeIds⟩

/-- What has been read. -/
structure Scan where
  /-- The open blocks, the innermost first : the place of the reading, and the id. -/
  stack : List (Nat × String) := []
  blocks : List BlockReading := []
  nodeIds : List String := []

namespace Scan

/-- The spaces a line begins with. -/
def margin (line : String) : Nat :=
  (line.toList.takeWhile (· == ' ')).length

/-- Read a line. There is no answer if it stands too far in or out, if it closes a block or shows a
node where no block is open, or if it does something else. -/
def line (s : Scan) (text : String) : Option Scan :=
  match Mark.read text, s.stack with
  | some (.opening id title), stack =>
    if margin text = 4 * (stack.length + 1) then
      some { s with
        stack := (s.blocks.length, id) :: stack
        blocks := s.blocks ++ [⟨id, title, stack.length, stack.head?.map Prod.snd, []⟩] }
    else none
  | some .closing, _ :: stack =>
    if margin text = 4 * (stack.length + 1) then some { s with stack := stack } else none
  | some (.node id _), (place, _) :: _ =>
    if margin text = 4 * (s.stack.length + 1) then
      some { s with
        blocks := s.blocks.modify place (BlockReading.enter [id])
        nodeIds := s.nodeIds ++ [id] }
    else none
  | _, _ => none

/-! ## Margins -/

theorem margin_indent (depth : Nat) {s : String} {c : Char} {cs : List Char}
    (hs : s.toList = c :: cs) (hc : c ≠ ' ') : margin (Text.indent depth ++ s) = 4 * depth := by
  have hspaces : ∀ c ∈ List.replicate (4 * depth) ' ', (c == ' ') = true := by
    intro c hc
    rw [(List.mem_replicate.1 hc).2]
    rfl
  rw [margin, String.toList_append, Text.indent, String.toList_ofList, hs,
    List.takeWhile_append_of_pos hspaces, List.takeWhile_cons, beq_eq_false_iff_ne.2 hc]
  simp

theorem margin_nodeLine (depth k : Nat) (label : String) :
    margin (Item.nodeLine depth (nodeId k) label) = 4 * depth := by
  rw [Item.nodeLine, String.append_assoc, String.append_assoc, String.append_assoc]
  exact margin_indent depth (by rw [String.toList_append, toList_nodeId]; rfl) (by decide)

theorem margin_openingLine (depth : Nat) (kind : BlockKind) (id name : String) :
    margin (Item.openingLine depth kind id name) = 4 * depth := by
  simp only [Item.openingLine, String.append_assoc]
  exact margin_indent depth (by rw [String.toList_append]; rfl) (by decide)

theorem margin_closingLine (depth : Nat) : margin (Item.closingLine depth) = 4 * depth :=
  margin_indent depth rfl (by decide)

/-! ## Reading items -/

/-- The places on the stack are those of blocks. -/
def WellPlaced (s : Scan) : Prop :=
  ∀ top ∈ s.stack, top.1 < s.blocks.length

/-- The blocks that were read, with nodes entered in the one on top. -/
def enterTop (s : Scan) (ids : List String) : List BlockReading :=
  match s.stack with
  | [] => s.blocks
  | (place, _) :: _ => s.blocks.modify place (BlockReading.enter ids)

/-- What has been read once the lines of `items` are read. -/
def withItems (s : Scan) (items : List Item) : Scan where
  stack := s.stack
  blocks := s.enterTop (items.filterMap Item.nodeId?) ++
    (Item.allInfos s.stack.length (s.stack.head?.map Prod.snd) items).map BlockInfo.reading
  nodeIds := s.nodeIds ++ Item.allNodeIds items

/-- What has been read once a block is opened. -/
def opened (s : Scan) (kind : BlockKind) (id name : String) : Scan :=
  { s with
    stack := (s.blocks.length, id) :: s.stack
    blocks := s.blocks ++
      [⟨id, Mark.titleOf kind name, s.stack.length, s.stack.head?.map Prod.snd, []⟩] }

variable {s : Scan}

theorem line_openingLine (kind : BlockKind) {id : String} (name : String) (hid : Mark.IsWord id) :
    s.line (Item.openingLine (s.stack.length + 1) kind id name) = some (s.opened kind id name) := by
  simp [line, Mark.read_openingLine _ kind name hid, margin_openingLine, opened]

theorem line_closingLine (top : Nat × String) (stack : List (Nat × String))
    (h : s.stack = top :: stack) :
    s.line (Item.closingLine (stack.length + 1)) = some { s with stack := stack } := by
  simp [line, Mark.read_closingLine, margin_closingLine, h]

theorem line_nodeLine (k : Nat) (label : String) (h : s.stack ≠ []) :
    s.line (Item.nodeLine (s.stack.length + 1) (nodeId k) label) =
      some (s.withItems [.node (nodeId k) label]) := by
  obtain ⟨top, stack, hstack⟩ := List.exists_cons_of_ne_nil h
  simp [line, Mark.read_nodeLine, margin_nodeLine, hstack, withItems, enterTop, Item.nodeId?,
    Item.allInfos, Item.infos, Item.allNodeIds, Item.nodeIds]

/-! ## Items one after another -/

theorem enter_nil : BlockReading.enter [] = id :=
  funext fun b => by simp [BlockReading.enter]

theorem enter_comp (ids ids' : List String) :
    BlockReading.enter ids' ∘ BlockReading.enter ids = BlockReading.enter (ids ++ ids') :=
  funext fun b => by simp [BlockReading.enter]

theorem withItems_nil (s : Scan) : s.withItems [] = s := by
  cases s with
  | mk stack blocks nodeIds =>
    cases stack <;> simp [withItems, enterTop, enter_nil, Item.allInfos, Item.allNodeIds]

theorem withItems_withItems (h : s.WellPlaced) (items items' : List Item) :
    (s.withItems items).withItems items' = s.withItems (items ++ items') := by
  cases hstack : s.stack with
  | nil => simp [withItems, enterTop, hstack, Item.allInfos_append, Item.allNodeIds_append]
  | cons top stack =>
    have hplace : top.1 < s.blocks.length := h top (hstack ▸ List.mem_cons_self)
    have hlater : ∀ f, top.1 < (s.blocks.modify top.1 f).length := fun f => by simpa using hplace
    simp [withItems, enterTop, hstack, Item.allInfos_append, Item.allNodeIds_append,
      List.modify_append_of_lt (hlater _), List.modify_modify_eq, enter_comp]

theorem WellPlaced.withItems (h : s.WellPlaced) (items : List Item) :
    (s.withItems items).WellPlaced := by
  intro top htop
  have hlength : (s.enterTop (items.filterMap Item.nodeId?)).length = s.blocks.length := by
    unfold enterTop
    split
    · rfl
    · exact List.length_modify _ _ _
  rw [Scan.withItems, List.length_append, hlength]
  exact Nat.lt_add_right _ (h top htop)

theorem WellPlaced.opened (h : s.WellPlaced) (kind : BlockKind) (id name : String) :
    (s.opened kind id name).WellPlaced := by
  intro top htop
  rw [Scan.opened, List.length_append, List.length_singleton]
  rcases List.mem_cons.1 htop with rfl | htop
  · exact Nat.lt_succ_self _
  · exact Nat.lt_succ_of_lt (h top htop)

/-- A block is opened, its items are read, and it is closed. -/
theorem withItems_opened (kind : BlockKind) (id name : String) (items : List Item) :
    { (s.opened kind id name).withItems items with stack := s.stack } =
      s.withItems [.block kind id name items] := by
  have hnone : [Item.block kind id name items].filterMap Item.nodeId? = [] := rfl
  cases hstack : s.stack <;>
    simp [opened, withItems, enterTop, hstack, hnone, List.modify_length_append, enter_nil,
      BlockReading.enter, BlockInfo.reading, Item.allInfos, Item.infos, Item.allNodeIds,
      Item.nodeIds]

/-- An item can be read : its ids are words, and it is no node if no block is open. -/
structure Readable (s : Scan) (item : Item) : Prop where
  nodeIds : ∀ id ∈ item.nodeIds, ∃ k, id = nodeId k
  blockIds : ∀ id ∈ item.blockIds, Mark.IsWord id
  inside : s.stack = [] → item.nodeId? = none

/-- The items of a block can be read if the block can. -/
theorem Readable.items {kind : BlockKind} {id name : String} {items : List Item}
    (h : s.Readable (.block kind id name items)) :
    ∀ item ∈ items, (s.opened kind id name).Readable item := by
  intro item hitem
  obtain ⟨hnodes, hblocks, -⟩ := h
  rw [Item.nodeIds, Item.allNodeIds_eq] at hnodes
  rw [Item.blockIds_block] at hblocks
  exact ⟨fun id hid => hnodes id (List.mem_flatMap.2 ⟨item, hitem, hid⟩),
    fun id hid => hblocks id (List.mem_cons_of_mem _ (List.mem_flatMap.2 ⟨item, hitem, hid⟩)),
    fun hnil => absurd hnil (List.cons_ne_nil _ _)⟩

/-- Lines of items are read if the lines of each item are. -/
theorem foldlM_allLines : ∀ (items : List Item) (s : Scan), s.WellPlaced →
    (∀ item ∈ items, ∀ s' : Scan, s'.WellPlaced → s'.stack = s.stack →
      (item.lines (s.stack.length + 1)).foldlM line s' = some (s'.withItems [item])) →
      (Item.allLines (s.stack.length + 1) items).foldlM line s = some (s.withItems items)
  | [], s, _, _ => by simp [Item.allLines, withItems_nil]
  | item :: items, s, hs, hitems => by
    have hitem := hitems item List.mem_cons_self s hs rfl
    have hrest := foldlM_allLines items (s.withItems [item]) (hs.withItems [item])
      fun item' hmem => hitems item' (List.mem_cons_of_mem _ hmem)
    rw [withItems_withItems hs] at hrest
    rw [Item.allLines, List.foldlM_append, hitem]
    exact hrest

/-- The lines of an item are read, from any state of the stack, and leave the stack as it was. -/
theorem foldlM_lines (item : Item) : ∀ s : Scan, s.WellPlaced → s.Readable item →
    (item.lines (s.stack.length + 1)).foldlM line s = some (s.withItems [item]) := by
  induction item using Item.induct with
  | node id label =>
    intro s _ hread
    obtain ⟨k, rfl⟩ := hread.nodeIds id (by simp [Item.nodeIds])
    have hopen : s.stack ≠ [] := fun h => by simpa [Item.nodeId?] using hread.inside h
    rw [Item.lines, List.foldlM_cons, line_nodeLine k label hopen]
    rfl
  | block kind id name items ih =>
    intro s hs hread
    have hid : Mark.IsWord id := hread.blockIds id (by simp)
    have hinner : (Item.allLines (s.stack.length + 1 + 1) items).foldlM line
        (s.opened kind id name) = some ((s.opened kind id name).withItems items) := by
      refine foldlM_allLines items _ (hs.opened kind id name) fun item hitem s' hs' hstack => ?_
      have hread' := hread.items item hitem
      rw [← hstack]
      exact ih item hitem s' hs' ⟨hread'.nodeIds, hread'.blockIds, hstack ▸ hread'.inside⟩
    have hclose : ((s.opened kind id name).withItems items).line
        (Item.closingLine (s.stack.length + 1)) =
          some (s.withItems [.block kind id name items]) := by
      rw [line_closingLine (s.blocks.length, id) s.stack rfl, withItems_opened]
    simp only [Item.lines, List.foldlM_cons, line_openingLine kind name hid, List.foldlM_append,
      Option.bind_eq_bind, Option.bind_some, hinner, hclose, List.foldlM_nil]
    rfl

end Scan

/-! ## Emissions -/

namespace Item

theorem exists_nodeId_of_mem_allNodeIds (r : Roster) (most : Nat) (c : Numbering) (g : Grouping) :
    ∀ id ∈ allNodeIds (layout r most c g).1, ∃ k, id = nodeId k := by
  intro id hid
  rw [← map_fst_allNodes, nodes_layout, Roster.labelled, List.mem_map] at hid
  obtain ⟨node, hnode, rfl⟩ := hid
  obtain ⟨name, -, hname⟩ := List.mem_filterMap.1 hnode
  obtain ⟨id, hid, rfl⟩ := Option.map_eq_some_iff.1 hname
  obtain ⟨k, -, rfl⟩ := Roster.exists_lt_of_id? hid
  exact ⟨k + 1, rfl⟩

/-- The items of a layout can be read. -/
theorem readable_layout (r : Roster) (most : Nat) (c : Numbering) (g : Grouping) :
    ∀ item ∈ (layout r most c g).1, ∀ s : Scan, s.Readable item := by
  intro item hitem s
  have hnodes := exists_nodeId_of_mem_allNodeIds r most c g
  rw [allNodeIds_eq] at hnodes
  refine ⟨fun id hid => hnodes id (List.mem_flatMap.2 ⟨item, hitem, hid⟩), fun id hid => ?_,
    fun _ => List.filterMap_eq_nil_iff.1 (filterMap_nodeId?_layout r most c g) item hitem⟩
  exact Mark.isWord_of_issued ((fresh_layout r most c g).issued id
    (List.mem_flatMap.2 ⟨item, hitem, hid⟩))

end Item

/-- The lines of an emission are well nested, and say what its records say. Read one after another,
they never close a block or show a node where no block is open, each stands four spaces further in
than the blocks around it, and at the end no block is open. The blocks that were opened are those
of the records, in their order, each with the title, the level, the parent and the nodes that its
record tells, and the nodes are those of the emission in their order. No two blocks have one id,
and the nodes are those of the first functions of each class, where these are enrolled. -/
theorem Emission.ofGrouping_wellNested (r : Roster) (most : Nat) (c : Numbering) (g : Grouping) :
    let out := (Emission.ofGrouping r most c g).1
    out.lines.foldlM Scan.line {} =
        some { stack := [], blocks := out.blocks.map BlockInfo.reading, nodeIds := out.nodeIds } ∧
      (out.blocks.map BlockInfo.id).Nodup ∧
      out.nodeIds = (r.labelled (g.shown most)).map Prod.fst := by
  intro out
  have hout : out = _ := congrArg Prod.fst (Emission.ofGrouping_eq r most c g)
  have hread := Scan.foldlM_allLines (Item.layout r most c g).1 {} (by simp [Scan.WellPlaced])
    fun item hitem s hs hstack => by
      have hread := Item.readable_layout r most c g item hitem s
      rw [← hstack]
      exact Scan.foldlM_lines item s hs hread
  rw [hout]
  refine ⟨by simpa [Scan.withItems, Scan.enterTop] using hread, ?_, ?_⟩
  · exact Item.map_id_allInfos 0 none _ ▸ (Item.fresh_layout r most c g).nodup
  · exact (Item.map_fst_allNodes _).symm.trans
      (congrArg (List.map Prod.fst) (Item.nodes_layout r most c g))

end CallChart
