import CallChart.Block
import Mathlib.Data.List.Basic

/-!
# Items of a chart

Blocks hold items, which may be blocks again. `Item.induct` is induction over an item from the
items inside it, and what is listed of several items is listed item by item (`allLines_eq`,
`allNodeIds_eq`, `allInfos_eq`). Beside the ids of its nodes an item has its nodes with their
labels (`nodes`) and the ids of its blocks (`blockIds`), which are those of its records
(`map_id_allInfos`).
-/

namespace CallChart

namespace Item

/-- What holds of nodes, and of a block if it holds of the items inside, holds of every item. -/
theorem induct {P : Item → Prop} (node : ∀ id label, P (.node id label))
    (block : ∀ kind id name items, (∀ item ∈ items, P item) → P (.block kind id name items)) :
    ∀ item, P item
  | .node id label => node id label
  | .block kind id name items => block kind id name items fun item _ => induct node block item

theorem allLines_eq (depth : Nat) : ∀ items, allLines depth items = items.flatMap (lines depth)
  | [] => rfl
  | item :: items => by rw [allLines, allLines_eq depth items, List.flatMap_cons]

theorem allNodeIds_eq : ∀ items, allNodeIds items = items.flatMap nodeIds
  | [] => rfl
  | item :: items => by rw [allNodeIds, allNodeIds_eq items, List.flatMap_cons]

theorem allInfos_eq (level : Nat) (parent : Option String) :
    ∀ items, allInfos level parent items = items.flatMap (infos level parent)
  | [] => rfl
  | item :: items => by rw [allInfos, allInfos_eq level parent items, List.flatMap_cons]

/-! ## Nodes and blocks -/

/-- The nodes of an item with their labels, in the order of the lines. -/
def nodes : Item → List (String × String)
  | .node id label => [(id, label)]
  | .block _ _ _ items => items.flatMap nodes

/-- The ids of an item's blocks, in the order of the lines. -/
def blockIds : Item → List String
  | .node .. => []
  | .block _ id _ items => id :: items.flatMap blockIds

@[simp] theorem nodes_node (id label : String) : nodes (.node id label) = [(id, label)] := by
  rw [nodes]

@[simp] theorem nodes_block (kind : BlockKind) (id name : String) (items : List Item) :
    nodes (.block kind id name items) = items.flatMap nodes := by
  rw [nodes]

@[simp] theorem blockIds_node (id label : String) : blockIds (.node id label) = [] := by
  rw [blockIds]

@[simp] theorem blockIds_block (kind : BlockKind) (id name : String) (items : List Item) :
    blockIds (.block kind id name items) = id :: items.flatMap blockIds := by
  rw [blockIds]

theorem map_fst_nodes (item : Item) : (nodes item).map Prod.fst = nodeIds item := by
  induction item using induct with
  | node id label => simp [nodeIds]
  | block kind id name items ih =>
    rw [nodes_block, nodeIds, allNodeIds_eq, List.map_flatMap]
    exact List.flatMap_congr ih

theorem map_fst_allNodes (items : List Item) :
    (items.flatMap nodes).map Prod.fst = allNodeIds items := by
  rw [allNodeIds_eq, List.map_flatMap]
  exact List.flatMap_congr fun item _ => map_fst_nodes item

theorem map_id_infos (item : Item) :
    ∀ level parent, (infos level parent item).map BlockInfo.id = blockIds item := by
  induction item using induct with
  | node id label =>
    intro level parent
    rw [infos, blockIds_node, List.map_nil]
  | block kind id name items ih =>
    intro level parent
    rw [infos, blockIds_block, allInfos_eq, List.map_cons, List.map_flatMap]
    exact congrArg _ (List.flatMap_congr fun item hitem => ih item hitem _ _)

/-- The records of items are those of their blocks. -/
theorem map_id_allInfos (level : Nat) (parent : Option String) (items : List Item) :
    (allInfos level parent items).map BlockInfo.id = items.flatMap blockIds := by
  rw [allInfos_eq, List.map_flatMap]
  exact List.flatMap_congr fun item _ => map_id_infos item level parent

end Item

end CallChart
