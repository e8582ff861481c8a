import CallChart.Proofs.Layout
import CallChart.Proofs.Marks

/-!
# Nodes inside blocks

`Mark.within` reads marks with a stack of the blocks that are open, and puts down each node with
the blocks around it. Of the marks of an item it finds the nodes where the item has them
(`Mark.within_ofItem`), so in items of which every block has a node inside, each block that is
opened is around some node that is read (`Mark.exists_within_of_filled`).
-/

namespace CallChart

namespace Item

/-- The nodes of an item, each with the blocks around it, innermost first, when `stack` is around
the item. -/
def placed (stack : List String) : Item → List (String × List String)
  | .node id _ => [(id, stack)]
  | .block _ id _ items => items.flatMap (placed (id :: stack))

@[simp] theorem placed_node (stack : List String) (id label : String) :
    placed stack (.node id label) = [(id, stack)] := by
  rw [placed]

@[simp] theorem placed_block (stack : List String) (kind : BlockKind) (id name : String)
    (items : List Item) :
    placed stack (.block kind id name items) = items.flatMap (placed (id :: stack)) := by
  rw [placed]

theorem map_fst_placed (item : Item) :
    ∀ stack, (placed stack item).map Prod.fst = item.nodes.map Prod.fst := by
  induction item using induct with
  | node id label => simp
  | block kind id name items ih =>
    intro stack
    rw [placed_block, nodes_block, List.map_flatMap, List.map_flatMap]
    exact List.flatMap_congr fun item hitem => ih item hitem _

/-- What is around an item is around its nodes. -/
theorem suffix_of_mem_placed (item : Item) :
    ∀ stack, ∀ p ∈ placed stack item, stack <:+ p.2 := by
  induction item using induct with
  | node id label => simp
  | block kind id name items ih =>
    intro stack p hp
    rw [placed_block] at hp
    obtain ⟨item, hitem, hp⟩ := List.mem_flatMap.1 hp
    exact (List.suffix_cons id stack).trans (ih item hitem _ p hp)

/-- A filled item has a node in each of its blocks. -/
theorem Filled.exists_placed {item : Item} (h : Filled item) :
    ∀ stack, ∀ id ∈ item.blockIds, ∃ p ∈ placed stack item, id ∈ p.2 := by
  induction h with
  | node => simp
  | @block kind id name items hfilled hbelow ih =>
    intro stack b hb
    rw [blockIds_block, List.mem_cons] at hb
    rw [placed_block]
    rcases hb with rfl | hb
    · obtain ⟨n, hn⟩ := List.exists_mem_of_ne_nil _ hfilled
      obtain ⟨item, hitem, hn⟩ := List.mem_flatMap.1 hn
      have hfst : n.1 ∈ (placed (b :: stack) item).map Prod.fst := by
        rw [map_fst_placed]
        exact List.mem_map_of_mem hn
      obtain ⟨p, hp, -⟩ := List.mem_map.1 hfst
      exact ⟨p, List.mem_flatMap.2 ⟨item, hitem, hp⟩,
        (suffix_of_mem_placed item _ p hp).subset List.mem_cons_self⟩
    · obtain ⟨item, hitem, hb⟩ := List.mem_flatMap.1 hb
      obtain ⟨p, hp, hid⟩ := ih item hitem (id :: stack) b hb
      exact ⟨p, List.mem_flatMap.2 ⟨item, hitem, hp⟩, hid⟩

end Item

namespace Mark

/-- The nodes among marks, each with the blocks around it, when `stack` is open at the start. -/
def within : List String → List Mark → List (String × List String)
  | _, [] => []
  | stack, .node id _ :: ms => (id, stack) :: within stack ms
  | stack, .opening id _ :: ms => within (id :: stack) ms
  | stack, .closing :: ms => within stack.tail ms
  | stack, .edge _ _ :: ms => within stack ms
  | stack, .style _ :: ms => within stack ms

/-- The marks of an item leave the stack as it was. -/
theorem within_ofItem (item : Item) : ∀ (stack : List String) (ms : List Mark),
    within stack (ofItem item ++ ms) = item.placed stack ++ within stack ms := by
  induction item using Item.induct with
  | node id label =>
    intro stack ms
    rw [ofItem, Item.placed_node]
    rfl
  | block kind id name items ih =>
    intro stack ms
    have hitems : ∀ (items' : List Item), (∀ item ∈ items', item ∈ items) → ∀ ms,
        within (id :: stack) (items'.flatMap ofItem ++ ms) =
          items'.flatMap (Item.placed (id :: stack)) ++ within (id :: stack) ms := by
      intro items'
      induction items' with
      | nil => exact fun _ _ => rfl
      | cons item items' ih' =>
        intro hmem ms
        rw [List.flatMap_cons, List.flatMap_cons, List.append_assoc, List.append_assoc,
          ih item (hmem item List.mem_cons_self),
          ih' (fun item hitem => hmem item (List.mem_cons_of_mem _ hitem))]
    rw [ofItem, Item.placed_block, List.cons_append, within, List.append_assoc,
      hitems items (fun _ h => h)]
    rfl

theorem within_ofItems (stack : List String) : ∀ (items : List Item) (ms : List Mark),
    within stack (items.flatMap ofItem ++ ms) =
      items.flatMap (Item.placed stack) ++ within stack ms
  | [], _ => rfl
  | item :: items, ms => by
    rw [List.flatMap_cons, List.flatMap_cons, List.append_assoc, List.append_assoc, within_ofItem,
      within_ofItems stack items]

/-- Each block of filled items is read around some node. -/
theorem exists_within_of_filled {items : List Item} (h : ∀ item ∈ items, item.Filled)
    (stack : List String) (ms : List Mark) :
    ∀ id ∈ items.flatMap Item.blockIds,
      ∃ p ∈ within stack (items.flatMap ofItem ++ ms), id ∈ p.2 := by
  intro id hid
  obtain ⟨item, hitem, hid⟩ := List.mem_flatMap.1 hid
  obtain ⟨p, hp, hmem⟩ := (h item hitem).exists_placed stack id hid
  rw [within_ofItems]
  exact ⟨p, List.mem_append_left _ (List.mem_flatMap.2 ⟨item, hitem, hp⟩), hmem⟩

end Mark

end CallChart
