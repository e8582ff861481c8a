import CallChart.Proofs.BlockIds
import CallChart.Proofs.Emission
import CallChart.Proofs.Ledger

/-!
# Ids in several charts

One numbering serves groupings that are written one after another, so the ids of their blocks are
fresh together (`Emission.fresh_ofGroupings`), as those of one grouping are. The ids of nodes begin
anew with every ledger ; they are told from those of blocks by their first letter. Main statement :
`Emission.ofGroupings_idsApart`.
-/

namespace CallChart

/-- The ids that a ledger has issued are ids of nodes. -/
theorem Ledger.exists_nodeId_of_mem_ids {level : Level} {calls : List Enrolment} {id : String}
    (h : id ∈ (ofCalls level calls).ids.values) : ∃ k, id = nodeId k := by
  have hstep : (ofCalls level calls).InStep :=
    (keeps_ofCalls level calls).inStep (Roster.nodup_names_ofCalls level calls)
  rw [hstep.ids, List.mem_map] at h
  obtain ⟨k, -, rfl⟩ := h
  exact ⟨k + 1, rfl⟩

namespace Emission

open CallChart.Numbering (Fresh)

/-- An emission issues every id once. -/
theorem fresh_ofGrouping (r : Roster) (most : Nat) (c : Numbering) (g : Grouping) :
    Fresh c (ofGrouping r most c g).2 (ofGrouping r most c g).1.blockIds := by
  simp only [ofGrouping_eq, blockIds, Item.map_id_allInfos]
  exact Item.fresh_layout r most c g

/-- So do emissions that follow one another. -/
theorem fresh_ofGroupings (most : Nat) : ∀ (c : Numbering) (builds : List (Roster × Grouping)),
    Fresh c (ofGroupings most c builds).2 ((ofGroupings most c builds).1.flatMap blockIds)
  | c, [] => .nil c
  | c, (r, g) :: builds => by
    rw [ofGroupings]
    exact (fresh_ofGrouping r most c g).append
      (fresh_ofGroupings most (ofGrouping r most c g).2 builds)

/-- No two blocks of groupings that are written one after another have the same id, and none has an
id that a ledger has issued for a node, whatever calls have filled the ledger. -/
theorem ofGroupings_idsApart (most : Nat) (c : Numbering) (builds : List (Roster × Grouping)) :
    let ids := (ofGroupings most c builds).1.flatMap blockIds
    ids.Nodup ∧ ∀ level calls, ids.Disjoint (Ledger.ofCalls level calls).ids.values := by
  intro ids
  have hfresh : Fresh c (ofGroupings most c builds).2 ids := fresh_ofGroupings most c builds
  refine ⟨hfresh.nodup, fun level calls id hid hnode => ?_⟩
  obtain ⟨k, rfl⟩ := Ledger.exists_nodeId_of_mem_ids hnode
  exact (hfresh.issued _ hid).ne_nodeId k rfl

end Emission

end CallChart
