import CallChart.Proofs.Ids
import CallChart.Proofs.Tables
import Mathlib.Data.List.Nodup

/-!
# Nodes and their ids

`Roster.identified` lists the nodes with their ids, and everything else that is asked of a roster
by name or by id is read off this list : the ids are distinct (`nodup_ids`), the id of a name is
that of its node (`id?_eq_some_iff`), the label of an id is that of its node (`label?_of_mem`),
and the node records are those of the nodes under their ids, in the same order
(`entries_metadata_nodes`).
-/

namespace CallChart

namespace Roster

variable {r : Roster}

theorem mem_identified {id : String} {n : Node} :
    (id, n) ∈ r.identified ↔ ∃ k, r.nodes[k]? = some n ∧ id = nodeId (k + 1) := by
  simp only [identified, List.mem_map, Prod.exists, List.mk_mem_zipIdx_iff_getElem?,
    Prod.mk.injEq]
  constructor
  · rintro ⟨n', k, hk, rfl, rfl⟩
    exact ⟨k, hk, rfl⟩
  · rintro ⟨k, hk, rfl⟩
    exact ⟨n, k, hk, rfl, rfl⟩

theorem mem_nodes_of_mem_identified {id : String} {n : Node} (h : (id, n) ∈ r.identified) :
    n ∈ r.nodes := by
  obtain ⟨k, hk, -⟩ := mem_identified.1 h
  exact List.mem_of_getElem? hk

theorem identified_take (r : Roster) (k : Nat) :
    r.identified.take k = (r.nodes.take k).zipIdx.map fun p => (nodeId (p.2 + 1), p.1) := by
  rw [identified, ← List.map_take]
  congr 1
  apply List.ext_getElem?
  intro i
  simp only [List.getElem?_take, List.getElem?_zipIdx]
  split <;> rfl

theorem nodup_ids (r : Roster) : (r.identified.map Prod.fst).Nodup := by
  rw [identified, List.map_map, show (Prod.fst ∘ fun p : Node × Nat => (nodeId (p.2 + 1), p.1)) =
    (fun k => nodeId (k + 1)) ∘ Prod.snd from rfl, ← List.map_map, List.zipIdx_map_snd]
  refine List.Nodup.map (fun j k h => ?_) List.nodup_range'
  simpa [nodeId_inj] using h

/-- The node of an id. -/
theorem lookup_identified {id : String} {n : Node} :
    r.identified.lookup id = some n ↔ (id, n) ∈ r.identified :=
  Entries.lookup_eq_some_iff r.nodup_ids

theorem label?_of_mem {id : String} {n : Node} (h : (id, n) ∈ r.identified) :
    r.label? id = some n.label := by
  rw [label?, lookup_identified.2 h, Option.map_some]

theorem node_unique {id : String} {n n' : Node} (h : (id, n) ∈ r.identified)
    (h' : (id, n') ∈ r.identified) : n = n' :=
  Option.some.inj ((lookup_identified.2 h).symm.trans (lookup_identified.2 h'))

theorem exists_lt_of_id? {name id : String} (h : r.id? name = some id) :
    ∃ k < r.size, id = nodeId (k + 1) := by
  obtain ⟨k, hk, rfl⟩ := Option.map_eq_some_iff.1 h
  exact ⟨k, (List.findIdx?_eq_some_iff_getElem.1 hk).1, rfl⟩

/-- The place of a name among distinct names. -/
theorem findIdx?_name (hnd : r.names.Nodup) {k : Nat} {n : Node} (hk : r.nodes[k]? = some n) :
    (r.nodes.findIdx? fun n' => n'.name = n.name) = some k := by
  obtain ⟨hlt, rfl⟩ := List.getElem?_eq_some_iff.1 hk
  rw [List.findIdx?_eq_some_iff_getElem]
  refine ⟨hlt, by simp, fun j hj heq => ?_⟩
  have hj' : j < r.names.length := by simp [names]; omega
  have hk' : k < r.names.length := by simpa [names] using hlt
  have hjk : r.names[j] = r.names[k] := by simpa [names] using heq
  have := (List.Nodup.getElem_inj_iff hnd).1 hjk
  omega

/-- The id of a name is the id of its node. -/
theorem id?_eq_some_iff (hnd : r.names.Nodup) {name id : String} :
    r.id? name = some id ↔ ∃ n, (id, n) ∈ r.identified ∧ n.name = name := by
  constructor
  · intro h
    obtain ⟨k, hk, rfl⟩ := Option.map_eq_some_iff.1 h
    obtain ⟨hlt, hname, -⟩ := List.findIdx?_eq_some_iff_getElem.1 hk
    exact ⟨r.nodes[k], mem_identified.2 ⟨k, List.getElem?_eq_getElem hlt, rfl⟩,
      by simpa using hname⟩
  · rintro ⟨n, hn, rfl⟩
    obtain ⟨k, hk, rfl⟩ := mem_identified.1 hn
    rw [id?, findIdx?_name hnd hk, Option.map_some]

theorem id?_inj (hnd : r.names.Nodup) {name name' id : String} (h : r.id? name = some id)
    (h' : r.id? name' = some id) : name = name' := by
  obtain ⟨n, hn, rfl⟩ := (id?_eq_some_iff hnd).1 h
  obtain ⟨n', hn', rfl⟩ := (id?_eq_some_iff hnd).1 h'
  rw [node_unique hn hn']

/-! ## Records of nodes -/

theorem foldl_addNode (ps : List (String × Node)) (m : MetadataStore) :
    ps.foldl (fun m p => m.addNode p.1 p.2.fields) m = { m with
      nodes := ps.foldl (fun t p => MetadataStore.mergeInto t p.1 p.2.fields) m.nodes } := by
  induction ps generalizing m with
  | nil => rfl
  | cons p ps ih =>
    rw [List.foldl_cons, ih]
    rfl

theorem metadata_edges (r : Roster) : r.metadata.edges = Keyed.empty := by
  rw [metadata, foldl_addNode]

theorem metadata_blocks (r : Roster) : r.metadata.blocks = Keyed.empty := by
  rw [metadata, foldl_addNode]

/-- Every node has its record under its id, in the order of the nodes. -/
theorem entries_metadata_nodes (r : Roster) :
    r.metadata.nodes.entries =
      r.identified.map fun p => (p.1, MetadataStore.record p.2.fields) := by
  rw [metadata, foldl_addNode]
  exact MetadataStore.entries_foldl_mergeInto Prod.fst (fun p => p.2.fields) r.identified
    Keyed.empty r.nodup_ids

/-- The fields of a node stand in its record in their order. -/
theorem entries_record_fields (n : Node) : (MetadataStore.record n.fields).entries =
    [("qualified_name", .text n.name), ("label", .text n.label),
      ("is_entry_point", .bool n.isEntry), ("class", .ofText? (n.symbol.bind Symbol.owner)),
      ("file", .ofText? (n.symbol.map fun s => s.path.text)),
      ("line_start", n.symbol.elim .null fun s => .ofNat s.firstLine.toNat),
      ("line_end", n.symbol.elim .null fun s => .ofNat s.lastLine.toNat)] ++
      (n.depth.map fun d => ("depth", Json.ofNat d)).toList := by
  apply Record.entries_merge_empty
  cases n.depth <;> simp

end Roster

end CallChart
