import CallChart.Proofs.BlockIds
import CallChart.Proofs.Edges
import CallChart.Proofs.Layout
import CallChart.Proofs.Marks
import CallChart.Proofs.Walk

/-!
# A chart and its metadata

What a drawing shows is read off the lines of its body : nodes with their labels, edges, blocks
and styles (`Drawing.nodes`, `Drawing.edges`, `Drawing.openedIds`, `Drawing.styledIds`). A drawing
agrees with its metadata if the two describe one chart (`Drawing.Agrees`). Everything in a chart
goes back to one list, the ids of the nodes in its layout : these are ids of the roster, each once
(`Chart.mem_shownIds`, `Chart.nodup_shownIds`), and edges, styles and the records that are kept
are those of the ids in the list. Main statement : `Chart.draw_agrees`.
-/

namespace CallChart

/-! ## What a body shows -/

namespace Drawing

/-- What the lines of the body stand for. -/
def marks (g : Drawing) : List Mark :=
  g.body.filterMap Mark.read

/-- The nodes that the body shows, with their labels. -/
def nodes (g : Drawing) : List (String × String) :=
  g.marks.filterMap Mark.node?

/-- The ends of the edges that the body draws. -/
def edges (g : Drawing) : List (String × String) :=
  g.marks.filterMap Mark.edge?

/-- The ids of the blocks that the body opens. -/
def openedIds (g : Drawing) : List String :=
  g.marks.filterMap Mark.opened?

/-- The ids that the body styles. -/
def styledIds (g : Drawing) : List String :=
  g.marks.filterMap Mark.styled?

/-- The body and the metadata describe one chart. -/
structure Agrees (g : Drawing) : Prop where
  /-- Lines of blocks, then edges, then the styles of the nodes, then those of the blocks. -/
  sections : g.body.map Mark.read = (g.marks.filter Mark.isOfBlocks ++
    g.edges.map (fun e => Mark.edge e.1 e.2) ++ g.nodes.map (fun n => Mark.style n.1) ++
    g.openedIds.map Mark.style).map some
  nodup_nodes : (g.nodes.map Prod.fst).Nodup
  node_keys : ∀ id, id ∈ g.nodes.map Prod.fst ↔ id ∈ g.metadata.nodes.keys
  /-- The label that is shown is the one on record. -/
  labels : ∀ id label, (id, label) ∈ g.nodes →
    ∃ record, g.metadata.node? id = some record ∧ record.get? "label" = some (.text label)
  nodup_edges : g.edges.Nodup
  edge_keys : g.edges.map (fun e => MetadataStore.edgeKey e.1 e.2) = g.metadata.edges.keys
  block_keys : g.openedIds = g.metadata.blocks.keys
  styled : g.styledIds = g.nodes.map Prod.fst ++ g.openedIds
  nodup_styled : g.styledIds.Nodup
  stats_nodes : g.metadata.stats.nodes = g.nodes.length
  stats_edges : g.metadata.stats.edges = g.edges.length
  stats_blocks : g.metadata.stats.blocks = g.openedIds.length

end Drawing

/-! ## Nodes of a roster by name -/

namespace Roster

variable {t : SymbolTable} {r : Roster}

/-- The symbols of the nodes have the names of the nodes. -/
theorem Collected.symbolNames_eq (h : r.Collected t) :
    symbolNames (r.nodes.filterMap Node.symbol) = r.names := by
  have hsymbol : ∀ n ∈ r.nodes, (n.symbol.map Symbol.name) = some n.name := by
    intro n hn
    obtain ⟨s, hs, hsymbol⟩ := h.symbol_of_mem n hn
    rw [hsymbol, Option.map_some, SymbolTable.name_of_get? hs]
  rw [symbolNames, List.map_filterMap, names, List.filterMap_congr hsymbol]
  exact congrFun List.filterMap_eq_map' _

theorem mem_labelled (hnd : r.names.Nodup) {names : List String} {id label : String} :
    (id, label) ∈ r.labelled names ↔
      ∃ n, (id, n) ∈ r.identified ∧ n.name ∈ names ∧ label = n.label := by
  simp only [labelled, List.mem_filterMap, Option.map_eq_some_iff, Prod.mk.injEq]
  constructor
  · rintro ⟨name, hname, _, hid, rfl, rfl⟩
    obtain ⟨n, hn, rfl⟩ := (id?_eq_some_iff hnd).1 hid
    exact ⟨n, hn, hname, by rw [label?_of_mem hn, Option.getD_some]⟩
  · rintro ⟨n, hn, hname, rfl⟩
    refine ⟨n.name, hname, id, (id?_eq_some_iff hnd).2 ⟨n, hn, rfl⟩, rfl, ?_⟩
    rw [label?_of_mem hn, Option.getD_some]

theorem nodup_labelled (hnd : r.names.Nodup) {names : List String} (h : names.Nodup) :
    ((r.labelled names).map Prod.fst).Nodup := by
  rw [labelled, List.map_filterMap]
  refine List.pairwise_filterMap.2 (h.imp ?_)
  simp only [Option.map_map, Option.map_eq_some_iff, Function.comp_apply]
  rintro name name' hne _ ⟨id, hid, rfl⟩ _ ⟨id', hid', rfl⟩ rfl
  exact hne (id?_inj hnd hid hid')

end Roster

namespace Chart

/-! ## The parts of a chart -/

/-- The functions of a roster grouped. -/
def grouping (s : Settings) (r : Roster) : Grouping :=
  Grouping.ofSymbols s.root (r.nodes.filterMap Node.symbol)

/-- The items that a chart lays out. -/
def items (s : Settings) (r : Roster) : List Item :=
  (Item.layout r s.perClass {} (grouping s r)).1

/-- The functions that a chart shows. -/
def shownNames (s : Settings) (r : Roster) : List String :=
  (grouping s r).shown s.perClass

/-- The ids of the nodes that a chart shows. -/
def shownIds (s : Settings) (r : Roster) : List String :=
  Item.allNodeIds (items s r)

variable {s : Settings} {d : Document} {r : Roster} {log : Log}

theorem nodes_items (s : Settings) (r : Roster) :
    (items s r).flatMap Item.nodes = r.labelled (shownNames s r) :=
  Item.nodes_layout r s.perClass {} (grouping s r)

theorem shownIds_eq (s : Settings) (r : Roster) :
    shownIds s r = (r.labelled (shownNames s r)).map Prod.fst := by
  rw [shownIds, ← Item.map_fst_allNodes, nodes_items]

/-- The ids that are shown are ids of the roster. -/
theorem mem_shownIds (hnd : r.names.Nodup) {id : String} :
    id ∈ shownIds s r ↔ ∃ n, (id, n) ∈ r.identified ∧ n.name ∈ shownNames s r := by
  simp only [shownIds_eq, List.mem_map, Prod.exists, Roster.mem_labelled hnd]
  constructor
  · rintro ⟨_, label, ⟨n, hn, hname, -⟩, rfl⟩
    exact ⟨n, hn, hname⟩
  · rintro ⟨n, hn, hname⟩
    exact ⟨id, n.label, ⟨n, hn, hname, rfl⟩, rfl⟩

theorem nodup_shownIds {t : SymbolTable} (h : r.Collected t) : (shownIds s r).Nodup := by
  have hnames : (symbolNames (r.nodes.filterMap Node.symbol)).Nodup := by
    rw [h.symbolNames_eq]
    exact h.nodup_names
  rw [shownIds_eq]
  exact Roster.nodup_labelled h.nodup_names (Grouping.nodup_shown_ofSymbols hnames s.perClass)

theorem exists_nodeId_of_mem_shownIds (hnd : r.names.Nodup) {id : String}
    (h : id ∈ shownIds s r) : ∃ k, id = nodeId k := by
  obtain ⟨n, hn, -⟩ := (mem_shownIds hnd).1 h
  obtain ⟨k, -, hk⟩ := Roster.mem_identified.1 hn
  exact ⟨k + 1, hk⟩

/-- The blocks have ids of their own. -/
theorem fresh_items (s : Settings) (r : Roster) :
    Numbering.Fresh {} (Item.layout r s.perClass {} (grouping s r)).2
      ((items s r).flatMap Item.blockIds) :=
  Item.fresh_layout r s.perClass {} (grouping s r)

theorem isWord_shownIds (hnd : r.names.Nodup) : ∀ id ∈ shownIds s r, Mark.IsWord id := by
  intro id hid
  obtain ⟨k, rfl⟩ := exists_nodeId_of_mem_shownIds hnd hid
  exact Mark.isWord_nodeId k

theorem isWord_blockIds : ∀ id ∈ (items s r).flatMap Item.blockIds, Mark.IsWord id :=
  fun id hid => Mark.isWord_of_issued ((fresh_items s r).issued id hid)

/-! ## The body, read -/

theorem map_fst_styledNodes (h : ∀ id ∈ shownIds s r, ∃ n, (id, n) ∈ r.identified) :
    (styledNodes r (shownIds s r)).map Prod.fst = shownIds s r := by
  have hstyled : ∀ id ∈ shownIds s r, (((r.identified.lookup id).map fun n : Node =>
      (id, n.symbol.elim "" (fun s => s.path.text), n.isEntry)).map Prod.fst) = some id := by
    intro id hid
    obtain ⟨n, hn⟩ := h id hid
    rw [Roster.lookup_identified.2 hn]
    rfl
  rw [styledNodes, List.map_filterMap, List.filterMap_congr hstyled, List.filterMap_some]

theorem scheme_mem_all (s : Settings) : s.scheme ∈ Scheme.all := by
  unfold Settings.scheme
  cases h : Scheme.ofText? s.theme with
  | none => exact List.mem_cons_self
  | some scheme => exact List.mem_of_find?_eq_some h

section Reading

variable {β : Type} {f : String → β} {g : Mark → β}

theorem map_styleLines (h : Mark.Reading f g) (hnd : r.names.Nodup) :
    (styleLines s r (shownIds s r) (Item.allInfos 0 none (items s r))).map f =
      ((shownIds s r).map Mark.style ++
        ((items s r).flatMap Item.blockIds).map Mark.style).map g := by
  have hmem : ∀ id ∈ shownIds s r, ∃ n, (id, n) ∈ r.identified := fun id hid =>
    (mem_shownIds hnd).1 hid |>.imp fun _ => And.left
  have hnodes := map_fst_styledNodes hmem
  have hwords : ∀ n ∈ styledNodes r (shownIds s r), Mark.IsWord n.1 := fun n hn =>
    isWord_shownIds hnd n.1 (hnodes ▸ List.mem_map_of_mem hn)
  have hblocks : ∀ b ∈ Item.allInfos 0 none (items s r),
      f (Text.indent 1 ++ (⟨s.scheme, []⟩ : Palette).blockStyle b.id b.kind b.level) =
        g (.style b.id) := fun b hb =>
    h.blockStyle _ _ _ _ (scheme_mem_all s) (isWord_blockIds b.id
      (Item.map_id_allInfos 0 none (items s r) ▸ List.mem_map_of_mem hb))
  rw [styleLines, List.map_append, List.map_append,
    h.map_nodeStyles _ _ (scheme_mem_all s) hwords, List.map_append]
  congr 1
  · conv_rhs => rw [← hnodes]
    simp
  · rw [← Item.map_id_allInfos 0 none (items s r)]
    simpa using hblocks

/-- A body is read section by section. -/
theorem map_body_drawRoster (h : Mark.Reading f g) (hnd : r.names.Nodup) :
    (drawRoster s d r log).body.map f =
      ((items s r).flatMap Mark.ofItem ++
        (edges s d r (shownIds s r)).map (fun e => Mark.edge e.source e.target) ++
        (shownIds s r).map Mark.style ++
        ((items s r).flatMap Item.blockIds).map Mark.style).map g := by
  have hitems := h.map_allLines 1
    (fun id hid => exists_nodeId_of_mem_shownIds (s := s) hnd hid) isWord_blockIds
  have hedges : ((edges s d r (shownIds s r)).map Edge.line).map f =
      (edges s d r (shownIds s r)).map fun e => g (Mark.edge e.source e.target) := by
    rw [List.map_map]
    refine List.map_congr_left fun e he => ?_
    have he := (mem_edges hnd).1 he
    obtain ⟨j, hj⟩ := exists_nodeId_of_mem_shownIds hnd he.source_shown
    obtain ⟨k, hk⟩ := exists_nodeId_of_mem_shownIds hnd he.target_shown
    rw [Function.comp_apply, h.edge j k e hj hk]
  have hbody : (drawRoster s d r log).body = Item.allLines 1 (items s r) ++
      (edges s d r (shownIds s r)).map Edge.line ++
      styleLines s r (shownIds s r) (Item.allInfos 0 none (items s r)) := by
    rw [← EdgePass.edges_run hnd]
    rfl
  rw [hbody, List.map_append, List.map_append, hitems, hedges, map_styleLines h hnd]
  simp

end Reading

theorem marks_drawRoster (hnd : r.names.Nodup) : (drawRoster s d r log).marks =
    (items s r).flatMap Mark.ofItem ++
      (edges s d r (shownIds s r)).map (fun e => Mark.edge e.source e.target) ++
      (shownIds s r).map Mark.style ++ ((items s r).flatMap Item.blockIds).map Mark.style := by
  have h : (drawRoster s d r log).body.map Mark.read = _ :=
    map_body_drawRoster Mark.reading_read hnd
  replace h := congrArg (List.filterMap id) h
  rwa [List.filterMap_map, List.filterMap_map, Function.id_comp, Function.id_comp,
    List.filterMap_some] at h

/-- The nodes of a body are those of its layout. -/
theorem nodes_drawRoster (hnd : r.names.Nodup) :
    (drawRoster s d r log).nodes = r.labelled (shownNames s r) := by
  rw [Drawing.nodes, marks_drawRoster hnd, ← nodes_items]
  generalize (items s r).flatMap Item.blockIds = ids
  simp [Mark.node?_ofItems, List.filterMap_map, Function.comp_def, Mark.node?]

theorem map_fst_nodes_drawRoster (s : Settings) (d : Document) (log : Log) (hnd : r.names.Nodup) :
    (drawRoster s d r log).nodes.map Prod.fst = shownIds s r := by
  rw [nodes_drawRoster hnd, shownIds_eq]

theorem edges_drawRoster (hnd : r.names.Nodup) : (drawRoster s d r log).edges =
    (edges s d r (shownIds s r)).map Edge.ends := by
  rw [Drawing.edges, marks_drawRoster hnd]
  generalize (items s r).flatMap Item.blockIds = ids
  simp [Mark.edge?_ofItems, List.filterMap_map, Function.comp_def, Mark.edge?, Edge.ends]

theorem openedIds_drawRoster (hnd : r.names.Nodup) :
    (drawRoster s d r log).openedIds = (items s r).flatMap Item.blockIds := by
  have hopened := Mark.opened?_ofItems (items s r)
  rw [Drawing.openedIds, marks_drawRoster hnd]
  generalize (items s r).flatMap Item.blockIds = ids at hopened ⊢
  simp [hopened, List.filterMap_map, Function.comp_def, Mark.opened?]

theorem styledIds_drawRoster (hnd : r.names.Nodup) : (drawRoster s d r log).styledIds =
    shownIds s r ++ (items s r).flatMap Item.blockIds := by
  rw [Drawing.styledIds, marks_drawRoster hnd]
  generalize (items s r).flatMap Item.blockIds = ids
  simp [Mark.styled?_ofItems, List.filterMap_map, Function.comp_def, Mark.styled?]

theorem filter_isOfBlocks_drawRoster (hnd : r.names.Nodup) :
    (drawRoster s d r log).marks.filter Mark.isOfBlocks =
      (items s r).flatMap Mark.ofItem := by
  have hitems : ((items s r).flatMap Mark.ofItem).filter Mark.isOfBlocks =
      (items s r).flatMap Mark.ofItem :=
    List.filter_eq_self.2 (Mark.isOfBlocks_ofItems (items s r))
  rw [marks_drawRoster hnd]
  simp [hitems, List.filter_map, Function.comp_def, Mark.isOfBlocks]

/-! ## The metadata -/

theorem foldl_addBlock (bs : List BlockInfo) (m : MetadataStore) :
    bs.foldl (fun m b => m.addBlock b.id b.fields) m = { m with
      blocks := bs.foldl (fun t b => MetadataStore.mergeInto t b.id b.fields) m.blocks } := by
  induction bs generalizing m with
  | nil => rfl
  | cons b bs ih =>
    rw [List.foldl_cons, ih]
    rfl

theorem foldl_addEdge (es : List Edge) (m : MetadataStore) :
    es.foldl (fun m e => m.addEdge e.source e.target e.fields) m = { m with
      edges := es.foldl (fun t e => MetadataStore.mergeInto t
        (MetadataStore.edgeKey e.source e.target) e.fields) m.edges } := by
  induction es generalizing m with
  | nil => rfl
  | cons e es ih =>
    rw [List.foldl_cons, ih]
    rfl

theorem metadata_drawRoster : (drawRoster s d r log).metadata =
    metadata r (shownIds s r) (EdgePass.run s d r (shownIds s r)).edges
      (Item.allInfos 0 none (items s r)) :=
  rfl

/-- The records of nodes are those of the nodes that are shown. -/
theorem entries_nodes_drawRoster : (drawRoster s d r log).metadata.nodes.entries =
    (r.identified.map fun p => (p.1, MetadataStore.record p.2.fields)).filter
      fun e => (shownIds s r).contains e.1 := by
  rw [metadata_drawRoster, metadata, foldl_addEdge, foldl_addBlock, ← Roster.entries_metadata_nodes]
  rfl

/-- A node that is shown has its record under its id. -/
theorem node?_drawRoster {id : String} {n : Node} (hn : (id, n) ∈ r.identified)
    (hid : id ∈ shownIds s r) : (drawRoster s d r log).metadata.node? id =
      some (MetadataStore.record n.fields) := by
  rw [MetadataStore.node?, Keyed.get?_eq_some_iff, entries_nodes_drawRoster, List.mem_filter,
    List.mem_map]
  exact ⟨⟨(id, n), hn, rfl⟩, List.contains_iff_mem.2 hid⟩

/-- The records of edges are those of the edges that are drawn. -/
theorem entries_edges_drawRoster (hnd : r.names.Nodup) :
    (drawRoster s d r log).metadata.edges.entries =
      (edges s d r (shownIds s r)).map fun e =>
        (MetadataStore.edgeKey e.source e.target, MetadataStore.record e.fields) := by
  have hkeys : ((edges s d r (shownIds s r)).map fun e =>
      MetadataStore.edgeKey e.source e.target).Nodup := by
    refine List.pairwise_map.2 ((List.pairwise_map.1 (nodup_edges hnd)).imp_of_mem ?_)
    intro e e' he he' hne h
    have he := (mem_edges hnd).1 he
    have he' := (mem_edges hnd).1 he'
    obtain ⟨i, hi⟩ := exists_nodeId_of_mem_shownIds hnd he.source_shown
    obtain ⟨j, hj⟩ := exists_nodeId_of_mem_shownIds hnd he.target_shown
    obtain ⟨k, hk⟩ := exists_nodeId_of_mem_shownIds hnd he'.source_shown
    obtain ⟨l, hl⟩ := exists_nodeId_of_mem_shownIds hnd he'.target_shown
    rw [hi, hj, hk, hl, MetadataStore.edgeKey_inj] at h
    exact hne (by rw [Edge.ends, Edge.ends, hi, hj, hk, hl, h.1, h.2])
  rw [metadata_drawRoster, EdgePass.edges_run hnd, metadata, foldl_addEdge, foldl_addBlock]
  simp only [MetadataStore.keepNodes, Roster.metadata_edges]
  exact MetadataStore.entries_foldl_mergeInto
    (fun e : Edge => MetadataStore.edgeKey e.source e.target) Edge.fields _ Keyed.empty hkeys

/-- The records of blocks are those of the blocks of the layout. -/
theorem entries_blocks_drawRoster : (drawRoster s d r log).metadata.blocks.entries =
    (Item.allInfos 0 none (items s r)).map fun b => (b.id, MetadataStore.record b.fields) := by
  have hkeys : ((Item.allInfos 0 none (items s r)).map BlockInfo.id).Nodup := by
    rw [Item.map_id_allInfos]
    exact (fresh_items s r).nodup
  rw [metadata_drawRoster, metadata, foldl_addEdge, foldl_addBlock]
  simp only [MetadataStore.keepNodes, Roster.metadata_blocks]
  exact MetadataStore.entries_foldl_mergeInto BlockInfo.id BlockInfo.fields _ Keyed.empty hkeys

theorem mem_node_keys_drawRoster {t : SymbolTable} (h : r.Collected t) {id : String} :
    id ∈ (drawRoster s d r log).metadata.nodes.keys ↔ id ∈ shownIds s r := by
  simp only [Keyed.keys, Entries.keys, entries_nodes_drawRoster, List.mem_map, List.mem_filter,
    List.contains_iff_mem]
  constructor
  · rintro ⟨_, ⟨⟨p, -, rfl⟩, hshown⟩, rfl⟩
    exact hshown
  · intro hshown
    obtain ⟨n, hn, -⟩ := (mem_shownIds h.nodup_names).1 hshown
    exact ⟨_, ⟨⟨(id, n), hn, rfl⟩, hshown⟩, rfl⟩

/-! ## Agreement -/

theorem drawRoster_agrees {t : SymbolTable} (h : r.Collected t) :
    (drawRoster s d r log).Agrees where
  sections := by
    rw [map_body_drawRoster Mark.reading_read h.nodup_names,
      filter_isOfBlocks_drawRoster h.nodup_names,
      edges_drawRoster h.nodup_names, openedIds_drawRoster h.nodup_names,
      ← map_fst_nodes_drawRoster s d log h.nodup_names]
    simp [Function.comp_def, Edge.ends]
  nodup_nodes := by
    rw [map_fst_nodes_drawRoster _ _ _ h.nodup_names]
    exact nodup_shownIds h
  node_keys id := by
    rw [map_fst_nodes_drawRoster _ _ _ h.nodup_names, mem_node_keys_drawRoster h]
  labels id label hmem := by
    have hshown : id ∈ shownIds s r := by
      rw [← map_fst_nodes_drawRoster s d log h.nodup_names]
      exact List.mem_map_of_mem hmem
    rw [nodes_drawRoster h.nodup_names] at hmem
    obtain ⟨n, hn, -, rfl⟩ := (Roster.mem_labelled h.nodup_names).1 hmem
    refine ⟨_, node?_drawRoster hn hshown, ?_⟩
    rw [Keyed.get?, Roster.entries_record_fields]
    simp [Entries.lookup_cons]
  nodup_edges := by
    rw [edges_drawRoster h.nodup_names]
    exact nodup_edges h.nodup_names
  edge_keys := by
    rw [edges_drawRoster h.nodup_names, Keyed.keys, entries_edges_drawRoster h.nodup_names]
    simp [Entries.keys, Edge.ends]
  block_keys := by
    rw [openedIds_drawRoster h.nodup_names, Keyed.keys, entries_blocks_drawRoster,
      ← Item.map_id_allInfos 0 none]
    simp [Entries.keys]
  styled := by
    rw [styledIds_drawRoster h.nodup_names, map_fst_nodes_drawRoster _ _ _ h.nodup_names,
      openedIds_drawRoster h.nodup_names]
  nodup_styled := by
    rw [styledIds_drawRoster h.nodup_names]
    refine List.nodup_append.2 ⟨nodup_shownIds h, (fresh_items s r).nodup, ?_⟩
    intro id hid id' hid'
    obtain ⟨k, rfl⟩ := exists_nodeId_of_mem_shownIds h.nodup_names hid
    exact (((fresh_items s r).issued id' hid').ne_nodeId k).symm
  stats_nodes := by
    have hkeys : (drawRoster s d r log).metadata.nodes.keys.Nodup :=
      (drawRoster s d r log).metadata.nodes.nodup_keys
    have hperm : (shownIds s r).Perm (drawRoster s d r log).metadata.nodes.keys :=
      (List.perm_ext_iff_of_nodup (nodup_shownIds h) hkeys).2
        fun _ => (mem_node_keys_drawRoster h).symm
    have hlength := hperm.length_eq
    rw [← map_fst_nodes_drawRoster s d log h.nodup_names, List.length_map,
      Keyed.keys, Entries.keys, List.length_map] at hlength
    exact hlength.symm
  stats_edges := by
    rw [edges_drawRoster h.nodup_names, List.length_map, MetadataStore.stats]
    exact (congrArg List.length (entries_edges_drawRoster h.nodup_names)).trans (List.length_map _)
  stats_blocks := by
    rw [openedIds_drawRoster h.nodup_names, ← Item.map_id_allInfos 0 none, List.length_map,
      MetadataStore.stats]
    exact (congrArg List.length entries_blocks_drawRoster).trans (List.length_map _)

/-- A chart is drawn from the roster that the walks collect. -/
theorem draw_eq_drawRoster (s : Settings) (d : Document) :
    ∃ log, draw s d = drawRoster s d (draw s d).roster log ∧
      (draw s d).roster.Collected d.symbols :=
  ⟨_, rfl, collected_collect s d _ _ _⟩

/-- The body of a chart and its metadata describe the same chart. -/
theorem draw_agrees (s : Settings) (d : Document) : (draw s d).Agrees := by
  obtain ⟨log, hdraw, hcollected⟩ := draw_eq_drawRoster s d
  rw [hdraw]
  exact drawRoster_agrees hcollected

end Chart

end CallChart
