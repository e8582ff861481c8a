import CallChart.Proofs.Agreement
import CallChart.Proofs.Nesting

/-!
# What is drawn

The nodes and edges of a chart are determined by the names that were collected, in their order, by
the symbol table and by the call graph (`Drawing.Exact`). A collected function is drawn if fewer
than the cap of the functions collected before it belong to the same address, and a call if both
ends are drawn and the callee is among the first calls of the caller ; nothing is drawn twice, and
nothing else is drawn. Main statement : `Chart.draw_exact`.
-/

namespace CallChart

/-- The address of a function of a document. -/
def Document.address? (d : Document) (root : Option Path) (name : String) : Option Address :=
  (d.symbols.get? name).map (Symbol.address root)

/-- A drawing shows what the settings and the document ask for. -/
structure Drawing.Exact (s : Settings) (d : Document) (g : Drawing) : Prop where
  /-- The nodes are collected from the entry points. -/
  roster : g.roster = (Chart.collect s d ⟨Chart.level s d, []⟩ []
    (EntryPoint.detect s.entryPoints d.calls d.symbols)).1
  /-- Of each address the functions collected first are drawn, once. -/
  node_count : ∀ k name, g.roster.names[k]? = some name →
    (g.nodes.map Prod.fst).count (nodeId (k + 1)) =
      if (g.roster.names.take k).countP (fun earlier =>
        d.address? s.root earlier = d.address? s.root name) < s.perClass then 1 else 0
  node_mem : ∀ id ∈ g.nodes.map Prod.fst, ∃ k < g.roster.size, id = nodeId (k + 1)
  /-- The first calls between nodes that are drawn are drawn, once. -/
  edge_count : ∀ j k caller callee, g.roster.names[j]? = some caller →
    g.roster.names[k]? = some callee →
    g.edges.count (nodeId (j + 1), nodeId (k + 1)) =
      if nodeId (j + 1) ∈ g.nodes.map Prod.fst ∧ nodeId (k + 1) ∈ g.nodes.map Prod.fst ∧
        callee ∈ (d.calls.callees caller).take s.calls then 1 else 0
  edge_mem : ∀ e ∈ g.edges, ∃ j < g.roster.size, ∃ k < g.roster.size,
    e = (nodeId (j + 1), nodeId (k + 1))
  edge_record : ∀ j k caller callee, g.roster.names[j]? = some caller →
    g.roster.names[k]? = some callee → (nodeId (j + 1), nodeId (k + 1)) ∈ g.edges →
    ∃ record, g.metadata.edge? (nodeId (j + 1)) (nodeId (k + 1)) = some record ∧
      record.entries = [("from_function", .text caller), ("to_function", .text callee),
        ("call_index", .ofNat ((d.calls.callees caller).idxOf callee))]
  /-- No block is without a node. -/
  filled : 0 < s.perClass → ∀ id ∈ g.openedIds, ∃ p ∈ Mark.within [] g.marks, id ∈ p.2

/-! ## The first of a kind -/

theorem mem_take_append_cons {α : Type} {a : α} {before after : List α} {m : Nat}
    (h : a ∉ before) : a ∈ (before ++ a :: after).take m ↔ before.length < m := by
  rw [List.take_append]
  constructor
  · intro hmem
    rcases List.mem_append.1 hmem with hmem | hmem
    · exact absurd (List.mem_of_mem_take hmem) h
    · by_contra hle
      rw [Nat.sub_eq_zero_of_le (Nat.le_of_not_lt hle), List.take_zero] at hmem
      exact List.not_mem_nil hmem
  · intro hlt
    obtain ⟨k, hk⟩ := Nat.exists_eq_add_of_lt hlt
    refine List.mem_append_right _ ?_
    rw [show m - before.length = k + 1 by omega, List.take_succ_cons]
    exact List.mem_cons_self

/-- An element is among the first that pass `p` if few enough of those before it do. -/
theorem mem_take_filter_iff {α : Type} {l : List α} {p : α → Bool} {k m : Nat} {a : α}
    (hnd : l.Nodup) (hk : l[k]? = some a) (hp : p a = true) :
    a ∈ (l.filter p).take m ↔ (l.take k).countP p < m := by
  obtain ⟨hlt, rfl⟩ := List.getElem?_eq_some_iff.1 hk
  have hsplit : l = l.take k ++ l[k] :: l.drop (k + 1) := by simp
  have hbefore : l[k] ∉ l.take k := by
    rw [hsplit, List.nodup_append] at hnd
    exact fun h => hnd.2.2 _ h _ List.mem_cons_self rfl
  have hfilter : l.filter p = (l.take k).filter p ++ l[k] :: (l.drop (k + 1)).filter p := by
    conv_lhs => rw [hsplit, List.filter_append, List.filter_cons_of_pos hp]
  rw [hfilter, mem_take_append_cons fun h => hbefore (List.mem_filter.1 h).1,
    List.countP_eq_length_filter]

/-! ## Collected names -/

theorem Roster.id?_of_getElem? {r : Roster} (hnd : r.names.Nodup) {k : Nat} {name : String}
    (h : r.names[k]? = some name) : r.id? name = some (nodeId (k + 1)) := by
  rw [names, List.getElem?_map, Option.map_eq_some_iff] at h
  obtain ⟨n, hn, rfl⟩ := h
  exact (id?_eq_some_iff hnd).2 ⟨n, mem_identified.2 ⟨k, hn, rfl⟩, rfl⟩

namespace Chart

variable {s : Settings} {d : Document} {r : Roster} {log : Log}

/-- The roster of a collection does not depend on what was reported before. -/
theorem collect_roster (s : Settings) (d : Document) : ∀ (es : List EntryPoint) (r : Roster)
    (log log' : Log), (collect s d r log es).1 = (collect s d r log' es).1
  | [], _, _, _ => rfl
  | e :: es, r, log, log' => by
    rw [collect, collect]
    split
    · rfl
    · exact collect_roster s d es _ _ _

/-- The functions that are shown are the first of each address. -/
theorem mem_shownNames (h : r.Collected d.symbols) {name : String} :
    name ∈ shownNames s r ↔ ∃ a, name ∈
      (r.names.filter fun name' => d.address? s.root name' = some a).take s.perClass := by
  have haddress : ∀ a, ((r.nodes.filterMap Node.symbol).filter fun sym =>
      sym.address s.root = a).map Symbol.name =
        r.names.filter fun name' => d.address? s.root name' = some a := by
    intro a
    have hsymbol : ∀ sym ∈ r.nodes.filterMap Node.symbol,
        decide (sym.address s.root = a) = decide (d.address? s.root sym.name = some a) := by
      intro sym hsym
      obtain ⟨n, hn, hsym⟩ := List.mem_filterMap.1 hsym
      obtain ⟨sym', hget, hsym'⟩ := h.symbol_of_mem n hn
      obtain rfl := Option.some.inj (hsym.symm.trans hsym')
      have haddress : d.address? s.root sym.name = some (sym.address s.root) := by
        rw [Document.address?, SymbolTable.name_of_get? hget, hget, Option.map_some]
      simp [haddress]
    rw [List.filter_congr hsymbol, ← h.symbolNames_eq, symbolNames, List.filter_map]
    rfl
  rw [shownNames, grouping, Grouping.mem_shown_ofSymbols]
  simp only [haddress]

theorem exists_address (h : r.Collected d.symbols) (root : Option Path) {name : String}
    (hname : name ∈ r.names) : ∃ a, d.address? root name = some a := by
  obtain ⟨n, hn, rfl⟩ := List.mem_map.1 hname
  obtain ⟨sym, hget, -⟩ := h.symbol_of_mem n hn
  exact ⟨sym.address root, by rw [Document.address?, hget, Option.map_some]⟩

/-- A collected function is shown if few enough functions of its address come before it. -/
theorem mem_shownNames_iff (h : r.Collected d.symbols) {k : Nat} {name : String}
    (hk : r.names[k]? = some name) : name ∈ shownNames s r ↔
      (r.names.take k).countP (fun earlier =>
        d.address? s.root earlier = d.address? s.root name) < s.perClass := by
  obtain ⟨a, ha⟩ := exists_address h s.root (List.mem_of_getElem? hk)
  rw [mem_shownNames h, ha,
    ← mem_take_filter_iff (p := fun earlier => d.address? s.root earlier = some a)
      h.nodup_names hk (by simpa using ha)]
  constructor
  · rintro ⟨a', ha'⟩
    have := (List.mem_filter.1 (List.mem_of_mem_take ha')).2
    rw [decide_eq_true_iff, ha] at this
    rwa [Option.some.inj this]
  · exact fun hmem => ⟨a, hmem⟩

theorem mem_shownIds_iff (h : r.Collected d.symbols) {k : Nat} {name : String}
    (hk : r.names[k]? = some name) : nodeId (k + 1) ∈ shownIds s r ↔ name ∈ shownNames s r := by
  have hid := (Roster.id?_eq_some_iff h.nodup_names).1 (Roster.id?_of_getElem? h.nodup_names hk)
  obtain ⟨n, hn, rfl⟩ := hid
  rw [mem_shownIds h.nodup_names]
  constructor
  · rintro ⟨n', hn', hname⟩
    rwa [Roster.node_unique hn hn']
  · exact fun hname => ⟨n, hn, hname⟩

/-! ## Edges -/

theorem entries_record_edge (e : Edge) : (MetadataStore.record e.fields).entries =
    [("from_function", .text e.caller), ("to_function", .text e.callee),
      ("call_index", .ofNat e.index)] :=
  Record.entries_merge_empty (by simp)

/-- The edge of a call between collected functions. -/
theorem mem_edges_drawRoster (h : r.Collected d.symbols) {j k : Nat} {caller callee : String}
    (hj : r.names[j]? = some caller) (hk : r.names[k]? = some callee) :
    (nodeId (j + 1), nodeId (k + 1)) ∈ (drawRoster s d r log).edges ↔
      nodeId (j + 1) ∈ shownIds s r ∧ nodeId (k + 1) ∈ shownIds s r ∧
        callee ∈ (d.calls.callees caller).take s.calls := by
  have hcaller := Roster.id?_of_getElem? h.nodup_names hj
  have hcallee := Roster.id?_of_getElem? h.nodup_names hk
  rw [edges_drawRoster h.nodup_names, List.mem_map]
  constructor
  · rintro ⟨e, he, hends⟩
    obtain ⟨hsource, htarget⟩ := Prod.mk.inj hends
    have he := (mem_edges h.nodup_names).1 he
    have heq := Roster.id?_inj h.nodup_names hcaller (hsource ▸ he.source)
    have heq' := Roster.id?_inj h.nodup_names hcallee (htarget ▸ he.target)
    refine ⟨hsource ▸ he.source_shown, htarget ▸ he.target_shown, ?_⟩
    rw [heq, heq']
    exact he.call
  · rintro ⟨hsource, htarget, hcall⟩
    exact ⟨⟨_, _, caller, callee, (d.calls.callees caller).idxOf callee⟩,
      (mem_edges h.nodup_names).2 ⟨hcaller, hcallee, hsource, htarget, hcall, rfl⟩, rfl⟩

theorem edge_record_drawRoster (h : r.Collected d.symbols) {j k : Nat} {caller callee : String}
    (hj : r.names[j]? = some caller) (hk : r.names[k]? = some callee)
    (hmem : (nodeId (j + 1), nodeId (k + 1)) ∈ (drawRoster s d r log).edges) :
    ∃ record, (drawRoster s d r log).metadata.edge? (nodeId (j + 1)) (nodeId (k + 1)) =
        some record ∧
      record.entries = [("from_function", .text caller), ("to_function", .text callee),
        ("call_index", .ofNat ((d.calls.callees caller).idxOf callee))] := by
  obtain ⟨hsource, htarget, hcall⟩ := (mem_edges_drawRoster h hj hk).1 hmem
  let e : Edge := ⟨nodeId (j + 1), nodeId (k + 1), caller, callee,
    (d.calls.callees caller).idxOf callee⟩
  have he : e ∈ edges s d r (shownIds s r) := (mem_edges h.nodup_names).2
    ⟨Roster.id?_of_getElem? h.nodup_names hj, Roster.id?_of_getElem? h.nodup_names hk, hsource,
      htarget, hcall, rfl⟩
  refine ⟨MetadataStore.record e.fields, Keyed.get?_eq_some_iff.2 ?_, entries_record_edge e⟩
  rw [entries_edges_drawRoster h.nodup_names]
  exact List.mem_map.2 ⟨e, he, rfl⟩

/-! ## Blocks -/

/-- The functions at an address are enrolled, and there are some. -/
theorem filledClass_of_mem_leaves (h : r.Collected d.symbols) {a : Address}
    {functions : List String} (hmem : (a, functions) ∈ (grouping s r).leaves) :
    Item.FilledClass r functions := by
  have htidy := Grouping.tidy_ofSymbols s.root (r.nodes.filterMap Node.symbol)
  refine ⟨htidy.ne_nil_of_mem_leaves a functions hmem, fun name hname => ?_⟩
  rw [← htidy.functionsAt_of_mem_leaves a functions hmem, Grouping.functionsAt_ofSymbols] at hname
  obtain ⟨sym, hsym, rfl⟩ := List.mem_map.1 hname
  have hnames : sym.name ∈ r.names := by
    rw [← h.symbolNames_eq]
    exact List.mem_map_of_mem (List.mem_filter.1 hsym).1
  obtain ⟨k, hk⟩ := List.mem_iff_getElem?.1 hnames
  rw [Roster.id?_of_getElem? h.nodup_names hk]
  rfl

theorem filled_items (h : r.Collected d.symbols) (hmost : 0 < s.perClass) :
    ∀ item ∈ items s r, item.Filled :=
  Item.filled_layout hmost {} fun _ _ hmem => filledClass_of_mem_leaves h hmem

/-! ## Exactness -/

theorem drawRoster_exact (h : r.Collected d.symbols)
    (hr : r = (collect s d ⟨level s d, []⟩ []
      (EntryPoint.detect s.entryPoints d.calls d.symbols)).1) :
    (drawRoster s d r log).Exact s d where
  roster := hr
  node_count k name hk := by
    rw [map_fst_nodes_drawRoster _ _ _ h.nodup_names, (nodup_shownIds h).count]
    exact if_congr ((mem_shownIds_iff h hk).trans (mem_shownNames_iff h hk)) rfl rfl
  node_mem id hid := by
    rw [map_fst_nodes_drawRoster _ _ _ h.nodup_names] at hid
    obtain ⟨n, hn, -⟩ := (mem_shownIds h.nodup_names).1 hid
    exact Roster.exists_lt_of_id? ((Roster.id?_eq_some_iff h.nodup_names).2 ⟨n, hn, rfl⟩)
  edge_count j k caller callee hj hk := by
    have hnd : (drawRoster s d r log).edges.Nodup := (drawRoster_agrees h).nodup_edges
    rw [hnd.count, map_fst_nodes_drawRoster _ _ _ h.nodup_names]
    exact if_congr (mem_edges_drawRoster h hj hk) rfl rfl
  edge_mem ends hends := by
    rw [edges_drawRoster h.nodup_names] at hends
    obtain ⟨e, he, rfl⟩ := List.mem_map.1 hends
    have he := (mem_edges h.nodup_names).1 he
    obtain ⟨j, hj, hsource⟩ := Roster.exists_lt_of_id? he.source
    obtain ⟨k, hk, htarget⟩ := Roster.exists_lt_of_id? he.target
    exact ⟨j, hj, k, hk, by rw [Edge.ends, hsource, htarget]⟩
  edge_record j k caller callee hj hk hmem := edge_record_drawRoster h hj hk hmem
  filled hmost id hid := by
    rw [openedIds_drawRoster h.nodup_names] at hid
    rw [marks_drawRoster h.nodup_names, List.append_assoc, List.append_assoc]
    exact Mark.exists_within_of_filled (filled_items h hmost) [] _ id hid

/-- What a chart draws is determined by what was collected : no node, edge or block is lost and
none is drawn twice. -/
theorem draw_exact (s : Settings) (d : Document) : (draw s d).Exact s d := by
  obtain ⟨log, hdraw, hcollected⟩ := draw_eq_drawRoster s d
  rw [hdraw]
  exact drawRoster_exact hcollected (collect_roster s d _ _ _ _)

end Chart

end CallChart
