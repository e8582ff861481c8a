import CallChart.Proofs.Agreement
import CallChart.Proofs.Starts

/-!
# The entry points of a chart

What is drawn of a function says three times whether it is an entry point : the roster, its record
(`Chart.isEntry_record`) and its style line, of which a body holds one for each node
(`Drawing.Agrees.styleLine_unique`) and which is wider for entry points
(`Palette.nodeStyle_ne_entry`). All three say so of the entry points that no walk from an earlier
one collects, and of no other functions. Main statement : `Chart.draw_marksEntries`.
-/

namespace CallChart

/-! ## Style lines -/

namespace Palette

variable {p : Palette} {id group : String}

/-- A node is styled in the scheme of the palette, whatever the groups before it. -/
theorem exists_mem_nodeStyles {isEntry : Bool} : ∀ {nodes : List (String × String × Bool)}
    {p : Palette}, (id, group, isEntry) ∈ nodes → ∃ p' : Palette, p'.scheme = p.scheme ∧
      (p'.nodeStyle id group isEntry).1 ∈ p.nodeStyles nodes
  | (id', group', isEntry') :: nodes, p, h => by
    rcases List.mem_cons.1 h with heq | h
    · cases heq
      exact ⟨p, rfl, List.mem_cons_self⟩
    · obtain ⟨p', hscheme, hmem⟩ := exists_mem_nodeStyles
        (p := (p.nodeStyle id' group' isEntry').2) h
      exact ⟨p', by rw [hscheme, scheme_nodeStyle], List.mem_cons_of_mem _ hmem⟩

/-- A line ends in the width of the outline and the colour of the scheme. -/
theorem exists_start_nodeLine (p : Palette) (id : String) (swatch : Swatch) : ∃ start : String,
    ∀ (p' : Palette) width, p'.scheme = p.scheme →
      p'.nodeLine id swatch width = start ++ width ++ ("px,color:" ++ p.scheme.text) := by
  refine ⟨"style " ++ id ++ " fill:" ++ swatch.fill ++ ",stroke:" ++ swatch.stroke ++
    ",stroke-width:", fun p' width h => ?_⟩
  rw [← h, ← String.append_assoc]
  rfl

section Entry

variable {p' : Palette} (h : p'.scheme = p.scheme) (group' : String)
include h

/-- Entry points look the same in all groups. -/
theorem nodeStyle_entry : (p'.nodeStyle id group' true).1 = (p.nodeStyle id group true).1 := by
  obtain ⟨start, hstart⟩ := p.exists_start_nodeLine id p.scheme.entry
  rw [nodeStyle, nodeStyle, if_pos rfl, if_pos rfl, h, hstart p' _ h, hstart p _ rfl]

/-- Entry points look different from all other nodes, by the width of their outline. -/
theorem nodeStyle_ne_entry :
    (p'.nodeStyle id group' false).1 ≠ (p.nodeStyle id group true).1 := by
  have hline : (p'.nodeStyle id group' false).1 =
      p'.nodeLine id (rotate p'.scheme.nodes (slot p'.groups group').1) "1" := by
    rw [nodeStyle, if_neg Bool.false_ne_true]
  have hwidth : ∀ start start' : String, start ++ "1" ≠ start' ++ "3" := by
    intro start start' heq
    have hlast := congrArg (fun line => line.toList.getLast?) heq
    simp at hlast
  obtain ⟨start, hstart⟩ :=
    p.exists_start_nodeLine id (rotate p'.scheme.nodes (slot p'.groups group').1)
  obtain ⟨start', hstart'⟩ := p.exists_start_nodeLine id p.scheme.entry
  rw [hline, nodeStyle, if_pos rfl, hstart p' _ h, hstart' p _ rfl, Ne, String.append_left_inj]
  exact hwidth start start'

end Entry

end Palette

/-- The elements that `f` gives distinct values for are distinct themselves. -/
theorem eq_of_nodup_filterMap {α β : Type} {f : α → Option β} {l : List α} {a a' : α} {b : β}
    (h : (l.filterMap f).Nodup) (ha : a ∈ l) (ha' : a' ∈ l) (hb : f a = some b)
    (hb' : f a' = some b) : a = a' := by
  by_contra hne
  have hapart := List.pairwise_filterMap.1 h
  have : Std.Symm fun x x' => ∀ y, f x = some y → ∀ y', f x' = some y' → y ≠ y' :=
    ⟨fun _ _ hxx' y hy y' hy' => (hxx' y' hy' y hy).symm⟩
  exact hapart.forall ha ha' hne b hb b hb' rfl

/-- The style line of an entry point. -/
def Chart.entryStyle (s : Settings) (id : String) : String :=
  Text.indent 1 ++ ((⟨s.scheme, []⟩ : Palette).nodeStyle id "" true).1

namespace Drawing

/-- A body styles an id in one line only. -/
theorem Agrees.styleLine_unique {g : Drawing} (h : g.Agrees) {line line' id : String}
    (hline : line ∈ g.body) (hline' : line' ∈ g.body)
    (hread : Mark.read line = some (.style id)) (hread' : Mark.read line' = some (.style id)) :
    line = line' := by
  have hnd : (g.body.filterMap fun line => (Mark.read line).bind Mark.styled?).Nodup := by
    rw [← List.filterMap_filterMap]
    exact h.nodup_styled
  exact eq_of_nodup_filterMap hnd hline hline' (b := id) (by rw [hread]; rfl) (by rw [hread']; rfl)

/-- Whether the body shows the node of a function. -/
def shows (g : Drawing) (name : String) : Bool :=
  (g.roster.id? name).any (g.nodes.map Prod.fst).contains

/-- A drawing marks the entry points that no walk from an earlier one collects, and no other
functions. -/
structure MarksEntries (s : Settings) (d : Document) (g : Drawing) : Prop where
  /-- The roster marks them. -/
  marked : ∀ name id, g.roster.id? name = some id → id ∈ g.nodes.map Prod.fst →
    (g.roster.isEntry name = true ↔ name ∈ (Chart.unmet s d).map EntryPoint.name)
  /-- The record says the same. -/
  record : ∀ name id, g.roster.id? name = some id → id ∈ g.nodes.map Prod.fst →
    ∃ record, g.metadata.node? id = some record ∧
      record.get? "is_entry_point" = some (.bool (g.roster.isEntry name))
  /-- The style line says the same. -/
  style : ∀ name id, g.roster.id? name = some id → id ∈ g.nodes.map Prod.fst →
    (Chart.entryStyle s id ∈ g.body ↔ g.roster.isEntry name = true)
  /-- No walk from another entry point collects a root. -/
  roots : ∀ e ∈ Chart.entries s d, e.kind = .root → e ∈ Chart.unmet s d
  /-- There is a chain of calls to the entry points that are not marked. -/
  met : ∀ k e, (Chart.entries s d)[k]? = some e → e ∉ Chart.unmet s d →
    ∃ e₀ ∈ (Chart.entries s d).take k, ∃ chain,
      d.calls.Chain d.symbols s.calls e₀.name e.name chain
  stats : g.metadata.stats.entries =
    (((Chart.unmet s d).map EntryPoint.name).filter g.shows).length

end Drawing

namespace Chart

variable {s : Settings} {d : Document} {r : Roster} {log : Log}

/-! ## The nodes that are drawn -/

/-- The style line of a node is that of an entry point if the node is one. -/
theorem entryStyle_mem_body_iff (h : r.Collected d.symbols) {id : String} {n : Node}
    (hn : (id, n) ∈ r.identified) (hid : id ∈ shownIds s r) :
    entryStyle s id ∈ (drawRoster s d r log).body ↔ n.isEntry = true := by
  have hword := isWord_shownIds h.nodup_names id hid
  have hscheme : (⟨s.scheme, []⟩ : Palette).scheme ∈ Scheme.all := scheme_mem_all s
  have hstyled : (id, n.symbol.elim "" (fun sym => sym.path.text), n.isEntry) ∈
      styledNodes r (shownIds s r) :=
    List.mem_filterMap.2 ⟨id, hid, by rw [Roster.lookup_identified.2 hn, Option.map_some]⟩
  obtain ⟨p, hp, hline⟩ := Palette.exists_mem_nodeStyles (p := ⟨s.scheme, []⟩) hstyled
  have hbody : Text.indent 1 ++ (p.nodeStyle id (n.symbol.elim "" fun sym => sym.path.text)
      n.isEntry).1 ∈ (drawRoster s d r log).body :=
    List.mem_append_right _ (List.mem_map_of_mem (List.mem_append_left _ hline))
  cases hentry : n.isEntry with
  | true =>
    rw [hentry, Palette.nodeStyle_entry hp] at hbody
    exact iff_of_true hbody rfl
  | false =>
    refine iff_of_false (fun hmem => ?_) Bool.false_ne_true
    have hagrees : (drawRoster s d r log).Agrees := drawRoster_agrees h
    have heq := hagrees.styleLine_unique hbody hmem
      (Mark.read_nodeStyle (hp ▸ hscheme) _ _ hword) (Mark.read_nodeStyle hscheme _ _ hword)
    rw [hentry, entryStyle, String.append_right_inj] at heq
    exact Palette.nodeStyle_ne_entry hp _ heq

theorem isEntry_record (n : Node) :
    (MetadataStore.record n.fields).get? "is_entry_point" = some (.bool n.isEntry) := by
  rw [Keyed.get?, Roster.entries_record_fields]
  simp [Entries.lookup_cons]

theorem shows_drawRoster (h : r.Collected d.symbols) {name : String} :
    (drawRoster s d r log).shows name = true ↔
      ∃ id n, (id, n) ∈ r.identified ∧ id ∈ shownIds s r ∧ n.name = name := by
  have hroster : (drawRoster s d r log).roster = r := rfl
  rw [Drawing.shows, hroster, map_fst_nodes_drawRoster _ _ _ h.nodup_names, Option.any_eq_true]
  simp only [Roster.id?_eq_some_iff h.nodup_names, List.contains_iff_mem]
  constructor
  · rintro ⟨id, ⟨n, hn, hname⟩, hid⟩
    exact ⟨id, n, hn, hid, hname⟩
  · rintro ⟨id, n, hn, hid, hname⟩
    exact ⟨id, ⟨n, hn, hname⟩, hid⟩

/-- As many records are those of entry points as nodes that are shown are. -/
theorem stats_entries_drawRoster : (drawRoster s d r log).metadata.stats.entries =
    ((r.identified.filter fun p => (shownIds s r).contains p.1 && p.2.isEntry).map
      fun p => p.2.name).length := by
  have hentry : ∀ n : Node, (MetadataStore.record n.fields).isEntry = n.isEntry := by
    intro n
    rw [Record.isEntry, isEntry_record]
  rw [MetadataStore.stats, Keyed.values, entries_nodes_drawRoster]
  simp [List.filter_map, List.filter_filter, Function.comp_def, hentry, Bool.and_comm]

theorem isEntry_identified_iff (hr : r = collected s d (entries s d)) {id : String} {n : Node}
    (hn : (id, n) ∈ r.identified) :
    n.isEntry = true ↔ n.name ∈ (unmet s d).map EntryPoint.name := by
  have hmem : n ∈ r.nodes := Roster.mem_nodes_of_mem_identified hn
  rw [hr] at hmem
  exact isEntry_collected_iff hmem

section Collected

variable (h : r.Collected d.symbols) (hr : r = collected s d (entries s d))
include h

/-- The node of a function that is drawn. -/
theorem exists_node_of_drawn {name id : String} (hname : r.id? name = some id)
    (hid : id ∈ (drawRoster s d r log).nodes.map Prod.fst) : ∃ n, (id, n) ∈ r.identified ∧
      id ∈ shownIds s r ∧ n.name = name ∧ r.isEntry name = n.isEntry := by
  obtain ⟨n, hn, rfl⟩ := (Roster.id?_eq_some_iff h.nodup_names).1 hname
  rw [map_fst_nodes_drawRoster _ _ _ h.nodup_names] at hid
  exact ⟨n, hn, hid, rfl,
    Roster.isEntry_of_mem h.nodup_names (Roster.mem_nodes_of_mem_identified hn)⟩

include hr

/-- As many records are those of entry points as entry points that no walk from an earlier one
collects are shown. -/
theorem stats_entries_eq : (drawRoster s d r log).metadata.stats.entries =
    (((unmet s d).map EntryPoint.name).filter (drawRoster s d r log).shows).length := by
  have hnodes : ((r.identified.filter fun p =>
      (shownIds s r).contains p.1 && p.2.isEntry).map fun p => p.2.name).Nodup := by
    refine List.Nodup.sublist (List.filter_sublist.map _) ?_
    rw [Roster.map_name_identified]
    exact h.nodup_names
  rw [stats_entries_drawRoster]
  refine ((List.perm_ext_iff_of_nodup hnodes ((nodup_names_unmet s d).filter _)).2
    fun name => ?_).length_eq
  simp only [List.mem_filter, List.mem_map (f := fun p : String × Node => p.2.name),
    Bool.and_eq_true, List.contains_iff_mem, shows_drawRoster h]
  constructor
  · rintro ⟨⟨id, n⟩, ⟨hn, hid, hentry⟩, rfl⟩
    exact ⟨(isEntry_identified_iff hr hn).1 hentry, id, n, hn, hid, rfl⟩
  · rintro ⟨hunmet, id, n, hn, hid, rfl⟩
    exact ⟨(id, n), ⟨hn, hid, (isEntry_identified_iff hr hn).2 hunmet⟩, rfl⟩

theorem drawRoster_marksEntries : (drawRoster s d r log).MarksEntries s d where
  marked name id hname hid := by
    obtain ⟨n, hn, -, rfl, hentry⟩ := exists_node_of_drawn h hname hid
    exact (Bool.eq_iff_iff.1 hentry).trans (isEntry_identified_iff hr hn)
  record name id hname hid := by
    obtain ⟨n, hn, hshown, rfl, hentry⟩ := exists_node_of_drawn h hname hid
    refine ⟨_, node?_drawRoster hn hshown, ?_⟩
    rw [isEntry_record, ← hentry]
    rfl
  style name id hname hid := by
    obtain ⟨n, hn, hshown, rfl, hentry⟩ := exists_node_of_drawn h hname hid
    exact (entryStyle_mem_body_iff h hn hshown).trans (Bool.eq_iff_iff.1 hentry).symm
  roots _ he hroot := mem_unmet_of_root he hroot
  met _ _ hk hmet := exists_chain_of_notMem_unmet hk hmet
  stats := stats_entries_eq h hr

end Collected

/-- A chart marks the entry points that no walk from an earlier one collects, the roots among
them, in its roster, in its records and in its style lines, and it marks nothing else. -/
theorem draw_marksEntries (s : Settings) (d : Document) : (draw s d).MarksEntries s d := by
  obtain ⟨log, hdraw, hcollected⟩ := draw_eq_drawRoster s d
  rw [hdraw]
  refine drawRoster_marksEntries hcollected ?_
  rw [collected, collect_eq_foldl]
  exact collect_eq_foldl _ _ _

/-- An entry point that is declared, and called by a root. -/
def relay : Document where
  symbols := .ofList [{ name := "a" }, { name := "b", isEntry := true }]
  calls := .ofList [("a", ["b"])]

/-- The walk from `a` collects `b`, so `b` is drawn but not marked, though it is an entry point. -/
theorem draw_relay :
    let g := draw {} relay
    entries {} relay = [⟨"a", .root⟩, ⟨"b", .declared⟩] ∧
      g.roster.id? "b" = some "N2" ∧ g.nodes.map Prod.fst = ["N1", "N2"] ∧
      g.roster.isEntry "a" = true ∧ g.roster.isEntry "b" = false ∧
      ((g.metadata.node? "N2").map Record.isEntry) = some false ∧
      entryStyle {} "N2" ∉ g.body ∧
      (((entries {} relay).map EntryPoint.name).filter g.shows).length = 2 ∧
      g.metadata.stats.entries = 1 := by
  decide +kernel

end Chart

end CallChart
