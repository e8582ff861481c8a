import CallChart.Proofs.Agreement
import CallChart.Proofs.Labels

/-!
# Counting the lines of a body

The lines of a drawn body are counted mark by mark. Each mark counts as what it is for, and then
there are the lines that begin inside labels and titles, where these hold line feeds
(`Drawing.looseCount`). Nodes, edges and blocks count as the metadata say, and a block is closed
as often as one is opened (`Drawing.Counted`). Loose lines are no nodes and no edges, but they may
open or close blocks.
-/

namespace CallChart

namespace Mark

/-! ## Counting marks -/

/-- Marks of a kind are those that say something of the kind. -/
theorem count_kind {α : Type} {p : Mark → Option α} {k : LineKind}
    (h : ∀ m, (p m).isSome = (m.kind == k)) :
    ∀ ms : List Mark, (ms.map kind).count k = (ms.filterMap p).length
  | [] => rfl
  | m :: ms => by
    rw [List.map_cons, List.count_cons, ← h m, count_kind h ms, List.filterMap_cons]
    cases p m <;> rfl

theorem count_node (ms : List Mark) :
    (ms.map kind).count .node = (ms.filterMap node?).length :=
  count_kind (fun m => by cases m <;> rfl) ms

theorem count_edge (ms : List Mark) :
    (ms.map kind).count .edge = (ms.filterMap edge?).length :=
  count_kind (fun m => by cases m <;> rfl) ms

theorem count_opening (ms : List Mark) :
    (ms.map kind).count .opening = (ms.filterMap opened?).length :=
  count_kind (fun m => by cases m <;> rfl) ms

/-- Every block of an item is closed. -/
theorem count_closing_ofItem (item : Item) :
    ((ofItem item).map kind).count .closing = ((ofItem item).map kind).count .opening := by
  induction item using Item.induct with
  | node id label =>
    rw [ofItem]
    rfl
  | block blockKind id name items ih =>
    have hinner : ((items.flatMap ofItem).map kind).count .closing =
        ((items.flatMap ofItem).map kind).count .opening := by
      rw [List.map_flatMap, List.count_flatMap, List.count_flatMap]
      exact congrArg List.sum (List.map_congr_left ih)
    rw [ofItem, List.map_cons, List.map_append, List.count_cons, List.count_cons,
      List.count_append, List.count_append, hinner]
    rfl

theorem count_closing_ofItems (items : List Item) :
    ((items.flatMap ofItem).map kind).count .closing =
      (items.flatMap Item.blockIds).length := by
  rw [← opened?_ofItems, ← count_opening, List.map_flatMap, List.count_flatMap, List.count_flatMap]
  exact congrArg List.sum (List.map_congr_left fun item _ => count_closing_ofItem item)

/-- The lines of marks count as the marks do, and then there are those inside their texts. -/
theorem count_kinds (k : LineKind) : ∀ ms : List Mark, (ms.flatMap kinds).count k =
    (ms.map kind).count k +
      (((ms.filterMap text?).flatMap Diagram.looseLines).map Diagram.lineKind).count k
  | [] => rfl
  | m :: ms => by
    rw [List.flatMap_cons, List.count_append, count_kinds k ms, kinds, List.map_cons,
      List.count_cons, List.count_cons, List.filterMap_cons]
    cases m.text? with
    | none => simp; omega
    | some text => simp; omega

theorem exists_titleOf_of_mem_ofItem {id title : String} {item : Item} :
    opening id title ∈ ofItem item → ∃ blockKind name, title = titleOf blockKind name := by
  induction item using Item.induct with
  | node id' label =>
    rw [ofItem]
    exact fun h => by simp at h
  | block blockKind id' name items ih =>
    rw [ofItem, List.mem_cons, List.mem_append, List.mem_flatMap]
    rintro (h | ⟨item, hitem, h⟩ | h)
    · exact ⟨blockKind, name, (Mark.opening.inj h).2⟩
    · exact ih item hitem h
    · simp at h

end Mark

/-! ## Counting the lines of a drawing -/

namespace Drawing

/-- The labels and titles in the lines of the body. -/
def texts (g : Drawing) : List String :=
  g.marks.filterMap Mark.text?

/-- How many of the lines that begin inside labels and titles count as `k`. -/
def looseCount (g : Drawing) (k : LineKind) : Nat :=
  ((g.texts.flatMap Diagram.looseLines).map Diagram.lineKind).count k

theorem looseCount_eq_zero {g : Drawing} {k : LineKind} (h : ∀ text ∈ g.texts,
    ∀ line ∈ Diagram.looseLines text, Diagram.lineKind line ≠ k) : g.looseCount k = 0 := by
  rw [looseCount, List.count_eq_zero]
  intro hmem
  obtain ⟨line, hline, hkind⟩ := List.mem_map.1 hmem
  obtain ⟨text, htext, hline⟩ := List.mem_flatMap.1 hline
  exact h text htext line hline hkind

/-- What the lines of the body count as. -/
structure Counted (g : Drawing) : Prop where
  nodes : (g.body.flatMap Diagram.kinds).count .node = g.metadata.stats.nodes
  edges : (g.body.flatMap Diagram.kinds).count .edge = g.metadata.stats.edges
  opened : (g.body.flatMap Diagram.kinds).count .opening =
    g.metadata.stats.blocks + g.looseCount .opening
  closed : (g.body.flatMap Diagram.kinds).count .closing =
    g.metadata.stats.blocks + g.looseCount .closing

end Drawing

namespace Chart

variable {s : Settings} {d : Document} {r : Roster} {log : Log}

/-- Labels and titles are tame. -/
theorem tame_texts_drawRoster (hnd : r.names.Nodup)
    (hlabels : ∀ n ∈ r.nodes, ∃ level, n.label = Label.format n.name n.symbol level) :
    ∀ text ∈ (drawRoster s d r log).texts, Text.Tame text.toList := by
  intro text htext
  obtain ⟨m, hm, hmtext⟩ := List.mem_filterMap.1 htext
  cases m with
  | node id label =>
    have hnode : (id, label) ∈ (drawRoster s d r log).nodes :=
      List.mem_filterMap.2 ⟨_, hm, rfl⟩
    rw [nodes_drawRoster hnd] at hnode
    obtain ⟨n, hn, -, rfl⟩ := (Roster.mem_labelled hnd).1 hnode
    obtain ⟨level, hlevel⟩ := hlabels n (Roster.mem_nodes_of_mem_identified hn)
    rw [← Option.some.inj hmtext, hlevel]
    exact Label.tame_format _ _ _
  | opening id title =>
    have hitem : Mark.opening id title ∈ (items s r).flatMap Mark.ofItem := by
      rw [marks_drawRoster hnd] at hm
      simpa using hm
    obtain ⟨item, -, hitem⟩ := List.mem_flatMap.1 hitem
    obtain ⟨blockKind, name, htitle⟩ := Mark.exists_titleOf_of_mem_ofItem hitem
    rw [← Option.some.inj hmtext, htitle]
    exact Mark.tame_titleOf _ _
  | closing => cases hmtext
  | edge source target => cases hmtext
  | style id => cases hmtext

/-- The lines inside labels and titles draw no edge and no node. -/
theorem looseCount_drawRoster (hnd : r.names.Nodup)
    (hlabels : ∀ n ∈ r.nodes, ∃ level, n.label = Label.format n.name n.symbol level) :
    (drawRoster s d r log).looseCount .node = 0 ∧ (drawRoster s d r log).looseCount .edge = 0 := by
  have hloose : ∀ text ∈ (drawRoster s d r log).texts, ∀ line ∈ Diagram.looseLines text,
      Diagram.lineKind line ≠ .edge ∧ Diagram.lineKind line ≠ .node :=
    fun text htext _ hline =>
      Diagram.lineKind_of_mem_looseLines (tame_texts_drawRoster hnd hlabels text htext) hline
  exact ⟨Drawing.looseCount_eq_zero fun text htext line hline => (hloose text htext line hline).2,
    Drawing.looseCount_eq_zero fun text htext line hline => (hloose text htext line hline).1⟩

theorem count_closing_drawRoster (hnd : r.names.Nodup) :
    ((drawRoster s d r log).marks.map Mark.kind).count .closing =
      (drawRoster s d r log).openedIds.length := by
  rw [marks_drawRoster hnd, openedIds_drawRoster hnd]
  have hedges : ((((edges s d r (shownIds s r)).map fun e => Mark.edge e.source e.target).map
      Mark.kind).count .closing) = 0 := by
    rw [List.count_eq_zero, List.map_map]
    simp [Mark.kind]
  have hstyles : ∀ ids : List String, ((ids.map Mark.style).map Mark.kind).count .closing = 0 := by
    intro ids
    rw [List.count_eq_zero, List.map_map]
    simp [Mark.kind]
  simp only [List.map_append, List.count_append, Mark.count_closing_ofItems, hedges, hstyles,
    Nat.add_zero]

/-- The lines of a body count as its marks do, and then there are the loose lines. -/
theorem count_body_drawRoster (hnd : r.names.Nodup) (k : LineKind) :
    ((drawRoster s d r log).body.flatMap Diagram.kinds).count k =
      ((drawRoster s d r log).marks.map Mark.kind).count k +
        (drawRoster s d r log).looseCount k := by
  have hkinds : (drawRoster s d r log).body.map Diagram.kinds =
      (drawRoster s d r log).marks.map Mark.kinds := by
    rw [map_body_drawRoster Mark.reading_kinds hnd, marks_drawRoster hnd]
  rw [List.flatMap_def, hkinds, ← List.flatMap_def, Mark.count_kinds]
  rfl

theorem drawRoster_counted {t : SymbolTable} (h : r.Collected t)
    (hlabels : ∀ n ∈ r.nodes, ∃ level, n.label = Label.format n.name n.symbol level) :
    (drawRoster s d r log).Counted := by
  have hcount : ∀ k, ((drawRoster s d r log).body.flatMap Diagram.kinds).count k =
      ((drawRoster s d r log).marks.map Mark.kind).count k + (drawRoster s d r log).looseCount k :=
    count_body_drawRoster h.nodup_names
  have hloose : (drawRoster s d r log).looseCount .node = 0 ∧
      (drawRoster s d r log).looseCount .edge = 0 := looseCount_drawRoster h.nodup_names hlabels
  have hagrees : (drawRoster s d r log).Agrees := drawRoster_agrees h
  constructor
  · rw [hcount, hloose.1, hagrees.stats_nodes, Mark.count_node]
    rfl
  · rw [hcount, hloose.2, hagrees.stats_edges, Mark.count_edge]
    rfl
  · rw [hcount, hagrees.stats_blocks, Mark.count_opening]
    rfl
  · rw [hcount, hagrees.stats_blocks, count_closing_drawRoster h.nodup_names]

/-- The lines of a chart count as its metadata say, and then there are the loose lines. -/
theorem draw_counted (s : Settings) (d : Document) : (draw s d).Counted := by
  obtain ⟨log, hdraw, hcollected⟩ := draw_eq_drawRoster s d
  rw [hdraw]
  exact drawRoster_counted hcollected (label_collect s d _ _ _)

end Chart

end CallChart
