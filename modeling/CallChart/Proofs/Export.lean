import CallChart.Proofs.Sameness

/-!
# The metadata document

A metadata document says what its store holds and nothing about how the store came to hold it.
Two stores are `Alike` if they have records under the same keys, with fields of the same names and
values that say the same, in whatever order records and fields were entered.

What a store holds, in one value, says the same as what an alike store holds (`same_json`) : the
tables agree key by key, and the counts are counted key by key (`Alike.stats_eq`). The document is
that value sorted, so alike stores have one document (`exportText_eq_iff`), and reading it finds
records alike to the store's, and the store's counts (`ofText?_exportText`). Both are said of every
store, so of all that entering, keeping and clearing lead to (`exportText_canonical`).
-/

namespace List

/-- A step that gives a result everywhere gives all results. -/
theorem mapM_eq_some_map {α β : Type} {f : α → Option β} {g : α → β} {l : List α}
    (h : ∀ a ∈ l, f a = some (g a)) : l.mapM f = some (l.map g) := by
  induction l with
  | nil => rfl
  | cons a l ih =>
    obtain ⟨ha, hl⟩ := List.forall_mem_cons.1 h
    simp [ha, ih hl]

end List

namespace CallChart

variable {α : Type}

/-! ## Alike tables -/

namespace Keyed

/-- Alike tables have the same keys, maybe in another order. -/
theorem Alike.perm_keys {R : α → α → Prop} {t u : Keyed α} (h : t.Alike R u) :
    t.keys.Perm u.keys := by
  refine (List.perm_ext_iff_of_nodup t.nodup_keys u.nodup_keys).2 fun k => ?_
  change k ∈ t.keys ↔ k ∈ u.keys
  rw [mem_keys_iff, mem_keys_iff, (Option.rel_iff.1 (h k)).1]

theorem Alike.size_eq {R : α → α → Prop} {t u : Keyed α} (h : t.Alike R u) : t.size = u.size := by
  have hlength := h.perm_keys.length_eq
  rwa [keys, keys, Entries.keys, Entries.keys, List.length_map, List.length_map] at hlength

/-- Values are counted key by key. -/
theorem length_filter_values (t : Keyed α) (p : α → Bool) :
    (t.values.filter p).length = (t.keys.filter fun k => (t.get? k).any p).length := by
  rw [values, keys, Entries.keys, List.filter_map, List.filter_map, List.length_map,
    List.length_map]
  refine congrArg _ (List.filter_congr fun e he => ?_)
  have hget : t.get? e.1 = some e.2 := get?_eq_some_iff.2 he
  simp only [Function.comp_apply, hget, Option.any_some]

/-- Alike tables have as many values that pass a test on which related values agree. -/
theorem Alike.length_filter_values {R : α → α → Prop} {t u : Keyed α} (h : t.Alike R u)
    {p : α → Bool} (hp : ∀ a b, R a b → p a = p b) :
    (t.values.filter p).length = (u.values.filter p).length := by
  have hsame : (fun k => (t.get? k).any p) = fun k => (u.get? k).any p := by
    funext k
    have hk := h k
    generalize t.get? k = o, u.get? k = o' at hk ⊢
    cases hk with
    | some hab => exact hp _ _ hab
    | none => rfl
  rw [Keyed.length_filter_values, Keyed.length_filter_values, hsame]
  exact (h.perm_keys.filter _).length_eq

end Keyed

/-! ## Alike stores -/

namespace Record

/-- Records with the same fields, of which two of one name say the same. -/
def Alike (r r' : Record) : Prop :=
  Keyed.Alike Json.Same r r'

theorem same_json {r r' : Record} : Json.Same r.json r'.json ↔ r.Alike r' := by
  rw [json, json, Json.same_object, ofFields, ofFields, Keyed.ofEntries_entries,
    Keyed.ofEntries_entries, Alike]

theorem Alike.isEntry_eq {r r' : Record} (h : r.Alike r') : r.isEntry = r'.isEntry := by
  have hfield := h "is_entry_point"
  rw [isEntry, isEntry]
  generalize r.get? "is_entry_point" = o, r'.get? "is_entry_point" = o' at hfield ⊢
  cases hfield with
  | none => rfl
  | some hvw => cases hvw <;> rfl

end Record

namespace MetadataStore

/-- Stores with alike records under the same keys, in whatever order they were entered. -/
structure Alike (m m' : MetadataStore) : Prop where
  nodes : m.nodes.Alike Record.Alike m'.nodes
  edges : m.edges.Alike Record.Alike m'.edges
  blocks : m.blocks.Alike Record.Alike m'.blocks

theorem Alike.stats_eq {m m' : MetadataStore} (h : m.Alike m') : m.stats = m'.stats := by
  rw [stats, stats, h.nodes.size_eq, h.edges.size_eq, h.blocks.size_eq,
    h.nodes.length_filter_values fun _ _ => Record.Alike.isEntry_eq]

theorem get?_ofFields_tableJson (t : Keyed Record) (k : String) :
    (Record.ofFields (t.entries.map fun e => (e.1, e.2.json))).get? k =
      (t.get? k).map Record.json := by
  rw [Record.ofFields, Keyed.get?_ofEntries_map, Keyed.ofEntries_entries]

theorem same_tableJson {t u : Keyed Record} :
    Json.Same (tableJson t) (tableJson u) ↔ t.Alike Record.Alike u := by
  rw [tableJson, tableJson, Json.same_object]
  refine forall_congr' fun k => ?_
  rw [get?_ofFields_tableJson, get?_ofFields_tableJson]
  cases t.get? k <;> cases u.get? k <;> simp [Record.same_json]

/-- Stores are alike if and only if what they hold, in one value each, says the same. -/
theorem same_json {m m' : MetadataStore} : Json.Same m.json m'.json ↔ m.Alike m' := by
  constructor
  · intro h
    have part := fun k => (Option.rel_iff.1 (Json.same_object.1 h k)).2
    have hnodes := part "nodes" (tableJson m.nodes) (tableJson m'.nodes) rfl rfl
    have hedges := part "edges" (tableJson m.edges) (tableJson m'.edges) rfl rfl
    have hblocks := part "subgraphs" (tableJson m.blocks) (tableJson m'.blocks) rfl rfl
    exact ⟨same_tableJson.1 hnodes, same_tableJson.1 hedges, same_tableJson.1 hblocks⟩
  · intro h
    rw [Json.same_iff_sorted, json, json, h.stats_eq]
    simp only [Json.sorted, Json.sortedMembers, (same_tableJson.2 h.nodes).sorted_eq,
      (same_tableJson.2 h.edges).sorted_eq, (same_tableJson.2 h.blocks).sorted_eq]

/-! ## Reading a document -/

/-- The record of the members of an object. -/
def recordOf? : Json → Option Record
  | .object ms => some (Record.ofFields ms)
  | _ => none

/-- The table of an object whose members are objects. -/
def tableOf? (v : Json) : Option (Keyed Record) := do
  let table ← recordOf? v
  let entries ← table.entries.mapM fun e => (recordOf? e.2).map fun r => (e.1, r)
  return Keyed.ofEntries entries

/-- The counts of an object of four natural numbers. -/
def statsOf? (v : Json) : Option Stats := do
  let counts ← recordOf? v
  let count (name : String) : Option Nat :=
    match counts.get? name with
    | some (.int n) => n.toNat?
    | _ => none
  guard (counts.size = 4)
  return ⟨← count "total_nodes", ← count "total_edges", ← count "total_subgraphs",
    ← count "entry_points"⟩

/-- The records and the counts of a metadata document, which is an object of three tables and the
counts. -/
def ofText? (document : String) : Option (MetadataStore × Stats) := do
  let parts ← recordOf? (← Json.parse? document.toList)
  guard (parts.size = 4)
  let nodes ← tableOf? (← parts.get? "nodes")
  let edges ← tableOf? (← parts.get? "edges")
  let blocks ← tableOf? (← parts.get? "subgraphs")
  let stats ← statsOf? (← parts.get? "stats")
  return (⟨nodes, edges, blocks⟩, stats)

theorem sorted_statsJson (s : Stats) : s.json.sorted =
    .object [("entry_points", .ofNat s.entries), ("total_edges", .ofNat s.edges),
      ("total_nodes", .ofNat s.nodes), ("total_subgraphs", .ofNat s.blocks)] := by
  simp only [Stats.json, Json.ofNat, Json.sorted, Json.sortedMembers, Json.sortMembers,
    List.foldl_cons, List.foldl_nil, Json.insertMember, String.reduceLT, String.reduceEq, if_true,
    if_false]

theorem statsOf?_sorted (s : Stats) : statsOf? s.json.sorted = some s := by
  rw [sorted_statsJson]
  rfl

/-- The document is about edges first, then nodes, then counts, then blocks. -/
theorem sorted_json (m : MetadataStore) : m.json.sorted =
    .object [("edges", (tableJson m.edges).sorted), ("nodes", (tableJson m.nodes).sorted),
      ("stats", m.stats.json.sorted), ("subgraphs", (tableJson m.blocks).sorted)] := by
  rw [json, Json.sorted]
  simp only [Json.sortedMembers, Json.sortMembers, List.foldl_cons, List.foldl_nil,
    Json.insertMember, String.reduceLT, String.reduceEq, if_true, if_false]

/-- A record is read back, with its fields in the order of their names. -/
theorem recordOf?_sorted (r : Record) :
    ∃ r', recordOf? r.json.sorted = some r' ∧ r'.Alike r := by
  rw [Record.json, Json.sorted]
  refine ⟨_, rfl, ?_⟩
  have h := Json.same_sorted r.json
  rwa [Record.json, Json.sorted, Json.same_object, Record.ofFields, Record.ofFields,
    Keyed.ofEntries_entries] at h

/-- A table is read back, with its keys in order. -/
theorem tableOf?_sorted (t : Keyed Record) :
    ∃ u, tableOf? (tableJson t).sorted = some u ∧ u.Alike Record.Alike t := by
  set ms := Json.sortMembers (Json.sortedMembers (t.entries.map fun e => (e.1, e.2.json))) with hms
  have hfind : ∀ k, (Record.ofFields ms).get? k = (t.get? k).map fun r => r.json.sorted := by
    intro k
    rw [hms, Json.get?_ofFields_sortMembers, Json.get?_ofFields_sortedMembers,
      get?_ofFields_tableJson, Option.map_map]
    rfl
  have hread : ∀ e ∈ (Record.ofFields ms).entries, ((recordOf? e.2).map fun r => (e.1, r)) =
      some (e.1, (recordOf? e.2).getD Keyed.empty) := by
    rintro ⟨k, v⟩ he
    rw [← Keyed.get?_eq_some_iff, hfind, Option.map_eq_some_iff] at he
    obtain ⟨r, -, rfl⟩ := he
    obtain ⟨r', hr', -⟩ := recordOf?_sorted r
    simp [hr']
  refine ⟨Keyed.ofEntries ((Record.ofFields ms).entries.map fun e =>
    (e.1, (recordOf? e.2).getD Keyed.empty)), ?_, fun k => ?_⟩
  · rw [tableJson, Json.sorted, tableOf?, recordOf?]
    simp only [Option.bind_eq_bind, Option.bind_some, ← hms]
    rw [List.mapM_eq_some_map hread]
    rfl
  · rw [Keyed.get?_ofEntries_map fun v => (recordOf? v).getD Keyed.empty,
      Keyed.ofEntries_entries, hfind]
    cases t.get? k with
    | none => exact .none
    | some r =>
      obtain ⟨r', hr', halike⟩ := recordOf?_sorted r
      simpa [hr'] using halike

/-- The document of a store names records alike to the store's, and the store's counts. -/
theorem ofText?_exportText (m : MetadataStore) :
    ∃ m', ofText? m.exportText = some (m', m.stats) ∧ m'.Alike m := by
  obtain ⟨nodes, hnodes, hnodes'⟩ := tableOf?_sorted m.nodes
  obtain ⟨edges, hedges, hedges'⟩ := tableOf?_sorted m.edges
  obtain ⟨blocks, hblocks, hblocks'⟩ := tableOf?_sorted m.blocks
  refine ⟨⟨nodes, edges, blocks⟩, ?_, hnodes', hedges', hblocks'⟩
  have hstats := statsOf?_sorted m.stats
  have hparse : Json.parse? m.exportText.toList = some m.json.sorted := by
    rw [exportText, Json.prettyText, String.toList_ofList, Json.parse?_pretty]
  rw [ofText?, hparse, sorted_json]
  set ms := [("edges", (tableJson m.edges).sorted), ("nodes", (tableJson m.nodes).sorted),
    ("stats", m.stats.json.sorted), ("subgraphs", (tableJson m.blocks).sorted)] with hms
  have hkeys : (Entries.keys ms).Nodup := by simp [hms]
  have hsize : (Record.ofFields ms).size = 4 := by
    rw [Record.ofFields, Keyed.size, Keyed.entries_ofEntries hkeys, hms]
    rfl
  have hguard : (guard ((Record.ofFields ms).size = 4) : Option Unit) = some () := if_pos hsize
  have hget : ∀ k, (Record.ofFields ms).get? k = ms.lookup k := Keyed.get?_ofEntries hkeys
  rw [Option.bind_eq_bind, Option.bind_some, recordOf?, Option.bind_eq_bind, Option.bind_some,
    hguard]
  simp only [hget]
  simp [hms, Entries.lookup_cons, hnodes, hedges, hblocks, hstats]

/-- Stores have the same document if and only if they are alike. -/
theorem exportText_eq_iff {m m' : MetadataStore} : m.exportText = m'.exportText ↔ m.Alike m' := by
  rw [← same_json, Json.same_iff_sorted]
  constructor
  · intro h
    rw [exportText, exportText, Json.prettyText, Json.prettyText, String.ofList_inj] at h
    have hparse := congrArg Json.parse? h
    rwa [Json.parse?_pretty, Json.parse?_pretty, Option.some.injEq] at hparse
  · intro h
    rw [exportText, exportText, h]

/-- The metadata document is a faithful image of the store : it is read back as records with the
fields and values of the store's under the store's keys and as the store's counts, and the stores
that have this document are those that hold the same records under the same keys, in whatever order
records and fields came. -/
theorem exportText_canonical (m : MetadataStore) :
    (∃ m', ofText? m.exportText = some (m', m.stats) ∧ m'.Alike m) ∧
      ∀ m', m.exportText = m'.exportText ↔ m.Alike m' :=
  ⟨ofText?_exportText m, fun _ => exportText_eq_iff⟩

end MetadataStore

end CallChart
