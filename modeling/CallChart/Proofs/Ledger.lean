import CallChart.Proofs.Enrolments

/-!
# Ledgers and rosters

A ledger keeps the tables of a roster (`Ledger.Keeps`). Entering a node keeps them, and so does a
walk : it takes the steps of the roster's walk and answers the names that one has found
(`Ledger.visit_follows`). So after any history of calls the ledger keeps the tables of the roster
that the same calls leave (`Ledger.keeps_ofCalls`), and everything that holds of a roster holds
of the tables : they are in step with one another (`Ledger.InStep`), and a call only appends to
them (`Ledger.Continues`). Main statement : `Ledger.ofCalls_inStep`.
-/

namespace CallChart

/-! ## Nodes with their ids -/

namespace Roster

theorem identified_push (r : Roster) (name : String) (symbol : Option Symbol) (isEntry : Bool)
    (depth : Option Nat) : (r.push name symbol isEntry depth).identified =
      r.identified ++ [(nodeId (r.size + 1),
        ⟨name, symbol, Label.format name symbol r.level, isEntry, depth⟩)] := by
  simp [identified, push, List.zipIdx_append, size]

theorem metadata_push (r : Roster) (name : String) (symbol : Option Symbol) (isEntry : Bool)
    (depth : Option Nat) : (r.push name symbol isEntry depth).metadata =
      r.metadata.addNode (nodeId (r.size + 1))
        (Node.fields ⟨name, symbol, Label.format name symbol r.level, isEntry, depth⟩) := by
  rw [metadata, identified_push, List.foldl_append]
  rfl

theorem map_fst_identified (r : Roster) :
    r.identified.map Prod.fst = (List.range r.size).map fun k => nodeId (k + 1) := by
  rw [identified, List.map_map, size, List.range_eq_range', ← List.zipIdx_map_snd 0 r.nodes,
    List.map_map]
  rfl

theorem Extends.identified {r r' : Roster} (h : r.Extends r') :
    r.identified <+: r'.identified := by
  obtain ⟨-, more, hmore⟩ := h
  rw [Roster.identified, Roster.identified, ← hmore, List.zipIdx_append, List.map_append]
  exact List.prefix_append _ _

theorem map_name_identified (r : Roster) : (r.identified.map fun p => p.2.name) = r.names := by
  rw [identified, List.map_map, names, ← List.zipIdx_map_fst 0 r.nodes, List.map_map]
  simp [Function.comp_def]

theorem isEntry_push {r : Roster} {name : String} (hname : name ∉ r.names)
    (symbol : Option Symbol) (isEntry : Bool) (depth : Option Nat) (name' : String) :
    (r.push name symbol isEntry depth).isEntry name' =
      (r.isEntry name' || (decide (name' = name) && isEntry)) := by
  unfold Roster.isEntry node? push
  rw [List.find?_append]
  by_cases h : name' = name
  · subst h
    have hnone : (r.nodes.find? fun n => n.name = name') = none := by
      simpa [names] using hname
    simp [hnone]
  · simp [h, Ne.symm h]

end Roster

namespace Ledger

/-- A ledger holds what a roster says. -/
structure Keeps (l : Ledger) (r : Roster) : Prop where
  level : l.level = r.level
  issued : l.issued = r.size
  ids : l.ids.entries = r.identified.map fun p => (p.2.name, p.1)
  labels : l.labels.entries = r.identified.map fun p => (p.1, p.2.label)
  visited : ∀ name, name ∈ l.visited ↔ name ∈ r.names
  visited_length : l.visited.length = r.size
  entries : ∀ name, l.isEntry name = r.isEntry name
  records : l.records = r.metadata

theorem keeps_empty (level : Level) : Keeps { level } ⟨level, []⟩ :=
  ⟨rfl, rfl, rfl, rfl, fun _ => Iff.rfl, rfl, fun _ => rfl, rfl⟩

section Keeps

variable {l : Ledger} {r : Roster}

theorem Keeps.keys_ids (h : l.Keeps r) : l.ids.keys = r.names := by
  rw [Keyed.keys, Entries.keys, h.ids, List.map_map, ← r.map_name_identified]
  rfl

theorem Keeps.values_ids (h : l.Keeps r) : l.ids.values = r.identified.map Prod.fst := by
  rw [Keyed.values, h.ids, List.map_map]
  rfl

theorem Keeps.keys_labels (h : l.Keeps r) : l.labels.keys = r.identified.map Prod.fst := by
  rw [Keyed.keys, Entries.keys, h.labels, List.map_map]
  rfl

theorem Keeps.id?_eq_none_iff (h : l.Keeps r) {name : String} :
    l.id? name = none ↔ name ∉ r.names := by
  rw [id?, Keyed.get?_eq_none_iff, h.keys_ids]

theorem Keeps.isFull_eq (h : l.Keeps r) (limits : WalkLimits) (found : List String) (log : Log) :
    l.isFull limits = Walk.isFull limits ⟨r, found, log⟩ := by
  rw [isFull, Walk.isFull, h.visited_length]

theorem Keeps.isVisited_eq (h : l.Keeps r) (name : String) : l.isVisited name = r.has name := by
  rw [Bool.eq_iff_iff, isVisited, List.contains_iff_mem, h.visited, Roster.has_iff]

end Keeps

/-! ## Entering a node -/

variable {l : Ledger} {r : Roster}

/-- A name that is enrolled keeps its id. -/
theorem create_of_mem (h : l.Keeps r) {name : String} (hname : name ∈ r.names)
    (symbol : Option Symbol) (isEntry : Bool) : (l.create name symbol isEntry).2 = l := by
  cases hid : l.id? name with
  | none => exact absurd hname (h.id?_eq_none_iff.1 hid)
  | some id => rw [create, hid]

/-- Entering a new name keeps the tables of the roster with that name behind the others. -/
theorem Keeps.create (h : l.Keeps r) {name : String} (hname : name ∉ r.names)
    (symbol : Option Symbol) (isEntry : Bool) :
    (l.create name symbol isEntry).2.Keeps (r.push name symbol isEntry none) := by
  have hkey : name ∉ l.ids.keys := h.keys_ids ▸ hname
  have hid : nodeId (r.size + 1) ∉ l.labels.keys := by
    have hnd := (r.push name symbol isEntry none).nodup_ids
    rw [Roster.identified_push, List.map_append, List.nodup_append] at hnd
    rw [h.keys_labels]
    exact fun hmem => hnd.2.2 _ hmem _ (List.mem_singleton.2 rfl) rfl
  have hvisited : name ∉ l.visited := fun hmem => hname ((h.visited name).1 hmem)
  rw [Ledger.create, h.id?_eq_none_iff.2 hname]
  simp only [h.level, h.issued]
  refine ⟨rfl, ?_, ?_, ?_, fun name' => ?_, ?_, fun name' => ?_, ?_⟩
  · exact (r.size_push _ _ _ _).symm
  · rw [Roster.identified_push, List.map_append, ← h.ids]
    exact Keyed.entries_alter_of_notMem hkey
  · rw [Roster.identified_push, List.map_append, ← h.labels]
    exact Keyed.entries_alter_of_notMem hid
  · simp [note, mark, h.visited, Roster.names, Roster.push, or_comm]
  · rw [r.size_push, ← h.visited_length]
    exact List.length_insert_of_not_mem hvisited
  · rw [Roster.isEntry_push hname, ← h.entries]
    cases isEntry <;> simp [Ledger.isEntry, note, mark, Bool.or_comm]
  · rw [r.metadata_push, ← h.records]
    rfl

/-- The node of a roster gets its depth. -/
theorem Keeps.note_depth {name : String} {symbol : Option Symbol} {isEntry : Bool}
    (hname : name ∉ r.names) (h : l.Keeps (r.push name symbol isEntry none)) (depth : Nat) :
    (l.note (nodeId (r.size + 1)) (.object [("depth", .ofNat depth)])).Keeps
      (r.push name symbol isEntry (some depth)) where
  level := h.level
  issued := by rw [r.size_push, ← r.size_push name symbol isEntry none, ← h.issued]; rfl
  ids := by
    have hids := h.ids
    rw [Roster.identified_push, List.map_append] at hids ⊢
    exact hids
  labels := by
    have hlabels := h.labels
    rw [Roster.identified_push, List.map_append] at hlabels ⊢
    exact hlabels
  visited name' := by
    have hvisited := h.visited name'
    simpa [Roster.names, Roster.push, note] using hvisited
  visited_length := by
    rw [r.size_push, ← r.size_push name symbol isEntry none, ← h.visited_length]
    rfl
  entries name' := by
    rw [Roster.isEntry_push hname, ← Roster.isEntry_push hname symbol isEntry none, ← h.entries]
    rfl
  records := by
    rw [note, h.records, r.metadata_push, r.metadata_push]
    exact MetadataStore.addNode_addNode _ _ _ _

theorem create_mark {name : String} (h : l.id? name = none) (symbol : Option Symbol)
    (isEntry : Bool) : (l.mark name).create name symbol isEntry = l.create name symbol isEntry := by
  have hmark : (l.mark name).id? name = none := h
  rw [Ledger.create, Ledger.create, h, hmark]
  simp [mark]

/-- Enrolling a function keeps the tables as the roster's enrolment does. -/
theorem Keeps.enrol (h : l.Keeps r) {name : String} (hname : name ∉ r.names) (s : Symbol)
    (depth : Nat) :
    (l.enrol name s depth).Keeps (r.push name (some s) (depth == 0) (some depth)) := by
  have hnone : l.id? name = none := h.id?_eq_none_iff.2 hname
  have hid : (l.create name (some s) (depth == 0)).1.1 = nodeId (r.size + 1) := by
    rw [Ledger.create, hnone, h.issued]
  have henrol : l.enrol name s depth = (l.create name (some s) (depth == 0)).2.note
      (nodeId (r.size + 1)) (.object [("depth", .ofNat depth)]) := by
    rw [Ledger.enrol, create_mark hnone, ← hid]
  rw [henrol]
  exact (h.create hname (some s) (depth == 0)).note_depth hname depth

/-! ## Walks -/

/-- An answer follows a walk from `w₀` to `w` : the ledger keeps the tables of the roster, and the
names that were found are those of the nodes that were added. -/
structure Follows (w₀ : Walk) (answer : List String × Ledger) (w : Walk) : Prop where
  keeps : answer.2.Keeps w.roster
  nodup_names : w.roster.names.Nodup
  found : ∃ added, w₀.Adds added w ∧ answer.1 = added.map Node.name

theorem Follows.refl {w : Walk} (h : l.Keeps w.roster) (hnd : w.roster.names.Nodup) :
    Follows w ([], l) w :=
  ⟨h, hnd, [], .refl w, rfl⟩

theorem Follows.report {w₀ w : Walk} {answer : List String × Ledger} (h : Follows w₀ answer w)
    (message : String) : Follows w₀ answer (w.report message) := by
  obtain ⟨added, hadds, hfound⟩ := h.found
  refine ⟨h.keeps, h.nodup_names, added, ?_, hfound⟩
  simpa using hadds.trans (Walk.adds_report w message)

/-- Names found one after the other are all new. -/
theorem Follows.trans {w₀ w w' : Walk} {found more : List String} {l' : Ledger}
    (h : Follows w₀ (found, l) w) (h' : Follows w (more, l') w') :
    Follows w₀ (extend found more, l') w' := by
  obtain ⟨added, hadds, hfound⟩ := h.found
  obtain ⟨added', hadds', hmore⟩ := h'.found
  simp only at hfound hmore
  refine ⟨h'.keeps, h'.nodup_names, added ++ added', hadds.trans hadds', ?_⟩
  have hnd := h'.nodup_names
  rw [hadds'.names, hadds.names, ← hfound, ← hmore, List.nodup_append] at hnd
  have hnew : more.filter (fun name => !found.contains name) = more := by
    rw [List.filter_eq_self]
    intro name hname
    simpa using fun hmem => hnd.2.2 name (List.mem_append_right _ hmem) name hname rfl
  rw [extend, hnew, List.map_append, hfound, hmore]

/-- What an answer has found are the nodes that the walk has added. -/
theorem Follows.found_eq {w₀ w : Walk} {answer : List String × Ledger} {added : List Node}
    (h : Follows w₀ answer w) (hadds : w₀.Adds added w) : answer.1 = added.map Node.name := by
  obtain ⟨added', hadds', hfound⟩ := h.found
  rw [hfound, List.append_cancel_left (hadds'.nodes.symm.trans hadds.nodes)]

variable {g : CallGraph} {t : SymbolTable} {limits : WalkLimits}

theorem follow_follows {caller : String} {visit : Ledger → String → List String × Ledger}
    {visit' : Walk → String → Walk}
    (hvisit : ∀ (l : Ledger) (w : Walk) callee, l.Keeps w.roster → w.roster.names.Nodup →
      Follows w (visit l callee) (visit' w callee)) {w₀ : Walk} :
    ∀ (callees found : List String) (l : Ledger) (w : Walk), Follows w₀ (found, l) w →
      Follows w₀ (follow limits visit found l callees) (Walk.follow limits caller visit' w callees)
  | [], _, _, _, h => h
  | callee :: callees, found, l, w, h => by
    have hfull : l.isFull limits = w.isFull limits := h.keeps.isFull_eq limits w.found w.log
    rw [follow, Walk.follow, hfull]
    split
    · exact h.report _
    · exact follow_follows hvisit callees _ _ _ (h.trans (hvisit l w callee h.keeps h.nodup_names))

/-- A ledger's visit takes the steps of the roster's visit. -/
theorem visit_follows : ∀ (left depth : Nat) (l : Ledger) (w : Walk) (name : String),
    l.Keeps w.roster → w.roster.names.Nodup →
      Follows w (visit g t limits left depth l name) (Walk.visit g t limits left depth w name)
  | 0, _, _, _, _, h, hnd => .refl h hnd
  | left + 1, depth, l, w, name, h, hnd => by
    have hfull : l.isFull limits = w.isFull limits := h.isFull_eq limits w.found w.log
    rw [visit, Walk.visit, hfull, h.isVisited_eq name]
    split
    · exact (Follows.refl h hnd).report _
    split
    · exact .refl h hnd
    next hhas =>
    cases hs : t.get? name with
    | none => exact .refl h hnd
    | some s =>
      obtain rfl := SymbolTable.name_of_get? hs
      have hhas : w.roster.has s.name = false := by simpa using hhas
      refine follow_follows (visit_follows left (depth + 1)) _ _ _ _
        ⟨?_, ?_, _, w.adds_enrol s depth, rfl⟩
      · exact h.enrol (Roster.has_eq_false_iff.1 hhas) s depth
      · exact Roster.nodup_names_push hnd hhas _ _ _

theorem collect_follows (h : l.Keeps r) (hnd : r.names.Nodup) (g : CallGraph) (t : SymbolTable)
    (limits : WalkLimits) (entry : String) (depth : Nat) :
    Follows ⟨r, [], []⟩ (l.collect g t limits entry depth) (r.collect g t limits entry depth) :=
  visit_follows _ _ _ ⟨r, [], []⟩ _ h hnd

theorem follow_ne_nil {visit : Ledger → String → List String × Ledger} :
    ∀ (callees : List String) {found : List String} (l : Ledger), found ≠ [] →
      (follow limits visit found l callees).1 ≠ []
  | [], _, _, h => h
  | callee :: callees, found, l, h => by
    rw [follow]
    split
    · exact h
    · exact follow_ne_nil callees _ (by simp [extend, h])

/-- A walk that finds nothing changes nothing. -/
theorem visit_eq_self {left depth : Nat} {name : String}
    (h : (visit g t limits left depth l name).1 = []) :
    (visit g t limits left depth l name).2 = l := by
  cases left with
  | zero => rfl
  | succ left =>
    rw [visit] at h ⊢
    split at h
    next hfull => rw [if_pos hfull]
    next hfull =>
    rw [if_neg hfull]
    split at h
    next hvisited => rw [if_pos hvisited]
    next hvisited =>
    rw [if_neg hvisited]
    cases hs : t.get? name with
    | none => rfl
    | some s =>
      -- A function that is entered is found.
      rw [hs] at h
      exact absurd h (follow_ne_nil _ _ (List.cons_ne_nil _ _))

/-! ## Histories -/

theorem Keeps.perform (h : l.Keeps r) (hnd : r.names.Nodup) :
    ∀ call, (l.perform call).Keeps (r.perform call)
  | .create name symbol isEntry => by
    rw [Ledger.perform, Roster.perform, Roster.create]
    split
    next hhas => rwa [create_of_mem h (Roster.has_iff.1 hhas)]
    next hhas => exact h.create (Roster.has_eq_false_iff.1 (by simpa using hhas)) symbol isEntry
  | .collect g t limits entry depth => (collect_follows h hnd g t limits entry depth).keeps

/-- The ledger that a history leaves keeps the tables of the roster that it leaves. -/
theorem keeps_ofCalls (level : Level) (calls : List Enrolment) :
    (ofCalls level calls).Keeps (Roster.ofCalls level calls) := by
  have hfold : ∀ (calls : List Enrolment) (l : Ledger) (r : Roster), l.Keeps r → r.names.Nodup →
      (calls.foldl perform l).Keeps (calls.foldl Roster.perform r) := by
    intro calls
    induction calls with
    | nil => exact fun _ _ h _ => h
    | cons call calls ih =>
      exact fun l r h hnd => ih _ _ (h.perform hnd call) (Roster.nodup_names_perform hnd call)
  exact hfold calls _ _ (keeps_empty level) List.nodup_nil

/-! ## Tables in step -/

/-- The tables of a ledger fit together. -/
structure InStep (l : Ledger) : Prop where
  /-- The ids are `N1`, `N2` and so on, in the order in which the names were entered. -/
  ids : l.ids.values = (List.range l.ids.size).map fun k => nodeId (k + 1)
  issued : l.issued = l.ids.size
  id_unique : ∀ name id id', (name, id) ∈ l.ids.entries → (name, id') ∈ l.ids.entries → id = id'
  visited : ∀ name, name ∈ l.visited ↔ name ∈ l.ids.keys
  visited_length : l.visited.length = l.ids.size
  label_keys : l.labels.keys = l.ids.values
  record_keys : l.records.nodes.keys = l.ids.values
  /-- The record of a node tells its name, its label and whether it is an entry point. -/
  records : ∀ name id, l.id? name = some id → ∃ label record, l.label? id = some label ∧
    l.records.node? id = some record ∧ record.get? "qualified_name" = some (.text name) ∧
    record.get? "label" = some (.text label) ∧
    record.get? "is_entry_point" = some (.bool (l.isEntry name))

/-- `l'` holds what `l` does, and then more : what was there is unchanged. -/
structure Continues (l l' : Ledger) : Prop where
  ids : l.ids.entries <+: l'.ids.entries
  labels : l.labels.entries <+: l'.labels.entries
  records : l.records.nodes.entries <+: l'.records.nodes.entries
  entries : ∀ name ∈ l.ids.keys, l'.isEntry name = l.isEntry name

theorem Keeps.size_ids (h : l.Keeps r) : l.ids.size = r.size := by
  rw [Keyed.size, h.ids, List.length_map, Roster.identified, List.length_map, List.length_zipIdx,
    Roster.size]

/-- A name that has an id is that of a node, and the tables hold its label and its record. -/
theorem Keeps.exists_node (h : l.Keeps r) {name id : String} (hid : l.id? name = some id) :
    ∃ n ∈ r.nodes, n.name = name ∧ l.label? id = some n.label ∧
      l.records.node? id = some (MetadataStore.record n.fields) := by
  rw [id?, Keyed.get?_eq_some_iff, h.ids, List.mem_map] at hid
  obtain ⟨⟨id, n⟩, hn, hpair⟩ := hid
  obtain ⟨rfl, rfl⟩ := Prod.mk.inj hpair
  obtain ⟨k, hk, -⟩ := Roster.mem_identified.1 hn
  refine ⟨n, List.mem_of_getElem? hk, rfl, ?_, ?_⟩
  · rw [label?, Keyed.get?_eq_some_iff, h.labels]
    exact List.mem_map.2 ⟨_, hn, rfl⟩
  · rw [h.records]
    exact Roster.node?_metadata hn

theorem Keeps.inStep (h : l.Keeps r) (hnd : r.names.Nodup) : l.InStep where
  ids := by rw [h.values_ids, r.map_fst_identified, h.size_ids]
  issued := by rw [h.issued, h.size_ids]
  id_unique name id id' hid hid' :=
    Option.some.inj ((Keyed.get?_eq_some_iff.2 hid).symm.trans (Keyed.get?_eq_some_iff.2 hid'))
  visited name := by rw [h.visited, h.keys_ids]
  visited_length := by rw [h.visited_length, h.size_ids]
  label_keys := by rw [h.keys_labels, h.values_ids]
  record_keys := by
    rw [h.records, h.values_ids, Keyed.keys, Entries.keys, r.entries_metadata_nodes, List.map_map]
    rfl
  records name id hid := by
    obtain ⟨n, hn, rfl, hlabel, hrecord⟩ := h.exists_node hid
    refine ⟨n.label, _, hlabel, hrecord, ?_⟩
    simp only [Keyed.get?, Roster.entries_record_fields, h.entries, Roster.isEntry_of_mem hnd hn]
    simp [Entries.lookup_cons]

theorem Keeps.continues (h : l.Keeps r) {l' : Ledger} {r' : Roster} (h' : l'.Keeps r')
    (hext : r.Extends r') : l.Continues l' where
  ids := by
    rw [h.ids, h'.ids]
    exact hext.identified.map _
  labels := by
    rw [h.labels, h'.labels]
    exact hext.identified.map _
  records := by
    rw [h.records, h'.records, r.entries_metadata_nodes, r'.entries_metadata_nodes]
    exact hext.identified.map _
  entries name hname := by
    rw [h.keys_ids] at hname
    rw [h.entries, h'.entries, hext.isEntry_eq hname]

/-- The record of a name says that it was met `depth` steps deep. -/
def RecordsDepth (l : Ledger) (name : String) (depth : Nat) : Prop :=
  ∃ id record, l.id? name = some id ∧ l.records.node? id = some record ∧
    record.get? "depth" = some (.ofNat depth)

/-- The depth on record is that of the node. -/
theorem Keeps.recordsDepth_iff (h : l.Keeps r) (hnd : r.names.Nodup) {n : Node}
    (hn : n ∈ r.nodes) {depth : Nat} : l.RecordsDepth n.name depth ↔ n.depth = some depth := by
  obtain ⟨id, hid⟩ : ∃ id, l.id? n.name = some id := by
    refine Option.ne_none_iff_exists'.1 fun hnone => h.id?_eq_none_iff.1 hnone ?_
    exact List.mem_map.2 ⟨n, hn, rfl⟩
  obtain ⟨n', hn', hname, -, hrecord⟩ := h.exists_node hid
  obtain rfl := List.inj_on_of_nodup_map hnd hn' hn hname
  simp [RecordsDepth, hid, hrecord, Roster.get?_depth_record, Json.ofNat_injective.eq_iff]

/-- After any history of calls the tables are those of the roster and in step with one another. A
further call only appends. A walk answers the names it has entered, in the order of their ids ; it
does not visit beyond the limit on nodes, and if it finds nothing, nothing has changed. -/
theorem ofCalls_inStep (level : Level) (calls : List Enrolment) :
    let l := ofCalls level calls
    l.Keeps (Roster.ofCalls level calls) ∧ l.InStep ∧ (∀ call, l.Continues (l.perform call)) ∧
      ∀ g t limits entry depth,
        let answer := l.collect g t limits entry depth
        answer.2.ids.keys = l.ids.keys ++ answer.1 ∧
          answer.2.visited.length ≤ max l.visited.length limits.nodes ∧
          (answer.1 = [] → answer.2 = l) := by
  intro l
  have h : l.Keeps (Roster.ofCalls level calls) := keeps_ofCalls level calls
  have hnd : (Roster.ofCalls level calls).names.Nodup := Roster.nodup_names_ofCalls level calls
  refine ⟨h, h.inStep hnd, fun call => ?_, fun g t limits entry depth => ?_⟩
  · exact h.continues (h.perform hnd call) (Roster.extends_perform call)
  · have hwalk := collect_follows h hnd g t limits entry depth
    obtain ⟨added, hadds, hfound⟩ := hwalk.found
    refine ⟨?_, ?_, visit_eq_self⟩
    · rw [hwalk.keeps.keys_ids, h.keys_ids, hadds.names, hfound]
    · rw [hwalk.keeps.visited_length, h.visited_length]
      exact Roster.size_collect_le _ g t limits entry depth

/-- A node entered by hand, and then a walk that meets it again. -/
def forkCalls : List Enrolment :=
  [.create "b" none true, .collect Chart.fork.calls Chart.fork.symbols {} "a" 1]

theorem ofCalls_inStep_forkCalls :
    let l := ofCalls .minimal forkCalls
    let answer := l.collect Chart.fork.calls Chart.fork.symbols {} "a" 0
    l.ids.entries = [("b", "N1"), ("a", "N2"), ("c", "N3")] ∧ l.InStep ∧
      answer.1 = [] ∧ answer.2 = l := by
  obtain ⟨-, hstep, -, hwalk⟩ := ofCalls_inStep .minimal forkCalls
  have hnil : ((ofCalls .minimal forkCalls).collect Chart.fork.calls Chart.fork.symbols {}
      "a" 0).1 = [] := by decide +kernel
  exact ⟨by decide +kernel, hstep, hnil, (hwalk _ _ _ _ _).2.2 hnil⟩

end Ledger

end CallChart
