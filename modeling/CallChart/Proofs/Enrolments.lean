import CallChart.Ledger
import CallChart.Proofs.NodeCap
import CallChart.Proofs.Roster
import CallChart.Proofs.Walk

/-!
# What a call enrols

`Walk.Adds` says which nodes a walk has put behind those that were there, and that the names it
has found are theirs. More can be said of the nodes a walk adds if it can be put together from
what is said of its parts (`Walk.Composes`) ; the induction over the visits is done once, in
`Walk.Composes.visit`. No walk goes beyond the limit on nodes (`Roster.size_collect_le`).

The roster that a history of calls leaves has distinct names (`Roster.nodup_names_ofCalls`) ; so
what is asked of one of its names is asked of the one node of that name.
-/

namespace CallChart

theorem Json.ofNat_injective : Function.Injective Json.ofNat :=
  fun _ _ h => Int.ofNat.inj (Json.int.inj h)

namespace SymbolTable

variable {t : SymbolTable} {name : String}

theorem mem_names_of_get? {s : Symbol} (h : t.get? name = some s) : name ∈ t.names :=
  List.mem_map.2 ⟨s, List.mem_of_find?_eq_some h, name_of_get? h⟩

theorem notMem_names_of_get? (h : t.get? name = none) : name ∉ t.names := by
  simpa [get?, names, symbolNames] using h

end SymbolTable

theorem Roster.has_iff {r : Roster} {name : String} : r.has name = true ↔ name ∈ r.names := by
  simp [has, names]

namespace Walk

variable {g : CallGraph} {t : SymbolTable} {limits : WalkLimits}

/-- `w'` has the nodes and the finds of `w`, and behind them those of `added`. -/
structure Adds (w : Walk) (added : List Node) (w' : Walk) : Prop where
  level : w'.roster.level = w.roster.level
  nodes : w'.roster.nodes = w.roster.nodes ++ added
  found : w'.found = w.found ++ added.map Node.name

theorem Adds.refl (w : Walk) : w.Adds [] w :=
  ⟨rfl, by simp, by simp⟩

theorem Adds.trans {w w' w'' : Walk} {added added' : List Node} (h : w.Adds added w')
    (h' : w'.Adds added' w'') : w.Adds (added ++ added') w'' where
  level := h'.level.trans h.level
  nodes := by rw [h'.nodes, h.nodes, List.append_assoc]
  found := by rw [h'.found, h.found, List.map_append, List.append_assoc]

theorem adds_report (w : Walk) (message : String) : w.Adds [] (w.report message) :=
  ⟨rfl, by simp, by simp [report]⟩

/-- The node that an enrolment makes. -/
def nodeOf (w : Walk) (s : Symbol) (depth : Nat) : Node :=
  ⟨s.name, some s, Label.format s.name (some s) w.roster.level, depth == 0, some depth⟩

theorem adds_enrol (w : Walk) (s : Symbol) (depth : Nat) :
    w.Adds [w.nodeOf s depth] (w.enrol s depth) :=
  ⟨rfl, rfl, rfl⟩

theorem Adds.names {w w' : Walk} {added : List Node} (h : w.Adds added w') :
    w'.roster.names = w.roster.names ++ added.map Node.name := by
  rw [Roster.names, Roster.names, h.nodes, List.map_append]

/-! ## Parts of a walk -/

/-- What is said of the nodes that a walk adds can be put together from its parts. A part goes from
`w` to `w'` and adds `added` ; it visits `names`, which are `depth` steps deep, and `left` more
steps are allowed. There are parts that add nothing, because the roster is full or `names` are
enrolled as far as they can be, two parts that follow one another, and a function that is enrolled
with the part that visits its callees. -/
structure Composes (g : CallGraph) (t : SymbolTable) (limits : WalkLimits)
    (R : (left depth : Nat) → (names : List String) → Walk → List Node → Walk → Prop) : Prop where
  nothing : ∀ {left depth names w w'}, w.Adds [] w' →
    (w'.roster.size < limits.nodes → 0 < left →
      ∀ name ∈ names, name ∈ t.names → name ∈ w'.roster.names) →
    R left depth names w [] w'
  trans : ∀ {left depth names names' w added w' added' w''}, R left depth names w added w' →
    R left depth names' w' added' w'' → R left depth (names ++ names') w (added ++ added') w''
  enrol : ∀ {left depth s w added w'}, t.get? s.name = some s →
    R left (depth + 1) ((g.callees s.name).take limits.calls) (w.enrol s depth) added w' →
    R (left + 1) depth [s.name] w (w.nodeOf s depth :: added) w'

section Composes

variable {R : (left depth : Nat) → (names : List String) → Walk → List Node → Walk → Prop}

theorem Composes.of_isFull (h : Composes g t limits R) {left depth : Nat} {names : List String}
    {w : Walk} (hfull : w.isFull limits = true) (message : String) :
    R left depth names w [] (w.report message) :=
  h.nothing (adds_report w message) fun hlt => absurd (isFull_iff.1 hfull) (Nat.not_le_of_lt hlt)

theorem Composes.follow (h : Composes g t limits R) (caller : String)
    {visit : Walk → String → Walk} {left depth : Nat}
    (hvisit : ∀ w callee, ∃ added, R left depth [callee] w added (visit w callee)) :
    ∀ (callees : List String) (w : Walk), ∃ added,
      R left depth callees w added (follow limits caller visit w callees)
  | [], w => ⟨[], h.nothing (.refl w) (by simp)⟩
  | callee :: callees, w => by
    rw [Walk.follow]
    split
    next hfull => exact ⟨[], h.of_isFull hfull _⟩
    obtain ⟨first, hfirst⟩ := hvisit w callee
    obtain ⟨rest, hrest⟩ := h.follow caller hvisit callees (visit w callee)
    exact ⟨first ++ rest, h.trans hfirst hrest⟩

/-- What composes is said of every visit. -/
theorem Composes.visit (h : Composes g t limits R) : ∀ (left depth : Nat) (w : Walk)
    (name : String), ∃ added, R left depth [name] w added (visit g t limits left depth w name)
  | 0, _, w, _ => ⟨[], h.nothing (.refl w) fun _ hleft => absurd hleft (Nat.lt_irrefl 0)⟩
  | left + 1, depth, w, name => by
    rw [Walk.visit]
    split
    next hfull => exact ⟨[], h.of_isFull hfull _⟩
    split
    next hhas =>
      exact ⟨[], h.nothing (.refl w) (by simpa using fun _ _ => Roster.has_iff.1 hhas)⟩
    cases hs : t.get? name with
    | none =>
      have hunknown := SymbolTable.notMem_names_of_get? hs
      exact ⟨[], h.nothing (.refl w) (by simp [hunknown])⟩
    | some s =>
      obtain rfl := SymbolTable.name_of_get? hs
      obtain ⟨below, hbelow⟩ := h.follow s.name (h.visit left (depth + 1))
        ((g.callees s.name).take limits.calls) (w.enrol s depth)
      exact ⟨_, h.enrol hs hbelow⟩

end Composes

/-- A visit does not go beyond the limit on nodes. -/
theorem size_visit_le (left depth : Nat) (w : Walk) (name : String) :
    (visit g t limits left depth w name).roster.size ≤ max w.roster.size limits.nodes :=
  visit_keeps (P := fun w' => w'.roster.size ≤ max w.roster.size limits.nodes)
    (fun _ _ h => h)
    (fun w' _ s depth hfull _ _ _ => by
      have hlt : ¬limits.nodes ≤ w'.roster.size := fun h => by
        rw [isFull_iff.2 h] at hfull
        exact Bool.noConfusion hfull
      rw [enrol_roster, Roster.size_push]
      omega)
    left depth w name (Nat.le_max_left _ _)

end Walk

namespace Roster

/-- No walk goes beyond the limit on nodes. -/
theorem size_collect_le (r : Roster) (g : CallGraph) (t : SymbolTable) (limits : WalkLimits)
    (entry : String) (depth : Nat) :
    (r.collect g t limits entry depth).roster.size ≤ max r.size limits.nodes :=
  Walk.size_visit_le _ _ _ _

variable {r : Roster}

/-! ## Distinct names -/

theorem nodup_names_push {name : String} (h : r.names.Nodup) (hname : r.has name = false)
    (symbol : Option Symbol) (isEntry : Bool) (depth : Option Nat) :
    (r.push name symbol isEntry depth).names.Nodup := by
  rw [has_eq_false_iff] at hname
  have hnames : (r.push name symbol isEntry depth).names = r.names ++ [name] := by
    simp [names, push]
  rw [hnames]
  exact List.nodup_append.2 ⟨h, by simp, by grind⟩

theorem nodup_names_visit {g : CallGraph} {t : SymbolTable} {limits : WalkLimits} {w : Walk}
    (h : w.roster.names.Nodup) (left depth : Nat) (name : String) :
    (Walk.visit g t limits left depth w name).roster.names.Nodup :=
  Walk.visit_keeps (P := fun w => w.roster.names.Nodup) (fun _ _ h => h)
    (fun _ _ _ _ _ hhas hs h =>
      nodup_names_push h (by rwa [SymbolTable.name_of_get? hs]) _ _ _)
    left depth w name h

theorem nodup_names_perform (h : r.names.Nodup) : ∀ call, (r.perform call).names.Nodup
  | .create name symbol isEntry => by
    rw [perform, create]
    split
    · exact h
    next hhas => exact nodup_names_push h (by simpa using hhas) _ _ _
  | .collect .. => nodup_names_visit h _ _ _

/-- The names of a roster are distinct, whatever calls have filled it. -/
theorem nodup_names_ofCalls (level : Level) (calls : List Enrolment) :
    (ofCalls level calls).names.Nodup := by
  have hfold : ∀ (calls : List Enrolment) (r : Roster), r.names.Nodup →
      (calls.foldl perform r).names.Nodup := by
    intro calls
    induction calls with
    | nil => exact fun _ h => h
    | cons call calls ih => exact fun r h => ih _ (nodup_names_perform h call)
  exact hfold calls _ List.nodup_nil

theorem extends_perform : ∀ call, r.Extends (r.perform call)
  | .create name symbol isEntry => by
    rw [perform, create]
    split
    · exact .refl r
    · exact extends_push r _ _ _ _
  | .collect .. => Walk.extends_visit _ _ ⟨r, [], []⟩ _

/-! ## Nodes of distinct names -/

theorem node?_of_mem (hnd : r.names.Nodup) {n : Node} (h : n ∈ r.nodes) :
    r.node? n.name = some n := by
  rw [node?]
  obtain ⟨n', hn'⟩ := Option.isSome_iff_exists.1
    (List.find?_isSome.2 ⟨n, h, decide_eq_true rfl⟩ :
      (r.nodes.find? fun n' => n'.name = n.name).isSome = true)
  have hname : n'.name = n.name := by simpa using List.find?_some hn'
  rw [hn', List.inj_on_of_nodup_map hnd (List.mem_of_find?_eq_some hn') h hname]

theorem isEntry_of_mem (hnd : r.names.Nodup) {n : Node} (h : n ∈ r.nodes) :
    r.isEntry n.name = n.isEntry := by
  rw [isEntry, node?_of_mem hnd h, Option.any_some]

theorem get?_depth_record (n : Node) :
    (MetadataStore.record n.fields).get? "depth" = n.depth.map Json.ofNat := by
  rw [Keyed.get?, entries_record_fields]
  cases n.depth <;> simp [Entries.lookup_cons]

theorem node?_metadata {id : String} {n : Node} (h : (id, n) ∈ r.identified) :
    r.metadata.node? id = some (MetadataStore.record n.fields) := by
  rw [MetadataStore.node?, Keyed.get?_eq_some_iff, entries_metadata_nodes]
  exact List.mem_map.2 ⟨_, h, rfl⟩

end Roster

end CallChart
