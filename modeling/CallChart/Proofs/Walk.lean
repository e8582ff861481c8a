import CallChart.Chart

/-!
# What a walk keeps

A walk changes its roster in one way : it enrols a function of the symbol table that is not
enrolled, while the roster has room. So what holds at the start and is kept by each such
enrolment holds at the end, of one visit (`Walk.visit_keeps`) and of the walks from all entry
points of a chart (`Chart.collect_keeps`).

Two facts come from it. A roster only grows (`Roster.Extends`). And a roster filled from the
empty one holds distinct names of the symbol table, each node with the symbol of its name
(`Roster.Collected`).
-/

namespace CallChart

theorem SymbolTable.name_of_get? {t : SymbolTable} {name : String} {s : Symbol}
    (h : t.get? name = some s) : s.name = name := by
  simpa using List.find?_some h

/-! ## Invariants of a walk -/

namespace Walk

variable {g : CallGraph} {t : SymbolTable} {limits : WalkLimits} {P : Walk → Prop}

@[simp] theorem report_roster (w : Walk) (message : String) :
    (w.report message).roster = w.roster :=
  rfl

@[simp] theorem enrol_roster (w : Walk) (s : Symbol) (depth : Nat) :
    (w.enrol s depth).roster = w.roster.push s.name (some s) (depth == 0) (some depth) :=
  rfl

theorem isFull_iff {w : Walk} : w.isFull limits = true ↔ limits.nodes ≤ w.roster.size := by
  simp [isFull]

theorem follow_keeps {caller : String} {visit : Walk → String → Walk}
    (hreport : ∀ w message, P w → P (w.report message))
    (hvisit : ∀ w callee, P w → P (visit w callee)) :
    ∀ (w : Walk) (callees : List String), P w → P (follow limits caller visit w callees)
  | w, [], hw => hw
  | w, callee :: callees, hw => by
    rw [follow]
    split
    · exact hreport w _ hw
    · exact follow_keeps hreport hvisit _ callees (hvisit w callee hw)

/-- What reports and enrolments keep, a visit keeps. -/
theorem visit_keeps (hreport : ∀ w message, P w → P (w.report message))
    (henrol : ∀ w name s depth, w.isFull limits = false → w.roster.has name = false →
      t.get? name = some s → P w → P (w.enrol s depth)) :
    ∀ (left depth : Nat) (w : Walk) (name : String), P w → P (visit g t limits left depth w name)
  | 0, _, _, _, hw => hw
  | left + 1, depth, w, name, hw => by
    rw [visit]
    split
    · exact hreport w _ hw
    next hfull =>
    split
    · exact hw
    next hhas =>
    cases hs : t.get? name with
    | none => exact hw
    | some s =>
      exact follow_keeps hreport (visit_keeps hreport henrol left (depth + 1)) _ _
        (henrol w name s depth (by simpa using hfull) (by simpa using hhas) hs hw)

end Walk

/-- What enrolments keep, the walks from all entry points keep. -/
theorem Chart.collect_keeps {s : Settings} {d : Document} {P : Roster → Prop}
    (henrol : ∀ r name sym depth, r.has name = false → d.symbols.get? name = some sym → P r →
      P (r.push sym.name (some sym) (depth == 0) (some depth))) :
    ∀ (r : Roster) (log : Log) (es : List EntryPoint), P r → P (collect s d r log es).1
  | r, log, [], hr => hr
  | r, log, e :: es, hr => by
    rw [collect]
    split
    · exact hr
    · exact collect_keeps henrol _ _ es (Walk.visit_keeps (P := fun w => P w.roster)
        (fun _ _ hw => hw)
        (fun w name sym depth _ hhas hsym hw => henrol w.roster name sym depth hhas hsym hw)
        _ _ _ _ hr)

/-! ## Rosters only grow -/

namespace Roster

/-- `r'` holds the nodes of `r`, and then others. -/
def Extends (r r' : Roster) : Prop :=
  r.level = r'.level ∧ r.nodes <+: r'.nodes

theorem Extends.refl (r : Roster) : r.Extends r :=
  ⟨rfl, List.prefix_refl _⟩

theorem Extends.trans {r₁ r₂ r₃ : Roster} (h : r₁.Extends r₂) (h' : r₂.Extends r₃) :
    r₁.Extends r₃ :=
  ⟨h.1.trans h'.1, h.2.trans h'.2⟩

theorem Extends.names_subset {r r' : Roster} (h : r.Extends r') : r.names ⊆ r'.names :=
  List.map_subset _ h.2.subset

theorem extends_push (r : Roster) (name : String) (symbol : Option Symbol) (isEntry : Bool)
    (depth : Option Nat) : r.Extends (r.push name symbol isEntry depth) :=
  ⟨rfl, List.prefix_append _ _⟩

/-- The node of a name stays the first of its name. -/
theorem Extends.node?_eq {r r' : Roster} (h : r.Extends r') {name : String}
    (hname : name ∈ r.names) : r'.node? name = r.node? name := by
  obtain ⟨-, more, hmore⟩ := h
  obtain ⟨n, hn, rfl⟩ := List.mem_map.1 hname
  have hsome : (r.node? n.name).isSome := List.find?_isSome.2 ⟨n, hn, by simp⟩
  unfold node? at hsome
  rw [node?, node?, ← hmore, List.find?_append, Option.or_of_isSome hsome]

theorem Extends.isEntry_eq {r r' : Roster} (h : r.Extends r') {name : String}
    (hname : name ∈ r.names) : r'.isEntry name = r.isEntry name := by
  rw [isEntry, isEntry, h.node?_eq hname]

theorem Extends.id?_eq {r r' : Roster} (h : r.Extends r') {name : String}
    (hname : name ∈ r.names) : r'.id? name = r.id? name := by
  obtain ⟨-, more, hmore⟩ := h
  obtain ⟨n, hn, rfl⟩ := List.mem_map.1 hname
  have hsome : (r.nodes.findIdx? fun n' => n'.name = n.name).isSome := by
    rw [List.findIdx?_isSome]
    exact List.any_eq_true.2 ⟨n, hn, by simp⟩
  rw [id?, id?, ← hmore, List.findIdx?_append, Option.or_of_isSome hsome]

end Roster

theorem Walk.extends_visit {g : CallGraph} {t : SymbolTable} {limits : WalkLimits}
    (left depth : Nat) (w : Walk) (name : String) :
    w.roster.Extends (visit g t limits left depth w name).roster :=
  visit_keeps (P := fun w' => w.roster.Extends w'.roster) (fun _ _ h => h)
    (fun _ _ _ _ _ _ _ h => h.trans (Roster.extends_push _ _ _ _ _)) left depth w name
    (.refl _)

theorem Chart.extends_collect {s : Settings} {d : Document} (r : Roster) (log : Log)
    (es : List EntryPoint) : r.Extends (collect s d r log es).1 :=
  collect_keeps (fun _ _ _ _ _ _ h => h.trans (Roster.extends_push _ _ _ _ _)) r log es (.refl _)

/-! ## Rosters of a symbol table -/

namespace Roster

theorem has_eq_false_iff {r : Roster} {name : String} : r.has name = false ↔ name ∉ r.names := by
  simp [has, names]

/-- The nodes have distinct names, and each has the symbol of its name in the table. -/
structure Collected (t : SymbolTable) (r : Roster) : Prop where
  nodup_names : r.names.Nodup
  symbol_of_mem : ∀ n ∈ r.nodes, ∃ s, t.get? n.name = some s ∧ n.symbol = some s

theorem collected_empty (t : SymbolTable) (level : Level) : Collected t ⟨level, []⟩ :=
  ⟨List.nodup_nil, by simp⟩

theorem Collected.push {t : SymbolTable} {r : Roster} {name : String} {s : Symbol}
    (h : Collected t r) (hhas : r.has name = false) (hs : t.get? name = some s) (isEntry : Bool)
    (depth : Option Nat) : Collected t (r.push s.name (some s) isEntry depth) where
  nodup_names := by
    rw [SymbolTable.name_of_get? hs]
    have hname := has_eq_false_iff.1 hhas
    simp only [names, Roster.push, List.map_append, List.map_cons, List.map_nil] at hname ⊢
    exact List.nodup_append.2 ⟨h.nodup_names, by simp, by grind⟩
  symbol_of_mem n hn := by
    rcases List.mem_append.1 hn with hn | hn
    · exact h.symbol_of_mem n hn
    · obtain rfl := List.mem_singleton.1 hn
      exact ⟨s, by rwa [SymbolTable.name_of_get? hs], rfl⟩

end Roster

/-- The roster of a chart holds distinct names of the symbol table with their symbols. -/
theorem Chart.collected_collect (s : Settings) (d : Document) (level : Level) (log : Log)
    (es : List EntryPoint) : (collect s d ⟨level, []⟩ log es).1.Collected d.symbols :=
  collect_keeps (fun _ _ _ _ hhas hsym h => h.push hhas hsym _ _) _ log es
    (Roster.collected_empty _ level)

end CallChart
