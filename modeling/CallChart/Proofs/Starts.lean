import CallChart.Proofs.Closure
import CallChart.Proofs.EntryPoints

/-!
# Where walks start

A chart walks from its entry points one after another, and a walk marks as an entry point what it
collects at depth zero : the function it starts from, unless that was collected before
(`Chart.isEntry_iff_of_mem_walkFrom`). So of the functions that are collected those are marked
that no walk from an earlier entry point had collected, by induction on the walks
(`Chart.isEntry_iff_startsFrom`). Here it matters that what a walk from an entry point cannot
collect, because the roster is full, the walk may go no step or the table does not have it, no
later walk collects either.

To what was collected there is a chain of calls from an entry point, and to a root there is none
from elsewhere ; so roots are among those that are marked (`Chart.mem_unmet_of_root`).
-/

namespace CallChart

/-- What a chain of calls leads to from elsewhere is called. -/
theorem CallGraph.isCalled_of_chain {g : CallGraph} {t : SymbolTable} {most : Nat}
    {start stop : String} {chain : List String} (h : g.Chain t most start stop chain)
    (hne : start ≠ stop) : g.isCalled stop = true := by
  obtain ⟨i, u, v, -, -, hu, hv, hcall⟩ := h.exists_exit (P := (· ≠ stop)) hne (by simp)
  obtain rfl := not_ne_iff.1 hv
  have hcallee : v ∈ g.callees u := List.mem_of_mem_take hcall
  refine CallGraph.isCalled_iff.2 ⟨u, ?_, hu, hcallee⟩
  by_contra hcaller
  rw [CallGraph.callees, Keyed.get?_eq_none_iff.2 hcaller] at hcallee
  exact List.not_mem_nil hcallee

/-- A root is listed because no other function calls it. -/
theorem EntryPoint.isCalled_of_root {most : Nat} {g : CallGraph} {t : SymbolTable} {e : EntryPoint}
    (h : e ∈ detect most g t) (hroot : e.kind = .root) : g.isCalled e.name = false := by
  rcases List.mem_append.1 (List.mem_of_mem_take h) with h | h
  · obtain ⟨name, hname, rfl⟩ := List.mem_map.1 h
    simpa using (List.mem_filter.1 hname).2
  · obtain ⟨sym, -, rfl⟩ := List.mem_map.1 h
    cases hroot

namespace Chart

variable {s : Settings} {d : Document}

/-! ## Walks in turn -/

/-- The roster after a walk from an entry point. -/
def walkFrom (s : Settings) (d : Document) (r : Roster) (e : EntryPoint) : Roster :=
  (r.collect d.calls d.symbols s.walkLimits e.name 0).roster

theorem walkFrom_of_full {r : Roster} (h : s.nodes ≤ r.size) (e : EntryPoint) :
    walkFrom s d r e = r :=
  Walk.visit_roster_of_isFull (w := ⟨r, [], []⟩) (Walk.isFull_iff.2 h) _ _ _

theorem collect_eq_foldl : ∀ (es : List EntryPoint) (r : Roster) (log : Log),
    (collect s d r log es).1 = es.foldl (walkFrom s d) r
  | [], _, _ => rfl
  | e :: es, r, log => by
    rw [collect, List.foldl_cons]
    split
    next hfull =>
      rw [walkFrom_of_full hfull, ← collect_eq_foldl es r log]
      cases es with
      | nil => rfl
      | cons e es => rw [collect, if_pos hfull]
    next => exact collect_eq_foldl es _ _

theorem extends_walkFrom (r : Roster) (e : EntryPoint) : r.Extends (walkFrom s d r e) :=
  Walk.extends_visit _ _ ⟨r, [], []⟩ _

theorem extends_foldl_walkFrom (es : List EntryPoint) (r : Roster) :
    r.Extends (es.foldl (walkFrom s d) r) :=
  collect_eq_foldl es r [] ▸ extends_collect r [] es

/-- A node that a walk adds has a trail from the entry point. -/
theorem exists_trail_of_mem_walkFrom {r : Roster} {e : EntryPoint} {n : Node}
    (h : n ∈ (walkFrom s d r e).nodes) (hr : n ∉ r.nodes) : ∃ added trail,
      (walkFrom s d r e).nodes = r.nodes ++ added ∧
        Walk.Trail d.calls d.symbols s.walkLimits added s.depth 0 e.name n trail := by
  obtain ⟨added, hadds, htrails⟩ :=
    r.exists_trail_collect d.calls d.symbols s.walkLimits e.name 0
  have hnodes : (walkFrom s d r e).nodes = r.nodes ++ added := hadds.nodes
  rw [hnodes, List.mem_append] at h
  obtain ⟨trail, htrail⟩ := htrails n (h.resolve_left hr)
  exact ⟨added, trail, hnodes, htrail⟩

/-- Of the nodes that a walk adds the one it starts from is an entry point. -/
theorem isEntry_iff_of_mem_walkFrom {r : Roster} {e : EntryPoint} {n : Node}
    (hnd : (walkFrom s d r e).names.Nodup) (h : n ∈ (walkFrom s d r e).nodes) (hr : n ∉ r.nodes) :
    n.isEntry = true ↔ e.name = n.name := by
  obtain ⟨added, trail, hnodes, htrail⟩ := exists_trail_of_mem_walkFrom h hr
  obtain ⟨last, hlength, hlast⟩ := htrail.getElem?_last
  have hnames : (trail.map Node.name).Nodup := by
    rw [Roster.names, hnodes, List.map_append] at hnd
    exact hnd.sublist ((htrail.sublist.map _).trans (List.sublist_append_right _ _))
  have hfirst : (trail.map Node.name)[0]? = some e.name := by
    rw [← List.head?_eq_getElem?, htrail.chain.head?]
  have hname : (trail.map Node.name)[last]? = some n.name := by
    rw [List.getElem?_map, hlast, Option.map_some]
  have hlt : last < (trail.map Node.name).length := by
    rw [List.length_map, hlength]
    exact Nat.lt_succ_self last
  have hplace : last = 0 ↔ n.name = e.name := by
    rw [← List.getElem?_inj hlt hnames, hfirst, hname, Option.some_inj]
  rw [(htrail.depths last n hlast).2, Nat.zero_add, beq_iff_eq, hplace, eq_comm]

/-- A node that is added by walks in turn has a trail from one of the entry points, and the roster
had room for it. -/
theorem exists_trail_of_mem_foldl : ∀ (es : List EntryPoint) {r : Roster} {n : Node},
    n ∈ (es.foldl (walkFrom s d) r).nodes → n ∉ r.nodes → r.size < s.nodes ∧ ∃ e ∈ es,
      ∃ added trail, Walk.Trail d.calls d.symbols s.walkLimits added s.depth 0 e.name n trail
  | [], _, _, h, hr => absurd h hr
  | e :: es, r, n, h, hr => by
    rw [List.foldl_cons] at h
    by_cases hwalk : n ∈ (walkFrom s d r e).nodes
    · obtain ⟨added, trail, -, htrail⟩ := exists_trail_of_mem_walkFrom hwalk hr
      refine ⟨Nat.lt_of_not_le fun hfull => ?_, e, List.mem_cons_self, added, trail, htrail⟩
      rw [walkFrom_of_full hfull] at hwalk
      exact hr hwalk
    · obtain ⟨hroom, e', he', htrail⟩ := exists_trail_of_mem_foldl es h hwalk
      exact ⟨Nat.lt_of_le_of_lt (extends_walkFrom r e).2.length_le hroom, e',
        List.mem_cons_of_mem e he', htrail⟩

/-- A walk collects the entry point that it starts from, if it may. -/
theorem name_mem_walkFrom {r : Roster} {e : EntryPoint}
    (hroom : (walkFrom s d r e).size < s.nodes) (hdepth : 0 < s.depth)
    (hname : e.name ∈ d.symbols.names) : e.name ∈ (walkFrom s d r e).names := by
  have hcomposes : Walk.Composes d.calls d.symbols s.walkLimits _ := Walk.composes_explores
  obtain ⟨added, hexplores⟩ := hcomposes.visit s.depth 0 ⟨r, [], []⟩ e.name
  exact (hexplores rfl).enrolled hroom hdepth e.name (List.mem_singleton_self _) hname

/-- A walk from an entry point that does not collect it leaves it to none of the later walks. -/
theorem notMem_foldl_of_notMem_walkFrom {r : Roster} {e : EntryPoint}
    (h : e.name ∉ (walkFrom s d r e).names) (es : List EntryPoint) :
    e.name ∉ (es.foldl (walkFrom s d) (walkFrom s d r e)).names := by
  intro hlater
  obtain ⟨n, hn, hname⟩ := List.mem_map.1 hlater
  obtain ⟨hroom, e', -, added, trail, htrail⟩ := exists_trail_of_mem_foldl es hn
    fun hn => h (hname ▸ List.mem_map_of_mem hn)
  have hdepth : 0 < s.depth :=
    Nat.lt_of_lt_of_le (List.length_pos_of_mem (List.mem_of_getLast? htrail.getLast?))
      htrail.length_le
  exact h (name_mem_walkFrom hroom hdepth (hname ▸ htrail.chain.stop_mem))

/-- Walks in turn come to one that starts from `name` before they have collected it. -/
def StartsFrom (s : Settings) (d : Document) (r : Roster) (es : List EntryPoint) (name : String) :
    Prop :=
  ∃ k e, es[k]? = some e ∧ e.name = name ∧ name ∉ ((es.take k).foldl (walkFrom s d) r).names

theorem startsFrom_cons {r : Roster} {e : EntryPoint} {es : List EntryPoint} {name : String} :
    StartsFrom s d r (e :: es) name ↔
      e.name = name ∧ name ∉ r.names ∨ StartsFrom s d (walkFrom s d r e) es name := by
  constructor
  · rintro ⟨k, e', he', hname, hnew⟩
    cases k with
    | zero =>
      obtain rfl := Option.some.inj he'
      exact .inl ⟨hname, hnew⟩
    | succ k => exact .inr ⟨k, e', he', hname, hnew⟩
  · rintro (⟨hname, hnew⟩ | ⟨k, e', he', hname, hnew⟩)
    · exact ⟨0, e, rfl, hname, hnew⟩
    · exact ⟨k + 1, e', he', hname, hnew⟩

/-- What was collected before the walks is not collected again. -/
theorem StartsFrom.notMem {r : Roster} {es : List EntryPoint} {name : String}
    (h : StartsFrom s d r es name) : name ∉ r.names := by
  obtain ⟨k, e, -, -, hnew⟩ := h
  exact fun hname => hnew ((extends_foldl_walkFrom _ r).names_subset hname)

/-- A node that is added by walks in turn is an entry point if one of them starts from it. -/
theorem isEntry_iff_startsFrom : ∀ (es : List EntryPoint) {r : Roster} {n : Node},
    (es.foldl (walkFrom s d) r).names.Nodup → n ∈ (es.foldl (walkFrom s d) r).nodes →
      n ∉ r.nodes → (n.isEntry = true ↔ StartsFrom s d r es n.name)
  | [], _, _, _, h, hr => absurd h hr
  | e :: es, r, n, hnd, h, hr => by
    rw [List.foldl_cons] at hnd h
    have hlater := extends_foldl_walkFrom (s := s) (d := d) es (walkFrom s d r e)
    have hunique : ∀ {r' : Roster}, r'.Extends (es.foldl (walkFrom s d) (walkFrom s d r e)) →
        (n.name ∈ r'.names ↔ n ∈ r'.nodes) := by
      intro r' hr'
      refine ⟨fun hname => ?_, List.mem_map_of_mem⟩
      obtain ⟨n', hn', hname⟩ := List.mem_map.1 hname
      rwa [← List.inj_on_of_nodup_map hnd (hr'.2.subset hn') h hname]
    have hnew : n.name ∉ r.names := by
      rwa [hunique ((extends_walkFrom r e).trans hlater)]
    rw [startsFrom_cons]
    -- If the first walk adds `n`, no later one starts from it. If a later one does, the first has
    -- not started from it, because then it would have added it.
    by_cases hwalk : n ∈ (walkFrom s d r e).nodes
    · have hmet : ¬StartsFrom s d (walkFrom s d r e) es n.name := fun hstarts =>
        hstarts.notMem (List.mem_map_of_mem hwalk)
      have hnd' : (walkFrom s d r e).names.Nodup := hnd.sublist (hlater.2.sublist.map _)
      rw [isEntry_iff_of_mem_walkFrom hnd' hwalk hr, or_iff_left hmet, and_iff_left hnew]
    · have hother : ¬(e.name = n.name ∧ n.name ∉ r.names) := by
        rintro ⟨hname, -⟩
        refine notMem_foldl_of_notMem_walkFrom (s := s) (d := d) (r := r) (e := e) ?_ es ?_
        · rwa [hname, hunique hlater]
        · rw [hname]
          exact List.mem_map_of_mem h
      rw [isEntry_iff_startsFrom es hnd h hwalk, or_iff_right hother]

/-! ## The entry points of a document -/

/-- The entry points that a chart walks from. -/
def entries (s : Settings) (d : Document) : List EntryPoint :=
  EntryPoint.detect s.entryPoints d.calls d.symbols

/-- What the walks from entry points collect. -/
def collected (s : Settings) (d : Document) (es : List EntryPoint) : Roster :=
  (collect s d ⟨level s d, []⟩ [] es).1

/-- The entry points that no walk from an earlier one collects. -/
def unmet (s : Settings) (d : Document) : List EntryPoint :=
  let isMet := fun p : EntryPoint × Nat =>
    (collected s d ((entries s d).take p.2)).has p.1.name
  ((entries s d).zipIdx.filter fun p => !isMet p).map Prod.fst

theorem mem_unmet {e : EntryPoint} : e ∈ unmet s d ↔
    ∃ k, (entries s d)[k]? = some e ∧ e.name ∉ (collected s d ((entries s d).take k)).names := by
  simp [unmet, List.mem_zipIdx_iff_getElem?, Roster.has_eq_false_iff]

theorem mem_names_unmet {name : String} : name ∈ (unmet s d).map EntryPoint.name ↔
    StartsFrom s d ⟨level s d, []⟩ (entries s d) name := by
  simp only [List.mem_map, mem_unmet, StartsFrom, collected, collect_eq_foldl]
  constructor
  · rintro ⟨e, ⟨k, hk, hnew⟩, rfl⟩
    exact ⟨k, e, hk, rfl, hnew⟩
  · rintro ⟨k, e, hk, rfl, hnew⟩
    exact ⟨e, ⟨k, hk, hnew⟩, rfl⟩

theorem nodup_names_unmet (s : Settings) (d : Document) :
    ((unmet s d).map EntryPoint.name).Nodup := by
  have hsub : (unmet s d).Sublist (entries s d) := by
    rw [← List.zipIdx_map_fst 0 (entries s d)]
    exact List.filter_sublist.map _
  exact (EntryPoint.nodup_names_detect _ _ _).sublist (hsub.map _)

/-- Of the functions that a chart collects those are entry points that no walk from an earlier
entry point collects. -/
theorem isEntry_collected_iff {n : Node} (h : n ∈ (collected s d (entries s d)).nodes) :
    n.isEntry = true ↔ n.name ∈ (unmet s d).map EntryPoint.name := by
  have hnd : (collected s d (entries s d)).names.Nodup :=
    (collected_collect s d _ _ _).nodup_names
  rw [collected, collect_eq_foldl] at h hnd
  rw [isEntry_iff_startsFrom _ hnd h List.not_mem_nil, mem_names_unmet]

/-- To what walks collect there is a chain of calls from one of the entry points. -/
theorem exists_chain_of_mem_collected {es : List EntryPoint} {name : String}
    (h : name ∈ (collected s d es).names) :
    ∃ e ∈ es, ∃ chain, d.calls.Chain d.symbols s.calls e.name name chain := by
  obtain ⟨n, hn, rfl⟩ := List.mem_map.1 h
  rw [collected, collect_eq_foldl] at hn
  obtain ⟨-, e, he, added, trail, htrail⟩ := exists_trail_of_mem_foldl es hn List.not_mem_nil
  exact ⟨e, he, _, htrail.chain⟩

/-- To an entry point that a walk from an earlier one collects there is a chain of calls from an
earlier one. -/
theorem exists_chain_of_notMem_unmet {k : Nat} {e : EntryPoint} (hk : (entries s d)[k]? = some e)
    (h : e ∉ unmet s d) : ∃ e₀ ∈ (entries s d).take k, ∃ chain,
      d.calls.Chain d.symbols s.calls e₀.name e.name chain := by
  refine exists_chain_of_mem_collected (s := s) ?_
  by_contra hnew
  exact h (mem_unmet.2 ⟨k, hk, hnew⟩)

/-- No walk from an earlier entry point collects a root. -/
theorem mem_unmet_of_root {e : EntryPoint} (he : e ∈ entries s d) (hroot : e.kind = .root) :
    e ∈ unmet s d := by
  obtain ⟨k, hk⟩ := List.mem_iff_getElem?.1 he
  by_contra hmet
  obtain ⟨e₀, he₀, chain, hchain⟩ := exists_chain_of_notMem_unmet hk hmet
  have hne : e₀.name ≠ e.name := by
    have hnd : (((entries s d).take (k + 1)).map EntryPoint.name).Nodup :=
      (EntryPoint.nodup_names_detect _ _ _).sublist ((List.take_sublist _ _).map _)
    rw [List.take_add_one, hk, Option.toList_some, List.map_append, List.nodup_append] at hnd
    exact hnd.2.2 _ (List.mem_map_of_mem he₀) _ (List.mem_singleton_self _)
  have hcalled := CallGraph.isCalled_of_chain hchain hne
  rw [EntryPoint.isCalled_of_root he hroot] at hcalled
  cases hcalled

end Chart

end CallChart
