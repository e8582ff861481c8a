import CallChart.Proofs.Ledger
import Mathlib.Data.List.Chain

/-!
# Chains of calls

Why a function is enrolled. A walk comes to a function along a chain of calls from its entry
(`CallGraph.Chain`), each of them one of the calls that the limits let it follow. The functions
on the chain were enrolled by the same walk, one behind the other (`Walk.Trail`) : `name` itself
comes first, and below it the trail from the callee in whose visit the function was enrolled
(`Walk.composes_trails`). The depth on record counts the calls from the entry. Main statement :
`Ledger.collect_sound`.
-/

namespace CallChart

namespace CallGraph

/-- A walk that follows `most` calls per function goes from `a` to `b`. -/
def Calls (g : CallGraph) (most : Nat) (a b : String) : Prop :=
  b ∈ (g.callees a).take most

/-- Functions of the symbol table from `start` to `stop`, each of which calls the next. -/
structure Chain (g : CallGraph) (t : SymbolTable) (most : Nat) (start stop : String)
    (chain : List String) : Prop where
  head? : chain.head? = some start
  getLast? : chain.getLast? = some stop
  calls : chain.IsChain (g.Calls most)
  known : ∀ name ∈ chain, name ∈ t.names

variable {g : CallGraph} {t : SymbolTable} {most : Nat} {a b c : String} {chain : List String}

theorem Chain.singleton (ha : a ∈ t.names) : g.Chain t most a a [a] :=
  ⟨rfl, rfl, .singleton a, by simpa using ha⟩

theorem Chain.cons (ha : a ∈ t.names) (hcall : g.Calls most a b) (h : g.Chain t most b c chain) :
    g.Chain t most a c (a :: chain) where
  head? := rfl
  getLast? := by rw [List.getLast?_cons, h.getLast?, Option.getD_some]
  calls := List.isChain_cons.2 ⟨by simpa [h.head?] using hcall, h.calls⟩
  known := List.forall_mem_cons.2 ⟨ha, h.known⟩

end CallGraph

namespace Walk

variable {g : CallGraph} {t : SymbolTable} {limits : WalkLimits}

/-- Nodes among those of `added` that lead from `start`, which is `depth` steps deep, to `n` : each
is one step deeper than the one before, and no more than `left` of them. -/
structure Trail (g : CallGraph) (t : SymbolTable) (limits : WalkLimits) (added : List Node)
    (left depth : Nat) (start : String) (n : Node) (trail : List Node) : Prop where
  chain : g.Chain t limits.calls start n.name (trail.map Node.name)
  sublist : trail.Sublist added
  length_le : trail.length ≤ left
  getLast? : trail.getLast? = some n
  depths : ∀ i m, trail[i]? = some m → m.depth = some (depth + i) ∧ m.isEntry = (depth + i == 0)

/-- The trail ends at its node. -/
theorem Trail.getElem?_last {added : List Node} {left depth : Nat} {start : String} {n : Node}
    {trail : List Node} (h : Trail g t limits added left depth start n trail) :
    ∃ last, trail.length = last + 1 ∧ trail[last]? = some n := by
  have hlast : trail[trail.length - 1]? = some n := by
    rw [← List.getLast?_eq_getElem?, h.getLast?]
  have hpos : 0 < trail.length := List.length_pos_of_mem (List.mem_of_getElem? hlast)
  exact ⟨trail.length - 1, (Nat.sub_add_cancel hpos).symm, hlast⟩

theorem Trail.mono {added added' : List Node} {left depth : Nat} {start : String} {n : Node}
    {trail : List Node} (hadded : added.Sublist added')
    (h : Trail g t limits added left depth start n trail) :
    Trail g t limits added' left depth start n trail :=
  { h with sublist := h.sublist.trans hadded }

/-- The trail of one node. -/
theorem Trail.singleton {left depth : Nat} {s : Symbol} (hs : t.get? s.name = some s) (w : Walk) :
    Trail g t limits [w.nodeOf s depth] (left + 1) depth s.name (w.nodeOf s depth)
      [w.nodeOf s depth] where
  chain := .singleton (SymbolTable.mem_names_of_get? hs)
  sublist := .refl _
  length_le := by simp
  getLast? := rfl
  depths i m hm := by
    obtain ⟨rfl, rfl⟩ : i = 0 ∧ m = w.nodeOf s depth := by
      cases i <;> simp_all
    exact ⟨rfl, rfl⟩

/-- A trail from a callee continues that of its caller. -/
theorem Trail.cons {added : List Node} {left depth : Nat} {s : Symbol} {callee : String} {n : Node}
    {trail : List Node} (hs : t.get? s.name = some s) (w : Walk)
    (hcall : g.Calls limits.calls s.name callee)
    (h : Trail g t limits added left (depth + 1) callee n trail) :
    Trail g t limits (w.nodeOf s depth :: added) (left + 1) depth s.name n
      (w.nodeOf s depth :: trail) where
  chain := h.chain.cons (SymbolTable.mem_names_of_get? hs) hcall
  sublist := h.sublist.cons_cons _
  length_le := Nat.succ_le_succ h.length_le
  getLast? := by rw [List.getLast?_cons, h.getLast?, Option.getD_some]
  depths
    | 0, m, hm => by
      obtain rfl := Option.some.inj hm
      exact ⟨rfl, rfl⟩
    | i + 1, m, hm => by
      have hstep := h.depths i m hm
      rwa [Nat.add_right_comm, Nat.add_assoc] at hstep

/-- A part of a walk adds nodes, each of which has a trail from one of the functions that the part
visits. -/
structure Trails (g : CallGraph) (t : SymbolTable) (limits : WalkLimits) (left depth : Nat)
    (names : List String) (w : Walk) (added : List Node) (w' : Walk) : Prop where
  adds : w.Adds added w'
  exists_trail : ∀ n ∈ added, ∃ name ∈ names, ∃ trail,
    Trail g t limits added left depth name n trail

theorem composes_trails : Composes g t limits (Trails g t limits) where
  nothing h _ := ⟨h, by simp⟩
  trans h h' := by
    refine ⟨h.adds.trans h'.adds, fun n hn => ?_⟩
    rcases List.mem_append.1 hn with hn | hn
    · obtain ⟨name, hname, trail, htrail⟩ := h.exists_trail n hn
      exact ⟨name, List.mem_append_left _ hname, trail, htrail.mono (List.sublist_append_left _ _)⟩
    · obtain ⟨name, hname, trail, htrail⟩ := h'.exists_trail n hn
      exact ⟨name, List.mem_append_right _ hname, trail,
        htrail.mono (List.sublist_append_right _ _)⟩
  enrol hs h := by
    refine ⟨(adds_enrol _ _ _).trans h.adds, fun n hn => ⟨_, List.mem_singleton_self _, ?_⟩⟩
    rcases List.mem_cons.1 hn with rfl | hn
    · exact ⟨_, (Trail.singleton hs _).mono (List.singleton_sublist.2 List.mem_cons_self)⟩
    · obtain ⟨callee, hcall, trail, htrail⟩ := h.exists_trail n hn
      exact ⟨_, htrail.cons hs _ hcall⟩

end Walk

/-- What a walk enrols has a trail from its entry. -/
theorem Roster.exists_trail_collect (r : Roster) (g : CallGraph) (t : SymbolTable)
    (limits : WalkLimits) (entry : String) (depth : Nat) :
    ∃ added, Walk.Adds ⟨r, [], []⟩ added (r.collect g t limits entry depth) ∧
      ∀ n ∈ added, ∃ trail,
        Walk.Trail g t limits added (limits.depth - depth) depth entry n trail := by
  obtain ⟨added, h⟩ := Walk.composes_trails.visit (limits.depth - depth) depth ⟨r, [], []⟩ entry
  exact ⟨added, h.adds, fun n hn => by simpa using h.exists_trail n hn⟩

namespace Ledger

/-- Why a walk that starts at `entry`, which is taken to be `depth` steps deep, finds `name` : there
is a chain of calls from `entry` to it, whose functions were all found by the walk and got their
ids in the order of the chain. Their depths on record count up from `depth`, and that of `name`
is below the limit ; at depth zero, and only there, it is an entry point. -/
def Justifies (g : CallGraph) (t : SymbolTable) (limits : WalkLimits) (entry : String)
    (depth : Nat) (answer : List String × Ledger) (name : String) : Prop :=
  ∃ steps chain, chain.length = steps + 1 ∧ g.Chain t limits.calls entry name chain ∧
    chain.Sublist answer.1 ∧
    (∀ i v, chain[i]? = some v → answer.2.RecordsDepth v (depth + i)) ∧
    depth + steps < limits.depth ∧ (answer.2.isEntry name = true ↔ depth + steps = 0)

/-- A trail of nodes in the order in which a walk has found them is a reason to find the last. -/
theorem Justifies.of_trail {g : CallGraph} {t : SymbolTable} {limits : WalkLimits} {entry : String}
    {depth : Nat} {answer : List String × Ledger} {r : Roster} {added trail : List Node} {n : Node}
    (hkeeps : answer.2.Keeps r) (hnd : r.names.Nodup) (hadded : added ⊆ r.nodes)
    (hfound : answer.1 = added.map Node.name)
    (h : Walk.Trail g t limits added (limits.depth - depth) depth entry n trail) :
    Justifies g t limits entry depth answer n.name := by
  obtain ⟨last, hlength, hlast⟩ := h.getElem?_last
  have hmem : ∀ {i m}, trail[i]? = some m → m ∈ r.nodes := fun hm =>
    hadded (h.sublist.subset (List.mem_of_getElem? hm))
  refine ⟨last, trail.map Node.name, ?_, h.chain, ?_, fun i v hv => ?_, ?_, ?_⟩
  · rw [List.length_map, hlength]
  · exact hfound ▸ h.sublist.map _
  · obtain ⟨m, hm, rfl⟩ := by simpa using hv
    exact (hkeeps.recordsDepth_iff hnd (hmem hm)).2 (h.depths i m hm).1
  · have hle := h.length_le
    omega
  · rw [hkeeps.entries, Roster.isEntry_of_mem hnd (hmem hlast), (h.depths _ n hlast).2, beq_iff_eq]

/-- After any history of calls, a walk puts the names it finds behind the others, in the order of
their ids, and there is a chain of calls for each of them. -/
theorem collect_sound (level : Level) (calls : List Enrolment) (g : CallGraph) (t : SymbolTable)
    (limits : WalkLimits) (entry : String) (depth : Nat) :
    let l := ofCalls level calls
    let answer := l.collect g t limits entry depth
    answer.2.ids.keys = l.ids.keys ++ answer.1 ∧
      ∀ name ∈ answer.1, Justifies g t limits entry depth answer name := by
  intro l answer
  have hkeeps : l.Keeps (Roster.ofCalls level calls) := keeps_ofCalls level calls
  have hwalk :=
    collect_follows hkeeps (Roster.nodup_names_ofCalls level calls) g t limits entry depth
  obtain ⟨added, hadds, htrails⟩ :=
    (Roster.ofCalls level calls).exists_trail_collect g t limits entry depth
  have hfound : answer.1 = added.map Node.name := hwalk.found_eq hadds
  refine ⟨by rw [hwalk.keeps.keys_ids, hkeeps.keys_ids, hadds.names, hfound], fun name hname => ?_⟩
  rw [hfound] at hname
  obtain ⟨n, hn, rfl⟩ := List.mem_map.1 hname
  obtain ⟨trail, htrail⟩ := htrails n hn
  exact .of_trail hwalk.keeps hwalk.nodup_names (hadds.nodes ▸ List.subset_append_right _ _) hfound
    htrail

theorem collect_sound_fork :
    let answer := (ofCalls .minimal [.create "c" none false]).collect
      Chart.fork.calls Chart.fork.symbols {} "a" 1
    answer.1 = ["a", "b"] ∧ Justifies Chart.fork.calls Chart.fork.symbols {} "a" 1 answer "b" :=
  ⟨by decide +kernel, (collect_sound _ _ _ _ _ _ _).2 "b" (by decide +kernel)⟩

end Ledger

end CallChart
