import CallChart.Proofs.CallChains
import Mathlib.Data.List.Perm.Subperm

/-!
# What a walk does not miss

A walk that ends below the limit on nodes has followed every call it was allowed to follow : what
is above the limit on depth has its callees in the roster (`Walk.Followed`), in the part of the
walk that enrolled it (`Walk.composes_explores`). A function that is met again is not visited again,
but then it is in the roster already.

If the limits are as large as the symbol table, the limit on depth cuts nothing off. A function at
the last depth has a trail of distinct functions, as many as there are symbols ; then every symbol
has been enrolled. So the walk finds what there is a chain of calls for and nothing else. Main
statement : `Ledger.collect_complete`.
-/

namespace CallChart

namespace CallGraph

variable {g : CallGraph} {t : SymbolTable} {most : Nat} {a b start stop : String}
  {chain : List String}

theorem Chain.stop_mem (h : g.Chain t most start stop chain) : stop ∈ t.names :=
  h.known stop (List.mem_of_getLast? h.getLast?)

theorem Chain.tail (h : g.Chain t most a stop (a :: b :: chain)) :
    g.Chain t most b stop (b :: chain) where
  head? := rfl
  getLast? := by rw [← h.getLast?, List.getLast?_cons_cons]
  calls := (List.isChain_cons_cons.1 h.calls).2
  known name hname := h.known name (List.mem_cons_of_mem _ hname)

/-- A chain whose first function has a property and whose last has not leaves it at some call. -/
theorem Chain.exists_exit {P : String → Prop} : ∀ {chain : List String} {start : String},
    g.Chain t most start stop chain → P start → ¬P stop →
      ∃ i u v, chain[i]? = some u ∧ chain[i + 1]? = some v ∧ P u ∧ ¬P v ∧ g.Calls most u v
  | [], _, h, _, _ => absurd h.head? (by simp)
  | [a], start, h, hstart, hstop => by
    obtain rfl : a = start := Option.some.inj h.head?
    obtain rfl : a = stop := Option.some.inj h.getLast?
    exact absurd hstart hstop
  | a :: b :: chain, start, h, hstart, hstop => by
    obtain rfl : a = start := Option.some.inj h.head?
    by_cases hb : P b
    · obtain ⟨i, u, v, hu, hv, hexit⟩ := h.tail.exists_exit hb hstop
      exact ⟨i + 1, u, v, hu, hv, hexit⟩
    · exact ⟨0, a, b, rfl, rfl, hstart, hb, (List.isChain_cons_cons.1 h.calls).1⟩

/-- A set of functions that contains the first of a chain, and with a function those it calls,
contains the last. -/
theorem Chain.closed {P : String → Prop}
    (hclosed : ∀ a b, P a → g.Calls most a b → b ∈ t.names → P b)
    (h : g.Chain t most start stop chain) (hstart : P start) : P stop := by
  by_contra hstop
  obtain ⟨i, u, v, -, hv, hPu, hPv, hcall⟩ := h.exists_exit hstart hstop
  exact hPv (hclosed u v hPu hcall (h.known v (List.mem_of_getElem? hv)))

end CallGraph

namespace Walk

variable {g : CallGraph} {t : SymbolTable} {limits : WalkLimits}

/-- The calls of the nodes above the limit on depth lead into the roster. -/
def Followed (g : CallGraph) (t : SymbolTable) (limits : WalkLimits) (r : Roster)
    (nodes : List Node) : Prop :=
  ∀ n ∈ nodes, ∀ depth, n.depth = some depth → depth + 1 < limits.depth →
    ∀ callee, g.Calls limits.calls n.name callee → callee ∈ t.names → callee ∈ r.names

/-- What a walk does not miss on its way from `w` to `w'`, where it visits the functions `names` and
`left` more steps are allowed : if it ends below the limit on nodes, then `names` are enrolled and
the calls of the nodes it has added are followed. -/
structure Explores (g : CallGraph) (t : SymbolTable) (limits : WalkLimits) (left : Nat)
    (names : List String) (w : Walk) (added : List Node) (w' : Walk) : Prop where
  adds : w.Adds added w'
  enrolled : w'.roster.size < limits.nodes → 0 < left →
    ∀ name ∈ names, name ∈ t.names → name ∈ w'.roster.names
  followed : w'.roster.size < limits.nodes → Followed g t limits w'.roster added

theorem Adds.size_le {w w' : Walk} {added : List Node} (h : w.Adds added w') :
    w.roster.size ≤ w'.roster.size := by
  rw [Roster.size, Roster.size, h.nodes, List.length_append]
  exact Nat.le_add_right _ _

theorem Adds.names_subset {w w' : Walk} {added : List Node} (h : w.Adds added w') :
    w.roster.names ⊆ w'.roster.names :=
  h.names ▸ List.subset_append_left _ _

/-- Where the limit on depth allows `left` more steps, walks that explore compose. -/
theorem composes_explores : Composes g t limits fun left depth names w added w' =>
    left = limits.depth - depth → Explores g t limits left names w added w' where
  nothing h henrolled _ := ⟨h, henrolled, fun _ _ hn => absurd hn List.not_mem_nil⟩
  trans h h' hleft := by
    obtain ⟨hadds, henrolled, hfollowed⟩ := h hleft
    obtain ⟨hadds', henrolled', hfollowed'⟩ := h' hleft
    refine ⟨hadds.trans hadds', fun hlt hpos name hname hknown => ?_,
      fun hlt n hn depth hdepth hlimit callee hcall hknown => ?_⟩
    · rcases List.mem_append.1 hname with hname | hname
      · exact hadds'.names_subset
          (henrolled (Nat.lt_of_le_of_lt hadds'.size_le hlt) hpos name hname hknown)
      · exact henrolled' hlt hpos name hname hknown
    · rcases List.mem_append.1 hn with hn | hn
      · exact hadds'.names_subset (hfollowed (Nat.lt_of_le_of_lt hadds'.size_le hlt) n hn depth
          hdepth hlimit callee hcall hknown)
      · exact hfollowed' hlt n hn depth hdepth hlimit callee hcall hknown
  enrol {left depth s w added w'} _ h hleft := by
    obtain ⟨hadds, henrolled, hfollowed⟩ := h (by omega)
    refine ⟨(adds_enrol w s depth).trans hadds, fun _ _ name hname _ => ?_,
      fun hlt n hn depth' hdepth hlimit callee hcall hknown => ?_⟩
    · obtain rfl := List.mem_singleton.1 hname
      rw [((adds_enrol w s depth).trans hadds).names]
      simp [nodeOf]
    · rcases List.mem_cons.1 hn with rfl | hn
      · obtain rfl : depth = depth' := Option.some.inj hdepth
        exact henrolled hlt (by omega) callee hcall hknown
      · exact hfollowed hlt n hn depth' hdepth hlimit callee hcall hknown

/-! ## One walk -/

/-- The walk that starts at `entry` with the empty roster. -/
def ofEntry (level : Level) (g : CallGraph) (t : SymbolTable) (limits : WalkLimits)
    (entry : String) : Walk :=
  (⟨level, []⟩ : Roster).collect g t limits entry 0

theorem Adds.nodes_of_empty {level : Level} {w : Walk} {added : List Node}
    (h : Adds ⟨⟨level, []⟩, [], []⟩ added w) : added = w.roster.nodes :=
  h.nodes.symm

variable {level : Level} {entry : String}

/-- A walk from the empty roster misses nothing below the limit on nodes. -/
theorem explores_ofEntry : Explores g t limits limits.depth [entry] ⟨⟨level, []⟩, [], []⟩
    (ofEntry level g t limits entry).roster.nodes (ofEntry level g t limits entry) := by
  obtain ⟨added, h⟩ := composes_explores.visit limits.depth 0 ⟨⟨level, []⟩, [], []⟩ entry
  obtain rfl := (h rfl).adds.nodes_of_empty
  exact h rfl

theorem nodup_names_ofEntry : (ofEntry level g t limits entry).roster.names.Nodup :=
  Roster.nodup_names_visit (w := ⟨⟨level, []⟩, [], []⟩) List.nodup_nil _ _ _

section Mem

variable {n : Node} (hn : n ∈ (ofEntry level g t limits entry).roster.nodes)
include hn

/-- A node has a trail among the nodes of the walk. -/
theorem exists_trail_of_mem : ∃ trail, Trail g t limits
    (ofEntry level g t limits entry).roster.nodes limits.depth 0 entry n trail := by
  obtain ⟨added, hadds, htrails⟩ :=
    Roster.exists_trail_collect ⟨level, []⟩ g t limits entry 0
  obtain rfl := hadds.nodes_of_empty
  exact htrails n hn

theorem name_mem_of_mem : n.name ∈ t.names := by
  obtain ⟨trail, h⟩ := exists_trail_of_mem hn
  exact h.chain.stop_mem

/-- No node is as deep as there are nodes. -/
theorem exists_depth_of_mem : ∃ depth, n.depth = some depth ∧
    depth < (ofEntry level g t limits entry).roster.size := by
  obtain ⟨trail, h⟩ := exists_trail_of_mem hn
  obtain ⟨last, hlength, hlast⟩ := h.getElem?_last
  refine ⟨0 + last, (h.depths last n hlast).1, ?_⟩
  have hle := h.sublist.length_le
  rw [Roster.size]
  omega

end Mem

/-- A walk that enrols as many functions as there are symbols enrols every symbol. -/
theorem mem_names_of_size_le (hsize : t.size ≤ (ofEntry level g t limits entry).roster.size)
    {name : String} (hname : name ∈ t.names) :
    name ∈ (ofEntry level g t limits entry).roster.names := by
  have hsub : (ofEntry level g t limits entry).roster.names ⊆ t.names := by
    intro name hname
    obtain ⟨n, hn, rfl⟩ := List.mem_map.1 hname
    exact name_mem_of_mem hn
  have hlength : t.names.length ≤ (ofEntry level g t limits entry).roster.names.length := by
    rwa [SymbolTable.names, symbolNames, Roster.names, List.length_map, List.length_map]
  exact ((nodup_names_ofEntry.subperm hsub).perm_of_length_le hlength).mem_iff.2 hname

/-- Where the limit on depth is as large as the symbol table, a walk that ends below the limit on
nodes finds all that there is a chain of calls for. -/
theorem mem_names_of_chain_of_lt {chain : List String} {name : String}
    (hdepth : t.size ≤ limits.depth)
    (hroom : (ofEntry level g t limits entry).roster.size < limits.nodes)
    (h : g.Chain t limits.calls entry name chain) :
    name ∈ (ofEntry level g t limits entry).roster.names := by
  rcases Nat.lt_or_ge (ofEntry level g t limits entry).roster.size t.size with hlt | hge
  · -- Some symbol is not enrolled : then the limit on depth was not reached.
    refine h.closed (P := (· ∈ (ofEntry level g t limits entry).roster.names))
      (fun a b ha hcall hb => ?_) ?_
    · obtain ⟨n, hn, rfl⟩ := List.mem_map.1 ha
      obtain ⟨depth, hdepth, hlt'⟩ := exists_depth_of_mem hn
      exact explores_ofEntry.followed hroom n hn depth hdepth (by omega) b hcall hb
    · exact explores_ofEntry.enrolled hroom (by omega) entry (List.mem_singleton_self _)
        (h.known entry (List.mem_of_head? h.head?))
  · exact mem_names_of_size_le hge h.stop_mem

/-- Where the limits are as large as the symbol table, a walk finds all that there is a chain of
calls for. -/
theorem mem_names_of_chain {chain : List String} {name : String} (hdepth : t.size ≤ limits.depth)
    (hnodes : t.size ≤ limits.nodes) (h : g.Chain t limits.calls entry name chain) :
    name ∈ (ofEntry level g t limits entry).roster.names := by
  rcases Nat.lt_or_ge (ofEntry level g t limits entry).roster.size t.size with hlt | hge
  · exact mem_names_of_chain_of_lt hdepth (Nat.lt_of_lt_of_le hlt hnodes) h
  · exact mem_names_of_size_le hge h.stop_mem

end Walk

namespace Ledger

/-- On new tables, a walk from depth zero that ends below the limit on nodes finds, of the functions
that it finds above the limit on depth, every callee that it is allowed to follow. And if the
limits on depth and nodes are as large as the symbol table, it finds exactly the functions for
which there is a chain of calls from its entry. -/
theorem collect_complete (level : Level) (g : CallGraph) (t : SymbolTable) (limits : WalkLimits)
    (entry : String) :
    let answer := Ledger.collect { level } g t limits entry 0
    (answer.2.visited.length < limits.nodes →
      ∀ name ∈ answer.1, ∀ depth, answer.2.RecordsDepth name depth → depth + 1 < limits.depth →
        ∀ callee, g.Calls limits.calls name callee → callee ∈ t.names → callee ∈ answer.1) ∧
    (t.size ≤ limits.depth → t.size ≤ limits.nodes →
      ∀ name, name ∈ answer.1 ↔ ∃ chain, g.Chain t limits.calls entry name chain) := by
  intro answer
  have hwalk := collect_follows (keeps_empty level) List.nodup_nil g t limits entry 0
  have hfound : answer.1 = (Walk.ofEntry level g t limits entry).roster.names :=
    hwalk.found_eq Walk.explores_ofEntry.adds
  refine ⟨fun hroom name hname depth hdepth hlimit callee hcall hknown => ?_,
    fun hdepth hnodes name => ⟨fun hname => ?_, fun ⟨chain, h⟩ => ?_⟩⟩
  · rw [hfound] at hname ⊢
    obtain ⟨n, hn, rfl⟩ := List.mem_map.1 hname
    rw [hwalk.keeps.visited_length] at hroom
    exact Walk.explores_ofEntry.followed hroom n hn depth
      ((hwalk.keeps.recordsDepth_iff hwalk.nodup_names hn).1 hdepth) hlimit callee hcall hknown
  · rw [hfound] at hname
    obtain ⟨n, hn, rfl⟩ := List.mem_map.1 hname
    obtain ⟨trail, htrail⟩ := Walk.exists_trail_of_mem hn
    exact ⟨_, htrail.chain⟩
  · rw [hfound]
    exact Walk.mem_names_of_chain hdepth hnodes h

theorem collect_complete_fork :
    let g := Chart.fork.calls
    let t := Chart.fork.symbols
    let limits : WalkLimits := { depth := 3, nodes := 7 }
    let answer := Ledger.collect { level := .minimal } g t limits "a" 0
    answer.2.RecordsDepth "a" 0 ∧ g.Calls limits.calls "a" "c" ∧ "c" ∈ answer.1 ∧
      ∀ name, name ∈ answer.1 ↔ ∃ chain, g.Chain t limits.calls "a" name chain := by
  intro g t limits answer
  obtain ⟨hfollowed, hexact⟩ := collect_complete .minimal g t limits "a"
  have hdepth : answer.2.RecordsDepth "a" 0 := ⟨"N1", _, by rfl, by rfl, by rfl⟩
  have hcall : "c" ∈ (g.callees "a").take limits.calls := by decide +kernel
  refine ⟨hdepth, hcall, ?_, hexact (by decide +kernel) (by decide +kernel)⟩
  exact hfollowed (by decide +kernel) "a" (by decide +kernel) 0 hdepth (by decide) "c" hcall
    (by decide +kernel)

end Ledger

end CallChart
