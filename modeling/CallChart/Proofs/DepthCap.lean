import CallChart.Proofs.Closure

/-!
# The cap on depth

A larger cap on depth may lose a function. A name is visited once, by the first call that leads to
it ; a deeper walk can meet a function first on a longer way, at its last depth, and then it does
not follow the calls of that function, not even when it meets it again on the short way by which a
shallower walk came (`Ledger.collect_detour`). That is the only way to lose one : on the chain of
calls by which the shallow walk has found it, the deep walk goes as far as such a function
(`Ledger.CutOff`). Main statement : `Ledger.collect_deeper`.
-/

namespace CallChart

namespace Walk

variable {g : CallGraph} {t : SymbolTable} {limits : WalkLimits} {level : Level} {entry : String}

/-- No node is deeper than the limit allows. -/
theorem exists_depth_lt_of_mem {n : Node}
    (hn : n ∈ (ofEntry level g t limits entry).roster.nodes) :
    ∃ depth, n.depth = some depth ∧ depth < limits.depth := by
  obtain ⟨trail, h⟩ := exists_trail_of_mem hn
  obtain ⟨last, hlength, hlast⟩ := h.getElem?_last
  have hle := h.length_le
  exact ⟨0 + last, (h.depths last n hlast).1, by omega⟩

/-- A function whose call is not followed was met at the last depth. -/
theorem exists_last_of_notMem {u v : String}
    (hroom : (ofEntry level g t limits entry).roster.size < limits.nodes)
    (hu : u ∈ (ofEntry level g t limits entry).roster.names) (hcall : g.Calls limits.calls u v)
    (hv : v ∈ t.names) (hmissed : v ∉ (ofEntry level g t limits entry).roster.names) :
    ∃ n ∈ (ofEntry level g t limits entry).roster.nodes, n.name = u ∧
      n.depth = some (limits.depth - 1) := by
  obtain ⟨n, hn, rfl⟩ := List.mem_map.1 hu
  obtain ⟨depth, hdepth, hlt⟩ := exists_depth_lt_of_mem hn
  have hlast : ¬depth + 1 < limits.depth := fun hlimit =>
    hmissed (explores_ofEntry.followed hroom n hn depth hdepth hlimit v hcall hv)
  exact ⟨n, hn, rfl, by rw [hdepth, show limits.depth - 1 = depth by omega]⟩

end Walk

namespace Ledger

variable {level : Level} {g : CallGraph} {t : SymbolTable} {limits : WalkLimits} {entry : String}

/-! ## A walk from new tables -/

theorem follows_ofEntry : Follows ⟨⟨level, []⟩, [], []⟩ (collect { level } g t limits entry 0)
    (Walk.ofEntry level g t limits entry) :=
  collect_follows (keeps_empty level) List.nodup_nil g t limits entry 0

/-- The names that a walk finds are those of its nodes. -/
theorem found_ofEntry : (collect { level } g t limits entry 0).1 =
    (Walk.ofEntry level g t limits entry).roster.names :=
  follows_ofEntry.found_eq Walk.explores_ofEntry.adds

/-! ## Two walks -/

/-- Why a walk that goes `deep` steps does not find `name`, which a walk that goes `shallow` steps
does : on the chain of calls by which the shallow walk came to it, `u` calls `v`, but the deep walk
met `u` at its last depth, deeper than the shallow one did, and did not follow the call. -/
def CutOff (g : CallGraph) (t : SymbolTable) (most : Nat) (entry : String) (shallow deep : Nat)
    (few many : List String × Ledger) (name : String) : Prop :=
  ∃ chain i u v, g.Chain t most entry name chain ∧ chain.length ≤ shallow ∧
    (∀ j w, chain[j]? = some w → few.2.RecordsDepth w j) ∧
    chain[i]? = some u ∧ chain[i + 1]? = some v ∧
    many.2.RecordsDepth u (deep - 1) ∧ i < deep - 1 ∧ v ∉ many.1

section Deeper

variable {shallow deep : Nat} {n : Node} {trail : List Node}
  (h : Walk.Trail g t { limits with depth := shallow }
    (Walk.ofEntry level g t { limits with depth := shallow } entry).roster.nodes shallow 0 entry n
    trail)
include h

/-- The depths on record along a trail. -/
theorem recordsDepth_of_trail (j : Nat) (w : String) (hw : (trail.map Node.name)[j]? = some w) :
    (collect { level } g t { limits with depth := shallow } entry 0).2.RecordsDepth w j := by
  have hwalk : Follows ⟨⟨level, []⟩, [], []⟩
      (collect { level } g t { limits with depth := shallow } entry 0) _ := follows_ofEntry
  obtain ⟨m, hm, rfl⟩ := by simpa using hw
  have hdepth := (h.depths j m hm).1
  rw [Nat.zero_add] at hdepth
  exact (hwalk.keeps.recordsDepth_iff hwalk.nodup_names
    (h.sublist.subset (List.mem_of_getElem? hm))).2 hdepth

/-- A walk from the same entry that may go deeper, and misses the last node of a trail, leaves the
trail at its last depth. -/
theorem CutOff.of_trail (hle : shallow ≤ deep)
    (hroom : (Walk.ofEntry level g t { limits with depth := deep } entry).roster.size <
      limits.nodes)
    (hmissed : n.name ∉ (Walk.ofEntry level g t { limits with depth := deep } entry).roster.names) :
    CutOff g t limits.calls entry shallow deep
      (collect { level } g t { limits with depth := shallow } entry 0)
      (collect { level } g t { limits with depth := deep } entry 0) n.name := by
  have hwalk : Follows ⟨⟨level, []⟩, [], []⟩
      (collect { level } g t { limits with depth := deep } entry 0) _ := follows_ofEntry
  have hlength : (trail.map Node.name).length ≤ shallow := by
    rw [List.length_map]
    exact h.length_le
  have hmem : entry ∈ trail.map Node.name := List.mem_of_head? h.chain.head?
  have hentry : entry ∈ (Walk.ofEntry level g t
      { limits with depth := deep } entry).roster.names := by
    have hpos := List.length_pos_of_mem hmem
    exact Walk.explores_ofEntry.enrolled hroom (by simp only; omega) entry
      (List.mem_singleton_self _) (h.chain.known entry hmem)
  obtain ⟨i, u, v, hu, hv, hfound, hlost, hcall⟩ := h.chain.exists_exit hentry hmissed
  have hi := (List.getElem?_eq_some_iff.1 hv).1
  obtain ⟨m, hm, rfl, hlast⟩ := Walk.exists_last_of_notMem hroom hfound hcall
    (h.chain.known v (List.mem_of_getElem? hv)) hlost
  exact ⟨_, i, m.name, v, h.chain, hlength, recordsDepth_of_trail h, hu, hv,
    (hwalk.keeps.recordsDepth_iff hwalk.nodup_names hm).2 hlast, by omega,
    by rwa [found_ofEntry]⟩

end Deeper

/-- A deeper walk that ends below the limit on nodes finds every function that a shallower one
finds, unless it met a function on the way to it at its last depth. It finds all of them if it may
go as deep as there are symbols. -/
theorem collect_deeper (level : Level) (g : CallGraph) (t : SymbolTable) (limits : WalkLimits)
    (entry : String) {shallow deep : Nat} (hle : shallow ≤ deep) :
    let few := collect { level } g t { limits with depth := shallow } entry 0
    let many := collect { level } g t { limits with depth := deep } entry 0
    many.2.visited.length < limits.nodes →
      (∀ name ∈ few.1, name ∈ many.1 ∨
        CutOff g t limits.calls entry shallow deep few many name) ∧
      (t.size ≤ deep → few.1 ⊆ many.1) := by
  intro few many hroom
  rw [follows_ofEntry.keeps.visited_length] at hroom
  have htrail : ∀ name ∈ few.1, ∃ n trail, n.name = name ∧ Walk.Trail g t
      { limits with depth := shallow }
      (Walk.ofEntry level g t { limits with depth := shallow } entry).roster.nodes shallow 0 entry
      n trail := by
    intro name hname
    rw [found_ofEntry] at hname
    obtain ⟨n, hn, rfl⟩ := List.mem_map.1 hname
    obtain ⟨trail, h⟩ := Walk.exists_trail_of_mem hn
    exact ⟨n, trail, rfl, h⟩
  refine ⟨fun name hname => or_iff_not_imp_left.2 fun hmissed => ?_, fun hdepth name hname => ?_⟩
  · obtain ⟨n, trail, rfl, h⟩ := htrail name hname
    rw [found_ofEntry] at hmissed
    exact .of_trail h hle hroom hmissed
  · obtain ⟨n, trail, rfl, h⟩ := htrail name hname
    rw [found_ofEntry]
    exact Walk.mem_names_of_chain_of_lt hdepth hroom h.chain

/-- A function `x` that is called at once, and by a detour as well. -/
def detour : Document where
  symbols := .ofList [{ name := "main" }, { name := "a" }, { name := "b" }, { name := "x" },
    { name := "y" }]
  calls := .ofList [("main", ["a", "x"]), ("a", ["b"]), ("b", ["x"]), ("x", ["y"])]

/-- To depth three `y` is found by the call of `x` in `main`. To depth four the walk meets `x` by the
detour, where it may not go on to `y`. -/
theorem collect_detour :
    let few := collect { level := .minimal } detour.calls detour.symbols { depth := 3 } "main" 0
    let many := collect { level := .minimal } detour.calls detour.symbols { depth := 4 } "main" 0
    3 ≤ 4 ∧ few.1 = ["main", "a", "b", "x", "y"] ∧ many.1 = ["main", "a", "b", "x"] ∧
      many.2.visited.length < 100 ∧ ¬few.1 ⊆ many.1 := by
  intro few many
  have hfew : few.1 = ["main", "a", "b", "x", "y"] := by decide +kernel
  have hmany : many.1 = ["main", "a", "b", "x"] := by decide +kernel
  refine ⟨by decide, hfew, hmany, by decide +kernel, fun h => ?_⟩
  rw [hfew, hmany] at h
  simpa using h (show "y" ∈ ["main", "a", "b", "x", "y"] by simp)

theorem collect_deeper_detour :
    let few := collect { level := .minimal } detour.calls detour.symbols { depth := 3 } "main" 0
    let many := collect { level := .minimal } detour.calls detour.symbols { depth := 4 } "main" 0
    let all := collect { level := .minimal } detour.calls detour.symbols { depth := 5 } "main" 0
    3 ≤ 4 ∧ many.2.visited.length < 100 ∧ "y" ∈ few.1 ∧
      CutOff detour.calls detour.symbols 5 "main" 3 4 few many "y" ∧
      detour.symbols.size ≤ 5 ∧ few.1 ⊆ all.1 := by
  intro few many all
  have hmany := collect_deeper .minimal detour.calls detour.symbols {} "main"
    (show 3 ≤ 4 by decide) (by decide +kernel)
  have hall := collect_deeper .minimal detour.calls detour.symbols {} "main"
    (show 3 ≤ 5 by decide) (by decide +kernel)
  have hy : "y" ∈ few.1 := by decide +kernel
  exact ⟨by decide, by decide +kernel, hy, (hmany.1 "y" hy).resolve_left (by decide +kernel),
    by decide +kernel, hall.2 (by decide +kernel)⟩

end Ledger

end CallChart
