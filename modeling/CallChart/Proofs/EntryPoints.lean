import CallChart.EntryPoint
import CallChart.Proofs.Tables

/-!
# Entry points and what they depend on

A scan notes every callee that some other function calls (`CallGraph.mem_notedCallees`), so the
callers that it has not noted are the roots. The names of a symbol table are distinct, so a name
that was seen when its symbol is met is that of a root (`EntryScan.found_foldl_addDeclared`) ; a
scan finds what `detect` lists (`EntryPoint.scan_eq_detect`). No name is listed twice, and only
the callers in their order, the calls of a function to others and the symbols matter for the list.
Main statement : `EntryPoint.scan_exact`.
-/

namespace CallChart

namespace CallGraph

variable {g : CallGraph} {name : String}

/-! ## Roots -/

theorem mem_noteCallees {caller : String} : ∀ {callees noted : List String},
    name ∈ noteCallees caller noted callees ↔ name ∈ noted ∨ name ≠ caller ∧ name ∈ callees
  | [], noted => by simp [noteCallees]
  | callee :: callees, noted => by
    rw [noteCallees, mem_noteCallees]
    split
    next h => grind
    next h => grind

/-- The names that are noted are those of functions that another function calls. -/
theorem mem_notedCallees :
    name ∈ g.notedCallees ↔ ∃ e ∈ g.calls.entries, name ≠ e.1 ∧ name ∈ e.2 := by
  have hfoldl : ∀ (es : Entries (List String)) (noted : List String),
      name ∈ es.foldl (fun noted e => noteCallees e.1 noted e.2) noted ↔
        name ∈ noted ∨ ∃ e ∈ es, name ≠ e.1 ∧ name ∈ e.2 := by
    intro es
    induction es with
    | nil => simp
    | cons e es ih =>
      intro noted
      rw [List.foldl_cons, ih, mem_noteCallees, or_assoc]
      simp only [List.mem_cons, exists_eq_or_imp]
  rw [notedCallees, hfoldl]
  simp

/-- A function is called if it is a callee of another caller. -/
theorem isCalled_iff : g.isCalled name = true ↔
    ∃ caller ∈ g.callers, caller ≠ name ∧ name ∈ g.callees caller := by
  simp only [isCalled, List.any_eq_true, Bool.and_eq_true, bne_iff_ne, List.contains_iff_mem]
  constructor
  · rintro ⟨⟨caller, callees⟩, he, hne, hmem⟩
    refine ⟨caller, List.mem_map.2 ⟨_, he, rfl⟩, hne, ?_⟩
    rwa [CallGraph.callees, Keyed.get?_eq_some_iff.2 he, Option.getD_some]
  · rintro ⟨caller, hcaller, hne, hmem⟩
    obtain ⟨⟨_, callees⟩, he, rfl⟩ := List.mem_map.1 hcaller
    rw [CallGraph.callees, Keyed.get?_eq_some_iff.2 he, Option.getD_some] at hmem
    exact ⟨_, he, hne, hmem⟩

theorem scanRoots_eq (g : CallGraph) : g.scanRoots = g.roots := by
  refine List.filter_congr fun name _ => congrArg not ?_
  rw [Bool.eq_iff_iff, List.contains_iff_mem, mem_notedCallees, isCalled, List.any_eq_true]
  refine exists_congr fun e => and_congr_right fun _ => ?_
  rw [Bool.and_eq_true, bne_iff_ne, List.contains_iff_mem, ne_comm]

theorem nodup_roots (g : CallGraph) : g.roots.Nodup :=
  g.calls.nodup_keys.filter _

/-- Two graphs have the same callers in the same order, and but for calls of a function to itself
they call the same. -/
structure SameForOthers (g g' : CallGraph) : Prop where
  callers : g'.callers = g.callers
  callees : ∀ caller callee, callee ≠ caller →
    (callee ∈ g'.callees caller ↔ callee ∈ g.callees caller)

theorem SameForOthers.roots_eq {g' : CallGraph} (h : g.SameForOthers g') :
    g'.roots = g.roots := by
  rw [roots, roots, h.callers]
  refine List.filter_congr fun name _ => congrArg not ?_
  rw [Bool.eq_iff_iff, isCalled_iff, isCalled_iff, h.callers]
  exact exists_congr fun caller => and_congr_right fun _ => and_congr_right fun hne =>
    h.callees caller name hne.symm

end CallGraph

/-! ## The scan -/

namespace EntryScan

theorem foldl_addRoot : ∀ (roots : List String) (scan : EntryScan),
    (roots.foldl addRoot scan).found = scan.found ++ roots.map (⟨·, .root⟩) ∧
      ∀ name, name ∈ (roots.foldl addRoot scan).seen ↔ name ∈ scan.seen ∨ name ∈ roots
  | [], scan => by simp
  | root :: roots, scan => by
    obtain ⟨hfound, hseen⟩ := foldl_addRoot roots (scan.addRoot root)
    rw [List.foldl_cons]
    refine ⟨by rw [hfound]; simp [addRoot], fun name => ?_⟩
    rw [hseen, addRoot, List.mem_insert_iff]
    grind

/-- Of symbols with distinct names those are found whose name was not seen at the start. -/
theorem found_foldl_addDeclared : ∀ (symbols : List Symbol) (scan : EntryScan),
    (symbolNames symbols).Nodup →
      (symbols.foldl (fun scan s => scan.addDeclared s.name) scan).found = scan.found ++
        (symbols.filter fun s => !scan.seen.contains s.name).map (⟨·.name, .declared⟩)
  | [], scan, _ => by simp
  | s :: symbols, scan, h => by
    obtain ⟨hname, hnd⟩ := List.nodup_cons.1 h
    rw [List.foldl_cons, found_foldl_addDeclared symbols _ hnd, addDeclared]
    split
    next hseen => simp_all
    next hseen =>
      -- The name of `s` is none of the others, so it does not matter that it has been seen.
      have hrest : ∀ s' ∈ symbols, (!(scan.seen.insert s.name).contains s'.name) =
          !scan.seen.contains s'.name := by
        intro s' hs'
        have hne : s'.name ≠ s.name := fun heq => hname (heq ▸ List.mem_map_of_mem hs')
        simp [List.mem_insert_iff, hne]
      rw [List.filter_congr hrest, List.filter_cons_of_pos (by simpa using hseen)]
      simp

end EntryScan

namespace EntryPoint

/-- A scan finds the entry points. -/
theorem scan_eq_detect (most : Nat) (g : CallGraph) (t : SymbolTable) :
    scan most g t = detect most g t := by
  obtain ⟨hfound, hseen⟩ := EntryScan.foldl_addRoot g.roots {}
  have hnd : (symbolNames (t.symbols.filter Symbol.isEntry)).Nodup :=
    t.nodup_names.sublist (List.filter_sublist.map _)
  have hroots : ∀ name, (g.roots.foldl EntryScan.addRoot {}).seen.contains name =
      g.roots.contains name := by
    intro name
    rw [Bool.eq_iff_iff, List.contains_iff_mem, List.contains_iff_mem, hseen]
    simp
  rw [scan, detect, candidates, g.scanRoots_eq]
  simp only [EntryScan.found_foldl_addDeclared _ _ hnd, hfound, hroots, List.filter_filter,
    List.nil_append]
  simp [Bool.and_comm]

/-- No function is an entry point twice. -/
theorem nodup_names_detect (most : Nat) (g : CallGraph) (t : SymbolTable) :
    ((detect most g t).map name).Nodup := by
  have hnames : (candidates g t).map name = g.roots ++
      (t.symbols.filter fun s => s.isEntry && !g.roots.contains s.name).map Symbol.name := by
    simp [candidates, Function.comp_def]
  rw [detect, List.map_take]
  refine List.Nodup.sublist (List.take_sublist _ _) ?_
  rw [hnames, List.nodup_append]
  refine ⟨g.nodup_roots, t.nodup_names.sublist (List.filter_sublist.map _), ?_⟩
  rintro name hroot _ hdeclared rfl
  obtain ⟨s, hs, rfl⟩ := List.mem_map.1 hdeclared
  simp [hroot] at hs

/-- A scan finds the first `most` of the callers that no other caller calls, in the order of the
graph, followed by the declared symbols that are not among them, in the order of the table. It
finds no name twice, and calls of a function to itself do not matter. -/
theorem scan_exact (most : Nat) (g : CallGraph) (t : SymbolTable) :
    let roots := g.callers.filter fun name =>
      ¬∃ caller ∈ g.callers, caller ≠ name ∧ name ∈ g.callees caller
    let declared := t.symbols.filter fun s => s.isEntry ∧ s.name ∉ roots
    scan most g t =
        (roots.map (EntryPoint.mk · .root) ++
          declared.map fun s => EntryPoint.mk s.name .declared).take most ∧
      ((scan most g t).map name).Nodup ∧
      ∀ g', g.SameForOthers g' → scan most g' t = scan most g t := by
  intro roots declared
  have hroots : roots = g.roots := by
    refine List.filter_congr fun name _ => ?_
    rw [Bool.eq_iff_iff, decide_eq_true_iff, Bool.not_eq_true', ← Bool.not_eq_true,
      CallGraph.isCalled_iff]
  have hdeclared : declared = t.symbols.filter fun s => s.isEntry && !g.roots.contains s.name := by
    refine List.filter_congr fun s _ => ?_
    rw [hroots]
    simp
  simp only [scan_eq_detect]
  refine ⟨by rw [hroots, hdeclared, detect, candidates], nodup_names_detect most g t, ?_⟩
  intro g' h
  simp only [detect, candidates, h.roots_eq]

/-- A root that calls itself as well as a function that is declared to be an entry point. -/
def selfCaller : CallGraph :=
  .ofList [("main", ["main", "work"]), ("work", [])]

theorem scan_exact_selfCaller :
    let g' : CallGraph := .ofList [("main", ["work"]), ("work", [])]
    let t : SymbolTable := .ofList [{ name := "work", isEntry := true }, { name := "main" }]
    selfCaller.SameForOthers g' ∧ scan 2 selfCaller t = [⟨"main", .root⟩, ⟨"work", .declared⟩] ∧
      scan 2 g' t = scan 2 selfCaller t := by
  intro g' t
  have hentries : selfCaller.calls.entries = [("main", ["main", "work"]), ("work", [])] := rfl
  have hentries' : g'.calls.entries = [("main", ["work"]), ("work", [])] := rfl
  have hsame : selfCaller.SameForOthers g' := by
    refine ⟨rfl, fun caller callee hne => ?_⟩
    simp only [CallGraph.callees, Keyed.get?, hentries, hentries', Entries.lookup_cons]
    split
    next h => simp [h ▸ hne]
    next => rfl
  exact ⟨hsame, by decide +kernel, (scan_exact 2 selfCaller t).2.2 g' hsame⟩

end EntryPoint

end CallChart
