import CallChart.Chart
import CallChart.Proofs.Roster

/-!
# Edges of a chart

Among the first calls of a caller each callee counts once, at its first place
(`Chart.mem_firstCalls`, `Chart.nodup_firstCalls`). An edge is drawn exactly for such a call
between two nodes that are shown (`Edge.Drawn`, `Chart.mem_edges`), and no two edges have the same
ends (`Chart.nodup_edges`). The key of an edge tells its ends (`MetadataStore.edgeKey_inj`).

A pass over the calls draws these edges, in this order (`EdgePass.edges_run`) : names have ids of
their own, so the ends of a call were seen only if the same caller called the same callee before.
-/

namespace List

theorem zipIdx_take_succ {α : Type*} {l : List α} {a : α} {k : Nat} (hk : l[k]? = some a) :
    (l.take (k + 1)).zipIdx = (l.take k).zipIdx ++ [(a, k)] := by
  have hlt := (getElem?_eq_some_iff.1 hk).1
  rw [take_add_one, hk, Option.toList_some, zipIdx_append, length_take_of_le (Nat.le_of_lt hlt),
    Nat.zero_add]
  rfl

end List

namespace CallChart

namespace MetadataStore

/-- The key of an edge tells its ends if they hold no hyphen. -/
theorem edgeKey_inj_of_notMem {source target source' target' : String}
    (hsource : '-' ∉ source.toList) (htarget : '-' ∉ target.toList) :
    edgeKey source target = edgeKey source' target' ↔ source = source' ∧ target = target' := by
  have harrow : "->".toList = ['-', '>'] := rfl
  rw [← String.toList_inj]
  simp only [edgeKey, String.toList_append, harrow, List.append_assoc, List.cons_append,
    List.nil_append]
  rw [List.append_cons_inj_of_notMem hsource (by simp [htarget]), List.cons.injEq,
    String.toList_inj, String.toList_inj]
  simp only [true_and]

/-- Keys of edges between nodes are the same only if the ends are. -/
theorem edgeKey_inj {i j k l : Nat} :
    edgeKey (nodeId i) (nodeId j) = edgeKey (nodeId k) (nodeId l) ↔ i = k ∧ j = l := by
  have hyphen : ∀ k, '-' ∉ (nodeId k).toList := fun k h => by
    rw [toList_nodeId, List.mem_cons, or_iff_right (by decide)] at h
    exact absurd (Nat.isDigit_of_mem_toDigits (by decide) (by decide) h) (by decide)
  rw [edgeKey_inj_of_notMem (hyphen i) (hyphen j), nodeId_inj, nodeId_inj]

end MetadataStore

/-- An edge stands for a call between two nodes that are shown, counted at its first place. -/
structure Edge.Drawn (s : Settings) (d : Document) (r : Roster) (shown : List String)
    (e : Edge) : Prop where
  source : r.id? e.caller = some e.source
  target : r.id? e.callee = some e.target
  source_shown : e.source ∈ shown
  target_shown : e.target ∈ shown
  call : e.callee ∈ (d.calls.callees e.caller).take s.calls
  index : e.index = (d.calls.callees e.caller).idxOf e.callee

namespace Chart

/-! ## First calls -/

/-- The first call of each callee among the first `most` calls, with its place. -/
def firstCalls (most : Nat) (callees : List String) : List (String × Nat) :=
  (callees.take most).zipIdx.filter fun call => callees.idxOf call.1 == call.2

theorem mem_firstCalls {most : Nat} {callees : List String} {callee : String} {k : Nat} :
    (callee, k) ∈ firstCalls most callees ↔
      callee ∈ callees.take most ∧ k = callees.idxOf callee := by
  simp only [firstCalls, List.mem_filter, List.mk_mem_zipIdx_iff_getElem?, beq_iff_eq]
  constructor
  · rintro ⟨hk, rfl⟩
    exact ⟨List.mem_of_getElem? hk, rfl⟩
  · rintro ⟨htake, rfl⟩
    have hmem := List.mem_of_mem_take htake
    refine ⟨?_, rfl⟩
    rw [List.getElem?_take_of_lt ((List.mem_take_iff_idxOf_lt hmem).1 htake),
      List.getElem?_idxOf hmem]

/-- Each callee counts once. -/
theorem nodup_firstCalls (most : Nat) (callees : List String) :
    ((firstCalls most callees).map Prod.fst).Nodup := by
  have hnd : (firstCalls most callees).Nodup := by
    refine List.Nodup.filter _ (List.Nodup.of_map Prod.snd ?_)
    rw [List.zipIdx_map_snd]
    exact List.nodup_range'
  refine hnd.map_on ?_
  rintro ⟨callee, j⟩ hj ⟨_, k⟩ hk rfl
  rw [(mem_firstCalls.1 hj).2, (mem_firstCalls.1 hk).2]

theorem mem_map_fst_firstCalls {most : Nat} {callees : List String} {callee : String} :
    callee ∈ (firstCalls most callees).map Prod.fst ↔ callee ∈ callees.take most := by
  simp [mem_firstCalls]

/-- The next call counts unless one of the same callee does. -/
theorem firstCalls_succ {callees : List String} {callee : String} {k : Nat}
    (hk : callees[k]? = some callee) :
    firstCalls (k + 1) callees = firstCalls k callees ++
      if callee ∈ (firstCalls k callees).map Prod.fst then [] else [(callee, k)] := by
  have hmem := List.mem_of_getElem? hk
  have hidx : callees.idxOf callee = k ↔ callee ∉ callees.take k := by
    have hlt : callees.idxOf callee < k + 1 :=
      (List.mem_take_iff_idxOf_lt hmem).1 (by simp [List.take_add_one, hk])
    rw [List.mem_take_iff_idxOf_lt hmem]
    omega
  have hlast : [(callee, k)].filter (fun call => callees.idxOf call.1 == call.2) =
      if callee ∈ callees.take k then [] else [(callee, k)] := by
    simp [List.filter_cons, hidx]
  simp only [mem_map_fst_firstCalls]
  rw [firstCalls, List.zipIdx_take_succ hk, List.filter_append, hlast, firstCalls]

/-! ## Edges -/

/-- The edges of some calls of one node, those to nodes that are shown. -/
def edgesFrom (r : Roster) (shown : List String) (source caller : String)
    (calls : List (String × Nat)) : List Edge :=
  calls.filterMap fun call =>
    match r.id? call.1 with
    | some target =>
      if shown.contains target then some ⟨source, target, caller, call.1, call.2⟩ else none
    | none => none

/-- The edges between nodes that are shown. -/
def edges (s : Settings) (d : Document) (r : Roster) (shown : List String) : List Edge :=
  (r.identified.filter fun p => shown.contains p.1).flatMap fun p =>
    edgesFrom r shown p.1 p.2.name (firstCalls s.calls (d.calls.callees p.2.name))

variable {s : Settings} {d : Document} {r : Roster} {shown : List String}

@[simp]
theorem edgesFrom_nil (r : Roster) (shown : List String) (source caller : String) :
    edgesFrom r shown source caller [] = [] :=
  rfl

theorem edgesFrom_append (r : Roster) (shown : List String) (source caller : String)
    (calls calls' : List (String × Nat)) : edgesFrom r shown source caller (calls ++ calls') =
      edgesFrom r shown source caller calls ++ edgesFrom r shown source caller calls' :=
  List.filterMap_append

theorem mem_edgesFrom {source caller : String} {calls : List (String × Nat)} {e : Edge} :
    e ∈ edgesFrom r shown source caller calls ↔ e.source = source ∧ e.caller = caller ∧
      r.id? e.callee = some e.target ∧ e.target ∈ shown ∧ (e.callee, e.index) ∈ calls := by
  simp only [edgesFrom, List.mem_filterMap, Prod.exists]
  constructor
  · rintro ⟨callee, k, hmem, he⟩
    split at he
    next target htarget =>
      split at he
      next hshown =>
        obtain rfl := Option.some.inj he
        exact ⟨rfl, rfl, htarget, List.contains_iff_mem.1 hshown, hmem⟩
      next => exact absurd he (by simp)
    next => exact absurd he (by simp)
  · rintro ⟨rfl, rfl, htarget, hshown, hmem⟩
    refine ⟨e.callee, e.index, hmem, ?_⟩
    simp [htarget, hshown]

/-- The edges of a chart are those that are to be drawn. -/
theorem mem_edges (hnd : r.names.Nodup) {e : Edge} :
    e ∈ edges s d r shown ↔ e.Drawn s d r shown := by
  simp only [edges, List.mem_flatMap, List.mem_filter, mem_edgesFrom, mem_firstCalls, Prod.exists,
    List.contains_iff_mem]
  constructor
  · rintro ⟨_, n, ⟨hn, hsource⟩, rfl, hcaller, htarget, hshown, hcall, hindex⟩
    rw [← hcaller] at hcall hindex
    exact ⟨(Roster.id?_eq_some_iff hnd).2 ⟨n, hn, hcaller.symm⟩, htarget, hsource, hshown, hcall,
      hindex⟩
  · intro h
    obtain ⟨n, hn, hcaller⟩ := (Roster.id?_eq_some_iff hnd).1 h.source
    refine ⟨e.source, n, ⟨hn, h.source_shown⟩, rfl, hcaller.symm, h.target, h.target_shown, ?_⟩
    rw [hcaller]
    exact ⟨h.call, h.index⟩

theorem nodup_edgesFrom (hnd : r.names.Nodup) (shown : List String) (source caller : String)
    {calls : List (String × Nat)} (hcalls : (calls.map Prod.fst).Nodup) :
    ((edgesFrom r shown source caller calls).map Edge.target).Nodup := by
  rw [edgesFrom, List.map_filterMap]
  refine List.pairwise_filterMap.2 ((List.pairwise_map.1 hcalls).imp ?_)
  rintro ⟨callee, j⟩ ⟨callee', k⟩ hne target htarget target' htarget' rfl
  have hcallee : r.id? callee = some target := by grind
  have hcallee' : r.id? callee' = some target := by grind
  exact hne (Roster.id?_inj hnd hcallee hcallee')

/-- No two edges have the same ends. -/
theorem nodup_edges (hnd : r.names.Nodup) : ((edges s d r shown).map Edge.ends).Nodup := by
  rw [edges, List.map_flatMap]
  refine List.pairwise_flatMap.2 ⟨fun p _ => ?_, ?_⟩
  · have hcalls := nodup_firstCalls s.calls (d.calls.callees p.2.name)
    have htargets := nodup_edgesFrom hnd shown p.1 p.2.name hcalls
    refine List.pairwise_map.2 ((List.pairwise_map.1 htargets).imp ?_)
    exact fun hne h => hne (Prod.mk.inj h).2
  · have hids : (r.identified.filter fun p => shown.contains p.1).Pairwise fun p q => p.1 ≠ q.1 :=
      (List.pairwise_map.1 r.nodup_ids).sublist List.filter_sublist
    refine hids.imp ?_
    simp only [List.mem_map]
    rintro p q hne _ ⟨e, he, rfl⟩ _ ⟨e', he', rfl⟩ h
    rw [mem_edgesFrom] at he he'
    exact hne (he.1.symm.trans ((Prod.mk.inj h).1.trans he'.1))

end Chart

/-! ## The pass -/

namespace EdgePass

open Chart

variable {s : Settings} {d : Document} {r : Roster} {shown : List String} {pass : EdgePass}

/-- An edge is drawn unless one with its ends has been drawn. -/
theorem edges_draw (pass : EdgePass) (e : Edge) : (pass.draw e).edges =
    if e.ends ∈ pass.edges.map Edge.ends then pass.edges else pass.edges ++ [e] := by
  simp only [draw, List.contains_iff_mem, pass.mem_seen]
  split <;> rfl

/-- Names have ids of their own, so a call of one node finds its ends among the edges of that
node only if the callee was called before. -/
theorem mem_ends_edgesFrom (hnd : r.names.Nodup) {source caller callee target : String}
    {calls : List (String × Nat)} (htarget : r.id? callee = some target) (hshown : target ∈ shown) :
    (source, target) ∈ (edgesFrom r shown source caller calls).map Edge.ends ↔
      callee ∈ calls.map Prod.fst := by
  simp only [List.mem_map, mem_edgesFrom, Prod.exists, exists_and_right, exists_eq_right]
  constructor
  · rintro ⟨e, ⟨-, -, hcallee, -, hmem⟩, hends⟩
    obtain ⟨-, rfl⟩ := Prod.mk.inj hends
    rw [Roster.id?_inj hnd htarget hcallee]
    exact ⟨e.index, hmem⟩
  · rintro ⟨k, hmem⟩
    exact ⟨⟨source, target, caller, callee, k⟩, ⟨rfl, rfl, htarget, hshown, hmem⟩, rfl⟩

/-- What a call adds to the edges of one node, behind the edges of others. -/
theorem edges_meetCall (hnd : r.names.Nodup) {source caller : String} {others : List Edge}
    {calls : List (String × Nat)} (hothers : ∀ e ∈ others, e.source ≠ source)
    (hedges : pass.edges = others ++ edgesFrom r shown source caller calls) (callee : String)
    (k : Nat) :
    (meetCall r shown source caller pass (callee, k)).edges = others ++
      edgesFrom r shown source caller
        (calls ++ if callee ∈ calls.map Prod.fst then [] else [(callee, k)]) := by
  rw [edgesFrom_append, ← List.append_assoc, ← hedges, meetCall]
  split
  next hnone => split <;> simp [edgesFrom, hnone]
  next target htarget =>
    split
    next hshown =>
      rw [List.contains_iff_mem] at hshown
      have hends : (source, target) ∈ pass.edges.map Edge.ends ↔ callee ∈ calls.map Prod.fst := by
        rw [hedges, List.map_append, List.mem_append, or_iff_right]
        · exact mem_ends_edgesFrom hnd htarget hshown
        · intro hmem
          obtain ⟨e, he, hends⟩ := List.mem_map.1 hmem
          exact hothers e he (Prod.mk.inj hends).1
      have hcall : edgesFrom r shown source caller [(callee, k)] =
          [⟨source, target, caller, callee, k⟩] := by
        simp [edgesFrom, htarget, hshown]
      simp only [edges_draw, Edge.ends, hends]
      split
      next => rw [edgesFrom_nil, List.append_nil]
      next => rw [hcall]
    next hshown =>
      rw [List.contains_iff_mem] at hshown
      split <;> simp [edgesFrom, htarget, hshown]

/-- A node that has no edge yet gets the edges of its first calls. -/
theorem edges_foldl_meetCall (hnd : r.names.Nodup) {source : String} (caller : String)
    (hsource : ∀ e ∈ pass.edges, e.source ≠ source) (callees : List String) (most : Nat) :
    ((callees.take most).zipIdx.foldl (meetCall r shown source caller) pass).edges =
      pass.edges ++ edgesFrom r shown source caller (firstCalls most callees) := by
  induction most with
  | zero => simp [firstCalls, edgesFrom]
  | succ k ih =>
    cases hk : callees[k]? with
    | none =>
      -- All calls have been met, so one more to take is none.
      rw [firstCalls, List.take_add_one, hk, Option.toList_none, List.append_nil]
      exact ih
    | some callee =>
      rw [List.zipIdx_take_succ hk, List.foldl_append, firstCalls_succ hk]
      exact edges_meetCall hnd hsource ih callee k

theorem edges_meetNode (hnd : r.names.Nodup) {p : String × Node}
    (hsource : ∀ e ∈ pass.edges, e.source ≠ p.1) :
    (meetNode s d r shown pass p).edges = pass.edges ++
      if shown.contains p.1 then
        edgesFrom r shown p.1 p.2.name (firstCalls s.calls (d.calls.callees p.2.name))
      else [] := by
  rw [meetNode]
  split
  next => exact edges_foldl_meetCall hnd p.2.name hsource _ _
  next => rw [List.append_nil]

theorem edges_foldl_meetNode (hnd : r.names.Nodup) : ∀ (ps : List (String × Node))
    (pass : EdgePass), (ps.map Prod.fst).Nodup → (∀ p ∈ ps, ∀ e ∈ pass.edges, e.source ≠ p.1) →
      (ps.foldl (meetNode s d r shown) pass).edges = pass.edges ++
        (ps.filter fun p => shown.contains p.1).flatMap fun p =>
          edgesFrom r shown p.1 p.2.name (firstCalls s.calls (d.calls.callees p.2.name))
  | [], pass, _, _ => by simp
  | p :: ps, pass, hids, hsource => by
    obtain ⟨hp, hids⟩ := List.nodup_cons.1 hids
    have hmeet : (meetNode s d r shown pass p).edges = _ :=
      edges_meetNode hnd (hsource p List.mem_cons_self)
    -- The edges of `p` begin at `p`, and no node behind it has the same id.
    have hrest : ∀ q ∈ ps, ∀ e ∈ (meetNode s d r shown pass p).edges, e.source ≠ q.1 := by
      intro q hq e he
      rw [hmeet, List.mem_append] at he
      rcases he with he | he
      · exact hsource q (List.mem_cons_of_mem _ hq) e he
      · split at he
        next =>
          rw [(mem_edgesFrom.1 he).1]
          exact fun h => hp (h ▸ List.mem_map_of_mem hq)
        next => simp at he
    rw [List.foldl_cons, edges_foldl_meetNode hnd ps _ hids hrest, hmeet, List.append_assoc,
      List.filter_cons]
    split <;> rfl

/-- A pass draws the edges between nodes that are shown. -/
theorem edges_run (hnd : r.names.Nodup) :
    (run s d r shown).edges = Chart.edges s d r shown :=
  edges_foldl_meetNode hnd r.identified {} r.nodup_ids (by simp)

end EdgePass

end CallChart
