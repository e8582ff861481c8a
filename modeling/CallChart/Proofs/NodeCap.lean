import CallChart.Proofs.Roster
import CallChart.Proofs.Walk

/-!
# The cap on nodes

A smaller cap on nodes only cuts the list of nodes short. `Roster.firsts n r` is the roster that
stops behind the first `n` nodes of `r`. Of two walks whose caps are `n ≤ m`, from rosters of
which the first is the `firsts n` of the second, the first ends at the `firsts n` of where the
second ends (`Walk.visit_firsts`). While the larger roster has less than `n` nodes the two are
equal and take the same steps ; from then on the smaller walk is full, and the larger one only
adds nodes behind the first `n`.
-/

namespace CallChart

namespace Roster

/-- The roster that stops behind the first `n` nodes. -/
def firsts (n : Nat) (r : Roster) : Roster :=
  { r with nodes := r.nodes.take n }

theorem size_firsts (n : Nat) (r : Roster) : (r.firsts n).size = min n r.size := by
  simp [firsts, size]

theorem firsts_extends (n : Nat) (r : Roster) : (r.firsts n).Extends r :=
  ⟨rfl, List.take_prefix n r.nodes⟩

theorem firsts_of_size_le {n : Nat} {r : Roster} (h : r.size ≤ n) : r.firsts n = r := by
  simp [firsts, List.take_of_length_le h]

/-- What comes behind a roster of `n` nodes does not change its first `n`. -/
theorem firsts_of_extends {n : Nat} {r r' : Roster} (h : r.Extends r') (hn : n ≤ r.size) :
    r'.firsts n = r.firsts n := by
  obtain ⟨hlevel, more, hmore⟩ := h
  simp [firsts, hlevel, ← hmore, List.take_append_of_le_length hn]

theorem size_push (r : Roster) (name : String) (symbol : Option Symbol) (isEntry : Bool)
    (depth : Option Nat) : (r.push name symbol isEntry depth).size = r.size + 1 := by
  simp [size, push]

end Roster

/-! ## Two walks -/

namespace Walk

variable {g : CallGraph} {t : SymbolTable} {limits : WalkLimits} {n m : Nat}

/-- A walk from a full roster leaves it as it is. -/
theorem visit_roster_of_isFull {w : Walk} (h : w.isFull limits = true) (left depth : Nat)
    (name : String) : (visit g t limits left depth w name).roster = w.roster := by
  cases left with
  | zero => rfl
  | succ left => rw [visit, if_pos h, report_roster]

theorem follow_roster_of_isFull {w : Walk} (h : w.isFull limits = true) (caller : String)
    (visit : Walk → String → Walk) (callees : List String) :
    (follow limits caller visit w callees).roster = w.roster := by
  cases callees with
  | nil => rfl
  | cons callee callees => rw [follow, if_pos h, report_roster]

/-- Once the larger roster has `n` nodes, the smaller walk is full. -/
theorem isFull_of_firsts {w v : Walk} (h : w.roster = v.roster.firsts n)
    (hn : n ≤ v.roster.size) : w.isFull { limits with nodes := n } = true := by
  rw [isFull_iff, h, Roster.size_firsts]
  exact Nat.le_min.2 ⟨Nat.le_refl n, hn⟩

/-- The two walks from visit to visit, if each visit keeps them in step. -/
theorem follow_firsts {caller : String} {visit₁ visit₂ : Walk → String → Walk} (hnm : n ≤ m)
    (hstep : ∀ (w v : Walk) callee, w.roster = v.roster.firsts n →
      (visit₁ w callee).roster = (visit₂ v callee).roster.firsts n)
    (hgrow : ∀ (v : Walk) callee, v.roster.Extends (visit₂ v callee).roster) :
    ∀ (callees : List String) (w v : Walk), w.roster = v.roster.firsts n →
      (follow { limits with nodes := n } caller visit₁ w callees).roster =
        (follow { limits with nodes := m } caller visit₂ v callees).roster.firsts n
  | [], _, _, h => h
  | callee :: callees, w, v, h => by
    rcases Nat.lt_or_ge v.roster.size n with hlt | hge
    · have hw : w.isFull { limits with nodes := n } = false := by
        rw [Bool.eq_false_iff, Ne, isFull_iff, h, Roster.size_firsts]
        simp only
        omega
      have hv : v.isFull { limits with nodes := m } = false := by
        rw [Bool.eq_false_iff, Ne, isFull_iff]
        simp only
        omega
      simp only [follow, hw, hv, Bool.false_eq_true, if_false]
      exact follow_firsts hnm hstep hgrow callees _ _ (hstep w v callee h)
    · have hv : v.roster.Extends
          (follow { limits with nodes := m } caller visit₂ v (callee :: callees)).roster :=
        follow_keeps (P := fun v' => v.roster.Extends v'.roster) (fun _ _ h => h)
          (fun v' callee h => h.trans (hgrow v' callee)) v _ (.refl _)
      rw [follow_roster_of_isFull (isFull_of_firsts h hge), Roster.firsts_of_extends hv hge, h]

/-- A visit with the smaller cap ends at the first nodes of the visit with the larger one. -/
theorem visit_firsts (hnm : n ≤ m) :
    ∀ (left depth : Nat) (w v : Walk) (name : String), w.roster = v.roster.firsts n →
      (visit g t { limits with nodes := n } left depth w name).roster =
        (visit g t { limits with nodes := m } left depth v name).roster.firsts n
  | 0, _, _, _, _, h => h
  | left + 1, depth, w, v, name, h => by
    rcases Nat.lt_or_ge v.roster.size n with hlt | hge
    · -- Below the smaller cap the rosters are equal, and both walks go on.
      have heq : w.roster = v.roster := h.trans (Roster.firsts_of_size_le (Nat.le_of_lt hlt))
      have hw : w.isFull { limits with nodes := n } = false := by
        rw [Bool.eq_false_iff, Ne, isFull_iff, heq]
        simpa using hlt
      have hv : v.isFull { limits with nodes := m } = false := by
        rw [Bool.eq_false_iff, Ne, isFull_iff]
        simpa using Nat.lt_of_lt_of_le hlt hnm
      simp only [visit, hw, hv, Bool.false_eq_true, if_false, heq]
      split
      · exact h
      cases t.get? name with
      | none => exact h
      | some s =>
        refine follow_firsts hnm (visit_firsts hnm left (depth + 1)) (extends_visit left _) _ _ _ ?_
        rw [enrol_roster, enrol_roster, heq, Roster.firsts_of_size_le]
        rw [Roster.size_push]
        exact hlt
    · rw [visit_roster_of_isFull (isFull_of_firsts h hge),
        Roster.firsts_of_extends (extends_visit (left + 1) depth v name) hge, h]

end Walk

/-! ## Two charts -/

namespace Chart

/-- The walks from all entry points with the smaller cap end at the first nodes of the walks with
the larger one. -/
theorem collect_firsts {s : Settings} {d : Document} {n m : Nat} (hnm : n ≤ m) :
    ∀ (es : List EntryPoint) (r r' : Roster) (log log' : Log), r = r'.firsts n →
      (collect { s with nodes := n } d r log es).1 =
        (collect { s with nodes := m } d r' log' es).1.firsts n
  | [], _, _, _, _, h => h
  | e :: es, r, r', log, log', h => by
    rcases Nat.lt_or_ge r'.size n with hlt | hge
    · have heq : r = r' := h.trans (Roster.firsts_of_size_le (Nat.le_of_lt hlt))
      simp only [collect, heq, Nat.not_le.2 hlt, Nat.not_le.2 (Nat.lt_of_lt_of_le hlt hnm),
        if_false]
      have hvisit : (r'.collect d.calls d.symbols { s.walkLimits with nodes := n } e.name 0).roster =
          (r'.collect d.calls d.symbols { s.walkLimits with nodes := m } e.name 0).roster.firsts n :=
        Walk.visit_firsts hnm _ _ ⟨r', [], []⟩ ⟨r', [], []⟩ _ (heq ▸ h)
      exact collect_firsts hnm es _ _ _ _ hvisit
    · have hfull : n ≤ r.size := by
        rw [h, Roster.size_firsts]
        exact Nat.le_min.2 ⟨Nat.le_refl n, hge⟩
      rw [Roster.firsts_of_extends (extends_collect r' log' (e :: es)) hge, ← h, collect,
        if_pos hfull]

/-- The cap on nodes only truncates : with the smaller cap a chart has the first nodes it has with
the larger one, with the same ids and the same records, and each of their names finds the same id
and the same mark of an entry point. -/
theorem nodeCap_truncates (s : Settings) (d : Document) (level : Level) (es : List EntryPoint)
    (log log' : Log) {n m : Nat} (hnm : n ≤ m) :
    let few := (collect { s with nodes := n } d ⟨level, []⟩ log es).1
    let many := (collect { s with nodes := m } d ⟨level, []⟩ log' es).1
    few.identified = many.identified.take n ∧
      few.metadata.nodes.entries = many.metadata.nodes.entries.take n ∧
      ∀ name ∈ few.names, few.id? name = many.id? name ∧ few.isEntry name = many.isEntry name := by
  intro few many
  have hfew : few = many.firsts n := collect_firsts hnm es _ _ log log' (by simp [Roster.firsts])
  have hids : few.identified = many.identified.take n := by
    rw [hfew, Roster.identified_take, Roster.firsts, Roster.identified]
  have hext : few.Extends many := hfew ▸ Roster.firsts_extends n many
  refine ⟨hids, ?_, fun name hname => ?_⟩
  · rw [Roster.entries_metadata_nodes, Roster.entries_metadata_nodes, hids, List.map_take]
  · exact ⟨(hext.id?_eq hname).symm, (hext.isEntry_eq hname).symm⟩

/-- A function that calls two others, the first of which calls it back. -/
def fork : Document where
  symbols := .ofList [{ name := "a" }, { name := "b" }, { name := "c" }]
  calls := .ofList [("a", ["b", "c"]), ("b", ["a"])]

theorem nodeCap_truncates_fork :
    let few := (collect { nodes := 2 } fork ⟨.minimal, []⟩ [] [⟨"a", .root⟩]).1
    let many := (collect { nodes := 7 } fork ⟨.minimal, []⟩ [] [⟨"a", .root⟩]).1
    2 ≤ 7 ∧ few.names = ["a", "b"] ∧ many.names = ["a", "b", "c"] ∧
      few.identified = many.identified.take 2 ∧
      few.metadata.nodes.entries = many.metadata.nodes.entries.take 2 ∧
      ∀ name ∈ few.names, few.id? name = many.id? name ∧ few.isEntry name = many.isEntry name :=
  ⟨by decide, by decide +kernel, by decide +kernel,
    nodeCap_truncates {} fork .minimal [⟨"a", .root⟩] [] [] (by decide)⟩

end Chart

end CallChart
