import CallChart.Check

/-!
# The check of a diagram, condition by condition

`Limits.check` goes through its conditions in order and stops at the first that fails.
`Limits.exceeded?` is the first limit that is passed, `Limits.verdict` what the counts of a text
decide, and `Limits.check_eq` says what a check gives : of a text between fences that is balanced,
keeps to the limits and declares its type, the counts, and else the first thing that is wrong.
-/

namespace CallChart

namespace Limits

/-- The first quantity of which there is more than allowed, with its count and its limit. -/
def exceeded? (limits : Limits) (counts : Counts) : Option (Quantity × Nat × Nat) :=
  [(.nodes, counts.nodes, limits.nodes), (.edges, counts.edges, limits.edges),
    (.blocks, counts.opened, limits.blocks), (.size, counts.size, limits.size)].find?
    fun q => q.2.2 < q.2.1

theorem exceeded?_eq_none_iff {limits : Limits} {counts : Counts} :
    limits.exceeded? counts = none ↔ counts.nodes ≤ limits.nodes ∧ counts.edges ≤ limits.edges ∧
      counts.opened ≤ limits.blocks ∧ counts.size ≤ limits.size := by
  simp [exceeded?]

/-- What counts alone decide : whether blocks are balanced and no limit is exceeded. -/
def verdict (limits : Limits) (counts : Counts) : Except Failure Counts :=
  if counts.opened ≠ counts.closed then .error (.unbalanced counts.opened counts.closed)
  else
    match limits.exceeded? counts with
    | some (quantity, count, limit) => .error (.limitExceeded quantity count limit)
    | none => .ok counts

theorem verdict_of_unbalanced {limits : Limits} {counts : Counts}
    (h : counts.opened ≠ counts.closed) :
    limits.verdict counts = .error (.unbalanced counts.opened counts.closed) :=
  if_pos h

theorem verdict_of_exceeded {limits : Limits} {counts : Counts} {q : Quantity × Nat × Nat}
    (h : counts.opened = counts.closed) (hq : limits.exceeded? counts = some q) :
    limits.verdict counts = .error (.limitExceeded q.1 q.2.1 q.2.2) := by
  rw [verdict, if_neg (not_not_intro h), hq]

theorem verdict_of_within {limits : Limits} {counts : Counts}
    (h : counts.opened = counts.closed) (hq : limits.exceeded? counts = none) :
    limits.verdict counts = .ok counts := by
  rw [verdict, if_neg (not_not_intro h), hq]

/-- Counts that are passed are the counts themselves. -/
theorem eq_of_verdict_eq_ok {limits : Limits} {counts counts' : Counts}
    (h : limits.verdict counts = .ok counts') : counts' = counts := by
  unfold verdict at h
  split at h
  · cases h
  · split at h
    · cases h
    · exact (Except.ok.inj h).symm

/-- Counts are refused for nothing but unbalanced blocks or a limit. -/
theorem of_verdict_eq_error {limits : Limits} {counts : Counts} {failure : Failure}
    (h : limits.verdict counts = .error failure) :
    failure = .unbalanced counts.opened counts.closed ∨
      ∃ quantity count limit, failure = .limitExceeded quantity count limit := by
  unfold verdict at h
  split at h
  · exact .inl (Except.error.inj h).symm
  · split at h
    next quantity count limit _ => exact .inr ⟨quantity, count, limit, (Except.error.inj h).symm⟩
    next => cases h

/-- The limits are ensured one after another. -/
theorem ensure_bind (limits : Limits) (counts : Counts) (rest : Except Failure Counts) :
    (do
      ensure .nodes counts.nodes limits.nodes
      ensure .edges counts.edges limits.edges
      ensure .blocks counts.opened limits.blocks
      ensure .size counts.size limits.size
      rest) =
      match limits.exceeded? counts with
      | some (quantity, count, limit) => .error (.limitExceeded quantity count limit)
      | none => rest := by
  simp only [exceeded?, ensure, List.find?_cons, List.find?_nil]
  by_cases hnodes : limits.nodes < counts.nodes
  · simp [hnodes, bind, Except.bind]
  by_cases hedges : limits.edges < counts.edges
  · simp [hnodes, hedges, bind, Except.bind]
  by_cases hblocks : limits.blocks < counts.opened
  · simp [hnodes, hedges, hblocks, bind, Except.bind]
  by_cases hsize : limits.size < counts.size
  · simp [hnodes, hedges, hblocks, hsize, bind, Except.bind]
  · simp [hnodes, hedges, hblocks, hsize, bind, Except.bind]

/-- What a check gives, condition by condition. -/
theorem check_eq (limits : Limits) (text : List Char) : limits.check text =
    match Diagram.behindFence? (Text.lines text) with
    | none => .error .missingOpeningFence
    | some behind =>
      if behind.any Diagram.isClosingFence = false then .error .missingClosingFence
      else limits.verdict (Counts.measure text) >>= fun counts =>
        if (behind.take Diagram.window).any Diagram.declaresType then .ok counts
        else .error .missingType := by
  unfold check
  cases Diagram.behindFence? (Text.lines text) with
  | none => rfl
  | some behind =>
    cases hclosing : behind.any Diagram.isClosingFence with
    | false =>
      simp only [hclosing, Bool.false_eq_true, if_false, if_true]
      rfl
    | true =>
      simp only [hclosing, if_true, Bool.true_eq_false, if_false]
      generalize Counts.measure text = counts
      by_cases hbalanced : counts.opened = counts.closed
      · rw [if_pos hbalanced, verdict, if_neg (not_not_intro hbalanced), ensure_bind]
        cases limits.exceeded? counts <;> rfl
      · rw [if_neg hbalanced, verdict, if_pos hbalanced]
        rfl

end Limits

end CallChart
