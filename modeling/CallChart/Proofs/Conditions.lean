import CallChart.Proofs.Check
import CallChart.Proofs.LineKinds

/-!
# The conditions of a check

What a check asks of a text is said here without the functions that carry it out. A line opens the
fence, closes it or declares a type by what it is made of (`Diagram.OpensFence`,
`Diagram.ClosesFence`, `Diagram.DeclaresType`), and the windows are positions of lines, counted from
the first line near the top that opens the fence (`Diagram.FenceAt`).

`Limits.conditions` lists the conditions in their order, each with the failure that is reported if
it is the first that does not hold. A check passes with the counts of the text if all hold, and else
fails with the failure of the first that does not (`Limits.reports_check`). Greater limits change
none but the conditions on limits (`Limits.AtMost`). Main statement : `Limits.check_conditions`.
-/

namespace CallChart

open Text (Blank)

namespace Diagram

/-! ## Lines -/

/-- White space, and then the mark of the opening fence, whatever follows. -/
def OpensFence (line : List Char) : Prop :=
  ∃ before rest, Blank before ∧ line = before ++ ("```mermaid".toList ++ rest)

/-- The mark of the closing fence, and white space around it. -/
def ClosesFence (line : List Char) : Prop :=
  ∃ before after, Blank before ∧ Blank after ∧ line = before ++ ("```".toList ++ after)

/-- White space, and then a diagram type as a word of its own. -/
def DeclaresType (line : List Char) : Prop :=
  ∃ before word rest, Blank before ∧ word ∈ types ∧ (∀ c ∈ rest.head?, Text.isBlank c = true) ∧
    line = before ++ (word ++ rest)

variable {line : List Char}

theorem isOpeningFence_iff : isOpeningFence line = true ↔ OpensFence line := by
  have hmark : fence ++ "mermaid".toList = "```mermaid".toList := rfl
  rw [isOpeningFence, hmark, Text.beginsWith, List.isPrefixOf_iff_prefix]
  constructor
  · rintro ⟨rest, hrest⟩
    obtain ⟨before, hbefore, hline⟩ := Text.exists_blank_trimStart line
    exact ⟨before, rest, hbefore, hrest ▸ hline⟩
  · rintro ⟨before, rest, hbefore, rfl⟩
    have hcons : "```mermaid".toList ++ rest = '`' :: ("``mermaid".toList ++ rest) := rfl
    rw [hcons, Text.trimStart_blank_append hbefore rfl, ← hcons]
    exact List.prefix_append _ _

theorem isClosingFence_iff : isClosingFence line = true ↔ ClosesFence line := by
  rw [isClosingFence, beq_iff_eq]
  constructor
  · intro h
    obtain ⟨before, hbefore, hline⟩ := Text.exists_blank_trimStart line
    obtain ⟨after, hafter, hrest⟩ := Text.exists_blank_trimEnd (Text.trimStart line)
    rw [← Text.trim, h] at hrest
    exact ⟨before, after, hbefore, hafter, hrest ▸ hline⟩
  · rintro ⟨before, after, hbefore, hafter, rfl⟩
    have hcons : "```".toList ++ after = '`' :: ("``".toList ++ after) := rfl
    have hlast : "```".toList.getLast? = some '`' := rfl
    rw [Text.trim, hcons, Text.trimStart_blank_append hbefore rfl, ← hcons,
      Text.trimEnd_append hlast rfl, Text.trimEnd_blank hafter]
    rfl

theorem declaresType_iff : declaresType line = true ↔ DeclaresType line := by
  rw [declaresType, List.contains_iff_mem, Text.firstWord]
  constructor
  · intro h
    obtain ⟨before, hbefore, hline⟩ := Text.exists_blank_trimStart line
    refine ⟨before, _, (Text.trimStart line).dropWhile fun c => !Text.isBlank c, hbefore, h,
      fun c hc => ?_, ?_⟩
    · have hend := List.head?_dropWhile_not (fun c => !Text.isBlank c) (Text.trimStart line)
      rw [Option.mem_def.1 hc] at hend
      simpa using hend
    · rw [List.takeWhile_append_dropWhile]
      exact hline
  · rintro ⟨before, word, rest, hbefore, hword, hrest, rfl⟩
    -- A type is a word : not empty, and without white space.
    have hwords : types.all (fun word => !word.isEmpty && word.all fun c => !Text.isBlank c) :=
      rfl
    obtain ⟨hne, hsolid⟩ : word ≠ [] ∧ ∀ c ∈ word, Text.isBlank c = false := by
      simpa using List.all_eq_true.1 hwords word hword
    obtain ⟨c, cs, rfl⟩ := List.exists_cons_of_ne_nil hne
    have hend : rest.takeWhile (fun c => !Text.isBlank c) = [] := by
      cases rest with
      | nil => rfl
      | cons c cs => rw [List.takeWhile_cons, hrest c rfl]; rfl
    rw [List.cons_append, Text.trimStart_blank_append hbefore (hsolid c List.mem_cons_self),
      ← List.cons_append, List.takeWhile_append_of_pos (by simpa using hsolid), hend,
      List.append_nil]
    exact hword

/-! ## Positions -/

/-- The line at `k` is among the first five, and the first that opens the fence. -/
structure FenceAt (lines : List (List Char)) (k : Nat) : Prop where
  near : k < 5
  opens : ∃ line, lines[k]? = some line ∧ OpensFence line
  first : ∀ j < k, ∀ line, lines[j]? = some line → ¬OpensFence line

/-- Some line behind the one that opens the fence closes it. -/
def FenceCloses (lines : List (List Char)) : Prop :=
  ∃ k j line, FenceAt lines k ∧ k < j ∧ lines[j]? = some line ∧ ClosesFence line

/-- One of the five lines behind the one that opens the fence declares a type. -/
def TypeDeclared (lines : List (List Char)) : Prop :=
  ∃ k j line, FenceAt lines k ∧ k < j ∧ j ≤ k + 5 ∧ lines[j]? = some line ∧ DeclaresType line

variable {lines behind : List (List Char)}

theorem findIdx?_isOpeningFence {k : Nat} :
    (lines.take window).findIdx? isOpeningFence = some k ↔ FenceAt lines k := by
  rw [List.findIdx?_eq_some_iff_getElem]
  constructor
  · rintro ⟨hlt, hopens, hfirst⟩
    obtain ⟨hnear, hk⟩ : k < 5 ∧ k < lines.length := by simpa [window, Nat.lt_min] using hlt
    rw [List.getElem_take, isOpeningFence_iff] at hopens
    refine ⟨hnear, ⟨_, List.getElem?_eq_getElem hk, hopens⟩, fun j hj line hline hopens' => ?_⟩
    obtain ⟨hjk, rfl⟩ := List.getElem?_eq_some_iff.1 hline
    refine hfirst j hj ?_
    rwa [List.getElem_take, isOpeningFence_iff]
  · rintro ⟨hnear, ⟨line, hline, hopens⟩, hfirst⟩
    obtain ⟨hk, rfl⟩ := List.getElem?_eq_some_iff.1 hline
    refine ⟨by simpa [window, Nat.lt_min] using ⟨hnear, hk⟩, ?_, fun j hj hopens' => ?_⟩
    · rwa [List.getElem_take, isOpeningFence_iff]
    · rw [List.getElem_take, isOpeningFence_iff] at hopens'
      exact hfirst j hj _ (List.getElem?_eq_getElem (hj.trans hk)) hopens'

theorem behindFence?_eq_none_iff :
    behindFence? lines = none ↔ ¬∃ line ∈ lines.take 5, OpensFence line := by
  rw [behindFence?, Option.map_eq_none_iff, List.findIdx?_eq_none_iff]
  simp only [window, ← isOpeningFence_iff, not_exists, not_and, Bool.not_eq_true]

theorem behindFence?_eq_some_iff :
    behindFence? lines = some behind ↔ ∃ k, FenceAt lines k ∧ behind = lines.drop (k + 1) := by
  simp only [behindFence?, Option.map_eq_some_iff, findIdx?_isOpeningFence,
    eq_comm (b := behind)]

/-- There is one line at most that opens the fence. -/
theorem FenceAt.unique {k k' : Nat} (h : FenceAt lines k) (h' : FenceAt lines k') : k = k' :=
  Option.some.inj ((findIdx?_isOpeningFence.2 h).symm.trans (findIdx?_isOpeningFence.2 h'))

theorem mem_drop_succ {k : Nat} {line : List Char} :
    line ∈ lines.drop (k + 1) ↔ ∃ j, k < j ∧ lines[j]? = some line := by
  rw [List.mem_iff_getElem?]
  simp only [List.getElem?_drop]
  constructor
  · rintro ⟨i, hi⟩
    exact ⟨k + 1 + i, by omega, hi⟩
  · rintro ⟨j, hj, hline⟩
    exact ⟨j - (k + 1), by rwa [Nat.add_sub_cancel' hj]⟩

theorem mem_take_drop_succ {k n : Nat} {line : List Char} :
    line ∈ (lines.drop (k + 1)).take n ↔ ∃ j, k < j ∧ j ≤ k + n ∧ lines[j]? = some line := by
  rw [List.mem_iff_getElem?]
  simp only [List.getElem?_take, List.getElem?_drop]
  constructor
  · rintro ⟨i, hi⟩
    split at hi
    · exact ⟨k + 1 + i, by omega, by omega, hi⟩
    · cases hi
  · rintro ⟨j, hj, hle, hline⟩
    exact ⟨j - (k + 1), by rwa [if_pos (by omega), Nat.add_sub_cancel' hj]⟩

theorem fenceCloses_iff {k : Nat} (hk : FenceAt lines k) :
    FenceCloses lines ↔ (lines.drop (k + 1)).any isClosingFence = true := by
  rw [List.any_eq_true]
  constructor
  · rintro ⟨k', j, line, hk', hj, hline, hcloses⟩
    obtain rfl := hk.unique hk'
    exact ⟨line, mem_drop_succ.2 ⟨j, hj, hline⟩, isClosingFence_iff.2 hcloses⟩
  · rintro ⟨line, hmem, hcloses⟩
    obtain ⟨j, hj, hline⟩ := mem_drop_succ.1 hmem
    exact ⟨k, j, line, hk, hj, hline, isClosingFence_iff.1 hcloses⟩

theorem typeDeclared_iff {k : Nat} (hk : FenceAt lines k) :
    TypeDeclared lines ↔ ((lines.drop (k + 1)).take window).any declaresType = true := by
  rw [List.any_eq_true]
  constructor
  · rintro ⟨k', j, line, hk', hj, hle, hline, htype⟩
    obtain rfl := hk.unique hk'
    exact ⟨line, mem_take_drop_succ.2 ⟨j, hj, hle, hline⟩, declaresType_iff.2 htype⟩
  · rintro ⟨line, hmem, htype⟩
    obtain ⟨j, hj, hle, hline⟩ := mem_take_drop_succ.1 hmem
    exact ⟨k, j, line, hk, hj, hle, hline, declaresType_iff.1 htype⟩

end Diagram

/-! ## What a check reports -/

/-- What is reported by conditions that are looked at in order, each with its failure : `value` if
all hold, and else the failure of the first that does not. -/
inductive Reports {α : Type} (value : α) : List (Prop × Failure) → Except Failure α → Prop
  | passed : Reports value [] (.ok value)
  | holds {condition : Prop} {failure : Failure} {rest : List (Prop × Failure)}
    {result : Except Failure α} (h : condition) (later : Reports value rest result) :
    Reports value ((condition, failure) :: rest) result
  | fails {condition : Prop} {failure : Failure} {rest : List (Prop × Failure)}
    (h : ¬condition) : Reports value ((condition, failure) :: rest) (.error failure)

namespace Reports

variable {α : Type} {value : α} {conditions : List (Prop × Failure)} {result : Except Failure α}

theorem eq_ok_iff (h : Reports value conditions result) {a : α} :
    result = .ok a ↔ a = value ∧ ∀ c ∈ conditions, c.1 := by
  induction h with
  | passed => simp [eq_comm]
  | holds h _ ih => simp [ih, h]
  | fails h => simp [h]

theorem eq_error_iff (h : Reports value conditions result) {failure : Failure} :
    result = .error failure ↔ ∃ passed condition rest,
      conditions = passed ++ (condition, failure) :: rest ∧ (∀ c ∈ passed, c.1) ∧ ¬condition := by
  induction h with
  | passed => simp
  | holds h _ ih =>
    rw [ih]
    constructor
    · rintro ⟨passed, condition, rest, rfl, hpassed, hcondition⟩
      exact ⟨_ :: passed, condition, rest, rfl, List.forall_mem_cons.2 ⟨h, hpassed⟩, hcondition⟩
    · rintro ⟨passed, condition, rest, heq, hpassed, hcondition⟩
      cases passed with
      | nil =>
        obtain ⟨heq, -⟩ := List.cons.inj heq
        cases heq
        exact absurd h hcondition
      | cons first passed =>
        obtain ⟨-, rfl⟩ := List.cons.inj heq
        exact ⟨passed, condition, rest, rfl, fun c hc => hpassed c (List.mem_cons_of_mem _ hc),
          hcondition⟩
  | fails h =>
    constructor
    · intro heq
      cases heq
      exact ⟨[], _, _, rfl, by simp, h⟩
    · rintro ⟨passed, condition, rest, heq, hpassed, hcondition⟩
      cases passed with
      | nil =>
        obtain ⟨heq, -⟩ := List.cons.inj heq
        cases heq
        rfl
      | cons first passed =>
        obtain ⟨rfl, -⟩ := List.cons.inj heq
        exact absurd (hpassed _ List.mem_cons_self) h

/-- Conditions that are looked at after others have been passed. -/
theorem bind {β : Type} {value' : β} {conditions' : List (Prop × Failure)}
    {f : α → Except Failure β} (h : Reports value conditions result)
    (h' : Reports value' conditions' (f value)) :
    Reports value' (conditions ++ conditions') (result >>= f) := by
  induction h with
  | passed => exact h'
  | holds h _ ih => exact .holds h ih
  | fails h => exact .fails h

/-- Whether a failure of the first conditions is reported does not depend on the others. -/
theorem eq_error_iff_of_append {back back' : List (Prop × Failure)} {result' : Except Failure α}
    {failure : Failure} (hback : ∀ c ∈ back, c.2 ≠ failure) (hback' : ∀ c ∈ back', c.2 ≠ failure) :
    ∀ front : List (Prop × Failure), Reports value (front ++ back) result →
      Reports value (front ++ back') result' →
        (result = .error failure ↔ result' = .error failure)
  | [], h, h' => by
    have hnot : ∀ {back : List (Prop × Failure)} {result : Except Failure α},
        (∀ c ∈ back, c.2 ≠ failure) → Reports value back result → result ≠ .error failure := by
      intro back result hback h herror
      obtain ⟨passed, condition, rest, rfl, -⟩ := h.eq_error_iff.1 herror
      exact hback (condition, failure) (by simp) rfl
    exact iff_of_false (hnot hback h) (hnot hback' h')
  | (condition, failure') :: front, h, h' => by
    cases h with
    | holds hc later =>
      cases h' with
      | holds _ later' => exact eq_error_iff_of_append hback hback' front later later'
      | fails hc' => exact absurd hc hc'
    | fails hc =>
      cases h' with
      | holds hc' _ => exact absurd hc' hc
      | fails _ => exact Iff.rfl

end Reports

namespace Limits

open Diagram (OpensFence FenceCloses TypeDeclared)

/-- The condition that a quantity keeps to its limit. -/
def within (q : Quantity × Nat × Nat) : Prop × Failure :=
  (q.2.1 ≤ q.2.2, .limitExceeded q.1 q.2.1 q.2.2)

/-- The conditions of a check in their order, each with the failure that reports it. -/
def conditions (limits : Limits) (text : List Char) : List (Prop × Failure) :=
  let lines := Text.lines text
  let counts := Counts.measure text
  [(∃ line ∈ lines.take 5, OpensFence line, .missingOpeningFence),
    (FenceCloses lines, .missingClosingFence),
    (counts.opened = counts.closed, .unbalanced counts.opened counts.closed),
    within (.nodes, counts.nodes, limits.nodes),
    within (.edges, counts.edges, limits.edges),
    within (.blocks, counts.opened, limits.blocks),
    within (.size, counts.size, limits.size),
    (TypeDeclared lines, .missingType)]

/-- Of quantities in order, the first is reported that is greater than its limit. -/
theorem reports_within (counts : Counts) : ∀ quantities : List (Quantity × Nat × Nat),
    Reports counts (quantities.map within)
      (match quantities.find? fun q => q.2.2 < q.2.1 with
        | some (quantity, count, limit) => .error (.limitExceeded quantity count limit)
        | none => .ok counts)
  | [] => .passed
  | (quantity, count, limit) :: quantities => by
    rw [List.find?_cons]
    by_cases h : count ≤ limit
    · simp only [decide_eq_false (Nat.not_lt.2 h)]
      exact .holds h (reports_within counts quantities)
    · simp only [decide_eq_true (Nat.not_le.1 h)]
      exact .fails h

theorem reports_verdict (limits : Limits) (counts : Counts) :
    Reports counts ((counts.opened = counts.closed, .unbalanced counts.opened counts.closed) ::
      [(.nodes, counts.nodes, limits.nodes), (.edges, counts.edges, limits.edges),
        (.blocks, counts.opened, limits.blocks), (.size, counts.size, limits.size)].map within)
      (limits.verdict counts) := by
  by_cases h : counts.opened = counts.closed
  · rw [verdict, if_neg (not_not_intro h)]
    exact .holds h (reports_within counts _)
  · rw [verdict_of_unbalanced h]
    exact .fails h

/-- The last condition looks behind the opening fence for a type. -/
def ensureType (behind : List (List Char)) (counts : Counts) : Except Failure Counts :=
  if (behind.take Diagram.window).any Diagram.declaresType then .ok counts else .error .missingType

theorem reports_ensureType {lines : List (List Char)} {k : Nat} (hk : Diagram.FenceAt lines k)
    (counts : Counts) : Reports counts [(TypeDeclared lines, .missingType)]
      (ensureType (lines.drop (k + 1)) counts) := by
  unfold ensureType
  split
  next htype => exact .holds ((Diagram.typeDeclared_iff hk).2 htype) .passed
  next htype => exact .fails (mt (Diagram.typeDeclared_iff hk).1 htype)

/-- A check reports the first of its conditions that does not hold. -/
theorem reports_check (limits : Limits) (text : List Char) :
    Reports (Counts.measure text) (limits.conditions text) (limits.check text) := by
  rw [check_eq]
  cases hbehind : Diagram.behindFence? (Text.lines text) with
  | none => exact .fails (Diagram.behindFence?_eq_none_iff.1 hbehind)
  | some behind =>
    have hopening : ∃ line ∈ (Text.lines text).take 5, OpensFence line := by
      by_contra hnone
      rw [Diagram.behindFence?_eq_none_iff.2 hnone] at hbehind
      cases hbehind
    obtain ⟨k, hk, rfl⟩ := Diagram.behindFence?_eq_some_iff.1 hbehind
    refine .holds hopening ?_
    simp only
    split
    next hclosing =>
      refine .fails fun hcloses => ?_
      rw [(Diagram.fenceCloses_iff hk).1 hcloses] at hclosing
      cases hclosing
    next hclosing =>
      have hlater := (reports_verdict limits (Counts.measure text)).bind
        (reports_ensureType hk (Counts.measure text))
      exact .holds ((Diagram.fenceCloses_iff hk).2 (by simpa using hclosing)) hlater

/-! ## Greater limits -/

/-- Every limit of `limits'` is at least that of `limits`. -/
structure AtMost (limits limits' : Limits) : Prop where
  nodes : limits.nodes ≤ limits'.nodes
  edges : limits.edges ≤ limits'.edges
  blocks : limits.blocks ≤ limits'.blocks
  size : limits.size ≤ limits'.size

variable {limits limits' : Limits}

theorem AtMost.conditions (h : limits.AtMost limits') {text : List Char}
    (hall : ∀ c ∈ limits.conditions text, c.1) : ∀ c ∈ limits'.conditions text, c.1 := by
  simp only [Limits.conditions, within, List.forall_mem_cons] at hall ⊢
  obtain ⟨hopening, hclosing, hbalanced, hnodes, hedges, hblocks, hsize, hrest⟩ := hall
  exact ⟨hopening, hclosing, hbalanced, hnodes.trans h.nodes, hedges.trans h.edges,
    hblocks.trans h.blocks, hsize.trans h.size, hrest⟩

end Limits

/-- The failure is that a fence is missing or that blocks are not balanced. -/
inductive Failure.IsOfFrame : Failure → Prop
  | openingFence : IsOfFrame .missingOpeningFence
  | closingFence : IsOfFrame .missingClosingFence
  | unbalanced (opened closed : Nat) : IsOfFrame (.unbalanced opened closed)

namespace Limits

variable {limits limits' : Limits}

/-- Fences and balance are looked at before the limits are. -/
theorem check_eq_error_iff (limits limits' : Limits) (text : List Char) {failure : Failure}
    (h : failure.IsOfFrame) :
    limits.check text = .error failure ↔ limits'.check text = .error failure := by
  have hback : ∀ limits : Limits, ∀ c ∈ (limits.conditions text).drop 3, c.2 ≠ failure := by
    intro limits
    simp only [conditions, within, List.drop_succ_cons, List.drop_zero, List.forall_mem_cons]
    cases h <;> simp
  exact Reports.eq_error_iff_of_append (hback limits) (hback limits')
    ((limits.conditions text).take 3) (limits.reports_check text) (limits'.reports_check text)

/-- A check passes, with the counts of the text, if and only if all its conditions hold, and else it
fails with the failure of the first condition that does not, whatever the text and the limits. What
passes under some limits passes under greater ones, and what is wrong with fences or balance is the
same under all limits. -/
theorem check_conditions (limits : Limits) (text : List Char) :
    (∀ counts, limits.check text = .ok counts ↔
      counts = Counts.measure text ∧ ∀ c ∈ limits.conditions text, c.1) ∧
    (∀ failure, limits.check text = .error failure ↔ ∃ passed condition rest,
      limits.conditions text = passed ++ (condition, failure) :: rest ∧
        (∀ c ∈ passed, c.1) ∧ ¬condition) ∧
    ∀ limits' : Limits,
      (limits.AtMost limits' →
        ∀ counts, limits.check text = .ok counts → limits'.check text = .ok counts) ∧
      ∀ failure : Failure, failure.IsOfFrame →
        (limits.check text = .error failure ↔ limits'.check text = .error failure) := by
  refine ⟨fun _ => (reports_check limits text).eq_ok_iff,
    fun _ => (reports_check limits text).eq_error_iff, fun limits' => ⟨fun h counts hok => ?_,
      fun _ hframe => check_eq_error_iff limits limits' text hframe⟩⟩
  obtain ⟨rfl, hall⟩ := (reports_check limits text).eq_ok_iff.1 hok
  exact (reports_check limits' text).eq_ok_iff.2 ⟨rfl, h.conditions hall⟩

/-- A fence on the fifth line, white space around it, and a type on the last line that counts. -/
theorem check_conditions_fifthLine :
    let text := "#\n\n\n\n \t```mermaid\n\n\na --> b\n```\n\u2003pie\r\n".toList
    let limits : Limits := ⟨0, 1, 0, 38⟩
    (limits.AtMost {} ∧ limits.check text = .ok ⟨0, 1, 0, 0, 38⟩ ∧
      (Failure.unbalanced 1 0).IsOfFrame) ∧
    Limits.check {} text = .ok ⟨0, 1, 0, 0, 38⟩ ∧
    (limits.check text = .error (.unbalanced 1 0) ↔
      Limits.check {} text = .error (.unbalanced 1 0)) := by
  intro text limits
  have hle : limits.AtMost {} := ⟨by decide, by decide, by decide, by decide⟩
  have hcheck : limits.check text = .ok ⟨0, 1, 0, 0, 38⟩ := by decide +kernel
  have hframe := Failure.IsOfFrame.unbalanced 1 0
  obtain ⟨hok, herror⟩ := (check_conditions limits text).2.2 {}
  exact ⟨⟨hle, hcheck, hframe⟩, hok hle _ hcheck, herror _ hframe⟩

end Limits

end CallChart
