import CallChart.Proofs.Conditions

/-!
# How lines end

A line counts the same whether it is ended by a line feed, by a carriage return and a line feed, or
by the end of the text. So a text can be cut at any line feed and its pieces measured on their own
(`Counts.measure_append`), and a carriage return in front of every line feed
(`Text.withReturns`) changes no count but the size (`Counts.measure_withReturns`).

A check reads no more off a line than `Diagram.features`, and no feature depends on a carriage
return at the end (`Diagram.features_dropReturn`). Nor does what a check reports, as long as
the size keeps to its limit. Main statement : `Limits.check_lineEnds`.
-/

namespace CallChart

namespace Text

/-- A text is a last line without a line feed, or a line, a line feed and a text. -/
theorem lineInduction {P : List Char → Prop} (last : ∀ cs, '\n' ∉ cs → P cs)
    (line : ∀ cs more, '\n' ∉ cs → P more → P (cs ++ '\n' :: more)) (cs : List Char) : P cs := by
  by_cases h : '\n' ∈ cs
  · obtain ⟨front, more, hcs, hfront⟩ := List.eq_append_cons_of_mem h
    have hlt : more.length < cs.length := by
      rw [hcs, List.length_append, List.length_cons]
      omega
    exact hcs ▸ line front more hfront (lineInduction last line more)
  · exact last cs h
termination_by cs.length

variable {cs : List Char}

theorem ended_append_cons (h : '\n' ∉ cs) (more : List Char) :
    ended (cs ++ '\n' :: more) = dropReturn cs :: ended more := by
  rw [ended, List.splitOn_append_cons_self, List.map_append, ← ended, ended_of_notMem h,
    List.singleton_append, ended]

theorem lines_append_cons (h : '\n' ∉ cs) (more : List Char) :
    lines (cs ++ '\n' :: more) = dropReturn cs :: lines more := by
  rw [lines_append, ended_of_notMem h, List.singleton_append]

theorem lines_of_notMem (h : '\n' ∉ cs) : lines cs = if cs = [] then [] else [cs] := by
  rw [lines, List.splitOn_eq_singleton h]
  cases cs <;> rfl

/-! ## Carriage returns in front of line feeds -/

/-- The text with a carriage return in front of every line feed. -/
def withReturns (cs : List Char) : List Char :=
  cs.flatMap fun c => if c = '\n' then ['\r', '\n'] else [c]

theorem withReturns_of_notMem (h : '\n' ∉ cs) : withReturns cs = cs := by
  induction cs with
  | nil => rfl
  | cons c cs ih =>
    rw [List.mem_cons, not_or] at h
    rw [withReturns, List.flatMap_cons, if_neg (Ne.symm h.1), ← withReturns, ih h.2,
      List.singleton_append]

theorem withReturns_append_cons (h : '\n' ∉ cs) (more : List Char) :
    withReturns (cs ++ '\n' :: more) = (cs ++ ['\r']) ++ '\n' :: withReturns more := by
  rw [withReturns, List.flatMap_append, ← withReturns, withReturns_of_notMem h, List.flatMap_cons,
    if_pos rfl, ← withReturns, List.append_assoc]
  rfl

theorem length_withReturns : ∀ cs, (withReturns cs).length = cs.length + cs.count '\n'
  | [] => rfl
  | c :: cs => by
    rw [withReturns, List.flatMap_cons, List.length_append, ← withReturns, length_withReturns cs,
      List.length_cons, List.count_cons]
    by_cases h : c = '\n'
    · simp [h]; omega
    · simp [h]; omega

theorem dropReturn_concat (cs : List Char) : dropReturn (cs ++ ['\r']) = cs := by
  rw [dropReturn, List.getLast?_concat, if_pos rfl, List.dropLast_concat]

/-- What does not depend on a carriage return at the end of a line is the same of all lines. -/
theorem map_lines_withReturns {α : Type} {f : List Char → α} (hf : ∀ l, f (dropReturn l) = f l)
    (cs : List Char) : (lines (withReturns cs)).map f = (lines cs).map f := by
  induction cs using lineInduction with
  | last cs h => rw [withReturns_of_notMem h]
  | line cs more h ih =>
    have hreturn : '\n' ∉ cs ++ ['\r'] := by simpa using h
    rw [withReturns_append_cons h, lines_append_cons hreturn, lines_append_cons h, List.map_cons,
      List.map_cons, ih, dropReturn_concat, hf]

end Text

/-! ## Measuring piece by piece -/

namespace Diagram

/-- A last line counts the same if a line feed follows, and an empty one does not count. -/
theorem count_ended {k : LineKind} (hk : k ≠ .other) (cs : List Char) :
    ((Text.ended cs).map lineKind).count k = ((Text.lines cs).map lineKind).count k := by
  induction cs using Text.lineInduction with
  | last cs h =>
    rw [Text.ended_of_notMem h, Text.lines_of_notMem h, List.map_singleton, lineKind_dropReturn]
    split
    next hempty =>
      have hother : lineKind [] = .other := rfl
      rw [hempty, hother, List.count_singleton, List.map_nil, List.count_nil]
      simp [hk.symm]
    next => rw [List.map_singleton]
  | line cs more h ih =>
    rw [Text.ended_append_cons h, Text.lines_append_cons h, List.map_cons, List.map_cons,
      List.count_cons, List.count_cons, ih]

/-- The lines of two texts with a line feed between are those of one and those of the other. -/
theorem count_append {k : LineKind} (hk : k ≠ .other) (a b : List Char) :
    ((Text.lines (a ++ '\n' :: b)).map lineKind).count k =
      ((Text.lines a).map lineKind).count k + ((Text.lines b).map lineKind).count k := by
  rw [Text.lines_append, List.map_append, List.count_append, count_ended hk]

end Diagram

namespace Counts

/-- What is counted of two texts with a line feed between is counted of one or of the other. -/
theorem measure_append (a b : List Char) : measure (a ++ '\n' :: b) =
    { nodes := (measure a).nodes + (measure b).nodes
      edges := (measure a).edges + (measure b).edges
      opened := (measure a).opened + (measure b).opened
      closed := (measure a).closed + (measure b).closed
      size := (measure a).size + (measure b).size + 1 } := by
  have hnodes := Diagram.count_append (k := .node) (by decide) a b
  have hedges := Diagram.count_append (k := .edge) (by decide) a b
  have hopened := Diagram.count_append (k := .opening) (by decide) a b
  have hclosed := Diagram.count_append (k := .closing) (by decide) a b
  have hsize : (a ++ '\n' :: b).length = a.length + b.length + 1 := by
    rw [List.length_append, List.length_cons, Nat.add_assoc]
  simp only [measure, ofKinds, hnodes, hedges, hopened, hclosed, hsize]

/-- Carriage returns in front of the line feeds only add to the size. -/
theorem measure_withReturns (text : List Char) : measure (Text.withReturns text) =
    { measure text with size := (measure text).size + text.count '\n' } := by
  rw [measure, Text.map_lines_withReturns Diagram.lineKind_dropReturn, Text.length_withReturns]
  rfl

end Counts

/-! ## Lines that are alike to a check -/

namespace Diagram

theorem isOpeningFence_dropReturn (line : List Char) :
    isOpeningFence (Text.dropReturn line) = isOpeningFence line := by
  refine Text.of_dropReturn (f := isOpeningFence) (fun cs => ?_) line
  exact trimStart_then_return (p := Text.beginsWith (fence ++ "mermaid".toList))
    (Text.beginsWith_return (by decide)) cs

theorem isClosingFence_dropReturn (line : List Char) :
    isClosingFence (Text.dropReturn line) = isClosingFence line := by
  refine Text.of_dropReturn (f := isClosingFence) (fun cs => ?_) line
  rw [isClosingFence, isClosingFence, Text.trim_return]

theorem declaresType_dropReturn (line : List Char) :
    declaresType (Text.dropReturn line) = declaresType line := by
  refine Text.of_dropReturn (f := declaresType) (fun cs => ?_) line
  refine trimStart_then_return
    (p := fun cs => types.contains (cs.takeWhile fun c => !Text.isBlank c)) (fun cs => ?_) cs
  have hblank : (!Text.isBlank '\r') = false := rfl
  have hword : (cs ++ ['\r']).takeWhile (fun c => !Text.isBlank c) =
      cs.takeWhile fun c => !Text.isBlank c := by
    rw [List.takeWhile_append, List.takeWhile_cons, hblank]
    split
    next h =>
      rw [(List.takeWhile_prefix _).eq_of_length h, if_neg Bool.false_ne_true, List.append_nil]
    next => rfl
  exact congrArg _ hword

/-- A check finds the same in the lines of one text as in those of another, one by one. -/
structure Alike (lines lines' : List (List Char)) : Prop where
  kinds : lines.map lineKind = lines'.map lineKind
  opens : lines.map isOpeningFence = lines'.map isOpeningFence
  closes : lines.map isClosingFence = lines'.map isClosingFence
  declares : lines.map declaresType = lines'.map declaresType

theorem alike_withReturns (text : List Char) :
    Alike (Text.lines (Text.withReturns text)) (Text.lines text) where
  kinds := Text.map_lines_withReturns lineKind_dropReturn text
  opens := Text.map_lines_withReturns isOpeningFence_dropReturn text
  closes := Text.map_lines_withReturns isClosingFence_dropReturn text
  declares := Text.map_lines_withReturns declaresType_dropReturn text

/-- Where lines agree on what `p` finds in them, they agree on the places where it is found, -/
theorem exists_getElem?_congr {p : List Char → Bool} {P : List Char → Prop}
    (hp : ∀ line, p line = true ↔ P line) {lines lines' : List (List Char)}
    (h : lines.map p = lines'.map p) (k : Nat) :
    (∃ line, lines[k]? = some line ∧ P line) ↔ ∃ line, lines'[k]? = some line ∧ P line := by
  have hplace : ∀ lines : List (List Char), (∃ line, lines[k]? = some line ∧ P line) ↔
      (lines.map p)[k]? = some true := fun lines => by
    simp only [List.getElem?_map, Option.map_eq_some_iff, hp]
  rw [hplace, hplace, h]

/-- and on whether it is found among the first. -/
theorem exists_mem_take_congr {p : List Char → Bool} {P : List Char → Prop}
    (hp : ∀ line, p line = true ↔ P line) {lines lines' : List (List Char)}
    (h : lines.map p = lines'.map p) (n : Nat) :
    (∃ line ∈ lines.take n, P line) ↔ ∃ line ∈ lines'.take n, P line := by
  have hmem : ∀ lines : List (List Char), (∃ line ∈ lines.take n, P line) ↔
      true ∈ (lines.map p).take n := fun lines => by
    simp only [← List.map_take, List.mem_map, hp]
  rw [hmem, hmem, h]

namespace Alike

variable {lines lines' : List (List Char)}

theorem opensNear (h : Alike lines lines') : (∃ line ∈ lines.take 5, OpensFence line) ↔
    ∃ line ∈ lines'.take 5, OpensFence line :=
  exists_mem_take_congr (fun _ => isOpeningFence_iff) h.opens 5

theorem fenceAt (h : Alike lines lines') {k : Nat} : FenceAt lines k ↔ FenceAt lines' k := by
  have hopens := exists_getElem?_congr (fun _ => isOpeningFence_iff) h.opens
  have hfirst : ∀ j, (∀ line, lines[j]? = some line → ¬OpensFence line) ↔
      ∀ line, lines'[j]? = some line → ¬OpensFence line := fun j => by
    simpa only [not_exists, not_and] using not_congr (hopens j)
  constructor
  · exact fun ⟨hnear, hk, hbefore⟩ =>
      ⟨hnear, (hopens k).1 hk, fun j hj => (hfirst j).1 (hbefore j hj)⟩
  · exact fun ⟨hnear, hk, hbefore⟩ =>
      ⟨hnear, (hopens k).2 hk, fun j hj => (hfirst j).2 (hbefore j hj)⟩

theorem fenceCloses (h : Alike lines lines') : FenceCloses lines ↔ FenceCloses lines' := by
  have hcloses := exists_getElem?_congr (fun _ => isClosingFence_iff) h.closes
  simp only [FenceCloses, exists_and_left, h.fenceAt, hcloses]

theorem typeDeclared (h : Alike lines lines') : TypeDeclared lines ↔ TypeDeclared lines' := by
  have hdeclares := exists_getElem?_congr (fun _ => declaresType_iff) h.declares
  simp only [TypeDeclared, exists_and_left, h.fenceAt, hdeclares]

end Alike

end Diagram

/-! ## Conditions of texts that are alike -/

/-- Of conditions that agree one by one, two lists report the same, if no failure is reported of
which they say different things. -/
theorem Reports.congr {α : Type} {value value' : α} {conditions conditions' : List (Prop × Failure)}
    {result result' : Except Failure α}
    (h : List.Forall₂ (fun c c' : Prop × Failure => (c.1 ↔ c'.1) ∧ (c.1 ∨ c.2 = c'.2))
      conditions conditions') (hresult : Reports value conditions result)
    (hresult' : Reports value' conditions' result') :
    (result = .ok value ∧ result' = .ok value') ∨
      ∃ failure, result = .error failure ∧ result' = .error failure := by
  induction h with
  | nil =>
    cases hresult
    cases hresult'
    exact .inl ⟨rfl, rfl⟩
  | cons hc _ ih =>
    obtain ⟨hiff, hfailure⟩ := hc
    cases hresult with
    | holds hc later =>
      cases hresult' with
      | holds _ later' => exact ih later later'
      | fails hc' => exact absurd (hiff.1 hc) hc'
    | fails hc =>
      cases hresult' with
      | holds hc' _ => exact absurd (hiff.2 hc') hc
      | fails _ => exact .inr ⟨_, rfl, congrArg _ (hfailure.resolve_left hc).symm⟩

namespace Limits

/-- A check reports the same of texts whose lines are alike, as long as their size is not what it
reports. -/
theorem check_alike {limits : Limits} {a b : List Char}
    (h : Diagram.Alike (Text.lines a) (Text.lines b)) (ha : a.length ≤ limits.size)
    (hb : b.length ≤ limits.size) :
    (limits.check a = .ok (.measure a) ∧ limits.check b = .ok (.measure b)) ∨
      ∃ failure, limits.check a = .error failure ∧ limits.check b = .error failure := by
  refine Reports.congr ?_ (reports_check limits a) (reports_check limits b)
  simp only [conditions, within, Counts.measure, Counts.ofKinds, h.kinds, h.opensNear,
    h.fenceCloses, h.typeDeclared, ha, hb, List.forall₂_cons, List.forall₂_nil_left_iff, or_true,
    true_or, and_self, iff_self]

/-- The counts of two texts with a line feed between are the sums of theirs. A carriage return in
front of every line feed changes no count but the size, and nothing of what a check reports while
the size keeps to its limit. -/
theorem check_lineEnds (a b text : List Char) (limits : Limits) :
    Counts.measure (a ++ '\n' :: b) =
      { nodes := (Counts.measure a).nodes + (Counts.measure b).nodes
        edges := (Counts.measure a).edges + (Counts.measure b).edges
        opened := (Counts.measure a).opened + (Counts.measure b).opened
        closed := (Counts.measure a).closed + (Counts.measure b).closed
        size := (Counts.measure a).size + (Counts.measure b).size + 1 } ∧
    Counts.measure (Text.withReturns text) =
      { Counts.measure text with size := (Counts.measure text).size + text.count '\n' } ∧
    ((Counts.measure text).size ≤ limits.size →
      (Counts.measure (Text.withReturns text)).size ≤ limits.size →
      (∃ counts, limits.check text = .ok counts ∧
        limits.check (Text.withReturns text) =
          .ok { counts with size := counts.size + text.count '\n' }) ∨
      ∃ failure, limits.check text = .error failure ∧
        limits.check (Text.withReturns text) = .error failure) := by
  refine ⟨Counts.measure_append a b, Counts.measure_withReturns text, fun hsize hsize' => ?_⟩
  have halike := Diagram.alike_withReturns text
  rcases check_alike halike hsize' hsize with ⟨hok', hok⟩ | ⟨failure, herror', herror⟩
  · exact .inl ⟨_, hok, hok'.trans (congrArg _ (Counts.measure_withReturns text))⟩
  · exact .inr ⟨failure, herror, herror'⟩

/-- One line of the text has its carriage return already, and the last has none. -/
theorem check_lineEnds_mixed :
    let text := "```mermaid\ngraph\na --> b\r\n```".toList
    let limits : Limits := ⟨0, 1, 0, 32⟩
    ((Counts.measure text).size ≤ limits.size ∧
      (Counts.measure (Text.withReturns text)).size ≤ limits.size) ∧
    limits.check text = .ok ⟨0, 1, 0, 0, 29⟩ ∧
      limits.check (Text.withReturns text) = .ok ⟨0, 1, 0, 0, 32⟩ := by
  intro text limits
  have hsize : (Counts.measure text).size ≤ limits.size := by decide +kernel
  have hsize' : (Counts.measure (Text.withReturns text)).size ≤ limits.size := by decide +kernel
  have hcheck : limits.check text = .ok ⟨0, 1, 0, 0, 29⟩ := by decide +kernel
  have hcount : text.count '\n' = 3 := by decide +kernel
  refine ⟨⟨hsize, hsize'⟩, hcheck, ?_⟩
  rcases (check_lineEnds [] [] text limits).2.2 hsize hsize' with ⟨counts, hok, hok'⟩ | hfails
  · rw [hcheck] at hok
    obtain rfl := Except.ok.inj hok
    rw [hok', hcount]
  · obtain ⟨failure, herror, -⟩ := hfails
    rw [hcheck] at herror
    cases herror

end Limits

end CallChart
