import CallChart.Proofs.LineKinds

/-!
# The form of edge and node lines

An edge line is white space, an identifier, white space, an arrow and a rest, a node line the same
with an opening bracket for the arrow (`Diagram.HasForm`). A hyphen may belong to the name as well
as to the arrow. The tests look for the arrow behind each character of the name, and so find it
however the line can be split (`Diagram.TestsFor.nameThen_iff`,
`Diagram.TestsFor.identifierThen_iff`).

No line has both forms. What stands behind all name characters and the white space behind them does
not depend on where the name is cut, as white space is no part of a name : in a node line it is the
bracket, in an edge line it is no bracket (`Diagram.nameThen_afterName`). So it does not matter
which of the two tests comes first (`Counts.measureNodesFirst_eq`).

Main statement : `Diagram.lineTests_exact`.
-/

namespace CallChart

theorem Text.isBlank_of_isNameStart {c : Char} (h : isNameStart c = true) : isBlank c = false := by
  refine Mark.isBlank_of_isWordChar ?_
  rw [isNameStart, Bool.or_eq_true] at h
  rw [Mark.isWordChar, Char.isAlphanum, Bool.or_assoc, Bool.or_eq_true]
  exact h.imp_right fun h => by rw [h, Bool.or_true]

open Text (Blank)

namespace Diagram

/-! ## Forms of lines -/

/-- An ASCII letter or an underscore, and then word characters and hyphens. -/
def IsIdentifier (name : List Char) : Prop :=
  ∃ c cs, name = c :: cs ∧ Text.isNameStart c = true ∧ ∀ c ∈ cs, Text.isNamePart c = true

/-- The line is white space, an identifier, white space, one of the signs and any rest. -/
def HasForm (signs : List String) (line : List Char) : Prop :=
  ∃ lead name gap sign rest, line = lead ++ (name ++ (gap ++ (sign.toList ++ rest))) ∧
    Blank lead ∧ IsIdentifier name ∧ Blank gap ∧ sign ∈ signs

def arrows : List String :=
  ["-->", "-.->", "==>"]

def brackets : List String :=
  ["["]

/-- `p` tests whether a text begins with one of the signs, none of which begins with white space. -/
structure TestsFor (p : List Char → Bool) (signs : List String) : Prop where
  begins : ∀ cs, p cs = true ↔ ∃ sign ∈ signs, sign.toList <+: cs
  notBlank : ∀ sign ∈ signs, ∃ c cs, sign.toList = c :: cs ∧ Text.isBlank c = false

theorem testsFor_arrows : TestsFor beginsArrow arrows where
  begins cs := by simp [beginsArrow, arrows, Text.beginsWith, or_assoc]
  notBlank sign hsign := by
    simp only [arrows, List.mem_cons, List.not_mem_nil, or_false] at hsign
    rcases hsign with rfl | rfl | rfl <;> exact ⟨_, _, rfl, rfl⟩

theorem testsFor_brackets : TestsFor beginsBracket brackets where
  begins cs := by simp [beginsBracket, brackets, Text.beginsWith]
  notBlank sign hsign := by
    rw [List.mem_singleton.1 hsign]
    exact ⟨_, _, rfl, rfl⟩

namespace TestsFor

variable {p : List Char → Bool} {signs : List String} {cs line : List Char}

theorem trimStart_iff (h : TestsFor p signs) :
    p (Text.trimStart cs) = true ↔
      ∃ gap sign rest, cs = gap ++ (sign.toList ++ rest) ∧ Blank gap ∧ sign ∈ signs := by
  rw [h.begins]
  constructor
  · rintro ⟨sign, hsign, rest, hrest⟩
    obtain ⟨gap, hgap, hcs⟩ := Text.exists_blank_trimStart cs
    exact ⟨gap, sign, rest, hrest ▸ hcs, hgap, hsign⟩
  · rintro ⟨gap, sign, rest, rfl, hgap, hsign⟩
    obtain ⟨c, more, hmore, hc⟩ := h.notBlank sign hsign
    refine ⟨sign, hsign, ?_⟩
    rw [hmore, List.cons_append, Text.trimStart_blank_append hgap hc]
    exact List.prefix_append _ _

/-- However the text can be split into a name, white space, a sign and a rest, the test finds the
sign. -/
theorem nameThen_iff (h : TestsFor p signs) : ∀ {cs : List Char},
    nameThen p cs = true ↔ ∃ name gap sign rest, cs = name ++ (gap ++ (sign.toList ++ rest)) ∧
      (∀ c ∈ name, Text.isNamePart c = true) ∧ Blank gap ∧ sign ∈ signs
  | [] => by
    have htrim : nameThen p [] = p (Text.trimStart []) := rfl
    rw [htrim, h.trimStart_iff]
    constructor
    · rintro ⟨gap, sign, rest, hcs, hmore⟩
      exact ⟨[], gap, sign, rest, hcs, List.forall_mem_nil _, hmore⟩
    · rintro ⟨name, gap, sign, rest, hcs, -, hmore⟩
      exact ⟨gap, sign, rest, (List.append_eq_nil_iff.1 hcs.symm).2.symm, hmore⟩
  | c :: cs => by
    rw [nameThen, Bool.or_eq_true, Bool.and_eq_true, h.trimStart_iff, h.nameThen_iff]
    constructor
    · rintro (⟨gap, sign, rest, hcs, hmore⟩ | ⟨hc, name, gap, sign, rest, rfl, hname, hmore⟩)
      · exact ⟨[], gap, sign, rest, hcs, List.forall_mem_nil _, hmore⟩
      · exact ⟨c :: name, gap, sign, rest, rfl, List.forall_mem_cons.2 ⟨hc, hname⟩, hmore⟩
    · rintro ⟨name, gap, sign, rest, hcs, hname, hmore⟩
      cases name with
      | nil => exact .inl ⟨gap, sign, rest, hcs, hmore⟩
      | cons c' name =>
        obtain ⟨rfl, rfl⟩ := List.cons.inj hcs
        obtain ⟨hc, hname⟩ := List.forall_mem_cons.1 hname
        exact .inr ⟨hc, name, gap, sign, rest, rfl, hname, hmore⟩

theorem identifierThen_iff (h : TestsFor p signs) :
    identifierThen p line = true ↔ HasForm signs line := by
  constructor
  · intro htrue
    obtain ⟨lead, hlead, hline⟩ := Text.exists_blank_trimStart line
    rw [identifierThen] at htrue
    split at htrue
    · cases htrue
    next c cs hcs =>
      obtain ⟨hc, hname⟩ := Bool.and_eq_true_iff.1 htrue
      obtain ⟨name, gap, sign, rest, rfl, hname, hmore⟩ := h.nameThen_iff.1 hname
      exact ⟨lead, c :: name, gap, sign, rest, hline.trans (congrArg _ hcs), hlead,
        ⟨c, name, rfl, hc, hname⟩, hmore⟩
  · rintro ⟨lead, _, gap, sign, rest, rfl, hlead, ⟨c, name, rfl, hc, hname⟩, hmore⟩
    rw [identifierThen, List.cons_append,
      Text.trimStart_blank_append hlead (Text.isBlank_of_isNameStart hc)]
    simp only [hc, Bool.true_and]
    exact h.nameThen_iff.2 ⟨name, gap, sign, rest, rfl, hname, hmore⟩

end TestsFor

/-! ## No line has both forms -/

/-- What stands behind all name characters and the white space behind them. -/
def afterName (cs : List Char) : List Char :=
  Text.trimStart (cs.dropWhile Text.isNamePart)

theorem afterName_cons_of_isNamePart {c : Char} (h : Text.isNamePart c = true) (cs : List Char) :
    afterName (c :: cs) = afterName cs := by
  rw [afterName, List.dropWhile_cons_of_pos h, afterName]

theorem afterName_cons_of_isBlank {c : Char} (h : Text.isBlank c = true) (cs : List Char) :
    afterName (c :: cs) = Text.trimStart (c :: cs) := by
  rw [afterName, List.dropWhile_cons, Text.isNamePart_of_isBlank h, if_neg Bool.false_ne_true]

/-- What is known of the beginning of each text that passes the test, and of what stands there
behind all name characters, is known behind all characters of the name. -/
theorem nameThen_afterName {p : List Char → Bool} {q : Option Char → Prop}
    (hp : ∀ cs, p cs = true → q cs.head? ∧ q (afterName cs).head?) :
    ∀ {cs : List Char}, nameThen p cs = true → q (afterName cs).head?
  | [], h => (hp [] h).2
  | c :: cs, h => by
    rw [nameThen, Bool.or_eq_true, Bool.and_eq_true] at h
    rcases h with h | ⟨hc, h⟩
    -- Here the name ends : before white space, or where the test is passed.
    · cases hblank : Text.isBlank c with
      | true =>
        rw [afterName_cons_of_isBlank hblank]
        exact (hp _ h).1
      | false =>
        rw [Text.trimStart_cons hblank] at h
        exact (hp _ h).2
    · rw [afterName_cons_of_isNamePart hc]
      exact nameThen_afterName hp h

theorem head?_afterName_of_arrow {cs : List Char} (h : nameThen beginsArrow cs = true) :
    (afterName cs).head? ≠ some '[' := by
  refine nameThen_afterName (q := (· ≠ some '[')) (fun cs h => ?_) h
  obtain ⟨sign, hsign, rest, rfl⟩ := (testsFor_arrows.begins cs).1 h
  simp only [arrows, List.mem_cons, List.not_mem_nil, or_false] at hsign
  -- Hyphens in front may belong to the name, what follows them in the arrow may not.
  rcases hsign with rfl | rfl | rfl
  · exact ⟨show some '-' ≠ some '[' by decide, show some '>' ≠ some '[' by decide⟩
  · exact ⟨show some '-' ≠ some '[' by decide, show some '.' ≠ some '[' by decide⟩
  · exact ⟨show some '=' ≠ some '[' by decide, show some '=' ≠ some '[' by decide⟩

theorem head?_afterName_of_bracket {cs : List Char} (h : nameThen beginsBracket cs = true) :
    (afterName cs).head? = some '[' := by
  refine nameThen_afterName (q := (· = some '[')) (fun cs h => ?_) h
  obtain ⟨sign, hsign, rest, rfl⟩ := (testsFor_brackets.begins cs).1 h
  rw [List.mem_singleton.1 hsign]
  exact ⟨rfl, rfl⟩

/-- No line is an edge line and a node line. -/
theorem not_isEdgeLine_and_isNodeLine (line : List Char) :
    ¬ (isEdgeLine line = true ∧ isNodeLine line = true) := by
  rintro ⟨hedge, hnode⟩
  rw [isEdgeLine, identifierThen] at hedge
  rw [isNodeLine, identifierThen] at hnode
  cases hline : Text.trimStart line with
  | nil =>
    rw [hline] at hedge
    cases hedge
  | cons c cs =>
    rw [hline] at hedge hnode
    exact head?_afterName_of_arrow (Bool.and_eq_true_iff.1 hedge).2
      (head?_afterName_of_bracket (Bool.and_eq_true_iff.1 hnode).2)

/-- What a line does, with the test for nodes before the test for edges. -/
def lineKindNodesFirst (line : List Char) : LineKind :=
  let trimmed := Text.trim line
  if Text.beginsWith (openingWord ++ [' ']) trimmed || trimmed == openingWord then .opening
  else if trimmed == closingWord then .closing
  else if isNodeLine line then .node
  else if isEdgeLine line then .edge
  else .other

theorem lineKindNodesFirst_eq (line : List Char) : lineKindNodesFirst line = lineKind line := by
  have hboth := not_isEdgeLine_and_isNodeLine line
  rw [lineKindNodesFirst, lineKind]
  cases hedge : isEdgeLine line with
  | false => simp only [Bool.false_eq_true, if_false]
  | true =>
    have hnode : isNodeLine line = false := Bool.eq_false_iff.2 fun hnode => hboth ⟨hedge, hnode⟩
    simp only [hnode, Bool.false_eq_true, if_false]

end Diagram

/-- The counts of a text, with the test for nodes before the test for edges. -/
def Counts.measureNodesFirst (text : List Char) : Counts :=
  ofKinds ((Text.lines text).map Diagram.lineKindNodesFirst) text.length

theorem Counts.measureNodesFirst_eq (text : List Char) : measureNodesFirst text = measure text := by
  rw [measureNodesFirst, measure, funext Diagram.lineKindNodesFirst_eq]

/-- The two tests accept exactly the lines of their forms, never both the same line, and so count
the same in either order. -/
theorem Diagram.lineTests_exact (line text : List Char) :
    (isEdgeLine line = true ↔ HasForm arrows line) ∧
      (isNodeLine line = true ↔ HasForm brackets line) ∧
      ¬ (isEdgeLine line = true ∧ isNodeLine line = true) ∧
      Counts.measureNodesFirst text = Counts.measure text :=
  ⟨testsFor_arrows.identifierThen_iff, testsFor_brackets.identifierThen_iff,
    not_isEdgeLine_and_isNodeLine line, Counts.measureNodesFirst_eq text⟩

/-- Hyphens are given back to the arrow, one or two as it needs. -/
example :
    ["a-->b", "a--->b", "a-.->b", "a-==>b", "a--b", "a-[b", "a- [b"].map (fun line =>
      (Diagram.isEdgeLine line.toList, Diagram.isNodeLine line.toList)) =
    [(true, false), (true, false), (true, false), (true, false), (false, false), (false, true),
      (false, true)] := by
  decide +kernel

end CallChart
