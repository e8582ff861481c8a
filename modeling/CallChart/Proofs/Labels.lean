import CallChart.Proofs.Entities
import CallChart.Proofs.LineKinds
import CallChart.Proofs.Walk

/-!
# What labels and titles may hold

Escaping leaves no character that has an entity code (`Text.entity?_of_mem_escapeChars`). So an
angle bracket closes in a label only where a line break does, behind a slash, and no bracket
opens at all : labels and titles are tame (`Label.tame_format`, `Mark.tame_titleOf`). A line that
stands in a tame text is no edge and no node (`Text.Tame.lineKind`), whatever else the text
holds. It can still open or close a block.
-/

namespace CallChart

namespace Text

/-! ## Tame texts -/

/-- No bracket opens, and an angle bracket closes only behind a slash. -/
structure Tame (cs : List Char) : Prop where
  bracket : '[' ∉ cs
  angle : ∀ before after, cs = before ++ '>' :: after → before.getLast? = some '/'

theorem Tame.append {cs cs' : List Char} (h : Tame cs) (h' : Tame cs') : Tame (cs ++ cs') where
  bracket := List.mem_append.not.2 (not_or.2 ⟨h.bracket, h'.bracket⟩)
  angle before after heq := by
    rcases List.append_eq_append_iff.1 heq with ⟨more, rfl, hmore⟩ | ⟨more, rfl, hmore⟩
    · have hlast := h'.angle more after hmore
      rw [List.getLast?_append, hlast, Option.some_or]
    · cases more with
      | nil => exact absurd (h'.angle [] after hmore.symm) (by simp)
      | cons c more =>
        obtain ⟨rfl, -⟩ := List.cons.inj hmore
        exact h.angle before more rfl

theorem tame_of_notMem {cs : List Char} (hbracket : '[' ∉ cs) (hangle : '>' ∉ cs) : Tame cs where
  bracket := hbracket
  angle before _ heq := absurd (heq ▸ List.mem_append_right before List.mem_cons_self) hangle

theorem tame_of_all {cs : List Char} (h : cs.all (fun c => c != '[' && c != '>') = true) :
    Tame cs :=
  tame_of_notMem (fun hmem => absurd (List.all_eq_true.1 h _ hmem) (by decide))
    (fun hmem => absurd (List.all_eq_true.1 h _ hmem) (by decide))

theorem tame_escape (s : String) : Tame (escape s).toList := by
  rw [escape, String.toList_ofList]
  refine tame_of_notMem (fun h => ?_) (fun h => ?_)
  · exact absurd (entity?_of_mem_escapeChars h) (by decide)
  · exact absurd (entity?_of_mem_escapeChars h) (by decide)

theorem tame_repr (k : Nat) : Tame (Nat.repr k).toList := by
  have hdigits : (Nat.repr k).toList = Nat.toDigits 10 k := String.toList_ofList
  rw [hdigits]
  refine tame_of_notMem (fun h => ?_) (fun h => ?_)
  · exact absurd (Mark.isWord_toDigits k _ h) (by decide)
  · exact absurd (Mark.isWord_toDigits k _ h) (by decide)

/-- What an arrow begins with stands in the text, its head behind a hyphen or an equals sign. -/
theorem Tame.beginsArrow {cs before arrow after : List Char} (h : Tame cs)
    (hcs : cs = before ++ (arrow ++ after)) : Diagram.beginsArrow arrow = false := by
  have hhead : ∀ (start : List Char) (c : Char), c ≠ '/' →
      beginsWith (start ++ [c, '>']) arrow = false := by
    intro start c hc
    rw [beginsWith, Bool.eq_false_iff, ne_eq, List.isPrefixOf_iff_prefix]
    rintro ⟨more, rfl⟩
    have hlast := h.angle (before ++ (start ++ [c])) (more ++ after) (by simp [hcs])
    rw [← List.append_assoc, List.getLast?_concat] at hlast
    exact hc (Option.some.inj hlast)
  have hplain := hhead ['-'] '-' (by decide)
  have hdotted := hhead ['-', '.'] '-' (by decide)
  have hthick := hhead ['='] '=' (by decide)
  simp only [List.cons_append, List.nil_append] at hplain hdotted hthick
  rw [Diagram.beginsArrow, hplain, hdotted, hthick]
  rfl

/-- A line in a tame text draws no edge and no node. -/
theorem Tame.lineKind {cs line : List Char} (h : Tame cs) (hline : line <:+: cs) :
    Diagram.lineKind line ≠ .edge ∧ Diagram.lineKind line ≠ .node := by
  obtain ⟨before, after, hcs⟩ := hline
  have hedge : Diagram.isEdgeLine line = false := by
    rw [Bool.eq_false_iff]
    intro htrue
    obtain ⟨arrow, ⟨start, rfl⟩, harrow⟩ := Diagram.exists_suffix_of_identifierThen htrue
    have hcs' : cs = before ++ start ++ (arrow ++ after) := by simp [← hcs]
    rw [h.beginsArrow hcs'] at harrow
    exact Bool.false_ne_true harrow
  have hnode : Diagram.isNodeLine line = false := by
    rw [Bool.eq_false_iff]
    intro htrue
    obtain ⟨bracket, ⟨start, rfl⟩, hbracket⟩ := Diagram.exists_suffix_of_identifierThen htrue
    rw [Diagram.beginsBracket, beginsWith, List.isPrefixOf_iff_prefix] at hbracket
    obtain ⟨more, rfl⟩ := hbracket
    exact h.bracket (by simp [← hcs])
  rw [Diagram.lineKind, hedge, hnode]
  split_ifs <;> simp_all

end Text

/-! ## Labels and titles -/

namespace Label

theorem tame_lineBreak : Text.Tame lineBreak.toList where
  bracket := by decide
  angle before after heq := by
    have hbreak : lineBreak.toList = ['<', 'b', 'r', '/', '>'] := rfl
    rw [hbreak] at heq
    rcases before with - | ⟨c₁, - | ⟨c₂, - | ⟨c₃, - | ⟨c₄, - | ⟨c₅, before⟩⟩⟩⟩⟩ <;> simp at heq
    simpa using heq.2.2.2.1.symm

theorem tame_classPart (s : Symbol) : Text.Tame (classPart s).toList := by
  unfold classPart
  split
  · rw [String.toList_append]
    exact (Text.tame_escape _).append (Text.tame_of_all rfl)
  · exact Text.tame_of_all rfl

theorem tame_filePart (s : Symbol) : Text.Tame (filePart s).toList := by
  unfold filePart
  split
  · exact Text.tame_of_all rfl
  · rw [String.toList_append]
    exact tame_lineBreak.append (Text.tame_escape _)

theorem tame_lineRange (level : Level) (s : Symbol) : Text.Tame (lineRange level s).toList := by
  have hfirst : Text.Tame ("L" ++ Nat.repr s.firstLine.toNat).toList := by
    rw [String.toList_append]
    exact (Text.tame_of_all rfl).append (Text.tame_repr _)
  unfold lineRange
  split
  · rw [String.toList_append, String.toList_append]
    exact (hfirst.append (Text.tame_of_all rfl)).append (Text.tame_repr _)
  · exact hfirst

theorem tame_linePart (level : Level) (s : Symbol) : Text.Tame (linePart level s).toList := by
  unfold linePart
  split
  · exact Text.tame_of_all rfl
  · rw [String.toList_append]
    refine Text.Tame.append ?_ (tame_lineRange level s)
    split
    · exact tame_lineBreak
    · exact Text.tame_of_all rfl

theorem tame_format (name : String) (symbol : Option Symbol) (level : Level) :
    Text.Tame (format name symbol level).toList := by
  have hempty : Text.Tame "".toList := Text.tame_of_all rfl
  cases symbol with
  | none => exact Text.tame_escape _
  | some s =>
    simp only [format, String.toList_append]
    refine Text.Tame.append (Text.Tame.append (Text.Tame.append ?_ (Text.tame_escape _)) ?_) ?_
    · split
      · exact tame_classPart s
      · exact hempty
    · split
      · exact tame_filePart s
      · exact hempty
    · split
      · exact tame_linePart level s
      · exact hempty

end Label

theorem Mark.tame_titleOf (kind : BlockKind) (name : String) :
    Text.Tame (titleOf kind name).toList := by
  have htitle : Text.Tame kind.title.toList := by
    cases kind <;> exact Text.tame_of_all rfl
  rw [titleOf, String.toList_append, String.toList_append]
  exact (htitle.append (Text.tame_of_all rfl)).append (Text.tame_escape name)

/-- A line that begins inside a tame text draws no edge and no node. -/
theorem Diagram.lineKind_of_mem_looseLines {text : String} (h : Text.Tame text.toList)
    {line : List Char} (hline : line ∈ looseLines text) :
    lineKind line ≠ .edge ∧ lineKind line ≠ .node := by
  have htame : Text.Tame (text.toList ++ ['"', ']']) :=
    h.append (Text.tame_of_all rfl)
  exact htame.lineKind (Text.infix_of_mem_loose hline)

/-! ## Labels of a roster -/

/-- The label of every node of a chart is made from its symbol, at one level. -/
theorem Chart.label_collect (s : Settings) (d : Document) (level : Level) (log : Log)
    (es : List EntryPoint) : ∀ n ∈ (collect s d ⟨level, []⟩ log es).1.nodes,
      ∃ level, n.label = Label.format n.name n.symbol level := by
  refine collect_keeps (P := fun r => ∀ n ∈ r.nodes,
    ∃ level, n.label = Label.format n.name n.symbol level) (fun r _ _ _ _ _ h n hn => ?_) _ log es
    (by simp)
  rcases List.mem_append.1 hn with hn | hn
  · exact h n hn
  · rw [List.mem_singleton.1 hn]
    exact ⟨r.level, rfl⟩

end CallChart
