import CallChart.Proofs.Lines
import CallChart.Proofs.Marks
import CallChart.Proofs.WhiteSpace
import CallChart.Rendering

/-!
# What the lines of a chart count as

The lines of a chart count as what they were written for : a node line counts as a node whatever
its label is (`Diagram.lineKind_node`), an opening line as an opening whatever its title is
(`Diagram.lineKind_opening`), and closings, edges and styles likewise. The labels and titles
matter only for the lines that begin inside them.
-/

namespace CallChart

/-! ## Word characters -/

namespace Mark

theorem toNat_of_isWordChar {c : Char} (h : isWordChar c = true) :
    48 ≤ c.toNat ∧ c.toNat ≤ 57 ∨ 65 ≤ c.toNat ∧ c.toNat ≤ 90 ∨ c.toNat = 95 ∨
      97 ≤ c.toNat ∧ c.toNat ≤ 122 := by
  change (decide (65 ≤ c.toNat ∧ c.toNat ≤ 90) || (decide (97 ≤ c.toNat) && decide (c.toNat ≤ 122))
    || (decide (48 ≤ c.toNat) && decide (c.toNat ≤ 57)) || c == '_') = true at h
  simp only [Bool.or_eq_true, Bool.and_eq_true, decide_eq_true_eq, beq_iff_eq] at h
  rcases h with h | rfl
  · omega
  · decide

theorem isNamePart_of_isWordChar {c : Char} (h : isWordChar c = true) :
    Text.isNamePart c = true := by
  have hlt := toNat_of_isWordChar h
  rw [Text.isNamePart, Text.isWord, if_pos (by omega)]
  unfold isWordChar at h
  rw [h, Bool.true_or]

theorem isBlank_of_isWordChar {c : Char} (h : isWordChar c = true) : Text.isBlank c = false :=
  Text.isBlank_of_isNamePart (isNamePart_of_isWordChar h)

theorem newline_notMem_of_isWord {s : String} (h : IsWord s) : '\n' ∉ s.toList :=
  fun hmem => absurd (h.chars '\n' hmem) (by decide)

end Mark

/-! ## Margins -/

namespace Text

theorem newline_notMem_indent (depth : Nat) : '\n' ∉ (indent depth).toList := by
  simp [indent]

theorem blank_indent (depth : Nat) : Blank (indent depth).toList := by
  intro c hc
  rw [indent, String.toList_ofList] at hc
  rw [(List.mem_replicate.1 hc).2]
  decide

theorem trimStart_margin (depth : Nat) {c : Char} (hc : isBlank c = false) (cs : List Char) :
    trimStart ((indent depth).toList ++ c :: cs) = c :: cs :=
  trimStart_blank_append (blank_indent depth) hc cs

/-- Behind a margin, a text that begins and ends without blanks stays when the line is
trimmed. -/
theorem trim_margin (depth : Nat) {c c' : Char} {start : List Char} (hc : isBlank c = false)
    (hlast : (c :: start).getLast? = some c') (hc' : isBlank c' = false) (cs : List Char) :
    trim ((indent depth).toList ++ (c :: start ++ cs)) = c :: start ++ trimEnd cs := by
  rw [trim, List.cons_append, trimStart_margin depth hc, ← List.cons_append,
    trimEnd_append hlast hc']

theorem beginsWith_return {word : List Char} (h : '\r' ∉ word) (cs : List Char) :
    beginsWith word (cs ++ ['\r']) = beginsWith word cs := by
  rw [beginsWith, beginsWith, Bool.eq_iff_iff, List.isPrefixOf_iff_prefix,
    List.isPrefixOf_iff_prefix, List.prefix_concat_iff, or_iff_right]
  rintro rfl
  exact h (by simp)

end Text

namespace Diagram

/-! ## Names and what follows them -/

variable {p : List Char → Bool}

/-- Inside a word nothing is looked for but the end of the word. -/
theorem nameThen_word (hp : ∀ c cs, Mark.isWordChar c = true → p (c :: cs) = false) :
    ∀ {word : List Char}, (∀ c ∈ word, Mark.isWordChar c = true) → ∀ cs,
      nameThen p (word ++ cs) = nameThen p cs
  | [], _, _ => rfl
  | c :: word, h, cs => by
    have hc : Mark.isWordChar c = true := h c List.mem_cons_self
    rw [List.cons_append, nameThen, Text.trimStart_cons (Mark.isBlank_of_isWordChar hc), hp c _ hc,
      Mark.isNamePart_of_isWordChar hc, Bool.false_or, Bool.true_and,
      nameThen_word hp (fun c hc => h c (List.mem_cons_of_mem _ hc))]

theorem identifierThen_margin (depth : Nat) {c : Char} (hc : Text.isBlank c = false)
    (hstart : Text.isNameStart c = true) (cs : List Char) :
    identifierThen p ((Text.indent depth).toList ++ c :: cs) = nameThen p cs := by
  rw [identifierThen, Text.trimStart_margin depth hc]
  simp only [hstart, Bool.true_and]

/-- What follows a name stands in the text. -/
theorem exists_suffix_of_nameThen : ∀ {cs : List Char}, nameThen p cs = true →
    ∃ t, t <:+ cs ∧ p t = true
  | [], h => ⟨[], List.suffix_refl _, h⟩
  | c :: cs, h => by
    rw [nameThen, Bool.or_eq_true, Bool.and_eq_true] at h
    rcases h with h | ⟨-, h⟩
    · exact ⟨_, List.dropWhile_suffix _, h⟩
    · obtain ⟨t, ht, hpt⟩ := exists_suffix_of_nameThen h
      exact ⟨t, ht.trans (List.suffix_cons c cs), hpt⟩

theorem exists_suffix_of_identifierThen {cs : List Char} (h : identifierThen p cs = true) :
    ∃ t, t <:+ cs ∧ p t = true := by
  have htrim : Text.trimStart cs <:+ cs := List.dropWhile_suffix _
  unfold identifierThen at h
  split at h
  · exact absurd h Bool.false_ne_true
  next c cs' hcs =>
    rw [hcs] at htrim
    obtain ⟨t, ht, hpt⟩ := exists_suffix_of_nameThen (Bool.and_eq_true_iff.1 h).2
    exact ⟨t, ht.trans ((List.suffix_cons c cs').trans htrim), hpt⟩

theorem beginsArrow_word (c : Char) (cs : List Char) (h : Mark.isWordChar c = true) :
    beginsArrow (c :: cs) = false := by
  have hhyphen : '-' ≠ c := by
    rintro rfl
    exact absurd h (by decide)
  have hequals : '=' ≠ c := by
    rintro rfl
    exact absurd h (by decide)
  simp [beginsArrow, Text.beginsWith, List.isPrefixOf, hhyphen, hequals]

theorem beginsBracket_word (c : Char) (cs : List Char) (h : Mark.isWordChar c = true) :
    beginsBracket (c :: cs) = false := by
  have hbracket : '[' ≠ c := by
    rintro rfl
    exact absurd h (by decide)
  simp [beginsBracket, Text.beginsWith, List.isPrefixOf, hbracket]

/-! ## Kinds of lines -/

/-- A line that does not begin with the letters of a keyword is an edge, a node or neither. -/
theorem lineKind_of_head {line : List Char} {c : Char} {cs : List Char}
    (h : Text.trim line = c :: cs) (hs : c ≠ 's') (he : c ≠ 'e') :
    lineKind line =
      if isEdgeLine line then .edge else if isNodeLine line then .node else .other := by
  have hopening : openingWord = ['s', 'u', 'b', 'g', 'r', 'a', 'p', 'h'] := rfl
  have hclosing : closingWord = ['e', 'n', 'd'] := rfl
  simp [lineKind, h, hopening, hclosing, Text.beginsWith, hs, Ne.symm hs, he]

theorem lineKind_opening (depth : Nat) (id : String) (rest : List Char) :
    lineKind ((Text.indent depth).toList ++
      (openingWord ++ ' ' :: (id.toList ++ '[' :: '"' :: rest))) = .opening := by
  have hword : openingWord = 's' :: ['u', 'b', 'g', 'r', 'a', 'p', 'h'] := rfl
  rw [lineKind, hword]
  generalize ['u', 'b', 'g', 'r', 'a', 'p', 'h'] = word
  have hlast : ('s' :: (word ++ ' ' :: (id.toList ++ ['[', '"']))).getLast? = some '"' := by
    simp [List.getLast?_cons, List.getLast?_append]
  have hline : 's' :: word ++ ' ' :: (id.toList ++ '[' :: '"' :: rest) =
      's' :: (word ++ ' ' :: (id.toList ++ ['[', '"'])) ++ rest := by
    simp
  have hbegins : Text.beginsWith ('s' :: word ++ [' '])
      ('s' :: (word ++ ' ' :: (id.toList ++ ['[', '"'])) ++ Text.trimEnd rest) = true := by
    rw [Text.beginsWith, List.isPrefixOf_iff_prefix]
    exact ⟨id.toList ++ '[' :: '"' :: Text.trimEnd rest, by simp⟩
  rw [hline, Text.trim_margin depth rfl hlast rfl rest]
  simp only [hbegins, Bool.true_or, if_true]

theorem lineKind_closing (depth : Nat) : lineKind (Item.closingLine depth).toList = .closing := by
  have hline : (Item.closingLine depth).toList =
      (Text.indent depth).toList ++ ('e' :: ['n', 'd'] ++ []) := by
    simp [Item.closingLine]
  have htrim : Text.trim (Item.closingLine depth).toList = closingWord := by
    rw [hline, Text.trim_margin depth rfl rfl rfl []]
    rfl
  have hopening : Text.beginsWith (openingWord ++ [' ']) closingWord = false := by decide
  have hword : (closingWord == openingWord) = false := by decide
  simp [lineKind, htrim, hopening, hword]

theorem lineKind_node (depth k : Nat) (rest : List Char) :
    lineKind ((Text.indent depth).toList ++ ((nodeId k).toList ++ '[' :: '"' :: rest)) = .node := by
  have hlast : ('N' :: (Nat.toDigits 10 k ++ ['[', '"'])).getLast? = some '"' := by
    simp [List.getLast?_cons, List.getLast?_append]
  have htrim := Text.trim_margin depth rfl hlast rfl rest
  have hline : (Text.indent depth).toList ++ ((nodeId k).toList ++ '[' :: '"' :: rest) =
      (Text.indent depth).toList ++ ('N' :: (Nat.toDigits 10 k ++ ['[', '"']) ++ rest) := by
    simp [toList_nodeId]
  have hidentifier : ∀ p : List Char → Bool,
      identifierThen p ((Text.indent depth).toList ++
        ('N' :: (Nat.toDigits 10 k ++ ['[', '"']) ++ rest)) =
      nameThen p (Nat.toDigits 10 k ++ '[' :: '"' :: rest) := by
    intro p
    rw [List.cons_append, identifierThen_margin depth rfl rfl]
    simp
  have hedge : nameThen beginsArrow ('[' :: '"' :: rest) = false := rfl
  have hnode : nameThen beginsBracket ('[' :: '"' :: rest) = true := rfl
  rw [hline, lineKind_of_head htrim (by decide) (by decide), isEdgeLine, isNodeLine, hidentifier,
    hidentifier, nameThen_word beginsArrow_word (Mark.isWord_toDigits k), hedge,
    nameThen_word beginsBracket_word (Mark.isWord_toDigits k), hnode]
  rfl

theorem lineKind_edge (depth j : Nat) (rest : List Char) :
    lineKind ((Text.indent depth).toList ++ ((nodeId j).toList ++ " --> ".toList ++ 'N' :: rest)) =
      .edge := by
  have harrow : " --> ".toList = [' ', '-', '-', '>', ' '] := rfl
  have hlast : ('N' :: (Nat.toDigits 10 j ++ [' ', '-', '-', '>', ' ', 'N'])).getLast? =
      some 'N' := by
    simp [List.getLast?_cons, List.getLast?_append]
  have htrim := Text.trim_margin depth rfl hlast rfl rest
  have hline : (nodeId j).toList ++ " --> ".toList ++ 'N' :: rest =
      'N' :: (Nat.toDigits 10 j ++ [' ', '-', '-', '>', ' ', 'N']) ++ rest := by
    simp [toList_nodeId, harrow]
  have hedge : nameThen beginsArrow (' ' :: '-' :: '-' :: '>' :: ' ' :: 'N' :: rest) = true := rfl
  rw [hline, lineKind_of_head htrim (by decide) (by decide), isEdgeLine, List.cons_append,
    identifierThen_margin depth rfl rfl, List.append_assoc,
    nameThen_word beginsArrow_word (Mark.isWord_toDigits j)]
  simp only [List.cons_append, List.nil_append, hedge, if_true]

/-- Behind a word and a blank a word does not make an arrow or a bracket. -/
theorem nameThen_blank {p : List Char → Bool}
    (hp : ∀ c cs, Mark.isWordChar c = true → p (c :: cs) = false) {c : Char}
    (hc : Mark.isWordChar c = true) (cs : List Char) : nameThen p (' ' :: c :: cs) = false := by
  have hstart : Text.trimStart (' ' :: c :: cs) = c :: cs := by
    rw [Text.trimStart, List.dropWhile_cons_of_pos (by decide), ← Text.trimStart,
      Text.trimStart_cons (Mark.isBlank_of_isWordChar hc)]
  have hblank : Text.isNamePart ' ' = false := rfl
  rw [nameThen, hstart, hp c cs hc, hblank]
  rfl

/-- A line that begins with other letters than a keyword, and is no edge and no node. -/
theorem lineKind_of_letters {line cs : List Char} (h : Text.trim line = 's' :: 't' :: cs)
    (hedge : isEdgeLine line = false) (hnode : isNodeLine line = false) :
    lineKind line = .other := by
  have hopening : openingWord = ['s', 'u', 'b', 'g', 'r', 'a', 'p', 'h'] := rfl
  have hclosing : closingWord = ['e', 'n', 'd'] := rfl
  simp [lineKind, h, hopening, hclosing, Text.beginsWith, hedge, hnode]

theorem lineKind_style (depth : Nat) {id : String} (hid : Mark.IsWord id) (rest : List Char) :
    lineKind ((Text.indent depth).toList ++
      ("style ".toList ++ (id.toList ++ " fill:".toList) ++ rest)) = .other := by
  obtain ⟨c, cs, hcs, hc⟩ := hid.exists_cons
  have hstyle : "style ".toList = 's' :: (['t', 'y', 'l', 'e'] ++ [' ']) := rfl
  have hfill : " fill:".toList = [' ', 'f', 'i', 'l', 'l', ':'] := rfl
  have hlast : ('s' :: (['t', 'y', 'l', 'e'] ++ [' '] ++
      (c :: cs ++ [' ', 'f', 'i', 'l', 'l', ':']))).getLast? = some ':' := by
    simp [List.getLast?_cons, List.getLast?_append]
  have htrim := Text.trim_margin depth rfl hlast rfl rest
  have hword : ∀ c ∈ ['t', 'y', 'l', 'e'], Mark.isWordChar c = true := by
    simp [Mark.isWordChar]
  have hname : ∀ p : List Char → Bool,
      (∀ c cs, Mark.isWordChar c = true → p (c :: cs) = false) →
      identifierThen p ((Text.indent depth).toList ++ ('s' :: (['t', 'y', 'l', 'e'] ++ [' '] ++
        (c :: cs ++ [' ', 'f', 'i', 'l', 'l', ':'])) ++ rest)) = false := by
    intro p hp
    rw [List.cons_append, identifierThen_margin depth rfl rfl, List.append_assoc,
      List.append_assoc, nameThen_word hp hword, List.cons_append, List.cons_append,
      List.cons_append, List.nil_append]
    exact nameThen_blank hp hc _
  rw [hcs, hstyle, hfill]
  exact lineKind_of_letters htrim (hname _ beginsArrow_word) (hname _ beginsBracket_word)

/-! ## A carriage return at the end -/

theorem trimStart_then_return (hp : ∀ cs, p (cs ++ ['\r']) = p cs) (cs : List Char) :
    p (Text.trimStart (cs ++ ['\r'])) = p (Text.trimStart cs) := by
  rw [Text.trimStart_return]
  split
  next h => rw [h]
  next => rw [hp]

theorem nameThen_return (hp : ∀ cs, p (cs ++ ['\r']) = p cs) :
    ∀ cs : List Char, nameThen p (cs ++ ['\r']) = nameThen p cs
  | [] => by
    have hpart : Text.isNamePart '\r' = false := rfl
    have hsingle : nameThen p ['\r'] =
        (p (Text.trimStart ['\r']) || (Text.isNamePart '\r' && nameThen p [])) := rfl
    rw [List.nil_append, hsingle, hpart, Bool.false_and, Bool.or_false]
    exact trimStart_then_return hp []
  | c :: cs => by
    rw [List.cons_append, nameThen, nameThen, nameThen_return hp cs, ← List.cons_append,
      trimStart_then_return hp]

theorem identifierThen_return (hp : ∀ cs, p (cs ++ ['\r']) = p cs) (line : List Char) :
    identifierThen p (line ++ ['\r']) = identifierThen p line := by
  rw [identifierThen, identifierThen, Text.trimStart_return]
  cases Text.trimStart line with
  | nil => rfl
  | cons c cs =>
    simp only [List.cons_ne_nil, if_false, List.cons_append, nameThen_return hp]

/-- A carriage return at the end of a line does not matter. -/
theorem lineKind_dropReturn (line : List Char) :
    lineKind (Text.dropReturn line) = lineKind line := by
  have harrow : ∀ cs, beginsArrow (cs ++ ['\r']) = beginsArrow cs := fun cs => by
    rw [beginsArrow, beginsArrow, Text.beginsWith_return (by decide),
      Text.beginsWith_return (by decide), Text.beginsWith_return (by decide)]
  have hbracket : ∀ cs, beginsBracket (cs ++ ['\r']) = beginsBracket cs := fun cs =>
    Text.beginsWith_return (by decide) cs
  refine Text.of_dropReturn (f := lineKind) (fun cs => ?_) line
  rw [lineKind, lineKind, Text.trim_return, isEdgeLine, isEdgeLine, isNodeLine, isNodeLine,
    identifierThen_return harrow, identifierThen_return hbracket]

/-! ## Kinds of a line that is cut -/

/-- What the lines count as that a line of a body is cut into. -/
def kinds (line : String) : List LineKind :=
  (Text.ended line.toList).map lineKind

/-- The lines that begin inside a text between `["` and `"]`. -/
def looseLines (text : String) : List (List Char) :=
  Text.loose (text.toList ++ ['"', ']'])

/-- Whatever follows, the first line counts as its beginning tells. -/
theorem kinds_append {line : String} {before cs : List Char} {kind : LineKind}
    (hline : line.toList = before ++ cs) (hbefore : '\n' ∉ before)
    (hlast : before.getLast? ≠ some '\r') (hkind : ∀ rest, lineKind (before ++ rest) = kind) :
    kinds line = kind :: (Text.loose cs).map lineKind := by
  obtain ⟨first, hfirst⟩ := Text.ended_append hbefore hlast cs
  rw [kinds, hline, hfirst, List.map_cons, hkind first]

/-- A line that is not cut counts as one line. -/
theorem kinds_of_notMem {line : String} (h : '\n' ∉ line.toList) :
    kinds line = [lineKind line.toList] := by
  rw [kinds, Text.ended_of_notMem h, List.map_singleton, lineKind_dropReturn]

end Diagram

namespace Mark

/-! ## What marks count as -/

/-- What a line counts as. -/
def kind : Mark → LineKind
  | .node .. => .node
  | .opening .. => .opening
  | .closing => .closing
  | .edge .. => .edge
  | .style _ => .other

/-- The label or the title in a line. -/
def text? : Mark → Option String
  | .node _ label => some label
  | .opening _ title => some title
  | .closing | .edge .. | .style _ => none

/-- What the line and the lines that begin inside its text count as. -/
def kinds (m : Mark) : List LineKind :=
  m.kind :: (m.text?.toList.flatMap Diagram.looseLines).map Diagram.lineKind

theorem newline_notMem_nodeId (k : Nat) : '\n' ∉ (nodeId k).toList :=
  newline_notMem_of_isWord (isWord_nodeId k)

theorem kinds_nodeLine (depth k : Nat) (label : String) :
    Diagram.kinds (Item.nodeLine depth (nodeId k) label) = (node (nodeId k) label).kinds := by
  have hline : (Item.nodeLine depth (nodeId k) label).toList = ((Text.indent depth).toList ++
      ((nodeId k).toList ++ ['[', '"'])) ++ (label.toList ++ ['"', ']']) := by
    simp [Item.nodeLine]
  have hnewline : '\n' ∉ (Text.indent depth).toList ++ ((nodeId k).toList ++ ['[', '"']) := by
    simp [Text.newline_notMem_indent, newline_notMem_nodeId]
  have hkind : ∀ rest, Diagram.lineKind ((Text.indent depth).toList ++
      ((nodeId k).toList ++ ['[', '"']) ++ rest) = .node := fun rest => by
    simpa using Diagram.lineKind_node depth k rest
  rw [Diagram.kinds_append hline hnewline (by simp [List.getLast?_append]) hkind]
  simp [kinds, kind, text?, Diagram.looseLines]

theorem kinds_openingLine (depth : Nat) (blockKind : BlockKind) {id : String} (name : String)
    (hid : IsWord id) : Diagram.kinds (Item.openingLine depth blockKind id name) =
      (opening id (titleOf blockKind name)).kinds := by
  have hword : "subgraph ".toList = Diagram.openingWord ++ [' '] := rfl
  have hline : (Item.openingLine depth blockKind id name).toList = ((Text.indent depth).toList ++
      (Diagram.openingWord ++ ' ' :: (id.toList ++ ['[', '"']))) ++
      ((titleOf blockKind name).toList ++ ['"', ']']) := by
    simp only [Item.openingLine, titleOf, String.toList_append, hword]
    generalize Diagram.openingWord = word
    simp
  have hnewline : '\n' ∉ (Text.indent depth).toList ++
      (Diagram.openingWord ++ ' ' :: (id.toList ++ ['[', '"'])) := by
    have hword : '\n' ∉ Diagram.openingWord := by decide
    simp [Text.newline_notMem_indent, hword, newline_notMem_of_isWord hid]
  have hkind : ∀ rest, Diagram.lineKind ((Text.indent depth).toList ++
      (Diagram.openingWord ++ ' ' :: (id.toList ++ ['[', '"'])) ++ rest) = .opening :=
    fun rest => by simpa using Diagram.lineKind_opening depth id rest
  rw [Diagram.kinds_append hline hnewline
    (by simp [List.getLast?_append, List.getLast?_cons]) hkind]
  simp [kinds, kind, text?, Diagram.looseLines]

theorem kinds_closingLine (depth : Nat) :
    Diagram.kinds (Item.closingLine depth) = closing.kinds := by
  have hline : (Item.closingLine depth).toList = (Text.indent depth).toList ++ ['e', 'n', 'd'] := by
    simp [Item.closingLine]
  rw [Diagram.kinds_of_notMem, Diagram.lineKind_closing]
  · rfl
  · simp [hline, Text.newline_notMem_indent]

theorem kinds_edgeLine (j k : Nat) {e : Edge} (hsource : e.source = nodeId j)
    (htarget : e.target = nodeId k) :
    Diagram.kinds e.line = (edge e.source e.target).kinds := by
  have hline : e.line.toList = ((Text.indent 1).toList ++
      ((nodeId j).toList ++ " --> ".toList ++ ['N'])) ++ Nat.toDigits 10 k := by
    simp [Edge.line, hsource, htarget, toList_nodeId k]
  have hnewline : '\n' ∉ (Text.indent 1).toList ++
      ((nodeId j).toList ++ " --> ".toList ++ ['N']) := by
    simp [Text.newline_notMem_indent, newline_notMem_nodeId]
  have hkind : ∀ rest, Diagram.lineKind ((Text.indent 1).toList ++
      ((nodeId j).toList ++ " --> ".toList ++ ['N']) ++ rest) = .edge := fun rest => by
    simpa using Diagram.lineKind_edge 1 j rest
  have hdigits : '\n' ∉ Nat.toDigits 10 k :=
    fun hmem => absurd (isWord_toDigits k _ hmem) (by decide)
  rw [Diagram.kinds_append hline hnewline (by simp [List.getLast?_append]) hkind,
    Text.loose_of_notMem hdigits]
  rfl

theorem kinds_styleLine {id line : String} {look : List Char} (hid : IsWord id)
    (hlook : '\n' ∉ look)
    (h : line.toList = "style ".toList ++ (id.toList ++ (" fill:".toList ++ look))) :
    Diagram.kinds (Text.indent 1 ++ line) = (style id).kinds := by
  have hline : (Text.indent 1 ++ line).toList = ((Text.indent 1).toList ++
      ("style ".toList ++ (id.toList ++ " fill:".toList))) ++ look := by
    simp [h]
  have hnewline : '\n' ∉ (Text.indent 1).toList ++
      ("style ".toList ++ (id.toList ++ " fill:".toList)) := by
    simp [Text.newline_notMem_indent, newline_notMem_of_isWord hid]
  have hkind : ∀ rest, Diagram.lineKind ((Text.indent 1).toList ++
      ("style ".toList ++ (id.toList ++ " fill:".toList)) ++ rest) = .other := fun rest => by
    simpa using Diagram.lineKind_style 1 hid rest
  rw [Diagram.kinds_append hline hnewline
    (by simp [List.getLast?_append, List.getLast?_cons]) hkind, Text.loose_of_notMem hlook]
  rfl

/-- Every line of a chart counts as its mark tells, and so do the lines it is cut into. -/
theorem reading_kinds : Reading Diagram.kinds kinds where
  node := kinds_nodeLine
  opening depth blockKind _ name hid := kinds_openingLine depth blockKind name hid
  closing := kinds_closingLine
  edge j k _ hsource htarget := kinds_edgeLine j k hsource htarget
  nodeStyle p id group isEntry hp hid := by
    obtain ⟨look, hlook, h⟩ := p.exists_look_nodeStyle hp id group isEntry
    exact kinds_styleLine hid hlook h
  blockStyle p id blockKind level hp hid := by
    obtain ⟨look, hlook, h⟩ := p.exists_look_blockStyle hp id blockKind level
    exact kinds_styleLine hid hlook h

end Mark

end CallChart
