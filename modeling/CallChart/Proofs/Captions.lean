import CallChart.Proofs.Agreement
import CallChart.Proofs.Enrolments
import CallChart.Proofs.Labels
import CallChart.Proofs.WellNested

/-!
# Captions

A line that shows a node or opens a block has its caption, the label or the title, between `["` and
`"]`. `Mark.ofCaption?` reads such a line by these two alone : it cuts the line at the first `["`,
cuts what follows at the first `"]`, and has the id in front of the caption.

Nothing that comes from a source can end a caption. Of the characters that escaping replaces
(`Text.reserved`) none stands in an escaped text, and in a label only those of the one line break
that `Label.format` puts behind the name (`Label.format_eq`). So the first `"]` of a line is the
only one, and every caption is read as it was written. Main statement :
`Emission.ofGrouping_captions`.
-/

namespace CallChart

namespace Text

/-! ## Cutting at a mark -/

/-- What stands in front of the first place where `mark` stands, and what stands behind it. -/
def cutAt (mark : List Char) : List Char → Option (List Char × List Char)
  | [] => none
  | c :: cs =>
    if beginsWith mark (c :: cs) then some ([], (c :: cs).drop mark.length)
    else (cutAt mark cs).map fun parts => (c :: parts.1, parts.2)

/-- In how many places `mark` stands. -/
def occurrences (mark : List Char) : List Char → Nat
  | [] => 0
  | c :: cs => (if beginsWith mark (c :: cs) then 1 else 0) + occurrences mark cs

variable {c : Char} {mark before : List Char}

theorem beginsWith_cons_of_ne {c' : Char} (h : c ≠ c') (cs : List Char) :
    beginsWith (c :: mark) (c' :: cs) = false := by
  rw [beginsWith, List.isPrefixOf_cons_cons, beq_eq_false_iff_ne.2 h, Bool.false_and]

theorem beginsWith_append (mark rest : List Char) : beginsWith mark (mark ++ rest) = true := by
  rw [beginsWith, List.isPrefixOf_iff_prefix]
  exact List.prefix_append mark rest

/-- A text that does not hold the first character of the mark is cut off in front of it. -/
theorem cutAt_append (h : c ∉ before) (rest : List Char) :
    cutAt (c :: mark) (before ++ (c :: mark ++ rest)) = some (before, rest) := by
  induction before with
  | nil =>
    rw [List.nil_append, List.cons_append, cutAt, ← List.cons_append, beginsWith_append,
      if_pos rfl, List.drop_left]
  | cons c' before ih =>
    rw [List.mem_cons, not_or] at h
    rw [List.cons_append, cutAt, beginsWith_cons_of_ne h.1, if_neg Bool.false_ne_true, ih h.2]
    rfl

/-- Where its first character does not stand, the mark does not begin. -/
theorem occurrences_append (h : c ∉ before) (cs : List Char) :
    occurrences (c :: mark) (before ++ cs) = occurrences (c :: mark) cs := by
  induction before with
  | nil => rfl
  | cons c' before ih =>
    rw [List.mem_cons, not_or] at h
    rw [List.cons_append, occurrences, beginsWith_cons_of_ne h.1, ih h.2]
    exact Nat.zero_add _

/-! ## Reserved characters -/

/-- Characters that have a meaning in the text of a diagram. -/
def reserved : List Char :=
  ['"', '[', ']', '\x7b', '\x7d', '<', '>', '&']

/-- None of the reserved characters stands in the text. -/
def Inert (s : String) : Prop :=
  ∀ c ∈ reserved, c ∉ s.toList

variable {s s' : String}

theorem Inert.append (h : Inert s) (h' : Inert s') : Inert (s ++ s') := by
  intro c hc
  rw [String.toList_append, List.mem_append, not_or]
  exact ⟨h c hc, h' c hc⟩

theorem inert_of_all (h : s.toList.all (fun c => !reserved.contains c) = true) : Inert s := by
  intro c hc hmem
  have hfree := List.all_eq_true.1 h c hmem
  rw [List.contains_iff_mem.2 hc] at hfree
  exact Bool.false_ne_true hfree

/-- Escaping replaces the reserved characters. -/
theorem inert_escape (s : String) : Inert (escape s) := by
  have hcode : ∀ c ∈ reserved, entity? c ≠ none := by simp [reserved, entity?]
  intro c hc hmem
  rw [escape, String.toList_ofList] at hmem
  exact hcode c hc (entity?_of_mem_escapeChars hmem)

theorem inert_repr (k : Nat) : Inert (Nat.repr k) := by
  have hword : ∀ c ∈ reserved, Mark.isWordChar c = false := by simp [reserved, Mark.isWordChar]
  have hdigits : (Nat.repr k).toList = Nat.toDigits 10 k := String.toList_ofList
  intro c hc hmem
  rw [hdigits] at hmem
  exact Bool.false_ne_true ((hword c hc).symm.trans (Mark.isWord_toDigits k c hmem))

end Text

open Text (Inert inert_of_all inert_escape inert_repr)

/-! ## Labels -/

namespace Label

/-- A label has a second line if it shows a file name, or lines. -/
def hasSecondLine (symbol : Option Symbol) (level : Level) : Bool :=
  symbol.any fun s =>
    level.showsFile && s.fileName != "" || level.showsLine && s.firstLine != 0

theorem inert_classPart (s : Symbol) : Inert (classPart s) := by
  unfold classPart
  split
  · exact (inert_escape _).append (inert_of_all rfl)
  · exact inert_of_all rfl

theorem inert_lineRange (level : Level) (s : Symbol) : Inert (lineRange level s) := by
  have hfirst : Inert ("L" ++ Nat.repr s.firstLine.toNat) :=
    (inert_of_all rfl).append (inert_repr _)
  unfold lineRange
  split
  · exact (hfirst.append (inert_of_all rfl)).append (inert_repr _)
  · exact hfirst

/-- Where lines are shown, so is the file. -/
theorem showsFile_of_showsLine {level : Level} (h : level.showsLine = true) :
    level.showsFile = true := by
  cases level <;> simp_all [Level.showsLine, Level.showsFile]

/-- What a label says of the file and the lines stands behind one line break, if it says
anything. -/
theorem exists_secondLine (s : Symbol) (level : Level) : ∃ tail, Inert tail ∧
    (if level.showsFile then filePart s else "") ++
        (if level.showsLine then linePart level s else "") =
      (if hasSecondLine (some s) level then lineBreak else "") ++ tail := by
  have hline : Inert (":" ++ lineRange level s) := (inert_of_all rfl).append (inert_lineRange _ _)
  have hempty : Inert "" := inert_of_all rfl
  by_cases hfile : s.fileName = ""
  · -- Without a file name the lines begin the second line.
    by_cases hshown : level.showsLine = true ∧ s.firstLine ≠ 0
    · refine ⟨lineRange level s, inert_lineRange level s, ?_⟩
      simp [hasSecondLine, filePart, linePart, hfile, hshown, showsFile_of_showsLine hshown.1]
    · refine ⟨"", hempty, ?_⟩
      by_cases hlevel : level.showsLine = true <;>
        simp_all [hasSecondLine, filePart, linePart]
  · by_cases hshown : level.showsFile = true
    · by_cases hlines : level.showsLine = true ∧ s.firstLine ≠ 0
      · refine ⟨Text.escape s.fileName ++ (":" ++ lineRange level s),
          (inert_escape _).append hline, ?_⟩
        simp [hasSecondLine, filePart, linePart, hfile, hshown, hlines, String.append_assoc]
      · refine ⟨Text.escape s.fileName, inert_escape _, ?_⟩
        by_cases hlevel : level.showsLine = true <;>
          simp_all [hasSecondLine, filePart, linePart]
    · have hlevel : level.showsLine = false := by
        rw [← Bool.not_eq_true]
        exact mt showsFile_of_showsLine hshown
      refine ⟨"", hempty, ?_⟩
      simp [hasSecondLine, hshown, hlevel]

/-- The reserved characters of a label are those of a line break, and there is one if and only if
the label has a second line. -/
theorem format_eq (name : String) (symbol : Option Symbol) (level : Level) :
    ∃ head tail, Inert head ∧ Inert tail ∧ format name symbol level =
      head ++ (if hasSecondLine symbol level then lineBreak else "") ++ tail := by
  have hempty : Inert "" := inert_of_all rfl
  cases symbol with
  | none => exact ⟨Text.escape (shortName name), "", inert_escape _, hempty, by
      simp [format, hasSecondLine]⟩
  | some s =>
    obtain ⟨tail, htail, heq⟩ := exists_secondLine s level
    refine ⟨(if level.showsClass then classPart s else "") ++ Text.escape s.shownName, tail,
      Inert.append ?_ (inert_escape _), htail, ?_⟩
    · split
      · exact inert_classPart s
      · exact hempty
    · rw [String.append_assoc, ← heq]
      simp only [format, String.append_assoc]

/-- A label holds no quote and no bracket. -/
theorem notMem_format (name : String) (symbol : Option Symbol) (level : Level) :
    '"' ∉ (format name symbol level).toList ∧ ']' ∉ (format name symbol level).toList := by
  obtain ⟨head, tail, hhead, htail, heq⟩ := format_eq name symbol level
  have hbreak : ∀ c ∈ ['"', ']'],
      c ∉ (if hasSecondLine symbol level then lineBreak else "").toList := by
    split <;> simp [lineBreak]
  have hnotMem : ∀ c ∈ ['"', ']'], c ∈ Text.reserved → c ∉ (format name symbol level).toList := by
    intro c hc hres
    rw [heq, String.toList_append, String.toList_append, List.mem_append, List.mem_append]
    simp [hhead c hres, htail c hres, hbreak c hc]
  exact ⟨hnotMem _ (by decide) (by decide), hnotMem _ (by decide) (by decide)⟩

end Label

/-! ## Reading captions -/

namespace Mark

/-- What stands in front of a caption : an id for a node, and before it the word `subgraph` for a
block. -/
def ofLead? (text : String) (lead : List Char) : Option Mark :=
  match splitWord (lead.dropWhile (· == ' ')) with
  | (id, []) => some (.node id text)
  | (word, ' ' :: id) => if word = "subgraph" then some (.opening (String.ofList id) text) else none
  | _ => none

/-- What a line stands for that has a caption between the first `["` and the next `"]`, which ends
the line. -/
def ofCaption? (line : String) : Option Mark := do
  let (lead, quoted) ← Text.cutAt ['[', '"'] line.toList
  let (text, rest) ← Text.cutAt ['"', ']'] quoted
  if rest = [] then ofLead? (String.ofList text) lead else none

/-- A line is read as a mark by its caption, and nothing else ends the caption. -/
structure Captioned (line : String) (m : Mark) : Prop where
  read : ofCaption? line = some m
  once : Text.occurrences ['"', ']'] line.toList = 1

/-- A caption without quotes and brackets behind a lead without them. -/
theorem captioned_of_lead (lead : List Char) {line text : String} {m : Mark}
    (h : line.toList = lead ++ '[' :: '"' :: (text.toList ++ ['"', ']']))
    (hlead : '[' ∉ lead ∧ '"' ∉ lead) (htext : '"' ∉ text.toList ∧ ']' ∉ text.toList)
    (hm : ofLead? text lead = some m) : Captioned line m where
  read := by
    have hopen : Text.cutAt ['[', '"'] line.toList = some (lead, text.toList ++ ['"', ']']) := by
      rw [h]
      exact Text.cutAt_append hlead.1 _
    have hclose : Text.cutAt ['"', ']'] (text.toList ++ ['"', ']']) = some (text.toList, []) :=
      Text.cutAt_append htext.1 []
    simp [ofCaption?, hopen, hclose, hm]
  once := by
    have hlast : Text.occurrences ['"', ']'] ['"', ']'] = 1 := by decide
    -- The quote that opens the caption ends nothing, for no bracket follows it.
    have hquote : Text.occurrences ['"', ']'] ('"' :: (text.toList ++ ['"', ']'])) =
        Text.occurrences ['"', ']'] (text.toList ++ ['"', ']']) := by
      rw [Text.occurrences]
      cases hcs : text.toList with
      | nil => simp [Text.beginsWith]
      | cons c cs =>
        have hc : ']' ≠ c := fun hc => htext.2 (hcs ▸ hc ▸ List.mem_cons_self)
        simp [Text.beginsWith, hc]
    have hbracket : '"' ∉ lead ++ ['['] := by simp [hlead.2]
    rw [h, List.append_cons, Text.occurrences_append hbracket, hquote,
      Text.occurrences_append htext.1, hlast]

theorem dropWhile_margin (depth : Nat) {word : String} (hword : IsWord word) (rest : List Char) :
    ((Text.indent depth).toList ++ (word.toList ++ rest)).dropWhile (· == ' ') =
      word.toList ++ rest := by
  have hspaces : ∀ c ∈ (Text.indent depth).toList, (c == ' ') = true := by
    simp [Text.indent]
  obtain ⟨c, cs, hcs, hc⟩ := hword.exists_cons
  have hspace : (c == ' ') = false := by
    rw [beq_eq_false_iff_ne]
    rintro rfl
    exact absurd hc (by decide)
  rw [List.dropWhile_append_of_pos hspaces, hcs, List.cons_append, List.dropWhile_cons, hspace]
  rfl

theorem notMem_of_isWord {word : String} (hword : IsWord word) :
    '[' ∉ word.toList ∧ '"' ∉ word.toList :=
  ⟨fun h => absurd (hword.chars _ h) (by decide), fun h => absurd (hword.chars _ h) (by decide)⟩

theorem notMem_indent (depth : Nat) :
    '[' ∉ (Text.indent depth).toList ∧ '"' ∉ (Text.indent depth).toList := by
  simp [Text.indent]

/-- The line of a node is read by its caption, if that is a label. -/
theorem captioned_nodeLine (depth k : Nat) (name : String) (symbol : Option Symbol)
    (level : Level) :
    Captioned (Item.nodeLine depth (nodeId k) (Label.format name symbol level))
      (.node (nodeId k) (Label.format name symbol level)) := by
  have hid := isWord_nodeId k
  refine captioned_of_lead ((Text.indent depth).toList ++ (nodeId k).toList)
    (by simp [Item.nodeLine]) ?_ (Label.notMem_format name symbol level) ?_
  · simp [notMem_indent, notMem_of_isWord hid]
  · have hdrop := dropWhile_margin depth hid []
    have hsplit : splitWord ((nodeId k).toList ++ []) = (nodeId k, []) :=
      splitWord_append hid (by simp)
    rw [List.append_nil] at hdrop hsplit
    rw [ofLead?, hdrop, hsplit]

/-- The line that opens a block is read by its caption. -/
theorem captioned_openingLine (depth : Nat) (kind : BlockKind) {id : String} (name : String)
    (hid : IsWord id) :
    Captioned (Item.openingLine depth kind id name) (.opening id (titleOf kind name)) := by
  have htitle : Inert (titleOf kind name) := by
    have hkind : Inert kind.title := by cases kind <;> exact inert_of_all rfl
    exact (hkind.append (inert_of_all rfl)).append (inert_escape name)
  have hword : "subgraph ".toList = "subgraph".toList ++ [' '] := rfl
  refine captioned_of_lead
    ((Text.indent depth).toList ++ ("subgraph".toList ++ ' ' :: id.toList)) ?_ ?_
    ⟨htitle _ (by decide), htitle _ (by decide)⟩ ?_
  · simp only [Item.openingLine, titleOf, String.toList_append, hword]
    simp
  · have hsubgraph := notMem_of_isWord isWord_subgraph
    simp only [List.mem_append, List.mem_cons, notMem_indent, notMem_of_isWord hid, hsubgraph]
    decide
  · have hsplit : splitWord ("subgraph".toList ++ ' ' :: id.toList) =
        ("subgraph", ' ' :: id.toList) :=
      splitWord_append isWord_subgraph (by simp; decide)
    rw [ofLead?, dropWhile_margin depth isWord_subgraph, hsplit]
    simp

end Mark

/-! ## The lines of items -/

namespace Item

/-- The lines of items with these nodes and blocks. -/
inductive IsLine (nodes : List (String × String)) (blocks : List BlockInfo) : String → Prop
  | node (depth : Nat) {id label : String} (h : (id, label) ∈ nodes) :
    IsLine nodes blocks (nodeLine depth id label)
  | opening (depth : Nat) {b : BlockInfo} (h : b ∈ blocks) :
    IsLine nodes blocks (openingLine depth b.kind b.id b.name)
  | closing (depth : Nat) : IsLine nodes blocks (closingLine depth)

theorem IsLine.mono {nodes nodes' : List (String × String)} {blocks blocks' : List BlockInfo}
    (hnodes : nodes ⊆ nodes') (hblocks : blocks ⊆ blocks') {line : String} :
    IsLine nodes blocks line → IsLine nodes' blocks' line
  | .node depth h => .node depth (hnodes h)
  | .opening depth h => .opening depth (hblocks h)
  | .closing depth => .closing depth

theorem isLine_of_mem_allLines {items : List Item} {depth level : Nat} {parent : Option String}
    (hitems : ∀ item ∈ items, ∀ line ∈ item.lines depth,
      IsLine item.nodes (item.infos level parent) line) :
    ∀ line ∈ allLines depth items,
      IsLine (items.flatMap nodes) (allInfos level parent items) line := by
  rw [allLines_eq, allInfos_eq]
  intro line hline
  obtain ⟨item, hitem, hline⟩ := List.mem_flatMap.1 hline
  exact (hitems item hitem line hline).mono
    (fun _ hnode => List.mem_flatMap.2 ⟨item, hitem, hnode⟩)
    (fun _ hblock => List.mem_flatMap.2 ⟨item, hitem, hblock⟩)

theorem isLine_of_mem_lines (item : Item) : ∀ (depth level : Nat) (parent : Option String),
    ∀ line ∈ item.lines depth, IsLine item.nodes (item.infos level parent) line := by
  induction item using Item.induct with
  | node id label =>
    intro depth level parent line hline
    rw [lines, List.mem_singleton] at hline
    exact hline ▸ .node depth (by simp)
  | block kind id name items ih =>
    intro depth level parent line hline
    have hinner := isLine_of_mem_allLines fun item hitem =>
      ih item hitem (depth + 1) (level + 1) (some id)
    rw [lines, List.mem_cons, List.mem_append, List.mem_singleton] at hline
    rw [nodes_block, infos]
    rcases hline with rfl | hline | rfl
    · exact .opening depth (b := ⟨id, kind, name, level, parent, items.filterMap nodeId?⟩)
        List.mem_cons_self
    · exact (hinner line hline).mono (List.Subset.refl _) (List.subset_cons_self _ _)
    · exact .closing depth

end Item

/-! ## Labels of a roster -/

namespace Roster

/-- Every label is that of its node, at one level. -/
structure LabelledAt (level : Level) (r : Roster) : Prop where
  level_eq : r.level = level
  label_eq : ∀ n ∈ r.nodes, n.label = Label.format n.name n.symbol level

theorem LabelledAt.push {level : Level} {r : Roster} (h : r.LabelledAt level) (name : String)
    (symbol : Option Symbol) (isEntry : Bool) (depth : Option Nat) :
    (r.push name symbol isEntry depth).LabelledAt level where
  level_eq := h.level_eq
  label_eq n hn := by
    rcases List.mem_append.1 hn with hn | hn
    · exact h.label_eq n hn
    · rw [List.mem_singleton.1 hn, h.level_eq]

theorem LabelledAt.perform {level : Level} {r : Roster} (h : r.LabelledAt level) :
    ∀ call, (r.perform call).LabelledAt level
  | .create name symbol isEntry => by
    rw [Roster.perform, create]
    split
    · exact h
    · exact h.push _ _ _ _
  | .collect .. => Walk.visit_keeps (P := fun w => w.roster.LabelledAt level) (fun _ _ hw => hw)
      (fun _ _ _ _ _ _ _ hw => hw.push _ _ _ _) _ _ ⟨r, [], []⟩ _ h

/-- Whatever calls have filled a roster, its labels are those of its level. -/
theorem labelledAt_ofCalls (level : Level) (calls : List Enrolment) :
    (ofCalls level calls).LabelledAt level := by
  have hfold : ∀ (calls : List Enrolment) (r : Roster), r.LabelledAt level →
      (calls.foldl Roster.perform r).LabelledAt level := by
    intro calls
    induction calls with
    | nil => exact fun _ h => h
    | cons call calls ih => exact fun r h => ih _ (h.perform call)
  exact hfold calls _ ⟨rfl, by simp⟩

end Roster

/-! ## Emissions -/

namespace Emission

/-- The lines of an emission show nodes of the roster and open the blocks on record. -/
theorem isLine_of_mem_lines (r : Roster) (most : Nat) (c : Numbering) (g : Grouping) :
    ∀ line ∈ (ofGrouping r most c g).1.lines,
      Item.IsLine (r.labelled (g.shown most)) (ofGrouping r most c g).1.blocks line := by
  rw [ofGrouping_eq, ← Item.nodes_layout r most c g]
  exact Item.isLine_of_mem_allLines fun item _ => Item.isLine_of_mem_lines item 1 0 none

theorem isWord_of_mem_blocks (r : Roster) (most : Nat) (c : Numbering) (g : Grouping) :
    ∀ b ∈ (ofGrouping r most c g).1.blocks, Mark.IsWord b.id := by
  intro b hb
  rw [ofGrouping_eq] at hb
  have hid := List.mem_map_of_mem (f := BlockInfo.id) hb
  rw [Item.map_id_allInfos] at hid
  exact Mark.isWord_of_issued ((Item.fresh_layout r most c g).issued b.id hid)

/-- A line of an emission is read by its caption as what it was written for : a node of the roster
with its label, the opening of a block on record with its title, or the end of a block, which has no
caption. -/
inductive Legible (level : Level) (r : Roster) (out : Emission) : String → Prop
  | node (depth : Nat) {id : String} {n : Node} (identified : (id, n) ∈ r.identified)
    (label : n.label = Label.format n.name n.symbol level)
    (captioned : Mark.Captioned (Item.nodeLine depth id n.label) (.node id n.label)) :
    Legible level r out (Item.nodeLine depth id n.label)
  | opening (depth : Nat) {b : BlockInfo} (block : b ∈ out.blocks)
    (captioned : Mark.Captioned (Item.openingLine depth b.kind b.id b.name)
      (.opening b.id (b.kind.title ++ ": " ++ Text.escape b.name))) :
    Legible level r out (Item.openingLine depth b.kind b.id b.name)
  | closing (depth : Nat) : Legible level r out (Item.closingLine depth)

/-- No name, class, file or directory can end the label or the title that it stands in. No reserved
character stands in an escaped text, and none in a label but those of the one line break behind the
name. So every line of an emission that shows a node or opens a block is read back, id and label or
id and title, by the first `["` and the only `"]`. -/
theorem ofGrouping_captions (level : Level) (calls : List Enrolment) (most : Nat) (c : Numbering)
    (g : Grouping) :
    (∀ name symbol level, ∃ head tail, Inert head ∧ Inert tail ∧
      Label.format name symbol level =
        head ++ (if Label.hasSecondLine symbol level then "<br/>" else "") ++ tail) ∧
    (∀ name, Inert (Text.escape name)) ∧
    let r := Roster.ofCalls level calls
    let out := (ofGrouping r most c g).1
    ∀ line ∈ out.lines, Legible level r out line := by
  refine ⟨Label.format_eq, inert_escape, fun line hline => ?_⟩
  have hlabels := Roster.labelledAt_ofCalls level calls
  have hnd := Roster.nodup_names_ofCalls level calls
  cases isLine_of_mem_lines _ most c g line hline with
  | node depth hnode =>
    obtain ⟨n, hn, -, rfl⟩ := (Roster.mem_labelled hnd).1 hnode
    have hlabel := hlabels.label_eq n (Roster.mem_nodes_of_mem_identified hn)
    refine .node depth hn hlabel ?_
    obtain ⟨k, -, rfl⟩ := Roster.mem_identified.1 hn
    rw [hlabel]
    exact Mark.captioned_nodeLine depth (k + 1) n.name n.symbol level
  | opening depth hblock =>
    exact .opening depth hblock
      (Mark.captioned_openingLine depth _ _ (isWord_of_mem_blocks _ most c g _ hblock))
  | closing depth => exact .closing depth

/-- A name that closes its label and opens another one, in a file that does so too. -/
theorem ofGrouping_captions_quotes :
    let s : Symbol := { name := "a", displayName := some "b\"]\"[\"<br/>", path := ⟨"[c\"].py"⟩ }
    let r := Roster.ofCalls .medium [.create "a" (some s) false]
    let out := (ofGrouping r 1 {} (.ofSymbols none [s])).1
    let line := "        N1[\"b#quot;#93;#quot;#91;#quot;#lt;br/#gt;<br/>#91;c#quot;#93;.py\"]"
    line ∈ out.lines ∧ Legible .medium r out line := by
  intro s r out line
  have hline : line ∈ out.lines := by decide +kernel
  exact ⟨hline, (ofGrouping_captions .medium _ 1 {} _).2.2 line hline⟩

end Emission

end CallChart
