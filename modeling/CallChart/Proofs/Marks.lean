import CallChart.Chart
import CallChart.Proofs.BlockIds

/-!
# Reading a body

`Mark.read` says what a line of a body stands for, from its text alone : a node with its label,
the opening of a block with its title, the closing of a block, an edge with its two ends, or the
style of an id. Behind its margin a line begins with a word of letters, digits and underscores ;
the word and what follows it tell the kinds apart. Each kind of line that a chart writes is read
back as what it was written for (`read_nodeLine`, `read_openingLine`, `read_closingLine`,
`read_edgeLine`, `read_nodeStyle`, `read_blockStyle`).

What holds of the single lines holds of bodies : a `Reading` says that lines give under one
function what their marks give under another, and then the lines of items give what the marks of
the items give (`Reading.map_allLines`), and style lines likewise.
-/

namespace CallChart

/-- What a line of a body stands for. -/
inductive Mark where
  | node (id label : String)
  | opening (id title : String)
  | closing
  | edge (source target : String)
  | style (id : String)
  deriving DecidableEq

namespace Mark

/-- Characters of the words that lines begin with. -/
def isWordChar (c : Char) : Bool :=
  c.isAlphanum || c == '_'

/-- The word a text begins with, and the rest. -/
def splitWord (cs : List Char) : String × List Char :=
  (String.ofList (cs.takeWhile isWordChar), cs.dropWhile isWordChar)

/-- The text between `["` and `"]`. -/
def quoted? : List Char → Option String
  | '[' :: '"' :: cs =>
    if ['"', ']'].isSuffixOf cs then some (String.ofList (cs.take (cs.length - 2))) else none
  | _ => none

/-- What a line that begins with `word` stands for, by what follows the word. -/
def ofWord (word : String) (rest : List Char) : Option Mark :=
  if word = "end" then if rest = [] then some .closing else none
  else if word = "subgraph" then
    match rest with
    | ' ' :: cs => (quoted? (splitWord cs).2).map (.opening (splitWord cs).1)
    | _ => none
  else if word = "style" then
    match rest with
    | ' ' :: cs => some (.style (splitWord cs).1)
    | _ => none
  else
    match rest with
    | ' ' :: '-' :: '-' :: '>' :: ' ' :: cs =>
      if (splitWord cs).2 = [] then some (.edge word (splitWord cs).1) else none
    | cs => (quoted? cs).map (.node word)

/-- What a line of a body stands for. -/
def read (line : String) : Option Mark :=
  let (word, rest) := splitWord (line.toList.dropWhile (· == ' '))
  ofWord word rest

/-! ## Words -/

/-- A text made of word characters. -/
structure IsWord (s : String) : Prop where
  ne_empty : s ≠ ""
  chars : ∀ c ∈ s.toList, isWordChar c = true

theorem isWordChar_of_isDigit {c : Char} (h : c.isDigit = true) : isWordChar c = true := by
  simp [isWordChar, Char.isAlphanum, h]

theorem isWord_toDigits (k : Nat) : ∀ c ∈ Nat.toDigits 10 k, isWordChar c = true :=
  fun _ hc => isWordChar_of_isDigit (Nat.isDigit_of_mem_toDigits (by decide) (by decide) hc)

theorem IsWord.ofCons {s : String} {c : Char} {cs : List Char} (h : s.toList = c :: cs)
    (hcs : ∀ c' ∈ c :: cs, isWordChar c' = true) : IsWord s where
  ne_empty := by
    rintro rfl
    exact absurd h (by simp)
  chars := h ▸ hcs

theorem IsWord.exists_cons {s : String} (h : IsWord s) :
    ∃ c cs, s.toList = c :: cs ∧ isWordChar c = true := by
  obtain ⟨c, cs, hcs⟩ := List.exists_cons_of_ne_nil
    fun hnil => h.ne_empty (String.toList_eq_nil_iff.1 hnil)
  exact ⟨c, cs, hcs, h.chars c (hcs ▸ List.mem_cons_self)⟩

theorem isWord_nodeId (k : Nat) : IsWord (nodeId k) :=
  .ofCons (toList_nodeId k) (by simpa using ⟨by decide, isWord_toDigits k⟩)

theorem isWord_directoryId (k : Nat) : IsWord (directoryId k) :=
  .ofCons (toList_directoryId k)
    (by simpa using ⟨by decide, by decide, by decide, by decide, isWord_toDigits k⟩)

theorem isWord_fileId (k : Nat) : IsWord (fileId k) :=
  .ofCons (toList_fileId k)
    (by simpa using ⟨by decide, by decide, by decide, by decide, by decide, isWord_toDigits k⟩)

theorem isWord_classId {file : String} (h : IsWord file) (k : Nat) : IsWord (classId file k) where
  ne_empty hempty := by
    have := congrArg String.toList hempty
    simp [toList_classId] at this
  chars c hc := by
    rw [toList_classId, List.mem_append, List.mem_cons] at hc
    rcases hc with hc | rfl | hc
    · exact h.chars c hc
    · decide
    · exact isWord_toDigits k c hc

/-- Ids of blocks are words. -/
theorem isWord_of_issued {c c' : Numbering} {id : String} : Numbering.Issued c c' id → IsWord id
  | .ofDirectory .. => isWord_directoryId _
  | .ofFile .. => isWord_fileId _
  | .ofClass j .. => isWord_classId (isWord_fileId _) j

theorem isWord_subgraph : IsWord "subgraph" :=
  ⟨by decide, by simp [isWordChar]⟩

theorem isWord_end : IsWord "end" :=
  ⟨by decide, by simp [isWordChar]⟩

theorem isWord_style : IsWord "style" :=
  ⟨by decide, by simp [isWordChar]⟩

/-- A word is split off in front of anything that does not begin with a word character. -/
theorem splitWord_append {word : String} {rest : List Char} (hword : IsWord word)
    (hrest : ∀ c ∈ rest.head?, isWordChar c = false) :
    splitWord (word.toList ++ rest) = (word, rest) := by
  have htake : rest.takeWhile isWordChar = [] := by
    cases rest with
    | nil => rfl
    | cons c cs => rw [List.takeWhile_cons, hrest c rfl]; rfl
  have hdrop : rest.dropWhile isWordChar = rest := by
    cases rest with
    | nil => rfl
    | cons c cs => rw [List.dropWhile_cons, hrest c rfl]; rfl
  rw [splitWord, List.takeWhile_append_of_pos hword.chars,
    List.dropWhile_append_of_pos hword.chars, htake, hdrop, List.append_nil, String.ofList_toList]

theorem quoted?_quotes (s : String) :
    quoted? ('[' :: '"' :: (s.toList ++ ['"', ']'])) = some s := by
  have hsuffix : ['"', ']'].isSuffixOf (s.toList ++ ['"', ']']) = true := by
    rw [List.isSuffixOf_iff_suffix]
    exact List.suffix_append _ _
  rw [quoted?, if_pos hsuffix, List.length_append, List.length_cons, List.length_singleton,
    Nat.add_sub_cancel, List.take_left, String.ofList_toList]

/-- A line is read behind its margin, from the word it begins with. -/
theorem read_margin (depth : Nat) {line word : String} {rest : List Char}
    (h : line.toList = (Text.indent depth).toList ++ (word.toList ++ rest)) (hword : IsWord word)
    (hrest : ∀ c ∈ rest.head?, isWordChar c = false) : read line = ofWord word rest := by
  have hspaces : ∀ c ∈ List.replicate (4 * depth) ' ', (c == ' ') = true := by
    intro c hc
    rw [(List.mem_replicate.1 hc).2]
    rfl
  have hhead : (word.toList ++ rest).dropWhile (· == ' ') = word.toList ++ rest := by
    obtain ⟨c, cs, hcs, hc⟩ := hword.exists_cons
    have hspace : (c == ' ') = false := by
      rw [beq_eq_false_iff_ne]
      rintro rfl
      exact absurd hc (by decide)
    rw [hcs, List.cons_append, List.dropWhile_cons, hspace]
    rfl
  rw [read, h, Text.indent, String.toList_ofList, List.dropWhile_append_of_pos hspaces, hhead,
    splitWord_append hword hrest]

/-! ## The lines of a chart -/

/-- Words that tell what a line does are ids of no node. -/
theorem nodeId_ne_keyword (k : Nat) :
    nodeId k ≠ "end" ∧ nodeId k ≠ "subgraph" ∧ nodeId k ≠ "style" := by
  simp [← String.toList_inj, toList_nodeId]

theorem read_nodeLine (depth k : Nat) (label : String) :
    read (Item.nodeLine depth (nodeId k) label) = some (.node (nodeId k) label) := by
  have hline : (Item.nodeLine depth (nodeId k) label).toList = (Text.indent depth).toList ++
      ((nodeId k).toList ++ '[' :: '"' :: (label.toList ++ ['"', ']'])) := by
    simp [Item.nodeLine]
  obtain ⟨hend, hsubgraph, hstyle⟩ := nodeId_ne_keyword k
  rw [read_margin depth hline (isWord_nodeId k) (by simp; decide)]
  simp [ofWord, hend, hsubgraph, hstyle, quoted?_quotes]

/-- The title of a block, as it is written. -/
def titleOf (kind : BlockKind) (name : String) : String :=
  kind.title ++ ": " ++ Text.escape name

theorem read_openingLine (depth : Nat) (kind : BlockKind) {id : String} (name : String)
    (hid : IsWord id) :
    read (Item.openingLine depth kind id name) = some (.opening id (titleOf kind name)) := by
  have hline : (Item.openingLine depth kind id name).toList = (Text.indent depth).toList ++
      ("subgraph".toList ++ ' ' :: (id.toList ++
        '[' :: '"' :: ((titleOf kind name).toList ++ ['"', ']']))) := by
    simp [Item.openingLine, titleOf]
  have hsplit : splitWord (id.toList ++ '[' :: '"' :: ((titleOf kind name).toList ++ ['"', ']'])) =
      (id, '[' :: '"' :: ((titleOf kind name).toList ++ ['"', ']'])) :=
    splitWord_append hid (by simp; decide)
  rw [read_margin depth hline isWord_subgraph (by simp; decide)]
  simp [ofWord, hsplit, quoted?_quotes]

theorem read_closingLine (depth : Nat) : read (Item.closingLine depth) = some .closing := by
  have hline : (Item.closingLine depth).toList =
      (Text.indent depth).toList ++ ("end".toList ++ []) := by
    simp [Item.closingLine]
  rw [read_margin depth hline isWord_end (by simp)]
  rfl

theorem read_edgeLine (j k : Nat) {e : Edge} (hsource : e.source = nodeId j)
    (htarget : e.target = nodeId k) : read e.line = some (.edge e.source e.target) := by
  have hline : e.line.toList = (Text.indent 1).toList ++ ((nodeId j).toList ++
      ' ' :: '-' :: '-' :: '>' :: ' ' :: (nodeId k).toList) := by
    simp [Edge.line, hsource, htarget]
  obtain ⟨hend, hsubgraph, hstyle⟩ := nodeId_ne_keyword j
  have hsplit : splitWord ((nodeId k).toList ++ []) = (nodeId k, []) :=
    splitWord_append (isWord_nodeId k) (by simp)
  rw [List.append_nil] at hsplit
  rw [read_margin 1 hline (isWord_nodeId j) (by simp; decide)]
  simp [ofWord, hend, hsubgraph, hstyle, hsplit, hsource, htarget]

/-- A style line names the id it is for, whatever the style is. -/
theorem read_styleLine {id line : String} {look : List Char} (hid : IsWord id)
    (h : line.toList = "style ".toList ++ (id.toList ++ (" fill:".toList ++ look))) :
    read (Text.indent 1 ++ line) = some (.style id) := by
  have hline : (Text.indent 1 ++ line).toList = (Text.indent 1).toList ++
      ("style".toList ++ ' ' :: (id.toList ++ ' ' :: ("fill:".toList ++ look))) := by
    simp [h]
  have hsplit : splitWord (id.toList ++ ' ' :: ("fill:".toList ++ look)) =
      (id, ' ' :: ("fill:".toList ++ look)) :=
    splitWord_append hid (by simp; decide)
  rw [read_margin 1 hline isWord_style (by simp; decide)]
  simpa [ofWord] using congrArg Prod.fst hsplit

/-! ## Style lines -/

end Mark

/-- The swatches of a scheme, and the one that stands for a missing one. -/
def Scheme.swatches (scheme : Scheme) : List Swatch :=
  default :: scheme.entry :: scheme.file :: scheme.ofClass :: (scheme.nodes ++ scheme.directories)

/-- Colours are written on one line. -/
theorem Scheme.newline_notMem : ∀ scheme ∈ Scheme.all, '\n' ∉ scheme.text.toList ∧
    ∀ swatch ∈ scheme.swatches, '\n' ∉ swatch.fill.toList ∧ '\n' ∉ swatch.stroke.toList := by
  decide +kernel

theorem rotate_mem (swatches : List Swatch) (k : Nat) :
    rotate swatches k ∈ default :: swatches := by
  unfold rotate
  cases h : swatches[k % swatches.length]? with
  | none => exact List.mem_cons_self
  | some swatch => exact List.mem_cons_of_mem _ (List.mem_of_getElem? h)

namespace Palette

variable {p : Palette}

theorem exists_look_nodeLine (hp : p.scheme ∈ Scheme.all) (id : String) {swatch : Swatch}
    (hswatch : swatch ∈ p.scheme.swatches) {width : String} (hwidth : '\n' ∉ width.toList) :
    ∃ look, '\n' ∉ look ∧ (p.nodeLine id swatch width).toList =
      "style ".toList ++ (id.toList ++ (" fill:".toList ++ look)) := by
  obtain ⟨htext, hswatches⟩ := Scheme.newline_notMem p.scheme hp
  obtain ⟨hfill, hstroke⟩ := hswatches swatch hswatch
  refine ⟨swatch.fill.toList ++ (",stroke:".toList ++ (swatch.stroke.toList ++
    (",stroke-width:".toList ++ (width.toList ++ ("px,color:".toList ++
      p.scheme.text.toList))))), ?_, ?_⟩
  · simp [hfill, hstroke, hwidth, htext]
  · change ("style " ++ id ++ " fill:" ++ swatch.fill ++ ",stroke:" ++ swatch.stroke ++
      ",stroke-width:" ++ width ++ "px,color:" ++ p.scheme.text).toList = _
    simp only [String.toList_append, List.append_assoc]

theorem scheme_nodeStyle (p : Palette) (id group : String) (isEntry : Bool) :
    (p.nodeStyle id group isEntry).2.scheme = p.scheme := by
  unfold nodeStyle
  split <;> rfl

/-- The style line of a node names the node, and then come its colours. -/
theorem exists_look_nodeStyle (hp : p.scheme ∈ Scheme.all) (id group : String) (isEntry : Bool) :
    ∃ look, '\n' ∉ look ∧ (p.nodeStyle id group isEntry).1.toList =
      "style ".toList ++ (id.toList ++ (" fill:".toList ++ look)) := by
  unfold nodeStyle
  split
  · exact exists_look_nodeLine hp id (by simp [Scheme.swatches]) (by decide)
  · refine exists_look_nodeLine hp id ?_ (by decide)
    have hrotate := rotate_mem p.scheme.nodes (slot p.groups group).1
    simp only [Scheme.swatches, List.mem_cons, List.mem_append] at hrotate ⊢
    exact hrotate.imp_right fun h => .inr (.inr (.inr (.inl h)))

/-- The style line of a block names the block, and then come its colours. -/
theorem exists_look_blockStyle (hp : p.scheme ∈ Scheme.all) (id : String) (kind : BlockKind)
    (level : Nat) : ∃ look, '\n' ∉ look ∧ (p.blockStyle id kind level).toList =
      "style ".toList ++ (id.toList ++ (" fill:".toList ++ look)) := by
  have hmem : p.blockSwatch kind level ∈ p.scheme.swatches := by
    have hrotate := rotate_mem p.scheme.directories level
    simp only [Scheme.swatches, List.mem_cons, List.mem_append] at hrotate ⊢
    cases kind with
    | ofDirectory => exact hrotate.imp_right fun h => .inr (.inr (.inr (.inr h)))
    | ofFile => exact .inr (.inr (.inl rfl))
    | ofClass => exact .inr (.inr (.inr (.inl rfl)))
  obtain ⟨hfill, hstroke⟩ := (Scheme.newline_notMem p.scheme hp).2 _ hmem
  refine ⟨(p.blockSwatch kind level).fill.toList ++ (",stroke:".toList ++
    ((p.blockSwatch kind level).stroke.toList ++
      (if kind = .ofClass then ",stroke-dasharray:4 2" else "").toList)), ?_, ?_⟩
  · simp only [List.mem_append, hfill, hstroke, false_or, not_or]
    refine ⟨by decide, ?_⟩
    split <;> decide
  · simp only [blockStyle, String.toList_append, List.append_assoc]

end Palette

namespace Mark

theorem read_nodeStyle {p : Palette} (hp : p.scheme ∈ Scheme.all) {id : String} (group : String)
    (isEntry : Bool) (hid : IsWord id) :
    read (Text.indent 1 ++ (p.nodeStyle id group isEntry).1) = some (.style id) := by
  obtain ⟨look, -, h⟩ := p.exists_look_nodeStyle hp id group isEntry
  exact read_styleLine hid h

theorem read_blockStyle {p : Palette} (hp : p.scheme ∈ Scheme.all) {id : String} (kind : BlockKind)
    (level : Nat) (hid : IsWord id) :
    read (Text.indent 1 ++ p.blockStyle id kind level) = some (.style id) := by
  obtain ⟨look, -, h⟩ := p.exists_look_blockStyle hp id kind level
  exact read_styleLine hid h

/-! ## Bodies -/

/-- What the lines of an item stand for. -/
def ofItem : Item → List Mark
  | .node id label => [.node id label]
  | .block kind id name items =>
    .opening id (titleOf kind name) :: (items.flatMap ofItem ++ [.closing])

/-- The lines of a chart give under `f` what their marks give under `g`. -/
structure Reading {β : Type} (f : String → β) (g : Mark → β) : Prop where
  node : ∀ depth k label, f (Item.nodeLine depth (nodeId k) label) = g (.node (nodeId k) label)
  opening : ∀ depth kind id name, IsWord id →
    f (Item.openingLine depth kind id name) = g (.opening id (titleOf kind name))
  closing : ∀ depth, f (Item.closingLine depth) = g .closing
  edge : ∀ j k (e : Edge), e.source = nodeId j → e.target = nodeId k →
    f e.line = g (.edge e.source e.target)
  nodeStyle : ∀ (p : Palette) id group isEntry, p.scheme ∈ Scheme.all → IsWord id →
    f (Text.indent 1 ++ (p.nodeStyle id group isEntry).1) = g (.style id)
  blockStyle : ∀ (p : Palette) id kind level, p.scheme ∈ Scheme.all → IsWord id →
    f (Text.indent 1 ++ p.blockStyle id kind level) = g (.style id)

/-- Every line of a chart is read. -/
theorem reading_read : Reading read some where
  node := read_nodeLine
  opening depth kind _ name hid := read_openingLine depth kind name hid
  closing := read_closingLine
  edge j k _ hsource htarget := read_edgeLine j k hsource htarget
  nodeStyle _ _ group isEntry hp hid := read_nodeStyle hp group isEntry hid
  blockStyle _ _ kind level hp hid := read_blockStyle hp kind level hid

namespace Reading

variable {β : Type} {f : String → β} {g : Mark → β}

theorem map_lines (h : Reading f g) {item : Item}
    (hnodes : ∀ id ∈ item.nodeIds, ∃ k, id = nodeId k)
    (hblocks : ∀ id ∈ item.blockIds, IsWord id) :
    ∀ depth, (item.lines depth).map f = (ofItem item).map g := by
  induction item using Item.induct with
  | node id label =>
    intro depth
    obtain ⟨k, rfl⟩ := hnodes id (by simp [Item.nodeIds])
    rw [Item.lines, ofItem, List.map_singleton, h.node, List.map_singleton]
  | block kind id name items ih =>
    intro depth
    rw [Item.blockIds_block, List.forall_mem_cons] at hblocks
    rw [Item.nodeIds, Item.allNodeIds_eq] at hnodes
    have hinner : ∀ item ∈ items, (item.lines (depth + 1)).map f = (ofItem item).map g :=
      fun item hitem => ih item hitem
        (fun id hid => hnodes id (List.mem_flatMap.2 ⟨item, hitem, hid⟩))
        (fun id hid => hblocks.2 id (List.mem_flatMap.2 ⟨item, hitem, hid⟩)) (depth + 1)
    rw [Item.lines, ofItem, Item.allLines_eq]
    simp only [List.map_cons, List.map_append, List.map_flatMap, List.map_nil, h.closing,
      h.opening depth kind id name hblocks.1, List.flatMap_congr hinner]

theorem map_allLines (h : Reading f g) {items : List Item} (depth : Nat)
    (hnodes : ∀ id ∈ Item.allNodeIds items, ∃ k, id = nodeId k)
    (hblocks : ∀ id ∈ items.flatMap Item.blockIds, IsWord id) :
    (Item.allLines depth items).map f = (items.flatMap ofItem).map g := by
  rw [Item.allNodeIds_eq] at hnodes
  rw [Item.allLines_eq, List.map_flatMap, List.map_flatMap]
  exact List.flatMap_congr fun item hitem => h.map_lines
    (fun id hid => hnodes id (List.mem_flatMap.2 ⟨item, hitem, hid⟩))
    (fun id hid => hblocks id (List.mem_flatMap.2 ⟨item, hitem, hid⟩)) depth

theorem map_nodeStyles (h : Reading f g) : ∀ (p : Palette) (nodes : List (String × String × Bool)),
    p.scheme ∈ Scheme.all → (∀ n ∈ nodes, IsWord n.1) →
      ((p.nodeStyles nodes).map (Text.indent 1 ++ ·)).map f = nodes.map fun n => g (.style n.1)
  | _, [], _, _ => rfl
  | p, (id, group, isEntry) :: nodes, hp, hnodes => by
    have hscheme := p.scheme_nodeStyle id group isEntry
    rw [Palette.nodeStyles, List.map_cons, List.map_cons, List.map_cons,
      h.nodeStyle p id group isEntry hp (hnodes _ List.mem_cons_self),
      h.map_nodeStyles _ nodes (hscheme ▸ hp) fun n hn => hnodes n (List.mem_cons_of_mem _ hn)]

end Reading

/-! ## What marks say -/

/-- The node with its label that a line shows. -/
def node? : Mark → Option (String × String)
  | .node id label => some (id, label)
  | _ => none

/-- The ends of the edge that a line draws. -/
def edge? : Mark → Option (String × String)
  | .edge source target => some (source, target)
  | _ => none

/-- The block that a line opens. -/
def opened? : Mark → Option String
  | .opening id _ => some id
  | _ => none

/-- The id that a line styles. -/
def styled? : Mark → Option String
  | .style id => some id
  | _ => none

/-- The line shows a node, opens a block or closes one. -/
def isOfBlocks : Mark → Bool
  | .node .. | .opening .. | .closing => true
  | .edge .. | .style .. => false

theorem node?_ofItem (item : Item) : (ofItem item).filterMap node? = item.nodes := by
  induction item using Item.induct with
  | node id label =>
    rw [ofItem, Item.nodes_node]
    rfl
  | block kind id name items ih =>
    rw [ofItem, Item.nodes_block, List.filterMap_cons_none rfl, List.filterMap_append,
      List.filterMap_flatMap, List.flatMap_congr ih]
    exact List.append_nil _

theorem opened?_ofItem (item : Item) : (ofItem item).filterMap opened? = item.blockIds := by
  induction item using Item.induct with
  | node id label =>
    rw [ofItem, Item.blockIds_node]
    rfl
  | block kind id name items ih =>
    rw [ofItem, Item.blockIds_block, List.filterMap_cons]
    simp only [opened?]
    rw [List.filterMap_append, List.filterMap_flatMap, List.flatMap_congr ih]
    exact congrArg _ (List.append_nil _)

theorem isOfBlocks_ofItem (item : Item) : ∀ m ∈ ofItem item, m.isOfBlocks = true := by
  induction item using Item.induct with
  | node id label =>
    rw [ofItem]
    exact List.forall_mem_singleton.2 rfl
  | block kind id name items ih =>
    rw [ofItem]
    refine List.forall_mem_cons.2 ⟨rfl, List.forall_mem_append.2 ⟨fun m hm => ?_, ?_⟩⟩
    · obtain ⟨item, hitem, hm⟩ := List.mem_flatMap.1 hm
      exact ih item hitem m hm
    · exact List.forall_mem_singleton.2 rfl

theorem node?_ofItems (items : List Item) :
    (items.flatMap ofItem).filterMap node? = items.flatMap Item.nodes := by
  rw [List.filterMap_flatMap, List.flatMap_congr fun item _ => node?_ofItem item]

theorem opened?_ofItems (items : List Item) :
    (items.flatMap ofItem).filterMap opened? = items.flatMap Item.blockIds := by
  rw [List.filterMap_flatMap, List.flatMap_congr fun item _ => opened?_ofItem item]

theorem isOfBlocks_ofItems (items : List Item) :
    ∀ m ∈ items.flatMap ofItem, m.isOfBlocks = true := by
  intro m hm
  obtain ⟨item, -, hm⟩ := List.mem_flatMap.1 hm
  exact isOfBlocks_ofItem item m hm

/-- Items draw no edge. -/
theorem edge?_ofItems (items : List Item) : (items.flatMap ofItem).filterMap edge? = [] := by
  rw [List.filterMap_eq_nil_iff]
  intro m hm
  have := isOfBlocks_ofItems items m hm
  cases m <;> simp_all [isOfBlocks, edge?]

/-- Items style nothing. -/
theorem styled?_ofItems (items : List Item) : (items.flatMap ofItem).filterMap styled? = [] := by
  rw [List.filterMap_eq_nil_iff]
  intro m hm
  have := isOfBlocks_ofItems items m hm
  cases m <;> simp_all [isOfBlocks, styled?]

end Mark

end CallChart
