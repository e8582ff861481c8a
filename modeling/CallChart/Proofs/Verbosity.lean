import CallChart.Proofs.Captions

/-!
# Levels of detail

A more verbose label says what the terser one says and adds to it : the class in front of the
name, then the file, the first line and the last line behind it. Each label is the one before with
a part added (`Label.format_simple`, `Label.format_medium`, `Label.format_of_showsLine`), and the
two labels with lines differ in the last line alone (`Label.lineRange_verbose`). Digits at the end
of a text and the character in front of them are found again (`Text.eq_of_digits_append`), so a
label that ends in a first line does not end in a range of lines.

Main statement : `Label.format_addsDetail`.
-/

namespace CallChart

/-- The character in front of the digits that end a text is told by the text. -/
theorem Text.eq_of_digits_append {front front' digits digits' : List Char} {c c' : Char}
    (h : front ++ c :: digits = front' ++ c' :: digits')
    (hdigits : ∀ d ∈ digits, d.isDigit = true) (hdigits' : ∀ d ∈ digits', d.isDigit = true)
    (hc : c.isDigit = false) (hc' : c'.isDigit = false) : c = c' := by
  have hdrop : ∀ {front digits : List Char} {c : Char}, (∀ d ∈ digits, d.isDigit = true) →
      c.isDigit = false →
      (front ++ c :: digits).reverse.dropWhile Char.isDigit = c :: front.reverse := by
    intro front digits c hdigits hc
    rw [List.reverse_append, List.reverse_cons, List.append_assoc,
      List.dropWhile_append_of_pos fun d hd => hdigits d (List.mem_reverse.1 hd),
      List.singleton_append, List.dropWhile_cons, hc, if_neg Bool.false_ne_true]
  have hheads : c :: front.reverse = c' :: front'.reverse := by
    rw [← hdrop hdigits hc, ← hdrop hdigits' hc', h]
  exact (List.cons.inj hheads).1

namespace Label

/-- Labels of a function of which each adds to the one of the level before. -/
structure AddsDetail (s : Symbol) (label : Level → String) : Prop where
  simple : (label .minimal).toList <:+ (label .simple).toList
  medium : (label .simple).toList <+: (label .medium).toList
  detailed : (label .medium).toList <+: (label .detailed).toList
  verbose : (label .detailed).toList <+: (label .verbose).toList
  /-- The first line ends a detailed label. -/
  first : 0 < s.firstLine →
    ("L" ++ Nat.repr s.firstLine.toNat).toList <:+ (label .detailed).toList
  /-- A range of lines ends a verbose label if and only if the function has several. -/
  range : 0 < s.firstLine →
    (("L" ++ Nat.repr s.firstLine.toNat ++ "-" ++ Nat.repr s.lastLine.toNat).toList <:+
      (label .verbose).toList ↔ s.firstLine < s.lastLine)
  single : 0 < s.firstLine → ¬ s.firstLine < s.lastLine → label .verbose = label .detailed
  /-- A function without known lines is labelled as if lines were not shown. -/
  lineless : s.firstLine = 0 → label .detailed = label .medium ∧ label .verbose = label .medium

variable (name : String) (s : Symbol)

/-! ## What each level adds -/

theorem format_simple :
    format name (some s) .simple = classPart s ++ format name (some s) .minimal := by
  simp [format, Level.showsClass, Level.showsFile, Level.showsLine]

theorem format_medium :
    format name (some s) .medium = format name (some s) .simple ++ filePart s := by
  simp [format, Level.showsClass, Level.showsFile, Level.showsLine]

theorem format_of_showsLine {level : Level} (h : level.showsLine = true) :
    format name (some s) level = format name (some s) .medium ++ linePart level s := by
  cases level <;> simp_all [format, Level.showsClass, Level.showsFile, Level.showsLine]

/-! ## Lines -/

variable {s}

theorem linePart_of_zero (h : s.firstLine = 0) (level : Level) : linePart level s = "" :=
  if_pos h

/-- What stands in front of the lines is the same on all levels. -/
theorem exists_linePart (h : 0 < s.firstLine) :
    ∃ lead, ∀ level, linePart level s = lead ++ lineRange level s :=
  ⟨if s.fileName = "" then lineBreak else ":", fun _ =>
    if_neg fun hzero => absurd (hzero ▸ h) (UInt32.lt_irrefl 0)⟩

theorem lineRange_detailed (s : Symbol) :
    lineRange .detailed s = "L" ++ Nat.repr s.firstLine.toNat := by
  simp [lineRange]

theorem lineRange_verbose (s : Symbol) : lineRange .verbose s = lineRange .detailed s ++
    if s.firstLine < s.lastLine then "-" ++ Nat.repr s.lastLine.toNat else "" := by
  unfold lineRange
  split_ifs <;> simp_all [String.append_assoc]

/-- A label that ends in a number behind an `L` ends in no range. -/
theorem not_range_suffix (front : String) (first last k : Nat) :
    ¬ ("L" ++ Nat.repr first ++ "-" ++ Nat.repr last).toList <:+
      (front ++ ("L" ++ Nat.repr k)).toList := by
  have hdigits : ∀ j : Nat, ∀ d ∈ Nat.toDigits 10 j, d.isDigit = true := fun _ _ hd =>
    Nat.isDigit_of_mem_toDigits (by decide) (by decide) hd
  rintro ⟨before, h⟩
  have hends : (before ++ ("L" ++ Nat.repr first).toList) ++ '-' :: Nat.toDigits 10 last =
      front.toList ++ 'L' :: Nat.toDigits 10 k := by
    simpa [Nat.repr] using h
  exact absurd (Text.eq_of_digits_append hends (hdigits last) (hdigits k) rfl rfl) (by decide)

/-- A more verbose label only adds detail : the class in front of the name, and behind it the file,
the first line and the last one if it comes later. -/
theorem format_addsDetail (name : String) (s : Symbol) :
    AddsDetail s (format name (some s)) := by
  have hdetailed := format_of_showsLine name s (show Level.showsLine .detailed = true from rfl)
  have hverbose := format_of_showsLine name s (show Level.showsLine .verbose = true from rfl)
  have hlineless : s.firstLine = 0 →
      format name (some s) .detailed = format name (some s) .medium ∧
        format name (some s) .verbose = format name (some s) .medium := fun h => by
    rw [hdetailed, hverbose, linePart_of_zero h, linePart_of_zero h, String.append_empty]
    exact ⟨rfl, rfl⟩
  -- With known lines the two labels share all but what the verbose one says of the last line.
  have hlines : 0 < s.firstLine → ∃ front,
      format name (some s) .detailed = front ++ ("L" ++ Nat.repr s.firstLine.toNat) ∧
      format name (some s) .verbose = format name (some s) .detailed ++
        if s.firstLine < s.lastLine then "-" ++ Nat.repr s.lastLine.toNat else "" := fun h => by
    obtain ⟨lead, hlead⟩ := exists_linePart h
    refine ⟨format name (some s) .medium ++ lead, ?_, ?_⟩
    · rw [hdetailed, hlead, lineRange_detailed, String.append_assoc]
    · rw [hverbose, hdetailed, hlead, hlead, lineRange_verbose]
      simp only [String.append_assoc]
  refine ⟨?_, ?_, ?_, ?_, fun h => ?_, fun h => ?_, fun h hlast => ?_, hlineless⟩
  · rw [format_simple, String.toList_append]
    exact List.suffix_append _ _
  · rw [format_medium, String.toList_append]
    exact List.prefix_append _ _
  · rw [hdetailed, String.toList_append]
    exact List.prefix_append _ _
  · by_cases h : s.firstLine = 0
    · have hsame := (hlineless h).2.trans (hlineless h).1.symm
      exact hsame ▸ List.prefix_rfl
    · obtain ⟨-, -, heq⟩ := hlines (UInt32.pos_iff_ne_zero.2 h)
      rw [heq, String.toList_append]
      exact List.prefix_append _ _
  · obtain ⟨front, heq, -⟩ := hlines h
    rw [heq, String.toList_append (s := front)]
    exact List.suffix_append _ _
  · obtain ⟨front, hfirst, heq⟩ := hlines h
    rw [heq, hfirst]
    split_ifs with hlast
    · refine iff_of_true ⟨front.toList, ?_⟩ hlast
      simp only [String.toList_append, List.append_assoc]
    · rw [String.append_empty]
      exact iff_of_false (not_range_suffix front _ _ _) hlast
  · obtain ⟨-, -, heq⟩ := hlines h
    rw [heq, if_neg hlast, String.append_empty]

/-- A method of several lines. -/
example :
    let s : Symbol :=
      { name := "app.Server.start", owner := some "Server", path := ⟨"src/server.py"⟩
        firstLine := 12, lastLine := 30 }
    Level.all.map (format s.name (some s)) = ["start", "Server.start", "Server.start<br/>server.py",
      "Server.start<br/>server.py:L12", "Server.start<br/>server.py:L12-30"] := by
  decide +kernel

end Label

end CallChart
