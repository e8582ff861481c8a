import CallChart.Proofs.Check
import CallChart.Proofs.LineKinds

/-!
# The frame around a body

The heading, the fences and the line of type and direction stand around a body. A folded title is
one line (`mem_foldTitle`), so the fence and the type are where a check looks for them, whatever
the body is and whatever the direction : a check of a framed body can only find that blocks are
not balanced or that a limit is exceeded (`Frame.check_text`). In a known direction the lines of
the frame count as nothing (`Frame.measure_text`). `Frame.render_withTitle` says both of a frame
that was given any title at all.
-/

namespace CallChart

namespace Text

theorem mem_of_mem_trim {c : Char} {cs : List Char} (h : c ∈ trim cs) : c ∈ cs := by
  rw [trim, trimEnd, List.mem_reverse] at h
  have h := List.mem_reverse.1 ((List.dropWhile_sublist _).mem h)
  exact (List.dropWhile_sublist _).mem h

theorem mem_of_mem_intercalate {c : Char} {sep : List Char} :
    ∀ {ls : List (List Char)}, c ∈ sep.intercalate ls → c ∈ sep ∨ ∃ l ∈ ls, c ∈ l
  | [], h => by simp at h
  | [l], h => .inr ⟨l, List.mem_cons_self, by simpa using h⟩
  | l :: l' :: ls, h => by
    rw [List.intercalate_cons_cons, List.mem_append, List.mem_append] at h
    rcases h with (h | h) | h
    · exact .inr ⟨l, List.mem_cons_self, h⟩
    · exact .inl h
    · rcases mem_of_mem_intercalate h with h | ⟨k, hk, h⟩
      · exact .inl h
      · exact .inr ⟨k, List.mem_cons_of_mem _ hk, h⟩

end Text

/-- A folded title is one line. -/
theorem mem_foldTitle {title : String} {c : Char} (h : c ∈ (foldTitle title).toList) :
    c ≠ '\r' ∧ c ≠ '\n' := by
  rw [foldTitle, String.toList_intercalate] at h
  rcases Text.mem_of_mem_intercalate h with h | ⟨l, hl, h⟩
  · obtain rfl : c = ' ' := by simpa using h
    decide
  · rw [List.map_map, List.mem_map] at hl
    obtain ⟨_, hl, rfl⟩ := hl
    obtain ⟨piece, hpiece, rfl⟩ := List.mem_map.1 (List.mem_of_mem_filter hl)
    rw [Function.comp_apply, String.toList_ofList] at h
    have hsep := Text.notMem_of_mem_splitOnP _ piece hpiece c (Text.mem_of_mem_trim h)
    simpa using hsep

namespace Frame

/-! ## The lines of the frame -/

/-- The heading. -/
def heading (f : Frame) : List Char :=
  ("# " ++ f.title).toList

/-- The line of the opening fence. -/
def openingFence : List Char :=
  "```mermaid".toList

/-- The line of type and direction. -/
def declaration (f : Frame) : List Char :=
  ("flowchart " ++ f.direction).toList

/-- The title is one line and the direction a known one. -/
structure Sound (f : Frame) : Prop where
  title : ∀ c ∈ f.title.toList, c ≠ '\r' ∧ c ≠ '\n'
  direction : f.direction ∈ Settings.directions

theorem sound_ofSettings {s : Settings} (hs : s.fault? = none) : (ofSettings s).Sound where
  title _ hc := mem_foldTitle hc
  direction := by
    unfold Settings.fault? at hs
    split at hs
    · cases hs
    · split at hs
      · cases hs
      next => split at hs <;> simp_all [ofSettings]

theorem sound_withTitle {f : Frame} (hf : f.direction ∈ Settings.directions) (title : String) :
    (f.withTitle title).Sound where
  title _ hc := mem_foldTitle hc
  direction := hf

variable {f : Frame}

theorem ended_of_cons {c : Char} {cs : List Char} (h : ∀ c' ∈ c :: cs, c' ≠ '\r' ∧ c' ≠ '\n') :
    Text.ended (c :: cs) = [c :: cs] := by
  rw [Text.ended_of_notMem (fun hmem => (h _ hmem).2 rfl), Text.dropReturn, if_neg]
  exact fun hlast => (h _ (List.mem_of_getLast? hlast)).1 rfl

theorem heading_eq (f : Frame) : f.heading = '#' :: ' ' :: f.title.toList := by
  simp [heading]

theorem isOpeningFence_heading (f : Frame) : Diagram.isOpeningFence f.heading = false := by
  rw [heading_eq]
  rfl

theorem lineKind_heading (f : Frame) : Diagram.lineKind f.heading = .other := by
  have hlast : ['#'].getLast? = some '#' := rfl
  have htrim : Text.trim ('#' :: ' ' :: f.title.toList) =
      '#' :: Text.trimEnd (' ' :: f.title.toList) :=
    Text.trim_margin 0 rfl hlast rfl _
  have hname : ∀ p, Diagram.identifierThen p ('#' :: ' ' :: f.title.toList) = false := fun p => by
    have hblank : Text.isBlank '#' = false := rfl
    have hstart : Text.isNameStart '#' = false := rfl
    rw [Diagram.identifierThen, Text.trimStart, List.dropWhile_cons, hblank]
    simp [hstart]
  rw [heading_eq, Diagram.lineKind_of_head htrim (by decide) (by decide), Diagram.isEdgeLine,
    Diagram.isNodeLine, hname, hname]
  rfl

theorem ended_heading (htitle : ∀ c ∈ f.title.toList, c ≠ '\r' ∧ c ≠ '\n') :
    Text.ended f.heading = [f.heading] := by
  rw [heading_eq]
  exact ended_of_cons (by simpa using htitle)

/-- The line of type and direction declares the type, whatever follows. -/
theorem declaresType_append (rest : List Char) :
    Diagram.declaresType ("flowchart ".toList ++ rest) = true := by
  have hword : Text.firstWord ("flowchart ".toList ++ rest) = "flowchart".toList := by
    have hchars : "flowchart ".toList ++ rest =
        'f' :: (['l', 'o', 'w', 'c', 'h', 'a', 'r', 't'] ++ ' ' :: rest) := rfl
    rw [hchars, Text.firstWord, Text.trimStart, List.dropWhile_cons_of_neg (by decide)]
    rfl
  rw [Diagram.declaresType, hword]
  decide

/-- A direction that holds line feeds makes more lines, but the first one declares the type. -/
theorem exists_ended_declaration (f : Frame) : ∃ first,
    Text.ended f.declaration = ("flowchart ".toList ++ first) :: Text.loose f.direction.toList := by
  rw [declaration, String.toList_append]
  exact Text.ended_append (by decide) (by decide) f.direction.toList

/-- In a known direction the line of type and direction is one line and counts as nothing. -/
theorem declaration_of_mem {direction : String} (h : direction ∈ Settings.directions) :
    Text.ended ("flowchart " ++ direction).toList = [("flowchart " ++ direction).toList] ∧
      Diagram.lineKind ("flowchart " ++ direction).toList = .other := by
  revert direction
  decide +kernel

/-! ## A framed body -/

/-- The lines of a framed body. -/
theorem lines_text (htitle : ∀ c ∈ f.title.toList, c ≠ '\r' ∧ c ≠ '\n') (body : List String) :
    Text.lines (f.text body).toList = f.heading :: [] :: openingFence ::
      (Text.ended f.declaration ++
        (body.flatMap (fun l => Text.ended l.toList) ++ [Diagram.fence])) := by
  have hempty : Text.ended "".toList = [[]] := by decide
  have hopening : Text.ended openingFence = [openingFence] := by decide
  have hclosing : Text.ended Diagram.fence = [Diagram.fence] := by decide
  have hheader : f.header.flatMap (fun l => Text.ended l.toList) =
      Text.ended f.heading ++ (Text.ended "".toList ++ (Text.ended openingFence ++
        (Text.ended f.declaration ++ []))) := rfl
  have hfooter : footer.flatMap (fun l => Text.ended l.toList) = Text.ended Diagram.fence ++ [] :=
    rfl
  rw [text, Text.lines_unlines, List.flatMap_append, List.flatMap_append, hheader, hfooter,
    ended_heading htitle, hempty, hopening, hclosing]
  simp

/-- Only the body counts. -/
theorem measure_text (hf : f.Sound) (body : List String) :
    Counts.measure (f.text body).toList =
      .ofKinds (body.flatMap Diagram.kinds) (f.text body).toList.length := by
  have hempty : Diagram.lineKind [] = .other := rfl
  have hopening : Diagram.lineKind openingFence = .other := rfl
  have hended : Text.ended f.declaration = [f.declaration] := (declaration_of_mem hf.direction).1
  have hdeclaration : Diagram.lineKind f.declaration = .other :=
    (declaration_of_mem hf.direction).2
  have hclosing : Diagram.lineKind Diagram.fence = .other := rfl
  have hbody : (body.flatMap fun l => Text.ended l.toList).map Diagram.lineKind =
      body.flatMap Diagram.kinds := List.map_flatMap
  rw [Counts.measure, lines_text hf.title, hended]
  simp [Counts.ofKinds, lineKind_heading, hempty, hopening, hdeclaration, hclosing, hbody]

/-- The counts of a body by itself. -/
theorem measure_unlines (body : List String) :
    Counts.measure (Text.unlines body).toList =
      .ofKinds (body.flatMap Diagram.kinds) (Text.unlines body).toList.length := by
  rw [Counts.measure, Text.lines_unlines, List.map_flatMap]
  rfl

/-- A check of a framed body looks at its counts only. -/
theorem check_text (htitle : ∀ c ∈ f.title.toList, c ≠ '\r' ∧ c ≠ '\n') (body : List String) :
    f.limits.check (f.text body).toList =
      f.limits.verdict (Counts.measure (f.text body).toList) := by
  have hempty : Diagram.isOpeningFence [] = false := rfl
  have hopening : Diagram.isOpeningFence openingFence = true := rfl
  have hclosing : Diagram.isClosingFence Diagram.fence = true := rfl
  obtain ⟨first, hfirst⟩ := exists_ended_declaration f
  have hbehind : Diagram.behindFence? (Text.lines (f.text body).toList) =
      some (("flowchart ".toList ++ first) :: (Text.loose f.direction.toList ++
        (body.flatMap (fun l => Text.ended l.toList) ++ [Diagram.fence]))) := by
    rw [lines_text htitle, hfirst, Diagram.behindFence?]
    simp [Diagram.window, List.findIdx?_cons, isOpeningFence_heading, hempty, hopening]
  rw [Limits.check_eq, hbehind]
  generalize Counts.measure (f.text body).toList = counts
  simp only [List.any_cons, List.any_append, hclosing, List.any_nil, Bool.or_false, Bool.or_true,
    Bool.true_eq_false, if_false, Diagram.window, List.take_succ_cons, declaresType_append,
    Bool.true_or, if_true]
  exact bind_pure (f.limits.verdict counts)

/-! ## Rendering -/

theorem render_of_notReady (f : Frame) {g : Generator} {failure : Failure}
    (hready : g.ready = .error failure) : (f.render g).1 = .error failure := by
  rw [render, hready]

theorem render_of_noBody (f : Frame) {g : Generator} {failure : Failure}
    (hready : g.ready = .ok ()) (hbody : g.body = .error failure) :
    (f.render g).1 = .error failure := by
  rw [render, hready]
  simp only [hbody]

/-- A body that is there is framed and checked. -/
theorem render_eq (f : Frame) {g : Generator} {body : List String} (hready : g.ready = .ok ())
    (hbody : g.body = .ok body) : (f.render g).1 =
      (f.limits.check (f.text body).toList).map fun counts =>
        ⟨f.text body, counts, [.validating, .header, .body, .footer, .validated]⟩ := by
  rw [render, hready]
  simp only [hbody]
  cases f.limits.check (f.text body).toList <;> rfl

/-- A body that is there is checked by its counts only. -/
theorem render_eq_verdict (htitle : ∀ c ∈ f.title.toList, c ≠ '\r' ∧ c ≠ '\n') {g : Generator}
    {body : List String} (hready : g.ready = .ok ()) (hbody : g.body = .ok body) :
    (f.render g).1 =
      (f.limits.verdict (Counts.measure (f.text body).toList)).map fun counts =>
        ⟨f.text body, counts, [.validating, .header, .body, .footer, .validated]⟩ := by
  rw [render_eq f hready hbody, check_text htitle]

/-- Whatever the title, the direction and the body, the fences and the type of a framed body are
found. In a known direction only the body counts, and line by line if none of its lines is cut. -/
theorem render_withTitle (f : Frame) (title : String) {g : Generator} {body : List String}
    (hready : g.ready = .ok ()) (hbody : g.body = .ok body) :
    (∀ failure ∈ [Failure.missingOpeningFence, .missingClosingFence, .missingType],
      ((f.withTitle title).render g).1 ≠ .error failure) ∧
    (∀ rendering, ((f.withTitle title).render g).1 = .ok rendering →
      rendering.text = (f.withTitle title).text body ∧
      rendering.counts = Counts.measure rendering.text.toList) ∧
    (f.direction ∈ Settings.directions →
      Counts.measure ((f.withTitle title).text body).toList =
        { Counts.measure (Text.unlines body).toList with
          size := ((f.withTitle title).text body).length } ∧
      ((∀ line ∈ body, '\n' ∉ line.toList) →
        Counts.measure ((f.withTitle title).text body).toList =
          .ofKinds (body.map fun line => Diagram.lineKind line.toList)
            ((f.withTitle title).text body).length)) := by
  have htitle : ∀ c ∈ (f.withTitle title).title.toList, c ≠ '\r' ∧ c ≠ '\n' :=
    fun _ hc => mem_foldTitle hc
  have hrender := render_eq_verdict htitle hready hbody
  rw [hrender]
  refine ⟨fun failure hfailure herror => ?_, fun rendering hok => ?_, fun hdirection => ?_⟩
  · cases hverdict : (f.withTitle title).limits.verdict _ with
    | ok counts =>
      rw [hverdict] at herror
      cases herror
    | error failure' =>
      rw [hverdict] at herror
      obtain rfl : failure' = failure := Except.error.inj herror
      rcases Limits.of_verdict_eq_error hverdict with rfl | ⟨quantity, count, limit, rfl⟩ <;>
        simp at hfailure
  · cases hverdict : (f.withTitle title).limits.verdict _ with
    | error failure =>
      rw [hverdict] at hok
      cases hok
    | ok counts =>
      rw [hverdict] at hok
      obtain rfl := Except.ok.inj hok
      exact ⟨rfl, Limits.eq_of_verdict_eq_ok hverdict⟩
  · have hmeasure := measure_text (sound_withTitle hdirection title) body
    refine ⟨?_, fun hlines => ?_⟩
    · rw [hmeasure, measure_unlines]
      rfl
    · have hkinds : body.flatMap Diagram.kinds =
          body.map fun line => Diagram.lineKind line.toList := by
        rw [List.flatMap_congr fun line hline => Diagram.kinds_of_notMem (hlines line hline)]
        exact List.map_eq_flatMap.symm
      rw [hmeasure, hkinds, String.length_toList]

/-- A title of many lines, and a body with fences and types of its own. -/
theorem render_withTitle_fences :
    let f : Frame := { limits := {}, direction := "LR" }
    let body := ["```mermaid", "pie", "a --> b\r", "end", "```", "subgraph c"]
    let g : Generator := { body := .ok body }
    (g.ready = .ok () ∧ g.body = .ok body ∧ f.direction ∈ Settings.directions ∧
      ∀ line ∈ body, '\n' ∉ line.toList) ∧
    ((f.withTitle "a\r\n\n```mermaid\nend").render g).1 ≠ .error .missingClosingFence ∧
    Counts.measure ((f.withTitle "a\r\n\n```mermaid\nend").text body).toList =
      ⟨0, 1, 1, 1, ((f.withTitle "a\r\n\n```mermaid\nend").text body).length⟩ := by
  intro f body g
  have hlines : ∀ line ∈ body, '\n' ∉ line.toList := by decide +kernel
  have hdirection : f.direction ∈ Settings.directions := by decide
  obtain ⟨hfound, -, hcounts⟩ :=
    @render_withTitle f "a\r\n\n```mermaid\nend" g body rfl rfl
  refine ⟨⟨rfl, rfl, hdirection, hlines⟩, hfound _ (by decide), ?_⟩
  rw [(hcounts hdirection).2 hlines]
  have hkinds : (body.map fun line => Diagram.lineKind line.toList) =
      [.other, .other, .edge, .closing, .other, .opening] := by decide +kernel
  rw [hkinds]
  rfl

end Frame

end CallChart
