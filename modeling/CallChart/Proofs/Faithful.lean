import CallChart.Proofs.Counting
import CallChart.Proofs.Framing

/-!
# Rendering a chart

The frame around a body counts as nothing, and a check of it can only find that blocks are not
balanced or that a limit is exceeded. With the counts of a chart's body (`Chart.draw_counted`)
this says what the rendering of a chart gives (`Chart.render_generator`).

A chart is rendered faithfully if nothing but a limit makes the rendering fail, and else the
counts are those of the metadata. Line feeds inside labels and titles can prevent it :
`Chart.rendersFaithfully_iff` is the exact condition, on the lines that begin inside them. Without
line feeds there are no such lines (`Chart.rendersFaithfully_of_newline_notMem`).
-/

namespace CallChart

namespace Chart

/-! ## The rendering of a chart -/

/-- The text of a chart in its frame. -/
def text (s : Settings) (d : Document) : String :=
  (Frame.ofSettings s).text (draw s d).body

/-- What is counted in the text of a chart : what the metadata count, and the lines inside labels
and titles that open or close blocks. -/
def lineCounts (s : Settings) (d : Document) : Counts where
  nodes := (draw s d).metadata.stats.nodes
  edges := (draw s d).metadata.stats.edges
  opened := (draw s d).metadata.stats.blocks + (draw s d).looseCount .opening
  closed := (draw s d).metadata.stats.blocks + (draw s d).looseCount .closing
  size := (text s d).length

variable {s : Settings} {d : Document}

theorem measure_text (hs : s.fault? = none) (d : Document) :
    Counts.measure (text s d).toList = lineCounts s d := by
  have hcounted := draw_counted s d
  rw [text, Frame.measure_text (Frame.sound_ofSettings hs), Counts.ofKinds, hcounted.nodes,
    hcounted.edges, hcounted.opened, hcounted.closed]
  rfl

/-- What the rendering of a chart gives : what its counts decide. -/
theorem render_generator (hs : s.fault? = none) (hd : ready d = .ok ()) :
    ((Frame.ofSettings s).render (generator s d)).1 =
      (s.limits.verdict (lineCounts s d)).map fun counts =>
        ⟨text s d, counts, [.validating, .header, .body, .footer, .validated]⟩ := by
  have hready : (generator s d).ready = .ok () := hd
  have hbody : (generator s d).body = .ok (draw s d).body := rfl
  rw [Frame.render_eq _ hready hbody, Frame.check_text (Frame.sound_ofSettings hs).title,
    ← measure_text hs d]
  rfl

/-- Rendering the chart fails for nothing but a limit, and else the counts are those of the
metadata. -/
def RendersFaithfully (s : Settings) (d : Document) : Prop :=
  match ((Frame.ofSettings s).render (generator s d)).1 with
  | .ok rendering => rendering.counts = ⟨(draw s d).metadata.stats.nodes,
      (draw s d).metadata.stats.edges, (draw s d).metadata.stats.blocks,
      (draw s d).metadata.stats.blocks, rendering.text.length⟩
  | .error failure => ∃ quantity count limit, failure = .limitExceeded quantity count limit

theorem lineCounts_balanced_iff (s : Settings) (d : Document) :
    (lineCounts s d).opened = (lineCounts s d).closed ↔
      (draw s d).looseCount .opening = (draw s d).looseCount .closing := by
  simp [lineCounts]

theorem rendersFaithfully_of_balanced (hs : s.fault? = none) (hd : ready d = .ok ())
    (hloose : (draw s d).looseCount .opening = (draw s d).looseCount .closing)
    (h : (draw s d).looseCount .opening = 0 ∨ s.limits.exceeded? (lineCounts s d) ≠ none) :
    RendersFaithfully s d := by
  have hbalanced := (lineCounts_balanced_iff s d).2 hloose
  unfold RendersFaithfully
  rw [render_generator hs hd]
  cases hexceeded : s.limits.exceeded? (lineCounts s d) with
  | none =>
    have hzero : (draw s d).looseCount .opening = 0 :=
      h.resolve_right (not_not_intro hexceeded)
    rw [Limits.verdict_of_within hbalanced hexceeded]
    simp [Except.map, lineCounts, ← hloose, hzero]
  | some q =>
    rw [Limits.verdict_of_exceeded hbalanced hexceeded]
    exact ⟨q.1, q.2.1, q.2.2, rfl⟩

/-- A chart is rendered faithfully exactly if as many of the lines that begin inside its labels
and titles open a block as close one, and none does unless a limit is exceeded. -/
theorem rendersFaithfully_iff (hs : s.fault? = none) (hd : ready d = .ok ()) :
    RendersFaithfully s d ↔
      (draw s d).looseCount .opening = (draw s d).looseCount .closing ∧
        ((draw s d).looseCount .opening = 0 ∨ s.limits.exceeded? (lineCounts s d) ≠ none) := by
  refine ⟨fun h => ?_, fun h => rendersFaithfully_of_balanced hs hd h.1 h.2⟩
  unfold RendersFaithfully at h
  rw [render_generator hs hd] at h
  have hloose : (draw s d).looseCount .opening = (draw s d).looseCount .closing := by
    by_contra hne
    rw [Limits.verdict_of_unbalanced (mt (lineCounts_balanced_iff s d).1 hne)] at h
    obtain ⟨quantity, count, limit, h⟩ := h
    exact Failure.noConfusion h
  have hbalanced := (lineCounts_balanced_iff s d).2 hloose
  refine ⟨hloose, ?_⟩
  cases hexceeded : s.limits.exceeded? (lineCounts s d) with
  | none =>
    rw [Limits.verdict_of_within hbalanced hexceeded] at h
    exact .inl (Nat.add_eq_left.1 (congrArg Counts.opened h))
  | some q => exact .inr (Option.some_ne_none q)

/-- Settings for labels that are names only. -/
def minimalLabels : Settings :=
  { labelFormat := "minimal" }

/-- A function that calls nothing and is shown under a name. -/
def shownAs (name : String) : Document where
  symbols := .ofList [{ name := "a", displayName := some name, path := ⟨"x.py"⟩ }]
  calls := .ofList [("a", [])]

/-- A line feed does no harm where no line comes to stand that counts. -/
theorem rendersFaithfully_shownAs_lines :
    minimalLabels.fault? = none ∧ ready (shownAs "a\nb") = .ok () ∧
      RendersFaithfully minimalLabels (shownAs "a\nb") := by
  have hs : minimalLabels.fault? = none := by decide +kernel
  have hd : ready (shownAs "a\nb") = .ok () := by decide +kernel
  have hloose : (draw minimalLabels (shownAs "a\nb")).looseCount .opening = 0 ∧
      (draw minimalLabels (shownAs "a\nb")).looseCount .closing = 0 := by
    decide +kernel
  refine ⟨hs, hd, ?_⟩
  rw [rendersFaithfully_iff hs hd, hloose.1, hloose.2]
  exact ⟨rfl, .inl rfl⟩

/-- A line of a name that reads `end` closes a block that was never opened. -/
theorem not_rendersFaithfully_shownAs_end :
    minimalLabels.fault? = none ∧ ready (shownAs "a\nend\nb") = .ok () ∧
      ((Frame.ofSettings minimalLabels).render
        (generator minimalLabels (shownAs "a\nend\nb"))).1 = .error (.unbalanced 1 2) ∧
      ¬ RendersFaithfully minimalLabels (shownAs "a\nend\nb") := by
  have hs : minimalLabels.fault? = none := by decide +kernel
  have hd : ready (shownAs "a\nend\nb") = .ok () := by decide +kernel
  have hverdict : minimalLabels.limits.verdict
      (lineCounts minimalLabels (shownAs "a\nend\nb")) = .error (.unbalanced 1 2) := by
    decide +kernel
  have hrender : ((Frame.ofSettings minimalLabels).render
      (generator minimalLabels (shownAs "a\nend\nb"))).1 = .error (.unbalanced 1 2) := by
    rw [render_generator hs hd, hverdict]
    rfl
  refine ⟨hs, hd, hrender, ?_⟩
  rw [RendersFaithfully, hrender]
  rintro ⟨quantity, count, limit, h⟩
  exact Failure.noConfusion h

/-- Without line feeds in labels and titles a chart is rendered faithfully. -/
theorem rendersFaithfully_of_newline_notMem (hs : s.fault? = none) (hd : ready d = .ok ())
    (h : ∀ text ∈ (draw s d).texts, '\n' ∉ text.toList) : RendersFaithfully s d := by
  have hcount : ∀ k, (draw s d).looseCount k = 0 := by
    refine fun k => Drawing.looseCount_eq_zero fun text htext line hline => ?_
    have hnil : Diagram.looseLines text = [] :=
      Text.loose_of_notMem (by simpa using h text htext)
    rw [hnil] at hline
    exact absurd hline List.not_mem_nil
  exact rendersFaithfully_of_balanced hs hd (by rw [hcount, hcount]) (.inl (hcount _))

end Chart

end CallChart
