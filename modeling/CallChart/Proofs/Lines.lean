import CallChart.Text.Lines
import Mathlib.Data.List.Basic

/-!
# Cutting texts into lines

A text that a line feed follows is cut into the lines `ended`, and lines of what comes behind
follow these (`lines_append`). So the lines of an unlined list are the ended lines of its texts,
one text after another (`lines_unlines`). A text without line feeds is one line
(`ended_of_notMem`). In front of a text, a text without line feeds only makes its first line
longer (`ended_append`).
-/

namespace CallChart.Text

/-! ## Splitting at a character -/

variable {a : Char} {cs : List Char}

theorem splitOn_append_of_notMem {before : List Char} (h : a ∉ before) (cs : List Char) :
    (before ++ cs).splitOn a = (cs.splitOn a).modifyHead (before ++ ·) := by
  induction before with
  | nil =>
    rw [List.nil_append]
    cases cs.splitOn a <;> rfl
  | cons c before ih =>
    rw [List.mem_cons, not_or] at h
    rw [List.cons_append, List.splitOn_cons_eq_if_modifyHead, if_neg (by simpa using Ne.symm h.1),
      ih h.2, List.modifyHead_modifyHead]
    rfl

/-- The pieces stand in the text. -/
theorem infix_of_mem_splitOn {p : List Char} (h : p ∈ cs.splitOn a) : p <:+: cs := by
  have hinter : ∀ ps : List (List Char), p ∈ ps → p <:+: [a].intercalate ps := by
    intro ps
    induction ps with
    | nil => exact fun h => absurd h List.not_mem_nil
    | cons q ps ih =>
      intro hp
      cases ps with
      | nil =>
        obtain rfl := List.mem_singleton.1 hp
        simp [List.intercalate_singleton]
      | cons q' ps =>
        rw [List.intercalate_cons_cons]
        rcases List.mem_cons.1 hp with rfl | hp
        · exact ⟨[], [a] ++ [a].intercalate (q' :: ps), by simp⟩
        · exact (ih hp).trans (List.suffix_append _ _).isInfix
  have hcs : [a].intercalate (cs.splitOn a) = cs := List.intercalate_splitOn a
  rw [← hcs]
  exact hinter _ h

/-- The pieces hold no separator. -/
theorem notMem_of_mem_splitOnP {p : Char → Bool} : ∀ (cs : List Char), ∀ piece ∈ cs.splitOnP p,
    ∀ c ∈ piece, p c = false
  | [], piece, h, c, hc => by
    rw [List.splitOnP_nil, List.mem_singleton] at h
    exact absurd (h ▸ hc) List.not_mem_nil
  | x :: cs, piece, h, c, hc => by
    have ih := notMem_of_mem_splitOnP (p := p) cs
    rw [List.splitOnP_cons_eq_if_modifyHead] at h
    split at h
    · rcases List.mem_cons.1 h with rfl | h
      · exact absurd hc List.not_mem_nil
      · exact ih piece h c hc
    next hx =>
      obtain ⟨q, qs, hqs⟩ := List.exists_cons_of_ne_nil (List.splitOnP_ne_nil p cs)
      rw [hqs, List.modifyHead_cons] at h
      rw [hqs] at ih
      rcases List.mem_cons.1 h with rfl | h
      · rcases List.mem_cons.1 hc with rfl | hc
        · simpa using hx
        · exact ih q List.mem_cons_self c hc
      · exact ih piece (List.mem_cons_of_mem _ h) c hc

/-! ## Ended lines -/

theorem prefix_dropReturn (cs : List Char) : dropReturn cs <+: cs := by
  unfold dropReturn
  split
  · exact List.dropLast_prefix cs
  · exact List.prefix_refl cs

/-- What stands before the end stays, unless it is the carriage return. -/
theorem dropReturn_append {before : List Char} (h : before.getLast? ≠ some '\r') (cs : List Char) :
    dropReturn (before ++ cs) = before ++ dropReturn cs := by
  cases cs with
  | nil => simp [dropReturn, h]
  | cons c cs =>
    rw [dropReturn, dropReturn, List.getLast?_append_of_ne_nil _ (List.cons_ne_nil c cs)]
    split
    · rw [List.dropLast_append_of_ne_nil (List.cons_ne_nil c cs)]
    · rfl

/-- What a carriage return at the end does not change stays when one is dropped. -/
theorem of_dropReturn {α : Type} {f : List Char → α} (hf : ∀ cs, f (cs ++ ['\r']) = f cs)
    (line : List Char) : f (dropReturn line) = f line := by
  unfold dropReturn
  split
  next h =>
    obtain ⟨before, rfl⟩ := List.getLast?_eq_some_iff.1 h
    rw [List.dropLast_concat, hf]
  next => rfl

/-- The lines of a text that a line feed follows. -/
def ended (cs : List Char) : List (List Char) :=
  (cs.splitOn '\n').map dropReturn

theorem lines_append (cs more : List Char) :
    lines (cs ++ '\n' :: more) = ended cs ++ lines more := by
  obtain ⟨p, ps, hps⟩ := List.exists_cons_of_ne_nil (List.splitOn_ne_nil '\n' more)
  rw [lines, lines, ended, List.splitOn_append_cons_self, hps,
    List.dropLast_append_of_ne_nil (List.cons_ne_nil p ps),
    List.getLast?_append_of_ne_nil _ (List.cons_ne_nil p ps), List.map_append]
  cases (p :: ps).getLast? with
  | none => rfl
  | some last => cases last <;> simp

/-- The lines of an unlined list are the ended lines of its texts. -/
theorem lines_unlines (ls : List String) :
    lines (unlines ls).toList = ls.flatMap fun l => ended l.toList := by
  rw [unlines, String.toList_ofList]
  induction ls with
  | nil => rfl
  | cons l ls ih =>
    rw [List.flatMap_cons, List.flatMap_cons, List.append_assoc, List.singleton_append,
      lines_append, ih]

theorem ended_of_notMem (h : '\n' ∉ cs) : ended cs = [dropReturn cs] := by
  rw [ended, List.splitOn_eq_singleton h, List.map_singleton]

/-- The lines behind the first line of a text. -/
def loose (cs : List Char) : List (List Char) :=
  (ended cs).tail

/-- A text without line feeds, in front of another, makes the first line longer. -/
theorem ended_append {before : List Char} (h : '\n' ∉ before)
    (hlast : before.getLast? ≠ some '\r') (cs : List Char) :
    ∃ first, ended (before ++ cs) = (before ++ first) :: loose cs := by
  obtain ⟨p, ps, hps⟩ := List.exists_cons_of_ne_nil (List.splitOn_ne_nil '\n' cs)
  refine ⟨dropReturn p, ?_⟩
  rw [ended, splitOn_append_of_notMem h, loose, ended, hps, List.modifyHead_cons, List.map_cons,
    List.map_cons, List.tail_cons, dropReturn_append hlast]

theorem infix_of_mem_loose {line : List Char} (h : line ∈ loose cs) : line <:+: cs := by
  obtain ⟨p, hp, rfl⟩ := List.mem_map.1 (List.mem_of_mem_tail h)
  exact (prefix_dropReturn p).isInfix.trans (infix_of_mem_splitOn hp)

theorem loose_of_notMem (h : '\n' ∉ cs) : loose cs = [] := by
  rw [loose, ended_of_notMem h, List.tail_cons]

end CallChart.Text
