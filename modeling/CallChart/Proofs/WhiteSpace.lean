import CallChart.Text.Character
import Mathlib.Data.List.TakeWhile

/-!
# White space around words

White space is no part of a name (`Text.isNamePart_of_isBlank`). Trimming takes off white space and
nothing else : a text is white space and the trimmed text (`Text.exists_blank_trimStart`,
`Text.exists_blank_trimEnd`), and what begins or ends without it stays
(`Text.trimStart_blank_append`, `Text.trimEnd_append`).
-/

namespace CallChart.Text

/-! ## White space and names -/

/-- The code points of white space. -/
def blankPoints : List Nat :=
  [0x09, 0x0a, 0x0b, 0x0c, 0x0d, 0x20, 0x85, 0xa0, 0x1680, 0x2000, 0x2001, 0x2002, 0x2003, 0x2004,
    0x2005, 0x2006, 0x2007, 0x2008, 0x2009, 0x200a, 0x2028, 0x2029, 0x202f, 0x205f, 0x3000]

theorem toNat_mem_blankPoints {c : Char} (h : isBlank c = true) : c.toNat ∈ blankPoints := by
  simp only [isBlank, Bool.or_eq_true, Bool.and_eq_true, decide_eq_true_eq, beq_iff_eq] at h
  simp only [blankPoints, List.mem_cons, List.not_mem_nil, or_false]
  omega

/-- White space is no part of a name. -/
theorem isNamePart_of_isBlank {c : Char} (h : isBlank c = true) : isNamePart c = false := by
  have hall : ∀ n ∈ blankPoints, isNamePart (Char.ofNat n) = false := by decide +kernel
  rw [← Char.ofNat_toNat c]
  exact hall _ (toNat_mem_blankPoints h)

theorem isBlank_of_isNamePart {c : Char} (h : isNamePart c = true) : isBlank c = false := by
  rw [Bool.eq_false_iff]
  intro hblank
  rw [isNamePart_of_isBlank hblank] at h
  cases h

/-! ## Trimming -/

/-- White space only. -/
def Blank (cs : List Char) : Prop :=
  ∀ c ∈ cs, isBlank c = true

variable {cs : List Char}

theorem trimStart_cons {c : Char} (h : isBlank c = false) (cs : List Char) :
    trimStart (c :: cs) = c :: cs := by
  rw [trimStart, List.dropWhile_cons, h]
  rfl

theorem exists_blank_trimStart (cs : List Char) :
    ∃ before, Blank before ∧ cs = before ++ trimStart cs :=
  ⟨cs.takeWhile isBlank, fun _ hc => List.mem_takeWhile_imp hc,
    (List.takeWhile_append_dropWhile).symm⟩

theorem exists_blank_trimEnd (cs : List Char) :
    ∃ after, Blank after ∧ cs = trimEnd cs ++ after := by
  obtain ⟨before, hbefore, heq⟩ := exists_blank_trimStart cs.reverse
  refine ⟨before.reverse, fun c hc => hbefore c (List.mem_reverse.1 hc), ?_⟩
  rw [trimEnd, ← List.reverse_append, ← trimStart, ← heq, List.reverse_reverse]

theorem trimStart_blank_append {before : List Char} (h : Blank before) {c : Char}
    (hc : isBlank c = false) (cs : List Char) : trimStart (before ++ c :: cs) = c :: cs := by
  rw [trimStart, List.dropWhile_append_of_pos h, ← trimStart, trimStart_cons hc]

/-- What ends in a character that is not blank stays when the end is trimmed. -/
theorem trimEnd_append {before : List Char} {c : Char} (h : before.getLast? = some c)
    (hc : isBlank c = false) (cs : List Char) : trimEnd (before ++ cs) = before ++ trimEnd cs := by
  obtain ⟨before, rfl⟩ := List.getLast?_eq_some_iff.1 h
  rw [trimEnd, trimEnd, List.reverse_append, List.dropWhile_append]
  split
  next hempty =>
    rw [List.isEmpty_iff.1 hempty]
    simp [hc]
  next => rw [List.reverse_append, List.reverse_reverse]

theorem trimEnd_blank (h : Blank cs) : trimEnd cs = [] := by
  have hnil : cs.reverse.dropWhile isBlank = [] :=
    List.dropWhile_eq_nil_iff.2 fun c hc => h c (List.mem_reverse.1 hc)
  rw [trimEnd, hnil, List.reverse_nil]

theorem trimStart_return (cs : List Char) :
    trimStart (cs ++ ['\r']) = if trimStart cs = [] then [] else trimStart cs ++ ['\r'] := by
  rw [trimStart, trimStart, List.dropWhile_append]
  simp only [List.isEmpty_iff]
  rfl

/-- A carriage return at the end is trimmed. -/
theorem trim_return (cs : List Char) : trim (cs ++ ['\r']) = trim cs := by
  have hblank : isBlank '\r' = true := rfl
  rw [trim, trim, trimStart_return]
  split
  next h => rw [h]
  next => rw [trimEnd, trimEnd, List.reverse_concat, List.dropWhile_cons_of_pos hblank]

end CallChart.Text
