import CallChart.Json.Literal
import CallChart.Json.Printer
import Mathlib.Data.List.TakeDrop

/-!
# Reading back what was written

Quoted texts, decimals and words are read back as they were written, and reading stops where the
literal ends. A closing quote ends a quoted text (`Quoted.read_quote`) ; a decimal is ended by
anything that cannot go on with it (`Numeral.read_decimal`).
-/

namespace CallChart

/-! ## Quoted texts -/

namespace Quoted

/-- A text as it is quoted. -/
def ofText (s : String) : Quoted :=
  ⟨s.toList.map .char, none⟩

theorem spell_map_char : ∀ (cs seen : List Char),
    spell none seen (cs.map .char) = .ok (seen.reverse ++ cs)
  | [], seen => by rw [List.map_nil, spell, List.append_nil]
  | c :: cs, seen => by
    rw [List.map_cons, spell, spell_map_char cs, List.reverse_cons, List.append_assoc,
      List.singleton_append]

theorem spelling_ofText (s : String) : (ofText s).spelling = .ok s := by
  rw [spelling, ofText, spell_map_char]
  simp [Except.map]

theorem hexCode?_hexDigit : ∀ n < 32,
    hexCode? '0' '0' (Json.hexDigit (n / 16)) (Json.hexDigit (n % 16)) = some n := by
  decide

/-- Control characters are written as codes. -/
theorem ofCode_toNat {c : Char} (h : c.toNat < 0x20) : Glyph.ofCode c.toNat = .char c := by
  rw [Glyph.ofCode, if_neg (by omega), if_neg (by omega), Char.ofNat_toNat]

/-- A character that stands for itself. -/
theorem read_plain {c : Char} (hquote : c ≠ '"') (hslash : c ≠ '\\') (hcontrol : ¬c.toNat < 0x20)
    (seen : List Glyph) (rest : List Char) :
    read seen (c :: rest) = read (.char c :: seen) rest := by
  rw [read.eq_def]
  split
  case h_7 h =>
    obtain ⟨rfl, rfl⟩ := List.cons.inj h
    rw [if_neg hcontrol]
  all_goals simp_all

/-- A character is read back from the way it is written. -/
theorem read_quoteChar (c : Char) (seen : List Glyph) (rest : List Char) :
    read seen (Json.quoteChar c ++ rest) = read (.char c :: seen) rest := by
  unfold Json.quoteChar
  split_ifs with h1 h2 h3 h4 h5 h6 h7 hcontrol
  · subst h1
    rfl
  · subst h2
    rfl
  · subst h3
    rfl
  · subst h4
    rfl
  · subst h5
    rfl
  · subst h6
    rfl
  · subst h7
    rfl
  · have hcode := hexCode?_hexDigit c.toNat hcontrol
    simp only [List.cons_append, List.nil_append, read, hcode, ofCode_toNat hcontrol]
  · exact read_plain h1 h2 hcontrol seen rest

theorem read_flatMap_quoteChar : ∀ (cs : List Char) (seen : List Glyph) (rest : List Char),
    read seen (cs.flatMap Json.quoteChar ++ '"' :: rest) =
      (⟨seen.reverse ++ cs.map .char, none⟩, rest)
  | [], seen, rest => by
    rw [List.flatMap_nil, List.nil_append, read, List.map_nil, List.append_nil]
  | c :: cs, seen, rest => by
    rw [List.flatMap_cons, List.append_assoc, read_quoteChar, read_flatMap_quoteChar cs]
    simp

/-- A quoted text is read back behind its opening quote. -/
theorem read_quote (s : String) (rest : List Char) :
    ∃ cs, Json.quote s ++ rest = '"' :: cs ∧ read [] cs = (ofText s, rest) := by
  refine ⟨s.toList.flatMap Json.quoteChar ++ '"' :: rest, by simp [Json.quote], ?_⟩
  rw [read_flatMap_quoteChar]
  rfl

end Quoted

/-! ## Decimals -/

namespace Numeral

/-- An integer as a numeral. -/
def ofInt (n : Int) : Numeral where
  negative := decide (n < 0)
  digits := n.natAbs
  scale := 0
  whole := true

theorem natural?_ofInt (n : Nat) : (ofInt n).natural? = some n := by
  simp [natural?, ofInt]

theorem integer?_ofInt (n : Int) : (ofInt n).integer? = some n := by
  have hvalue : (if n < 0 then -(n.natAbs : Int) else n.natAbs) = n := by
    split <;> omega
  simp only [integer?, ofInt, decide_eq_true_eq, if_true, hvalue]

/-- What may follow a decimal and not go on with it. -/
def Ends (rest : List Char) : Prop :=
  ∀ c ∈ rest.head?, c.isDigit = false ∧ c ≠ '.' ∧ c ≠ 'e' ∧ c ≠ 'E'

/-- The digits of a positive number do not begin with zero. -/
theorem head?_toDigits {n : Nat} (h : 0 < n) : (Nat.toDigits 10 n).head? ≠ some '0' := by
  induction n using Nat.strongRecOn with
  | ind n ih =>
    by_cases hlt : n < 10
    · rw [Nat.toDigits_of_lt_base hlt]
      simp
      omega
    · have hfirst := ih (n / 10) (by omega) (by omega)
      rw [Nat.toDigits_of_base_le (by decide) (by omega), List.head?_append]
      cases hhead : (Nat.toDigits 10 (n / 10)).head? with
      | none => exact absurd (List.head?_eq_none_iff.1 hhead) Nat.toDigits_ne_nil
      | some c => simpa [hhead] using hfirst

theorem takeDigits_append {n : Nat} {rest : List Char} (hrest : Ends rest) :
    takeDigits (Nat.toDigits 10 n ++ rest) = (Nat.toDigits 10 n, rest) := by
  have hdigits : ∀ c ∈ Nat.toDigits 10 n, c.isDigit = true := fun c hc =>
    Nat.isDigit_of_mem_toDigits (by decide) (by decide) hc
  rw [takeDigits, List.span_eq_takeWhile_dropWhile, List.takeWhile_append_of_pos hdigits,
    List.dropWhile_append_of_pos hdigits]
  cases rest with
  | nil => simp
  | cons c rest => simp [(hrest c rfl).1]

/-- Digits of a number are a whole part : only zero begins with zero. -/
theorem readWhole_append {n : Nat} {rest : List Char} (hrest : Ends rest) :
    readWhole (Nat.toDigits 10 n ++ rest) = .ok (Nat.toDigits 10 n, rest) := by
  rw [readWhole, takeDigits_append hrest]
  split
  next h => exact absurd (Prod.mk.inj h).1 Nat.toDigits_ne_nil
  next h =>
    have hdigits := (Prod.mk.inj h).1
    rcases Nat.eq_zero_or_pos n with rfl | hpos
    · simp at hdigits
    · exact absurd (congrArg List.head? hdigits) (head?_toDigits hpos)
  next h => rw [(Prod.mk.inj h).1, (Prod.mk.inj h).2]

theorem readFraction_of_ends {rest : List Char} (hrest : Ends rest) :
    readFraction rest = .ok (none, rest) := by
  unfold readFraction
  split
  next => exact absurd rfl (hrest '.' rfl).2.1
  next => rfl

theorem readExponent_of_ends {rest : List Char} (hrest : Ends rest) :
    readExponent rest = .ok (none, rest) := by
  cases rest with
  | nil => rfl
  | cons c rest =>
    have hc := hrest c rfl
    exact if_neg (by simp [hc])

theorem readUnsigned_toDigits (negative : Bool) (n : Nat) {rest : List Char} (hrest : Ends rest) :
    readUnsigned negative (Nat.toDigits 10 n ++ rest) = .ok (⟨negative, n, 0, true⟩, rest) := by
  simp only [readUnsigned, readWhole_append hrest, readFraction_of_ends hrest,
    readExponent_of_ends hrest, bind, Except.bind, pure, Except.pure, digitsValue,
    Option.getD_none, List.append_nil, Nat.ofDigitChars_ten_toDigits]
  rfl

/-- A decimal is read back, and what follows is left. -/
theorem read_decimal (n : Int) {rest : List Char} (hrest : Ends rest) :
    read (Json.decimal n ++ rest) = .ok (ofInt n, rest) := by
  cases n with
  | ofNat n =>
    have hunsigned := readUnsigned_toDigits false n hrest
    unfold read
    split
    next r h =>
      have hsign : '-' ∈ Nat.toDigits 10 n := by
        obtain ⟨d, ds, hds⟩ := List.exists_cons_of_ne_nil (Nat.toDigits_ne_nil (n := n) (b := 10))
        rw [Json.decimal, hds, List.cons_append] at h
        rw [hds, (List.cons.inj h).1]
        exact List.mem_cons_self
      exact absurd (Nat.isDigit_of_mem_toDigits (by decide) (by decide) hsign) (by decide)
    next => exact hunsigned
  | negSucc n =>
    have hnumeral : ofInt (.negSucc n) = ⟨true, n + 1, 0, true⟩ := by
      simp [ofInt, Int.negSucc_lt_zero]
    rw [hnumeral]
    exact readUnsigned_toDigits true (n + 1) hrest

end Numeral

end CallChart
