import CallChart.Json.Outline
import CallChart.Proofs.Literals

/-!
# Reading back JSON text

The two written forms of a value differ in their blanks only. A `Spacing` says where blanks stand,
and `Json.spaced` is the text in a spacing : the compact form is the one without blanks
(`Json.compact_eq`), the pretty form the one with new lines (`Json.pretty_eq`). Whatever the
spacing, a reader finds the outline of the value and stops where it ends
(`Json.readValue_spaced`), so the value itself is read back from either form
(`Json.parse?_spaced`).
-/

namespace CallChart

/-- Blanks between the parts of a written value. -/
structure Spacing where
  /-- In front of an item, a member or a closing bracket that stands inside so many brackets. -/
  gap : Nat → List Char
  /-- Behind a colon. -/
  colonGap : List Char
  isSpace_gap : ∀ depth, ∀ c ∈ gap depth, Outline.isSpace c = true
  isSpace_colonGap : ∀ c ∈ colonGap, Outline.isSpace c = true

namespace Spacing

/-- No blanks. -/
def dense : Spacing where
  gap _ := []
  colonGap := []
  isSpace_gap _ _ h := absurd h List.not_mem_nil
  isSpace_colonGap _ h := absurd h List.not_mem_nil

/-- One item or member a line. -/
def wide : Spacing where
  gap := Json.newLine
  colonGap := [' ']
  isSpace_gap depth c h := by
    rcases List.mem_cons.1 h with rfl | h
    · rfl
    · rw [(List.mem_replicate.1 h).2]
      rfl
  isSpace_colonGap c h := by
    rw [List.mem_singleton.1 h]
    rfl

end Spacing

namespace Json

/-- What holds of values without parts, and of arrays and objects if it holds of their parts,
holds of every value. -/
theorem induct {P : Json → Prop} (null : P .null) (bool : ∀ b, P (.bool b)) (int : ∀ n, P (.int n))
    (text : ∀ s, P (.text s)) (array : ∀ items, (∀ v ∈ items, P v) → P (.array items))
    (object : ∀ members, (∀ m ∈ members, P m.2) → P (.object members)) (v : Json) : P v := by
  refine @Json.rec P (fun items => ∀ v ∈ items, P v) (fun members => ∀ m ∈ members, P m.2)
    (fun m => P m.2) null bool int text array object ?_ ?_ ?_ ?_ ?_ v
  · exact fun _ h => absurd h List.not_mem_nil
  · exact fun v vs hv hvs => List.forall_mem_cons.2 ⟨hv, hvs⟩
  · exact fun _ h => absurd h List.not_mem_nil
  · exact fun m ms hm hms => List.forall_mem_cons.2 ⟨hm, hms⟩
  · exact fun _ _ hv => hv

/-! ## Spacings -/

section Spaced

variable (p : Spacing)

mutual

/-- A value as it is written in a spacing, inside `depth` brackets. -/
def spaced (depth : Nat) : Json → List Char
  | .null => nullWord
  | .bool b => word b
  | .int n => decimal n
  | .text s => quote s
  | .array [] => ['[', ']']
  | .array (v :: vs) => '[' :: (p.gap (depth + 1) ++ (spaced (depth + 1) v ++ moreItems depth vs))
  | .object [] => ['\x7b', '\x7d']
  | .object ((k, v) :: ms) =>
    '\x7b' :: (p.gap (depth + 1) ++ (quote k ++ ':' :: (p.colonGap ++
      (spaced (depth + 1) v ++ moreMembers depth ms))))

/-- The items behind the first one and the closing bracket. -/
def moreItems (depth : Nat) : List Json → List Char
  | [] => p.gap depth ++ [']']
  | v :: vs => ',' :: (p.gap (depth + 1) ++ (spaced (depth + 1) v ++ moreItems depth vs))

/-- The members behind the first one and the closing brace. -/
def moreMembers (depth : Nat) : List (String × Json) → List Char
  | [] => p.gap depth ++ ['\x7d']
  | (k, v) :: ms =>
    ',' :: (p.gap (depth + 1) ++ (quote k ++ ':' :: (p.colonGap ++
      (spaced (depth + 1) v ++ moreMembers depth ms))))

end

end Spaced

mutual

theorem compact_eq (depth : Nat) : ∀ v, compact v = spaced .dense depth v
  | .null => by rw [compact, spaced]
  | .bool b => by rw [compact, spaced]
  | .int n => by rw [compact, spaced]
  | .text s => by rw [compact, spaced]
  | .array [] => by rw [compact, spaced]
  | .array (v :: vs) => by
    rw [compact, spaced, compact_eq (depth + 1) v, compactItems_eq depth vs]
    rfl
  | .object [] => by rw [compact, spaced]
  | .object ((k, v) :: ms) => by
    rw [compact, spaced, compact_eq (depth + 1) v, compactMembers_eq depth ms]
    rfl

theorem compactItems_eq (depth : Nat) : ∀ vs, compactItems vs = moreItems .dense depth vs
  | [] => by rw [compactItems, moreItems]; rfl
  | v :: vs => by
    rw [compactItems, moreItems, compact_eq (depth + 1) v, compactItems_eq depth vs]
    rfl

theorem compactMembers_eq (depth : Nat) : ∀ ms, compactMembers ms = moreMembers .dense depth ms
  | [] => by rw [compactMembers, moreMembers]; rfl
  | (k, v) :: ms => by
    rw [compactMembers, moreMembers, compact_eq (depth + 1) v, compactMembers_eq depth ms]
    rfl

end

mutual

theorem pretty_eq (depth : Nat) : ∀ v, pretty depth v = spaced .wide depth v
  | .null => by rw [pretty, spaced]
  | .bool b => by rw [pretty, spaced]
  | .int n => by rw [pretty, spaced]
  | .text s => by rw [pretty, spaced]
  | .array [] => by rw [pretty, spaced]
  | .array (v :: vs) => by
    rw [pretty, spaced, pretty_eq (depth + 1) v, prettyItems_eq depth vs]
    rfl
  | .object [] => by rw [pretty, spaced]
  | .object ((k, v) :: ms) => by
    rw [pretty, spaced, pretty_eq (depth + 1) v, prettyMembers_eq depth ms]
    rfl

theorem prettyItems_eq (depth : Nat) : ∀ vs, prettyItems depth vs = moreItems .wide depth vs
  | [] => by rw [prettyItems, moreItems]; rfl
  | v :: vs => by
    rw [prettyItems, moreItems, pretty_eq (depth + 1) v, prettyItems_eq depth vs]
    rfl

theorem prettyMembers_eq (depth : Nat) : ∀ ms, prettyMembers depth ms = moreMembers .wide depth ms
  | [] => by rw [prettyMembers, moreMembers]; rfl
  | (k, v) :: ms => by
    rw [prettyMembers, moreMembers, pretty_eq (depth + 1) v, prettyMembers_eq depth ms]
    rfl

end

/-! ## The outline of a value -/

mutual

/-- What is read of a value that is written. -/
def outline : Json → Outline
  | .null => .null
  | .bool b => .bool b
  | .int n => .number (.ofInt n)
  | .text s => .text (.ofText s)
  | .array items => .array (outlineItems items) none
  | .object members => .object (outlineMembers members) none

def outlineItems : List Json → List Outline
  | [] => []
  | v :: vs => outline v :: outlineItems vs

def outlineMembers : List (String × Json) → List (Quoted × Outline)
  | [] => []
  | (k, v) :: ms => (.ofText k, outline v) :: outlineMembers ms

end

theorem outlineItems_eq : ∀ vs, outlineItems vs = vs.map outline
  | [] => rfl
  | v :: vs => by rw [outlineItems, outlineItems_eq vs, List.map_cons]

theorem outlineMembers_eq : ∀ ms, outlineMembers ms = ms.map fun m => (.ofText m.1, m.2.outline)
  | [] => rfl
  | (k, v) :: ms => by rw [outlineMembers, outlineMembers_eq ms, List.map_cons]

end Json

/-! ## Blanks -/

namespace Outline

/-- A comma or a closing bracket ends a decimal. -/
theorem ends_cons {c : Char} (hc : c ∈ [',', ']', '\x7d']) (rest : List Char) :
    Numeral.Ends (c :: rest) := by
  intro d hd
  obtain rfl : c = d := by simpa using hd
  simp only [List.mem_cons, List.not_mem_nil, or_false] at hc
  rcases hc with rfl | rfl | rfl <;> decide

section Blanks

variable {before : List Char} (hblank : ∀ c ∈ before, isSpace c = true)

include hblank

theorem skipSpace_append (cs : List Char) : skipSpace (before ++ cs) = skipSpace cs :=
  List.dropWhile_append_of_pos hblank

theorem readValue_append (fuel : Nat) (cs : List Char) :
    readValue fuel (before ++ cs) = readValue fuel cs := by
  cases fuel with
  | zero => rw [readValue, readValue]
  | succ fuel => rw [readValue, readValue, skipSpace_append hblank]

theorem readItems_append (fuel : Nat) (cs : List Char) :
    readItems fuel (before ++ cs) = readItems fuel cs := by
  cases fuel with
  | zero => rw [readItems, readItems]
  | succ fuel => rw [readItems, readItems, readValue_append hblank]

theorem readMembers_append (fuel : Nat) (cs : List Char) :
    readMembers fuel (before ++ cs) = readMembers fuel cs := by
  cases fuel with
  | zero => rw [readMembers, readMembers]
  | succ fuel => rw [readMembers, readMembers, skipSpace_append hblank]

/-- A blank, a comma or a closing bracket ends a decimal. -/
theorem ends_append {c : Char} (hc : c ∈ [',', ']', '\x7d']) (rest : List Char) :
    Numeral.Ends (before ++ c :: rest) := by
  cases before with
  | nil => exact ends_cons hc rest
  | cons b before =>
    intro d hd
    obtain rfl : b = d := by simpa using hd
    have hb := hblank b List.mem_cons_self
    simp only [isSpace, Bool.or_eq_true, beq_iff_eq] at hb
    rcases hb with ((rfl | rfl) | rfl) | rfl <;> decide

end Blanks

theorem skipSpace_cons {c : Char} (hc : isSpace c = false) (cs : List Char) :
    skipSpace (c :: cs) = c :: cs := by
  rw [skipSpace, List.dropWhile_cons_of_neg (by simp [hc])]

end Outline

namespace Json

open Outline

/-! ## Reading values -/

section Reads

variable (p : Spacing)

/-- A value is read back wherever it is written, and reading stops behind it. Two steps of fuel a
character are enough : an item takes one as an item and one as a value. -/
def Reads (v : Json) : Prop :=
  ∀ (depth fuel : Nat) (rest : List Char), Numeral.Ends rest →
    2 * (spaced p depth v).length ≤ fuel →
      readValue fuel (spaced p depth v ++ rest) = (v.outline, .ok rest)

/-- A decimal begins with its sign or with a digit. -/
theorem decimal_eq_cons (n : Int) :
    ∃ c cs, decimal n = c :: cs ∧ (c = '-' ∨ c.isDigit = true) := by
  cases n with
  | ofNat n =>
    obtain ⟨c, cs, h⟩ := List.exists_cons_of_ne_nil (Nat.toDigits_ne_nil (n := n) (b := 10))
    have hmem : c ∈ Nat.toDigits 10 n := h ▸ List.mem_cons_self
    exact ⟨c, cs, h, .inr (Nat.isDigit_of_mem_toDigits (by decide) (by decide) hmem)⟩
  | negSucc n => exact ⟨'-', _, rfl, .inl rfl⟩

/-- What a decimal begins with is no blank and begins nothing else. -/
theorem isSpace_of_decimal {c : Char} (h : c = '-' ∨ c.isDigit = true) :
    isSpace c = false ∧ c ∉ ['"', '[', ']', '\x7b', 'n', 't', 'f'] := by
  have hne : ∀ d, d ≠ '-' → d.isDigit = false → c ≠ d := by
    rintro d hminus hdigit rfl
    simp_all
  simp [isSpace, hne]

/-- No value begins with a blank or with a closing bracket. -/
theorem spaced_eq_cons (depth : Nat) (v : Json) :
    ∃ c cs, spaced p depth v = c :: cs ∧ isSpace c = false ∧ c ≠ ']' := by
  cases v with
  | null => exact ⟨'n', _, by rw [spaced]; rfl, rfl, by decide⟩
  | bool b => cases b <;> exact ⟨_, _, by rw [spaced]; rfl, rfl, by decide⟩
  | int n =>
    obtain ⟨c, cs, h, hc⟩ := decimal_eq_cons n
    obtain ⟨hspace, hmarks⟩ := isSpace_of_decimal hc
    exact ⟨c, cs, by rw [spaced, h], hspace, fun h => hmarks (by simp [h])⟩
  | text s => exact ⟨'"', _, by rw [spaced]; rfl, rfl, by decide⟩
  | array items => cases items <;> exact ⟨'[', _, by rw [spaced], rfl, by decide⟩
  | object members =>
    rcases members with _ | ⟨⟨k, v⟩, ms⟩ <;> exact ⟨'\x7b', _, by rw [spaced], rfl, by decide⟩

variable {p}

/-- A value is not empty, so one step of fuel is there at least. -/
theorem reads_of_succ {v : Json}
    (h : ∀ (depth fuel : Nat) (rest : List Char), Numeral.Ends rest →
      2 * (spaced p depth v).length ≤ fuel + 1 →
        readValue (fuel + 1) (spaced p depth v ++ rest) = (v.outline, .ok rest)) :
    Reads p v := by
  intro depth fuel rest hrest hfuel
  obtain ⟨c, cs, hcons, -⟩ := spaced_eq_cons p depth v
  cases fuel with
  | zero => simp [hcons] at hfuel
  | succ fuel => exact h depth fuel rest hrest hfuel

theorem reads_null : Reads p .null :=
  reads_of_succ fun _ _ _ _ _ => by rw [spaced]; rfl

theorem reads_bool (b : Bool) : Reads p (.bool b) :=
  reads_of_succ fun _ _ _ _ _ => by cases b <;> rw [spaced] <;> rfl

theorem reads_text (s : String) : Reads p (.text s) := by
  refine reads_of_succ fun depth fuel rest _ _ => ?_
  obtain ⟨cs, hcs, hread⟩ := Quoted.read_quote s rest
  rw [spaced, hcs, readValue, skipSpace_cons rfl]
  simp only [readText, hread]
  rfl

theorem reads_int (n : Int) : Reads p (.int n) := by
  refine reads_of_succ fun depth fuel rest hrest _ => ?_
  have hread := Numeral.read_decimal n hrest
  obtain ⟨c, cs, h, hc⟩ := decimal_eq_cons n
  obtain ⟨hspace, hmarks⟩ := isSpace_of_decimal hc
  rw [h, List.cons_append] at hread
  rw [spaced, h, List.cons_append, readValue, skipSpace_cons hspace]
  split
  case h_8 heq =>
    obtain ⟨rfl, rfl⟩ := List.cons.inj heq
    rw [if_pos hc, readNumber, hread]
    rfl
  all_goals simp_all

/-- What stands behind an item or a member goes on with no decimal. -/
theorem ends_moreItems (depth : Nat) (vs : List Json) (rest : List Char) :
    Numeral.Ends (moreItems p depth vs ++ rest) := by
  cases vs with
  | nil =>
    rw [moreItems, List.append_assoc]
    exact ends_append (p.isSpace_gap depth) (by simp) rest
  | cons v vs =>
    rw [moreItems]
    exact ends_cons (by simp) _

theorem ends_moreMembers (depth : Nat) (ms : List (String × Json)) (rest : List Char) :
    Numeral.Ends (moreMembers p depth ms ++ rest) := by
  cases ms with
  | nil =>
    rw [moreMembers, List.append_assoc]
    exact ends_append (p.isSpace_gap depth) (by simp) rest
  | cons m ms =>
    rw [moreMembers]
    exact ends_cons (by simp) _

/-- Items are read one after another up to the closing bracket. -/
theorem readItems_moreItems (depth : Nat) (rest : List Char) {vs : List Json}
    (hvs : ∀ v ∈ vs, Reads p v) {v : Json} (hv : Reads p v) {fuel : Nat}
    (hfuel : 2 * ((spaced p (depth + 1) v).length + (moreItems p depth vs).length) < fuel) :
    readItems fuel (spaced p (depth + 1) v ++ (moreItems p depth vs ++ rest)) =
      ((v :: vs).map outline, .ok rest) := by
  induction vs generalizing v fuel with
  | nil =>
    obtain _ | fuel := fuel
    · omega
    rw [readItems, hv _ _ _ (ends_moreItems depth [] rest) (by omega), moreItems]
    simp only [List.append_assoc, List.singleton_append, skipSpace_append (p.isSpace_gap depth),
      skipSpace_cons (c := ']') rfl]
    rfl
  | cons w vs ih =>
    obtain _ | fuel := fuel
    · omega
    obtain ⟨hw, hvs⟩ := List.forall_mem_cons.1 hvs
    have hlength : (moreItems p depth (w :: vs)).length = (p.gap (depth + 1)).length +
        ((spaced p (depth + 1) w).length + (moreItems p depth vs).length) + 1 := by
      simp [moreItems]
    have hmore := @ih hvs w hw fuel (by omega)
    rw [readItems, hv _ _ _ (ends_moreItems depth (w :: vs) rest) (by omega), moreItems]
    simp only [List.cons_append, List.append_assoc, skipSpace_cons (c := ',') rfl,
      readItems_append (p.isSpace_gap (depth + 1)), hmore]
    rfl

theorem reads_array {items : List Json} (h : ∀ v ∈ items, Reads p v) : Reads p (.array items) := by
  refine reads_of_succ fun depth fuel rest _ hfuel => ?_
  cases items with
  | nil => rw [spaced]; rfl
  | cons v vs =>
    obtain ⟨hv, hvs⟩ := List.forall_mem_cons.1 h
    obtain ⟨c, cs, hcons, hspace, hc⟩ := spaced_eq_cons p (depth + 1) v
    rw [spaced] at *
    simp only [List.length_append, List.length_cons] at hfuel
    have hmore := @readItems_moreItems p depth rest vs hvs v hv fuel (by omega)
    rw [hcons, List.cons_append] at hmore
    rw [hcons, List.cons_append, readValue, skipSpace_cons rfl]
    simp only [List.cons_append, List.append_assoc, skipSpace_append (p.isSpace_gap (depth + 1)),
      skipSpace_cons hspace]
    split
    next hbracket => exact absurd (List.cons.inj hbracket).1 hc
    next =>
      rw [hmore, outline, outlineItems_eq]
      rfl

/-- Members are read one after another up to the closing brace. -/
theorem readMembers_moreMembers (depth : Nat) (rest : List Char) {ms : List (String × Json)}
    (hms : ∀ m ∈ ms, Reads p m.2) {k : String} {v : Json} (hv : Reads p v) {fuel : Nat}
    (hfuel : 2 * ((spaced p (depth + 1) v).length + (moreMembers p depth ms).length) < fuel) :
    readMembers fuel (quote k ++ ':' :: (p.colonGap ++
        (spaced p (depth + 1) v ++ (moreMembers p depth ms ++ rest)))) =
      (((k, v) :: ms).map fun m => (.ofText m.1, m.2.outline), .ok rest) := by
  induction ms generalizing k v fuel with
  | nil =>
    obtain _ | fuel := fuel
    · omega
    obtain ⟨cs, hcs, hread⟩ := Quoted.read_quote k (':' :: (p.colonGap ++
      (spaced p (depth + 1) v ++ (moreMembers p depth [] ++ rest))))
    have hvalue := hv (depth + 1) fuel _ (ends_moreMembers (p := p) depth [] rest) (by omega)
    rw [hcs, readMembers, skipSpace_cons rfl]
    simp only [hread, Quoted.ofText, skipSpace_cons (c := ':') rfl,
      readValue_append p.isSpace_colonGap, hvalue]
    simp only [moreMembers, List.append_assoc, List.singleton_append,
      skipSpace_append (p.isSpace_gap depth), skipSpace_cons (c := '\x7d') rfl]
    rfl
  | cons m ms ih =>
    obtain _ | fuel := fuel
    · omega
    obtain ⟨k', w⟩ := m
    obtain ⟨hw, hms⟩ := List.forall_mem_cons.1 hms
    have hlength : (moreMembers p depth ((k', w) :: ms)).length ≥
        (spaced p (depth + 1) w).length + (moreMembers p depth ms).length + 1 := by
      simp [moreMembers]
      omega
    have hmore := @ih hms k' w hw fuel (by omega)
    obtain ⟨cs, hcs, hread⟩ := Quoted.read_quote k (':' :: (p.colonGap ++
      (spaced p (depth + 1) v ++ (moreMembers p depth ((k', w) :: ms) ++ rest))))
    have hvalue := hv (depth + 1) fuel _ (ends_moreMembers (p := p) depth ((k', w) :: ms) rest)
      (by omega)
    rw [hcs, readMembers, skipSpace_cons rfl]
    simp only [hread, Quoted.ofText, skipSpace_cons (c := ':') rfl,
      readValue_append p.isSpace_colonGap, hvalue]
    simp only [moreMembers, List.append_assoc, List.cons_append, skipSpace_cons (c := ',') rfl,
      readMembers_append (p.isSpace_gap (depth + 1)), hmore]
    rfl

theorem reads_object {members : List (String × Json)} (h : ∀ m ∈ members, Reads p m.2) :
    Reads p (.object members) := by
  refine reads_of_succ fun depth fuel rest _ hfuel => ?_
  rcases members with _ | ⟨⟨k, v⟩, ms⟩
  · rw [spaced]; rfl
  · obtain ⟨hv, hms⟩ := List.forall_mem_cons.1 h
    rw [spaced] at *
    simp only [List.length_append, List.length_cons] at hfuel
    have hmore := @readMembers_moreMembers p depth rest ms hms k v hv fuel (by omega)
    rw [List.cons_append, readValue, skipSpace_cons rfl]
    simp only [List.cons_append, List.append_assoc, skipSpace_append (p.isSpace_gap (depth + 1))]
    obtain ⟨cs, hcs, -⟩ := Quoted.read_quote k (':' :: (p.colonGap ++
        (spaced p (depth + 1) v ++ (moreMembers p depth ms ++ rest))))
    rw [hcs] at hmore
    rw [hcs, skipSpace_cons rfl]
    split
    next hbrace => exact absurd (List.cons.inj hbrace).1 (by decide)
    next =>
      rw [hmore, outline, outlineMembers_eq]
      rfl

/-- Every value is read back in every spacing. -/
theorem readValue_spaced (v : Json) : Reads p v :=
  induct reads_null reads_bool reads_int reads_text (fun _ => reads_array) (fun _ => reads_object) v

end Reads

/-! ## Reading texts -/

theorem ofChars_spaced (p : Spacing) (v : Json) :
    ofChars (spaced p 0 v) = (v.outline, .ok []) := by
  have h := readValue_spaced v (p := p) 0 (2 * (spaced p 0 v).length + 2) []
    (fun _ h => nomatch h) (by omega)
  rwa [List.append_nil] at h

/-- What is wanted of the text of a value is what is wanted of its outline. -/
theorem parse_spaced {α : Type} (want : Outline → Except Fault α) (p : Spacing) (v : Json) :
    Outline.parse want (spaced p 0 v) = want v.outline := by
  rw [Outline.parse, ofChars_spaced]
  cases h : want v.outline with
  | error fault => simp [h, bind, Except.bind]
  | ok a => simp [h, bind, Except.bind]; rfl

theorem parse_compact {α : Type} (want : Outline → Except Fault α) (v : Json) :
    Outline.parse want v.compact = want v.outline := by
  rw [compact_eq 0, parse_spaced]

theorem parse_pretty {α : Type} (want : Outline → Except Fault α) (v : Json) :
    Outline.parse want (v.pretty 0) = want v.outline := by
  rw [pretty_eq, parse_spaced]

/-- A value that is written has no fault where it is passed over. -/
theorem fault?_outline (v : Json) : v.outline.fault? = none := by
  induction v using induct with
  | null => rfl
  | bool b => rfl
  | int n => rfl
  | text s => rfl
  | array items ih =>
    rw [outline, fault?, Option.or_none]
    induction items with
    | nil => rw [outlineItems, itemsFault?]
    | cons v vs ihs =>
      obtain ⟨hv, hvs⟩ := List.forall_mem_cons.1 ih
      rw [outlineItems, itemsFault?, hv, ihs hvs, Option.none_or]
  | object members ih =>
    rw [outline, fault?, Option.or_none]
    induction members with
    | nil => rw [outlineMembers, membersFault?]
    | cons m ms ihs =>
      obtain ⟨hm, hms⟩ := List.forall_mem_cons.1 ih
      rw [outlineMembers, membersFault?, hm, ihs hms]
      rfl

theorem itemValues?_map : ∀ {vs : List Json}, (∀ v ∈ vs, v.outline.value? = some v) →
    itemValues? (vs.map outline) = some vs
  | [], _ => by rw [List.map_nil, itemValues?]
  | v :: vs, h => by
    obtain ⟨hv, hvs⟩ := List.forall_mem_cons.1 h
    rw [List.map_cons, itemValues?, hv, itemValues?_map hvs]

theorem memberValues?_map : ∀ {ms : List (String × Json)},
    (∀ m ∈ ms, m.2.outline.value? = some m.2) →
      memberValues? (ms.map fun m => (.ofText m.1, m.2.outline)) = some ms
  | [], _ => by rw [List.map_nil, memberValues?]
  | m :: ms, h => by
    obtain ⟨hm, hms⟩ := List.forall_mem_cons.1 h
    rw [List.map_cons, memberValues?, hm, memberValues?_map hms, Quoted.spelling_ofText]

/-- The value of an outline is the value it is the outline of. -/
theorem value?_outline (v : Json) : v.outline.value? = some v := by
  induction v using induct with
  | null => rfl
  | bool b => rfl
  | int n => rw [outline, value?, Numeral.integer?_ofInt]; rfl
  | text s => rw [outline, value?, Quoted.spelling_ofText]; rfl
  | array items ih => rw [outline, outlineItems_eq, value?, itemValues?_map ih]; rfl
  | object members ih => rw [outline, outlineMembers_eq, value?, memberValues?_map ih]; rfl

/-- A value is read back from its text in any spacing. -/
theorem parse?_spaced (p : Spacing) (v : Json) : parse? (spaced p 0 v) = some v := by
  rw [parse?, ofChars_spaced]
  exact value?_outline v

/-- The form with one item or member a line is read back. -/
theorem parse?_pretty (v : Json) : parse? (v.pretty 0) = some v := by
  rw [pretty_eq, parse?_spaced]

end Json

end CallChart
