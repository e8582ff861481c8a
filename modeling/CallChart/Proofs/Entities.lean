import CallChart.Text.Entity
import Mathlib.Data.List.Infix
import Mathlib.Data.Set.Function

/-!
# Reading entity codes back

Escaping writes a code for each of eight characters and leaves the rest, the hash that codes begin
with among it. So a code that is written out in a text stays as it is and reads like an escaped
character. That is all there is to lose : reading an escaped text gives what reading the text itself
gives (`Text.unescapeChars_escapeChars`), a text and what is read from it are escaped alike
(`Text.escapeChars_unescapeChars`), and reading changes no text but one in which a code is written
out (`Text.unescapeChars_eq_self_iff`).

A text is empty, begins with a code, or begins with a character at which no code begins ; reading
goes by these cases (`Text.codeInduction`). A code holds no hash but the one it begins with, so no
code is partly the text's own and partly written by escaping (`Text.prefix_of_prefix_escapeChars`).

Main statement : `Text.escape_keepsApart`.
-/

namespace CallChart.Text

/-- A code is written at the beginning of the text. -/
def BeginsCode (cs : List Char) : Prop :=
  ∃ c code, entity? c = some code ∧ code.toList <+: cs

/-- No code is written out in the text. -/
def CodeFree (cs : List Char) : Prop :=
  ∀ c code, entity? c = some code → ¬ code.toList <:+: cs

variable {c : Char} {code : String} {cs : List Char}

/-! ## Codes -/

/-- A code is a hash and then something without a hash. -/
theorem exists_body (h : entity? c = some code) :
    ∃ b body, code.toList = '#' :: b :: body ∧ '#' ∉ b :: body := by
  unfold entity? at h
  split at h <;> cases h <;> exact ⟨_, _, rfl, by decide⟩

theorem codeFree_nil : CodeFree [] := by
  intro c code h hinfix
  obtain ⟨b, body, hbody, -⟩ := exists_body h
  rw [List.infix_nil.1 hinfix] at hbody
  cases hbody

theorem codeFree_cons : CodeFree (c :: cs) ↔ ¬ BeginsCode (c :: cs) ∧ CodeFree cs := by
  simp only [CodeFree, BeginsCode, List.infix_cons_iff, not_exists, not_and, not_or, forall_and]

/-! ## Escaping -/

theorem escapeChar_of_code (h : entity? c = some code) : escapeChar c = code.toList := by
  rw [escapeChar, h]

theorem escapeChar_of_plain (h : entity? c = none) : escapeChar c = [c] := by
  rw [escapeChar, h]

theorem escapeChars_cons (c : Char) (cs : List Char) :
    escapeChars (c :: cs) = escapeChar c ++ escapeChars cs :=
  List.flatMap_cons

theorem entity?_of_mem_escapeChar {c c' : Char} (h : c' ∈ escapeChar c) : entity? c' = none := by
  unfold escapeChar at h
  cases hcode : entity? c with
  | none =>
    rw [hcode, List.mem_singleton] at h
    rwa [h]
  | some code =>
    rw [hcode] at h
    have hplain : code.toList.all (fun c => (entity? c).isNone) = true := by
      unfold entity? at hcode
      split at hcode <;> cases hcode <;> decide
    exact Option.isNone_iff_eq_none.1 (List.all_eq_true.1 hplain c' h)

/-- An escaped text holds no character that has an entity code. -/
theorem entity?_of_mem_escapeChars {cs : List Char} {c : Char} (h : c ∈ escapeChars cs) :
    entity? c = none := by
  obtain ⟨_, -, h⟩ := List.mem_flatMap.1 h
  exact entity?_of_mem_escapeChar h

theorem escapeChars_of_plain : ∀ {cs : List Char}, (∀ c ∈ cs, entity? c = none) →
    escapeChars cs = cs
  | [], _ => rfl
  | c :: cs, h => by
    rw [escapeChars_cons, escapeChar_of_plain (h c List.mem_cons_self), List.singleton_append,
      escapeChars_of_plain fun c hc => h c (List.mem_cons_of_mem _ hc)]

/-- A code that is written out stays when it is escaped. -/
theorem escapeChars_code_append (h : entity? c = some code) (cs : List Char) :
    escapeChars (code.toList ++ cs) = code.toList ++ escapeChars cs := by
  have hplain : ∀ c ∈ code.toList, entity? c = none := fun _ hmem =>
    entity?_of_mem_escapeChar (escapeChar_of_code h ▸ hmem)
  rw [escapeChars, List.flatMap_append, ← escapeChars, escapeChars_of_plain hplain, escapeChars]

/-- What holds no hash and begins an escaped text begins the text. -/
theorem prefix_of_prefix_escapeChars : ∀ {body cs : List Char}, '#' ∉ body →
    body <+: escapeChars cs → body <+: cs
  | [], _, _, _ => List.nil_prefix
  | _ :: _, [], _, h => h
  | b :: body, c :: cs, hhash, h => by
    rw [escapeChars_cons] at h
    cases hcode : entity? c with
    | none =>
      rw [escapeChar_of_plain hcode, List.singleton_append, List.cons_prefix_cons] at h
      exact List.cons_prefix_cons.2
        ⟨h.1, prefix_of_prefix_escapeChars (List.not_mem_of_not_mem_cons hhash) h.2⟩
    | some code =>
      obtain ⟨b', body', hbody, -⟩ := exists_body hcode
      rw [escapeChar_of_code hcode, hbody, List.cons_append, List.cons_prefix_cons] at h
      exact absurd (h.1 ▸ List.mem_cons_self) hhash

/-- Behind a character that has no code, a code begins in the escaped text only where one begins
in the text. -/
theorem beginsCode_of_escapeChars (h : BeginsCode (c :: escapeChars cs)) :
    BeginsCode (c :: cs) := by
  obtain ⟨c', code, hcode, hstart⟩ := h
  obtain ⟨b, body, hbody, hhash⟩ := exists_body hcode
  refine ⟨c', code, hcode, ?_⟩
  rw [hbody, List.cons_prefix_cons] at hstart ⊢
  exact ⟨hstart.1, prefix_of_prefix_escapeChars hhash hstart.2⟩

/-! ## Reading -/

theorem unescapeChars_code_append (h : entity? c = some code) (cs : List Char) :
    unescapeChars (code.toList ++ cs) = c :: unescapeChars cs := by
  unfold entity? at h
  split at h <;> cases h <;> rfl

theorem unescapeChars_cons (h : ¬ BeginsCode (c :: cs)) :
    unescapeChars (c :: cs) = c :: unescapeChars cs := by
  rw [unescapeChars]
  all_goals
    rintro more rfl rfl
    apply h
  exacts [⟨'"', _, rfl, more, rfl⟩, ⟨'[', _, rfl, more, rfl⟩, ⟨']', _, rfl, more, rfl⟩,
    ⟨'\x7b', _, rfl, more, rfl⟩, ⟨'\x7d', _, rfl, more, rfl⟩, ⟨'<', _, rfl, more, rfl⟩,
    ⟨'>', _, rfl, more, rfl⟩, ⟨'&', _, rfl, more, rfl⟩]

/-- A text is empty, a code and a text, or a character at which no code begins and a text. -/
theorem codeInduction {P : List Char → Prop} (nil : P [])
    (code : ∀ c code cs, entity? c = some code → P cs → P (code.toList ++ cs))
    (plain : ∀ c cs, ¬ BeginsCode (c :: cs) → P cs → P (c :: cs)) : ∀ cs, P cs
  | [] => nil
  | c :: cs => by
    by_cases h : BeginsCode (c :: cs)
    · obtain ⟨c', written, hcode, more, hmore⟩ := h
      obtain ⟨b, body, hbody, -⟩ := exists_body hcode
      have hlength : written.toList.length + more.length = cs.length + 1 := by
        rw [← List.length_append, hmore, List.length_cons]
      have hlt : more.length ≤ cs.length := by
        rw [hbody, List.length_cons] at hlength
        omega
      exact hmore ▸ code c' written more hcode (codeInduction nil code plain more)
    · exact plain c cs h (codeInduction nil code plain cs)
termination_by cs => cs.length

/-- Reading an escaped text gives what reading the text gives. -/
theorem unescapeChars_escapeChars (cs : List Char) :
    unescapeChars (escapeChars cs) = unescapeChars cs := by
  induction cs using codeInduction with
  | nil => rfl
  | code c code cs h ih =>
    rw [escapeChars_code_append h, unescapeChars_code_append h, unescapeChars_code_append h, ih]
  | plain c cs h ih =>
    rw [unescapeChars_cons h, escapeChars_cons]
    cases hcode : entity? c with
    | some code => rw [escapeChar_of_code hcode, unescapeChars_code_append hcode, ih]
    | none =>
      rw [escapeChar_of_plain hcode, List.singleton_append,
        unescapeChars_cons (mt beginsCode_of_escapeChars h), ih]

/-- A text and what is read from it are escaped alike. -/
theorem escapeChars_unescapeChars (cs : List Char) :
    escapeChars (unescapeChars cs) = escapeChars cs := by
  induction cs using codeInduction with
  | nil => rfl
  | code c code cs h ih =>
    rw [unescapeChars_code_append h, escapeChars_cons, escapeChar_of_code h,
      escapeChars_code_append h, ih]
  | plain c cs h ih => rw [unescapeChars_cons h, escapeChars_cons, escapeChars_cons, ih]

/-- Reading changes nothing exactly if no code is written out. -/
theorem unescapeChars_eq_self_iff : unescapeChars cs = cs ↔ CodeFree cs := by
  induction cs using codeInduction with
  | nil => exact iff_of_true rfl codeFree_nil
  | code c code cs h _ =>
    have hstart : code.toList <+: code.toList ++ cs := List.prefix_append _ _
    refine iff_of_false (fun heq => ?_) fun hfree => hfree c code h hstart.isInfix
    -- What is read has a code, the hash that stands there has none.
    obtain ⟨b, body, hbody, -⟩ := exists_body h
    rw [unescapeChars_code_append h, hbody, List.cons_append] at heq
    obtain ⟨rfl, -⟩ := List.cons.inj heq
    cases h
  | plain c cs h ih =>
    rw [unescapeChars_cons h, codeFree_cons, and_iff_right h, ← ih]
    exact ⟨List.tail_eq_of_cons_eq, congrArg _⟩

/-! ## Texts -/

variable {s t : String}

theorem unescape_escape (s : String) : unescape (escape s) = unescape s := by
  rw [unescape, escape, String.toList_ofList, unescapeChars_escapeChars, unescape]

theorem escape_unescape (s : String) : escape (unescape s) = escape s := by
  rw [escape, unescape, String.toList_ofList, escapeChars_unescapeChars, escape]

theorem unescape_eq_self_iff : unescape s = s ↔ CodeFree s.toList := by
  rw [unescape, ← String.toList_inj, String.toList_ofList, unescapeChars_eq_self_iff]

/-- Two texts are escaped alike exactly if the same is read from them. -/
theorem escape_eq_iff : escape s = escape t ↔ unescape s = unescape t := by
  constructor
  · intro h
    rw [← unescape_escape, h, unescape_escape]
  · intro h
    rw [← escape_unescape, h, escape_unescape]

/-- Whatever is read, no code is written out in it. -/
theorem codeFree_unescape (s : String) : CodeFree (unescape s).toList := by
  rw [← unescape_eq_self_iff, ← unescape_escape, escape_unescape, unescape_escape]

/-- A text can be read back from its escaped form exactly if no code is written out in it, and no
text with a code is ever read. Two texts are escaped alike exactly if they differ only in which
characters are written out as their codes, so no two texts without a code are. -/
theorem escape_keepsApart :
    (∀ s, unescape (escape s) = s ↔ CodeFree s.toList) ∧ (∀ s, CodeFree (unescape s).toList) ∧
      (∀ s t, escape s = escape t ↔ unescape s = unescape t) ∧
      Set.InjOn escape {s | CodeFree s.toList} := by
  refine ⟨fun s => ?_, codeFree_unescape, fun s t => escape_eq_iff, fun s hs t ht h => ?_⟩
  · rw [unescape_escape, unescape_eq_self_iff]
  · rw [← unescape_eq_self_iff.2 hs, ← unescape_eq_self_iff.2 ht]
    exact escape_eq_iff.1 h

/-- A code that is written out is escaped like the character it stands for, and is not read back.
Nor would it be from any other escaped form. -/
theorem escape_writtenCode :
    escape "#lt;" = escape "<" ∧ unescape (escape "#lt;") ≠ "#lt;" ∧ ∀ s, unescape s ≠ "#lt;" := by
  have hnever : ∀ s, unescape s ≠ "#lt;" := fun s h => by
    have hfree : CodeFree "#lt;".toList := h ▸ codeFree_unescape s
    exact hfree '<' "#lt;" rfl List.infix_rfl
  exact ⟨by decide +kernel, hnever _, hnever⟩

/-- Hashes and semicolons beside a code, and a code that is cut by a character with a code. -/
example : (escape "#<;#l<t;", unescape "##lt;;#l#lt;t;") = ("##lt;;#l#lt;t;", "#<;#l<t;") := by
  decide +kernel

end CallChart.Text
