import CallChart.Document
import CallChart.Proofs.Tables
import CallChart.Proofs.Written

/-!
# Reading back documents

What was written of a document is read back as that document (`Document.parse_text`). Reading is
followed from the inside out : the value of each field (`SymbolField.read_value`), the fields of a
record (`Outline.wantRecord_written`), the members of a table (`Outline.wantMembers_written`). A
table and a graph come back with their keys in order, because entries of distinct keys that are
entered one after another stay where they are (`SymbolTable.symbols_foldl_insert`,
`Keyed.entries_foldl_insert`).
-/

namespace CallChart

/-! ## Values -/

namespace Outline

theorem wantText_outline (s : String) : (Json.text s).outline.wantText = .ok s := by
  rw [Json.outline, wantText, Quoted.spelling_ofText]

theorem wantText?_outline (s : Option String) : (Json.ofText? s).outline.wantText? = .ok s := by
  cases s with
  | none => rfl
  | some s =>
    rw [Json.ofText?, Json.outline, wantText?, wantText, Quoted.spelling_ofText]
    · rfl
    · exact Outline.noConfusion

theorem wantBool_outline (b : Bool) : (Json.bool b).outline.wantBool = .ok b :=
  rfl

theorem wantNat32_outline (n : UInt32) : (Json.ofNat n.toNat).outline.wantNat32 = .ok n.toNat := by
  have hn : n.toNat < wordBound := n.toNat_lt
  simp only [Json.ofNat, Json.outline, wantNat32, Numeral.natural?_ofInt, if_pos hn]

theorem mapM_wantText_outline (ss : List String) :
    (ss.map fun s => (Json.text s).outline).mapM wantText = .ok ss := by
  induction ss with
  | nil => rfl
  | cons s ss ih => simp [ih, wantText_outline, bind, Except.bind, pure, Except.pure]

theorem wantItems_outline (ss : List String) :
    (Json.array (ss.map .text)).outline.wantItems wantText = .ok ss := by
  rw [Json.outline, Json.outlineItems_eq, List.map_map, wantItems]
  simp only [Function.comp_def, mapM_wantText_outline]
  rfl

/-! ## Records -/

section Records

variable {φ ρ : Type} [DecidableEq φ] {field? : String → Option φ} {key : φ → String}
variable {read : φ → Outline → ρ → Except Fault ρ} {value : φ → Json} {put : φ → ρ → ρ}

/-- Members that were written one a field are read field by field. -/
theorem readFields_written (hread : ∀ f r, read f (value f).outline r = .ok (put f r))
    {fields : List φ} (hkey : ∀ f ∈ fields, field? (key f) = some f) {seen : List φ}
    (hseen : ∀ f ∈ fields, f ∉ seen) (hnodup : fields.Nodup) (record : ρ) :
    readFields field? read seen record
        (fields.map fun f => (Quoted.ofText (key f), (value f).outline)) =
      .ok (fields.foldl (fun r f => put f r) record) := by
  induction fields generalizing seen record with
  | nil => rw [List.map_nil, readFields, List.foldl_nil]
  | cons f fields ih =>
    obtain ⟨hf, hkey⟩ := List.forall_mem_cons.1 hkey
    obtain ⟨hnew, hseen⟩ := List.forall_mem_cons.1 hseen
    obtain ⟨hfirst, hnodup⟩ := List.nodup_cons.1 hnodup
    have hmore : ∀ g ∈ fields, g ∉ f :: seen := fun g hg hmem =>
      (List.mem_cons.1 hmem).elim (fun h => hfirst (h ▸ hg)) (hseen g hg)
    rw [List.map_cons, readFields, List.foldl_cons]
    simp only [Quoted.spelling_ofText, hread, hf, bind, Except.bind, if_neg hnew,
      ih hkey hmore hnodup]

/-- A record is read back if the value of each field is. -/
theorem wantRecord_written (hread : ∀ f r, read f (value f).outline r = .ok (put f r))
    {fields : List φ} (hkey : ∀ f ∈ fields, field? (key f) = some f) (hnodup : fields.Nodup)
    (record : ρ) :
    wantRecord fields field? read record
        (Json.object (fields.map fun f => (key f, value f))).outline =
      .ok (fields.foldl (fun r f => put f r) record) := by
  rw [Json.outline, Json.outlineMembers_eq, List.map_map, wantRecord]
  simp only [Function.comp_def]
  rw [readFields_written hread hkey (fun _ _ => List.not_mem_nil) hnodup]
  rfl

/-- Members whose names stand for no field are passed over. -/
theorem readFields_unknown (read : φ → Outline → ρ → Except Fault ρ) (seen : List φ) (record : ρ) :
    ∀ {ms : List (String × Json)}, (∀ m ∈ ms, field? m.1 = none) →
      readFields field? read seen record (ms.map fun m => (Quoted.ofText m.1, m.2.outline)) =
        .ok record
  | [], _ => by rw [List.map_nil, readFields]
  | m :: ms, h => by
    obtain ⟨hm, hms⟩ := List.forall_mem_cons.1 h
    rw [List.map_cons, readFields]
    simp only [Quoted.spelling_ofText, bind, Except.bind, hm, skip, Json.fault?_outline,
      readFields_unknown read seen record hms]

end Records

/-! ## Members -/

section Members

variable {α β : Type} {enter : α → String → Outline → Except Fault α} {step : α → β → α}

theorem foldlM_written (key : β → String) (value : β → Json)
    (henter : ∀ a b, enter a (key b) (value b).outline = .ok (step a b)) (a : α) (bs : List β) :
    (bs.map fun b => (Quoted.ofText (key b), (value b).outline)).foldlM
      (fun a m => do enter a (← m.1.spelling) m.2) a = .ok (bs.foldl step a) := by
  induction bs generalizing a with
  | nil => rfl
  | cons b bs ih =>
    rw [List.map_cons, List.foldlM_cons]
    simp only [Quoted.spelling_ofText, henter, bind, Except.bind] at ih ⊢
    rw [ih, List.foldl_cons]

/-- Members that were written one an entry are entered one after another. -/
theorem wantMembers_written (key : β → String) (value : β → Json)
    (henter : ∀ a b, enter a (key b) (value b).outline = .ok (step a b)) (a : α) (bs : List β) :
    wantMembers enter a (Json.object (bs.map fun b => (key b, value b))).outline =
      .ok (bs.foldl step a) := by
  rw [Json.outline, Json.outlineMembers_eq, List.map_map, wantMembers]
  simp only [Function.comp_def, foldlM_written key value henter]
  rfl

end Members

end Outline

/-! ## Symbols -/

namespace SymbolField

/-- A field is read under the name under which it is written. -/
theorem ofKey?_key (f : SymbolField) : ofKey? f.key = some f := by
  cases f <;> decide

/-- The symbol `r` with the field as `s` has it. -/
def copy (s : Symbol) (f : SymbolField) (r : Symbol) : Symbol :=
  match f with
  | .name => { r with name := s.name }
  | .displayName => { r with displayName := s.displayName }
  | .owner => { r with owner := s.owner }
  | .path => { r with path := s.path }
  | .firstLine => { r with firstLine := s.firstLine }
  | .lastLine => { r with lastLine := s.lastLine }
  | .scope => { r with scope := s.scope }
  | .isEntry => { r with isEntry := s.isEntry }

/-- The value of a field is read back. -/
theorem read_value (s : Symbol) (f : SymbolField) (r : Symbol) :
    f.read (f.value s).outline r = .ok (f.copy s r) := by
  cases f
  all_goals
    simp only [read, value, copy, Outline.wantText_outline, Outline.wantText?_outline,
      Outline.wantNat32_outline, Outline.wantBool_outline, bind, Except.bind, pure, Except.pure,
      UInt32.ofNat_toNat]

/-- A symbol that has all fields as `s` has them is `s`. -/
theorem foldl_copy (s r : Symbol) : all.foldl (fun r f => f.copy s r) r = s := by
  simp only [all, List.foldl_cons, List.foldl_nil, copy]

end SymbolField

/-- A symbol is read back. -/
theorem Symbol.want_outline (s : Symbol) : want s.json.outline = .ok s := by
  have hkey : ∀ f ∈ SymbolField.all, SymbolField.ofKey? f.key = some f := fun f _ => f.ofKey?_key
  have hread := Outline.wantRecord_written (SymbolField.read_value s) hkey (by decide) {}
  rwa [SymbolField.foldl_copy] at hread

/-! ## Tables and graphs -/

/-- A symbol of a new name goes to the end. -/
theorem putSymbol_of_notMem {s : Symbol} : ∀ {ts : List Symbol}, s.name ∉ symbolNames ts →
    putSymbol s ts = ts ++ [s]
  | [], _ => rfl
  | t :: ts, h => by
    have hne : t.name ≠ s.name := fun heq => h (by rw [← heq]; exact List.mem_cons_self)
    have hts : s.name ∉ symbolNames ts := fun hmem => h (List.mem_cons_of_mem _ hmem)
    rw [putSymbol, if_neg hne, putSymbol_of_notMem hts, List.cons_append]

namespace SymbolTable

/-- Symbols of new and distinct names go to the end in their order. -/
theorem symbols_foldl_insert {ss : List Symbol} {t : SymbolTable}
    (h : (symbolNames (t.symbols ++ ss)).Nodup) :
    (ss.foldl insert t).symbols = t.symbols ++ ss := by
  induction ss generalizing t with
  | nil => rw [List.foldl_nil, List.append_nil]
  | cons s ss ih =>
    have hnew : s.name ∉ symbolNames t.symbols := by
      rw [symbolNames, List.map_append, List.nodup_append] at h
      exact fun hmem => h.2.2 _ hmem _ List.mem_cons_self rfl
    have hput : (t.insert s).symbols = t.symbols ++ [s] := putSymbol_of_notMem hnew
    rw [List.foldl_cons, ih (by rwa [hput, List.append_assoc, List.singleton_append]), hput,
      List.append_assoc, List.singleton_append]

/-- A table is read back. -/
theorem want_outline (t : SymbolTable) : want t.json.outline = .ok t := by
  have henter : ∀ (t : SymbolTable) (s : Symbol), (do
      return t.insert { (← Symbol.want s.json.outline) with name := s.name }) =
        (Except.ok (t.insert s) : Except Fault SymbolTable) := by
    intro t s
    rw [Symbol.want_outline]
    rfl
  rw [want, json, Outline.wantMembers_written Symbol.name Symbol.json henter]
  exact congrArg _ (ext (symbols_foldl_insert (t := {}) t.nodup_names))

end SymbolTable

namespace CallGraph

/-- Callers that are put in one after another are put into the table of calls. -/
theorem foldl_insert : ∀ (es : Entries (List String)) (g : CallGraph),
    es.foldl (fun g e => ⟨g.calls.insert e.1 e.2⟩) g =
      (⟨es.foldl (fun t e => t.insert e.1 e.2) g.calls⟩ : CallGraph)
  | [], _ => rfl
  | e :: es, g => foldl_insert es ⟨g.calls.insert e.1 e.2⟩

/-- A graph is read back. -/
theorem want_outline (g : CallGraph) : want g.json.outline = .ok g := by
  have henter : ∀ (g : CallGraph) (e : String × List String), (do
      return ⟨g.calls.insert e.1 (← (Json.array (e.2.map .text)).outline.wantItems
        Outline.wantText)⟩) = (Except.ok ⟨g.calls.insert e.1 e.2⟩ : Except Fault CallGraph) := by
    intro g e
    rw [Outline.wantItems_outline]
    rfl
  rw [want, json, Outline.wantMembers_written Prod.fst
    (fun e : String × List String => .array (e.2.map .text)) henter, foldl_insert]
  have hentries := Keyed.entries_foldl_insert g.calls.entries Keyed.empty g.calls.nodup_keys
  exact congrArg (fun t => Except.ok (CallGraph.mk t)) (Keyed.ext hentries)

end CallGraph

/-! ## Documents -/

namespace DocumentField

/-- A field is read under the name under which it is written. -/
theorem ofKey?_key (f : DocumentField) : ofKey? f.key = some f := by
  cases f <;> decide

/-- The document `r` with the field as `d` has it. -/
def copy (d : Document) (f : DocumentField) (r : Document) : Document :=
  match f with
  | .symbols => { r with symbols := d.symbols }
  | .calls => { r with calls := d.calls }

/-- The value of a field is read back. -/
theorem read_value (d : Document) (f : DocumentField) (r : Document) :
    f.read (f.value d).outline r = .ok (f.copy d r) := by
  cases f with
  | symbols => rw [read, value, SymbolTable.want_outline]; rfl
  | calls => rw [read, value, CallGraph.want_outline]; rfl

end DocumentField

namespace Document

theorem want_outline (d : Document) : want d.json.outline = .ok d := by
  have hkey : ∀ f ∈ DocumentField.all, DocumentField.ofKey? f.key = some f :=
    fun f _ => f.ofKey?_key
  exact Outline.wantRecord_written (DocumentField.read_value d) hkey (by decide) {}

/-- An object without any of the fields is read as a document with nothing in it. -/
theorem want_unknown {ms : List (String × Json)} (h : ∀ m ∈ ms, DocumentField.ofKey? m.1 = none) :
    want (Json.object ms).outline = .ok {} := by
  rw [Json.outline, Json.outlineMembers_eq, want, Outline.wantRecord,
    Outline.readFields_unknown DocumentField.read [] {} h]
  rfl

/-- A document is read back from its text. -/
theorem parse_text (d : Document) : parse d.text = .ok d := by
  rw [parse, text, Json.compactText, String.toList_ofList, Json.parse_compact, want_outline]

end Document

end CallChart
