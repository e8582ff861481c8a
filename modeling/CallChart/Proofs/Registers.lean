import CallChart.Proofs.Documents
import CallChart.Register

/-!
# Registers of symbol tables

A table says each name once, a register says it as a key and in the record. Whatever is done to a
table can be done to its register with the same outcome : a symbol is entered
(`SymbolTable.register_insert`), a table or a document is read (`Register.want_eq`,
`Filing.parse_eq`), a document is written (`Document.text_filing`). So every register that is built
up is the register of a table (`Register.Built.exists_table`), its keys are the names of its
records, and a filing is read back from its text (`Filing.readsBack_of_built`).
-/

namespace CallChart

/-! ## Maps of readers -/

namespace Outline

section Maps

variable {α β : Type} {g : α → β}

/-- Steps that agree are agreed on by a run. -/
theorem map_foldlM {χ : Type} {step : α → χ → Except Fault α} {step' : β → χ → Except Fault β}
    (hstep : ∀ a x, g <$> step a x = step' (g a) x) (xs : List χ) (a : α) :
    g <$> xs.foldlM step a = xs.foldlM step' (g a) := by
  induction xs generalizing a with
  | nil => rfl
  | cons x xs ih =>
    rw [List.foldlM_cons, List.foldlM_cons, map_bind, ← hstep, bind_map_left]
    exact congrArg _ (funext ih)

/-- Readers that enter members alike read objects alike. -/
theorem map_wantMembers {enter : α → String → Outline → Except Fault α}
    {enter' : β → String → Outline → Except Fault β}
    (henter : ∀ a key o, g <$> enter a key o = enter' (g a) key o) (a : α) (o : Outline) :
    g <$> wantMembers enter a o = wantMembers enter' (g a) o := by
  have hstep : ∀ (a : α) (m : Quoted × Outline),
      g <$> (do enter a (← m.1.spelling) m.2) = (do enter' (g a) (← m.1.spelling) m.2) := by
    intro a m
    simp only [map_bind, henter]
  cases o with
  | object members stop =>
    rw [wantMembers, wantMembers, ← map_foldlM hstep]
    simp only [map_bind, bind_map_left, map_pure]
  | _ => rfl

section Records

variable {φ : Type} {read : φ → Outline → α → Except Fault α}
variable {read' : φ → Outline → β → Except Fault β}
variable (hread : ∀ f o r, g <$> read f o r = read' f o (g r))

include hread

theorem map_readInOrder : ∀ (record : α) (fields : List φ) (items : List Outline),
    g <$> readInOrder read record fields items = readInOrder read' (g record) fields items
  | _, _, [] => by rw [readInOrder, readInOrder]; rfl
  | _, [], _ :: _ => by rw [readInOrder, readInOrder]; rfl
  | record, f :: fields, item :: items => by
    rw [readInOrder, readInOrder, map_bind, ← hread, bind_map_left]
    exact congrArg _ (funext fun r => map_readInOrder r fields items)

variable [DecidableEq φ] {field? : String → Option φ}

theorem map_readFields (seen : List φ) (record : α) (members : List (Quoted × Outline)) :
    g <$> readFields field? read seen record members =
      readFields field? read' seen (g record) members := by
  induction members generalizing seen record with
  | nil => rfl
  | cons m members ih =>
    obtain ⟨name, value⟩ := m
    rw [readFields, readFields, map_bind]
    refine congrArg _ (funext fun key => ?_)
    cases field? key with
    | none => simp only [map_bind, ih]
    | some f =>
      by_cases hseen : f ∈ seen
      · simp only [if_pos hseen]
        rfl
      · simp only [if_neg hseen, ← hread, map_bind, bind_map_left, ih]

/-- Readers that read fields alike read records alike. -/
theorem map_wantRecord (fields : List φ) (record : α) (o : Outline) :
    g <$> wantRecord fields field? read record o =
      wantRecord fields field? read' (g record) o := by
  cases o with
  | object members stop =>
    rw [wantRecord, wantRecord, ← map_readFields hread]
    simp only [map_bind, bind_map_left, map_pure]
  | array items stop =>
    rw [wantRecord, wantRecord, ← map_readInOrder hread]
    simp only [map_bind, bind_map_left, map_pure]
  | _ => rfl

end Records

theorem exists_of_map_eq_ok {x : Except Fault α} {b : β} (h : g <$> x = .ok b) :
    ∃ a, x = .ok a ∧ g a = b := by
  cases x with
  | error fault => exact nomatch h
  | ok a => exact ⟨a, rfl, Except.ok.inj h⟩

/-- Readers that read outlines alike read texts alike. -/
theorem map_parse {want : Outline → Except Fault α} {want' : Outline → Except Fault β}
    (hwant : ∀ o, g <$> want o = want' o) (cs : List Char) :
    g <$> Outline.parse want cs = Outline.parse want' cs := by
  simp only [Outline.parse, ← hwant, map_bind, bind_map_left]
  refine congrArg _ (funext fun a => congrArg _ (funext fun rest => ?_))
  split <;> rfl

end Maps

end Outline

/-! ## The register of a table -/

namespace SymbolTable

/-- The table with each symbol under its name. -/
def register (t : SymbolTable) : Register :=
  ⟨t.symbols.map fun s => (s.name, s), by
    rw [Entries.keys, List.map_map]
    exact t.nodup_names⟩

theorem map_putSymbol (s : Symbol) : ∀ ts : List Symbol,
    (putSymbol s ts).map (fun s => (s.name, s)) =
      Entries.alter s.name (fun _ => s) (ts.map fun s => (s.name, s))
  | [] => rfl
  | t :: ts => by
    rw [putSymbol, List.map_cons, Entries.alter]
    split_ifs
    · rfl
    · rw [List.map_cons, map_putSymbol s ts]

theorem register_insert (t : SymbolTable) (s : Symbol) :
    (t.insert s).register = t.register.enter s :=
  Keyed.ext (map_putSymbol s t.symbols)

theorem register_ofList (symbols : List Symbol) :
    (ofList symbols).register = Register.ofList symbols :=
  (List.foldl_hom register fun t s => (register_insert t s).symm).symm

/-- In the register of a table every key is the name of its record. -/
theorem name_eq_key (t : SymbolTable) : ∀ e ∈ t.register.entries, e.2.name = e.1 := by
  intro e he
  obtain ⟨s, -, rfl⟩ := List.mem_map.1 he
  rfl

theorem json_register (t : SymbolTable) : t.register.json = t.json := by
  rw [Register.json, json, register, List.map_map]
  rfl

end SymbolTable

namespace Register

theorem renamed_alter (key : String) (s : Symbol) : ∀ es : Entries Symbol,
    renamed (es.alter key fun _ => s) = (renamed es).alter key fun _ => { s with name := key }
  | [] => rfl
  | e :: es => by
    rw [Entries.alter, renamed_cons, Entries.alter]
    split_ifs
    · rfl
    · rw [renamed_cons, renamed_alter key s es]

theorem rename_insert (r : Register) (key : String) (s : Symbol) :
    rename (r.insert key s) = (rename r).insert key { s with name := key } :=
  Keyed.ext (renamed_alter key s r.entries)

/-- Enter the record that an outline holds, named by its key. -/
def enterNamed (r : Register) (key : String) (value : Outline) : Except Fault Register := do
  return r.insert key { (← Symbol.want value) with name := key }

/-- A register is read as the table is : it makes no difference whether records take the names of
their keys one by one or all in the end. -/
theorem want_eq (o : Outline) : want o = SymbolTable.register <$> SymbolTable.want o := by
  have hrename : ∀ (r : Register) (key : String) (value : Outline),
      rename <$> (do return r.insert key (← Symbol.want value) : Except Fault Register) =
        enterNamed (rename r) key value := by
    intro r key value
    simp only [enterNamed, map_bind, map_pure, rename_insert]
  have hregister : ∀ (t : SymbolTable) (key : String) (value : Outline),
      SymbolTable.register <$> (do return t.insert { (← Symbol.want value) with name := key } :
        Except Fault SymbolTable) = enterNamed t.register key value := by
    intro t key value
    simp only [enterNamed, map_bind, map_pure, SymbolTable.register_insert, enter]
  calc want o = rename <$> o.wantMembers (fun r key value => do
        return r.insert key (← Symbol.want value)) Keyed.empty := rfl
    _ = o.wantMembers enterNamed Keyed.empty := Outline.map_wantMembers hrename _ o
    _ = SymbolTable.register <$> SymbolTable.want o :=
      (Outline.map_wantMembers hregister {} o).symm

theorem parse_eq (text : String) : parse text = SymbolTable.register <$> SymbolTable.parse text :=
  (Outline.map_parse (fun o => (want_eq o).symm) text.toList).symm

end Register

/-! ## The filing of a document -/

namespace Document

/-- The document with each symbol under its name. -/
def filing (d : Document) : Filing :=
  ⟨d.symbols.register, d.calls⟩

theorem text_filing (d : Document) : d.filing.text = d.text := by
  have hjson : d.filing.json = d.json := by
    simp only [Filing.json, json, DocumentField.all, List.map_cons, List.map_nil, Filing.value,
      DocumentField.value, filing, SymbolTable.json_register]
  rw [Filing.text, text, hjson]

end Document

namespace Filing

theorem read_eq (f : DocumentField) (o : Outline) (d : Document) :
    Document.filing <$> f.read o d = read f o d.filing := by
  cases f with
  | symbols => simp only [DocumentField.read, read, Register.want_eq, map_bind, bind_map_left]; rfl
  | calls => simp only [DocumentField.read, read, map_bind]; rfl

/-- A filing is read as the document is. -/
theorem parse_eq (text : String) : parse text = Document.filing <$> Document.parse text :=
  (Outline.map_parse (Outline.map_wantRecord read_eq _ {}) text.toList).symm

end Filing

/-! ## Registers that are built up -/

/-- A register that is built up is the register of a table. -/
theorem Register.Built.exists_table {r : Register} (hr : r.Built) :
    ∃ t : SymbolTable, t.register = r := by
  induction hr with
  | ofList symbols => exact ⟨.ofList symbols, SymbolTable.register_ofList symbols⟩
  | enter s _ ih =>
    obtain ⟨t, rfl⟩ := ih
    exact ⟨t.insert s, t.register_insert s⟩
  | read h =>
    rw [Register.parse_eq] at h
    obtain ⟨t, -, rfl⟩ := Outline.exists_of_map_eq_ok h
    exact ⟨t, rfl⟩
  | filed h =>
    rw [Filing.parse_eq] at h
    obtain ⟨d, -, rfl⟩ := Outline.exists_of_map_eq_ok h
    exact ⟨d.symbols, rfl⟩

namespace Filing

/-- What is written of a filing is read back as that filing, and every key is a name. -/
structure ReadsBack (d : Filing) : Prop where
  parse_text : parse d.text = .ok d
  name_eq_key : ∀ e ∈ d.symbols.entries, e.2.name = e.1
  document : ∃ c : Document, c.filing = d ∧ c.text = d.text ∧ Document.parse c.text = .ok c

theorem readsBack_filing (c : Document) : ReadsBack c.filing where
  parse_text := by rw [parse_eq, Document.text_filing, Document.parse_text]; rfl
  name_eq_key := c.symbols.name_eq_key
  document := ⟨c, rfl, c.text_filing.symm, c.parse_text⟩

/-- A filing whose register is built up is read back from its text, so nothing changes when a
document that could be read is written and read again. -/
theorem readsBack_of_built :
    (∀ d : Filing, d.symbols.Built → d.ReadsBack) ∧
      ∀ (text : String) (c : Document), Document.parse text = .ok c →
        Document.parse c.text = .ok c ∧ parse text = .ok c.filing ∧ c.filing.ReadsBack := by
  refine ⟨fun d hd => ?_, fun text c htext => ⟨c.parse_text, ?_, readsBack_filing c⟩⟩
  · obtain ⟨t, ht⟩ := hd.exists_table
    have hfiling : d = Document.filing ⟨t, d.calls⟩ := by
      rw [Document.filing, ht]
    rw [hfiling]
    exact readsBack_filing _
  · rw [parse_eq, htext]
    rfl

/-- A record that gives itself another name than its key has, with a symbol entered behind it. -/
theorem readsBack_of_built_misnamed :
    let text :=
      "[\x7b\"f\":\x7b\"qualified_name\":\"g\",\"end\":4294967295\x7d\x7d,\x7b\"f\":[\"h\",\"h\"]\x7d]"
    let c : Document :=
      ⟨SymbolTable.ofList [{ name := "f", lastLine := 4294967295 }],
        CallGraph.ofList [("f", ["h", "h"])]⟩
    let d : Filing := ⟨c.filing.symbols.enter { name := "\"\n" }, c.calls⟩
    (Document.parse text = .ok c ∧ d.symbols.Built) ∧
      d.ReadsBack ∧ Document.parse c.text = .ok c := by
  intro text c d
  have htext : Document.parse text = .ok c := by decide +kernel
  have hfiled : Filing.parse text = .ok c.filing := by rw [parse_eq, htext]; rfl
  have hbuilt : d.symbols.Built := .enter _ (.filed hfiled)
  exact ⟨⟨htext, hbuilt⟩, readsBack_of_built.1 d hbuilt, (readsBack_of_built.2 text c htext).1⟩

end Filing

end CallChart
