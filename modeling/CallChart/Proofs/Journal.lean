import CallChart.Proofs.Edges
import CallChart.Proofs.Tables
import Mathlib.Data.List.Induction

/-!
# Metadata as their history

Metadata that were empty once are what the steps since have made of them : steps that add fields,
that keep some of the nodes, and that forget everything. Each record can be read off the steps
alone. It is there if some step added it and no later one erased it, and each of its fields has the
value that it was given last (`MetadataStore.Since`). A step changes nothing but the records that it
adds to or erases. The nodes stand in the order in which they were entered, and a node that was
erased and comes back is entered anew (`MetadataStore.EntersAt`). Main statement :
`MetadataStore.ofSteps_remembers`.
-/

namespace CallChart

/-! ## Members of objects -/

/-- The value that an object has under a name, the last one if there are more. -/
def Json.lastMember? (name : String) : Json → Option Json
  | .object ms => ms.reverse.lookup name
  | _ => none

theorem Record.get?_merge (r : Record) (fields : Json) (name : String) :
    (r.merge fields).get? name = (fields.lastMember? name).or (r.get? name) := by
  cases fields with
  | object ms =>
    rw [Record.merge, Json.lastMember?]
    induction ms generalizing r with
    | nil => rfl
    | cons m ms ih =>
      rw [List.foldl_cons, ih, Keyed.get?_insert, List.reverse_cons, List.lookup_append,
        Option.or_assoc, Entries.lookup_cons, List.lookup_nil]
      split <;> rfl
  | _ => rfl

namespace MetadataStore

/-! ## Keys -/

inductive Table where
  | nodes | edges | blocks
  deriving DecidableEq

/-- What a record is kept of. -/
inductive Key where
  | node (id : String)
  | edge (source target : String)
  | block (id : String)
  deriving DecidableEq

/-- The letter `N` and decimal digits. -/
def IsNodeId (id : String) : Prop :=
  ∃ digits : List Char, (∀ c ∈ digits, c.isDigit = true) ∧ id.toList = 'N' :: digits

theorem isNodeId_nodeId (k : Nat) : IsNodeId (nodeId k) :=
  ⟨Nat.toDigits 10 k, fun _ hc => Nat.isDigit_of_mem_toDigits (by decide) (by decide) hc,
    toList_nodeId k⟩

theorem IsNodeId.hyphen_notMem {id : String} (h : IsNodeId id) : '-' ∉ id.toList := by
  obtain ⟨digits, hdigits, hid⟩ := h
  rw [hid, List.mem_cons, or_iff_right (by decide)]
  exact fun hmem => absurd (hdigits _ hmem) (by decide)

namespace Key

/-- The table in which the record is kept. -/
def table : Key → Table
  | node _ => .nodes
  | edge _ _ => .edges
  | block _ => .blocks

/-- The text under which the record is kept. -/
def text : Key → String
  | node id => id
  | edge source target => edgeKey source target
  | block id => id

/-- The ends of an edge are ids of nodes. -/
def Sound : Key → Prop
  | edge source target => IsNodeId source ∧ IsNodeId target
  | _ => True

/-- A key is told by its table and its text. -/
theorem eq_of_text_eq {key key' : Key} (h : key.Sound) (htable : key.table = key'.table)
    (htext : key.text = key'.text) : key = key' := by
  cases key with
  | node id => cases key' <;> simp_all [table, text]
  | block id => cases key' <;> simp_all [table, text]
  | edge source target =>
    cases key' with
    | node id => cases htable
    | block id => cases htable
    | edge source' target' =>
      obtain ⟨rfl, rfl⟩ := (edgeKey_inj_of_notMem h.1.hyphen_notMem h.2.hyphen_notMem).1 htext
      rfl

end Key

variable {m : MetadataStore} {key key' : Key}

def table (m : MetadataStore) : Table → Keyed Record
  | .nodes => m.nodes
  | .edges => m.edges
  | .blocks => m.blocks

def record? (m : MetadataStore) : Key → Option Record
  | .node id => m.node? id
  | .edge source target => m.edge? source target
  | .block id => m.block? id

def add (m : MetadataStore) : Key → Json → MetadataStore
  | .node id, fields => m.addNode id fields
  | .edge source target, fields => m.addEdge source target fields
  | .block id, fields => m.addBlock id fields

theorem record?_eq (m : MetadataStore) (key : Key) :
    m.record? key = (m.table key.table).get? key.text := by
  cases key <;> rfl

theorem table_add (m : MetadataStore) (key : Key) (fields : Json) (t : Table) :
    (m.add key fields).table t =
      if t = key.table then mergeInto (m.table t) key.text fields else m.table t := by
  cases key <;> cases t <;> rfl

theorem record?_add_self (m : MetadataStore) (key : Key) (fields : Json) :
    (m.add key fields).record? key =
      some (((m.record? key).getD Keyed.empty).merge fields) := by
  rw [record?_eq, record?_eq, table_add, if_pos rfl, mergeInto, Keyed.get?_alter, if_pos rfl]

/-- Fields that are added to a record change no other. -/
theorem record?_add_of_ne (hkey : key.Sound) (hne : key' ≠ key) (m : MetadataStore)
    (fields : Json) : (m.add key' fields).record? key = m.record? key := by
  rw [record?_eq, record?_eq, table_add]
  split
  next htable =>
    rw [mergeInto, Keyed.get?_alter,
      if_neg fun htext => hne (Key.eq_of_text_eq hkey htable htext).symm]
  next => rfl

/-! ## Steps -/

/-- One change of the metadata. -/
inductive Step where
  | add (key : Key) (fields : Json)
  /-- Whatever decides on the nodes is asked once for each id, so `p` stands for any choice. -/
  | keepNodes (p : String → Bool)
  | clear

namespace Step

/-- The step adds to the record under the key, if only that it is there. -/
def Adds (key : Key) : Step → Prop
  | add key' _ => key' = key
  | _ => False

/-- The step erases the record under the key. -/
def Erases (key : Key) : Step → Prop
  | add _ _ => False
  | keepNodes p => ∃ id, key = .node id ∧ p id = false
  | clear => True

/-- The step changes records of the table. -/
def Reaches (t : Table) : Step → Prop
  | add key _ => key.table = t
  | keepNodes _ => t = .nodes
  | clear => True

/-- The value that the step gives to a field of the record under the key. -/
def given? (key : Key) (name : String) : Step → Option Json
  | add key' fields => if key' = key then fields.lastMember? name else none
  | _ => none

variable {s : Step} {key : Key}

theorem Adds.exists_fields (h : s.Adds key) : ∃ fields, s = .add key fields := by
  cases s with
  | add key' fields => exact ⟨fields, congrArg (add · fields) h⟩
  | keepNodes p => exact h.elim
  | clear => exact h.elim

theorem not_adds_of_erases (h : s.Erases key) : ¬s.Adds key := by
  intro hadds
  obtain ⟨fields, rfl⟩ := hadds.exists_fields
  exact h

theorem given?_of_not_adds (h : ¬s.Adds key) (name : String) : s.given? key name = none := by
  cases s with
  | add key' fields => exact if_neg h
  | keepNodes p => rfl
  | clear => rfl

end Step

def perform (m : MetadataStore) : Step → MetadataStore
  | .add key fields => m.add key fields
  | .keepNodes p => m.keepNodes p
  | .clear => m.clear

/-- What steps make of empty metadata. -/
def ofSteps (steps : List Step) : MetadataStore :=
  steps.foldl perform {}

variable {steps : List Step} {s : Step}

theorem record?_ofSteps_nil (key : Key) : (ofSteps []).record? key = none := by
  cases key <;> rfl

theorem ofSteps_concat (steps : List Step) (s : Step) :
    ofSteps (steps ++ [s]) = (ofSteps steps).perform s := by
  rw [ofSteps, List.foldl_append]
  rfl

theorem record?_perform_of_erases (h : s.Erases key) (m : MetadataStore) :
    (m.perform s).record? key = none := by
  cases s with
  | add key' fields => exact h.elim
  | keepNodes p =>
    obtain ⟨id, rfl, hp⟩ := h
    exact (Keyed.get?_keep m.nodes p id).trans (if_neg (by simp [hp]))
  | clear => cases key <;> rfl

/-- A record stays if a step neither adds to it nor erases it. -/
theorem record?_perform (hkey : key.Sound) (herases : ¬s.Erases key) (hadds : ¬s.Adds key)
    (m : MetadataStore) : (m.perform s).record? key = m.record? key := by
  cases s with
  | add key' fields => exact record?_add_of_ne hkey hadds m fields
  | keepNodes p =>
    cases key with
    | node id =>
      have hp : p id = true := by simpa [Step.Erases] using herases
      exact (Keyed.get?_keep m.nodes p id).trans (if_pos hp)
    | edge source target => rfl
    | block id => rfl
  | clear => exact absurd trivial herases

/-- A table stays if a step does not reach it. -/
theorem table_perform {t : Table} (h : ¬s.Reaches t) (m : MetadataStore) :
    (m.perform s).table t = m.table t := by
  cases s with
  | add key fields => exact (table_add m key fields t).trans (if_neg (Ne.symm h))
  | keepNodes p =>
    cases t with
    | nodes => exact absurd rfl h
    | edges => rfl
    | blocks => rfl
  | clear => exact absurd trivial h

/-- The value of a field of a record, if there is one. -/
def field? (m : MetadataStore) (key : Key) (name : String) : Option Json :=
  (m.record? key).bind (·.get? name)

/-- A field has the value that a step gives it, and else the one it had. -/
theorem field?_perform (hkey : key.Sound) (herases : ¬s.Erases key) (m : MetadataStore)
    (name : String) :
    (m.perform s).field? key name = (s.given? key name).or (m.field? key name) := by
  by_cases hadds : s.Adds key
  · obtain ⟨fields, rfl⟩ := hadds.exists_fields
    rw [field?, perform, record?_add_self, Step.given?, if_pos rfl, Option.bind_some,
      Record.get?_merge, field?]
    cases m.record? key <;> rfl
  · rw [field?, record?_perform hkey herases hadds, Step.given?_of_not_adds hadds, Option.none_or,
      field?]

/-! ## Since when -/

/-- Some step fulfils `P`, and all steps behind it fulfil `Q`. -/
def Since (P Q : Step → Prop) (steps : List Step) : Prop :=
  ∃ earlier step later, steps = earlier ++ step :: later ∧ P step ∧ ∀ s ∈ later, Q s

variable {P Q : Step → Prop}

theorem not_since_nil : ¬Since P Q [] := by
  rintro ⟨earlier, step, later, heq, -⟩
  exact List.cons_ne_nil step later (List.append_eq_nil_iff.1 heq.symm).2

theorem since_concat : Since P Q (steps ++ [s]) ↔ P s ∨ Since P Q steps ∧ Q s := by
  constructor
  · rintro ⟨earlier, step, later, heq, hP, hQ⟩
    rcases List.eq_nil_or_concat' later with rfl | ⟨later, last, rfl⟩
    · obtain ⟨-, hlast⟩ := List.append_inj' heq rfl
      obtain rfl := List.singleton_inj.1 hlast
      exact .inl hP
    · rw [← List.cons_append, ← List.append_assoc] at heq
      obtain ⟨rfl, hlast⟩ := List.append_inj' heq rfl
      obtain rfl := List.singleton_inj.1 hlast
      exact .inr ⟨⟨earlier, step, later, rfl, hP, fun s hs => hQ s (by simp [hs])⟩,
        hQ s (by simp)⟩
  · rintro (hP | ⟨⟨earlier, step, later, rfl, hP, hQ⟩, hs⟩)
    · exact ⟨steps, s, [], rfl, hP, by simp⟩
    · refine ⟨earlier, step, later ++ [s], by simp, hP, fun s' hs' => ?_⟩
      rcases List.mem_append.1 hs' with hs' | hs'
      · exact hQ s' hs'
      · exact List.mem_singleton.1 hs' ▸ hs

/-- There is a record if it was added and has not been erased since. -/
theorem isSome_record?_ofSteps (hkey : key.Sound) (steps : List Step) :
    ((ofSteps steps).record? key).isSome = true ↔
      Since (Step.Adds key) (fun s => ¬s.Erases key) steps := by
  induction steps using List.reverseRecOn with
  | nil =>
    refine iff_of_false ?_ not_since_nil
    rw [record?_ofSteps_nil]
    exact Bool.false_ne_true
  | append_singleton steps s ih =>
    rw [ofSteps_concat, since_concat, ← ih]
    by_cases herases : s.Erases key
    · rw [record?_perform_of_erases herases]
      simp [herases, Step.not_adds_of_erases herases]
    by_cases hadds : s.Adds key
    · obtain ⟨fields, rfl⟩ := hadds.exists_fields
      rw [perform, record?_add_self]
      simp [hadds]
    · rw [record?_perform hkey herases hadds]
      simp [herases, hadds]

/-- A field has the value that it was given last, if its record has not been erased since. -/
theorem field?_ofSteps (hkey : key.Sound) (steps : List Step) (name : String) (value : Json) :
    (ofSteps steps).field? key name = some value ↔
      Since (fun s => s.given? key name = some value)
        (fun s => ¬s.Erases key ∧ s.given? key name = none) steps := by
  induction steps using List.reverseRecOn with
  | nil =>
    refine iff_of_false ?_ not_since_nil
    rw [field?, record?_ofSteps_nil]
    exact (Option.some_ne_none value).symm
  | append_singleton steps s ih =>
    rw [ofSteps_concat, since_concat, ← ih]
    by_cases herases : s.Erases key
    · rw [field?, record?_perform_of_erases herases,
        Step.given?_of_not_adds (Step.not_adds_of_erases herases)]
      simp [herases]
    · rw [field?_perform hkey herases]
      cases s.given? key name <;> simp [herases]

/-! ## The order of the nodes -/

/-- The id is entered in place `i`, where it has no record, and is not erased behind it. -/
structure EntersAt (steps : List Step) (id : String) (i : Nat) : Prop where
  adds : ∃ fields, steps[i]? = some (.add (.node id) fields)
  absent : (ofSteps (steps.take i)).node? id = none
  stays : ∀ s ∈ steps.drop (i + 1), ¬s.Erases (.node id)

namespace EntersAt

variable {id : String} {i : Nat}

theorem lt_length (h : EntersAt steps id i) : i < steps.length := by
  obtain ⟨fields, hadds⟩ := h.adds
  exact (List.getElem?_eq_some_iff.1 hadds).1

theorem concat (h : EntersAt steps id i) (hs : ¬s.Erases (.node id)) :
    EntersAt (steps ++ [s]) id i where
  adds := by
    rw [List.getElem?_append_left h.lt_length]
    exact h.adds
  absent := by
    rw [List.take_append_of_le_length (Nat.le_of_lt h.lt_length)]
    exact h.absent
  stays s' hs' := by
    rw [List.drop_append_of_le_length h.lt_length, List.mem_append, List.mem_singleton] at hs'
    rcases hs' with hs' | rfl
    · exact h.stays s' hs'
    · exact hs

/-- An id without a record enters with the step that adds one. -/
theorem last (h : (ofSteps steps).node? id = none) (fields : Json) :
    EntersAt (steps ++ [.add (.node id) fields]) id steps.length where
  adds := ⟨fields, List.getElem?_concat_length⟩
  absent := by rwa [List.take_left]
  stays := by simp

/-- Ids enter in one place only. -/
theorem unique {j : Nat} (hi : EntersAt steps id i) (hj : EntersAt steps id j) : i = j := by
  have hle : ∀ {i j : Nat}, EntersAt steps id i → EntersAt steps id j → j ≤ i := by
    intro i j hi hj
    by_contra hlt
    obtain ⟨fields, hadds⟩ := hi.adds
    obtain ⟨hlength, hget⟩ := List.getElem?_eq_some_iff.1 hadds
    have hsplit : steps.take j =
        steps.take i ++ .add (.node id) fields :: (steps.drop (i + 1)).take (j - (i + 1)) := by
      obtain ⟨n, rfl⟩ : ∃ n, j = i + (n + 1) := ⟨j - (i + 1), by omega⟩
      rw [List.take_add, List.drop_eq_getElem_cons hlength, hget, List.take_succ_cons]
      congr 3
      omega
    have hkey : (Key.node id).Sound := trivial
    have hsome : ((ofSteps (steps.take j)).record? (.node id)).isSome = true :=
      (isSome_record?_ofSteps hkey _).2
        ⟨_, _, _, hsplit, rfl, fun s hs => hi.stays s (List.mem_of_mem_take hs)⟩
    rw [record?, hj.absent] at hsome
    cases hsome
  exact Nat.le_antisymm (hle hj hi) (hle hi hj)

end EntersAt

/-- The ids stand in the order of the places in which they entered. -/
def InOrder (steps : List Step) (ids : List String) : Prop :=
  ∃ places : List Nat, places.Pairwise (· < ·) ∧ List.Forall₂ (EntersAt steps) ids places

theorem lt_length_of_enters {ids : List String} {places : List Nat}
    (h : List.Forall₂ (EntersAt steps) ids places) : ∀ i ∈ places, i < steps.length := by
  induction h with
  | nil => exact fun i hi => absurd hi List.not_mem_nil
  | cons h _ ih => exact List.forall_mem_cons.2 ⟨h.lt_length, ih⟩

/-- Ids that are kept keep their places. -/
theorem exists_places_filter {p : String → Bool} {ids : List String} {places : List Nat}
    (h : List.Forall₂ (EntersAt steps) ids places) : ∃ kept : List Nat, kept.Sublist places ∧
      List.Forall₂ (EntersAt (steps ++ [.keepNodes p])) (ids.filter p) kept := by
  induction h with
  | nil => exact ⟨[], List.Sublist.refl _, .nil⟩
  | @cons id i _ _ h _ ih =>
    obtain ⟨kept, hsublist, hkept⟩ := ih
    cases hp : p id with
    | false =>
      rw [List.filter_cons_of_neg (by simp [hp])]
      exact ⟨kept, hsublist.cons _, hkept⟩
    | true =>
      rw [List.filter_cons_of_pos hp]
      have hstays : ¬Step.Erases (.node id) (.keepNodes p) := by simp [Step.Erases, hp]
      exact ⟨i :: kept, hsublist.cons_cons _, .cons (h.concat hstays) hkept⟩

theorem inOrder_nodeIds (steps : List Step) : InOrder steps (ofSteps steps).nodeIds := by
  induction steps using List.reverseRecOn with
  | nil => exact ⟨[], .nil, .nil⟩
  | append_singleton steps s ih =>
    obtain ⟨places, hplaces, henters⟩ := ih
    rw [ofSteps_concat]
    cases s with
    | add key fields =>
      have hstay : List.Forall₂ (EntersAt (steps ++ [.add key fields])) (ofSteps steps).nodeIds
          places := henters.imp fun _ _ h => h.concat not_false
      cases key with
      | node id =>
        have hkeys : ((ofSteps steps).perform (.add (.node id) fields)).nodeIds =
            if id ∈ (ofSteps steps).nodeIds then (ofSteps steps).nodeIds
            else (ofSteps steps).nodeIds ++ [id] := Entries.keys_alter id _ _
        rw [hkeys]
        split
        next => exact ⟨places, hplaces, hstay⟩
        next hnew =>
          have hlast := EntersAt.last (Keyed.get?_eq_none_iff.2 hnew) fields
          refine ⟨places ++ [steps.length], ?_, List.rel_append hstay (.cons hlast .nil)⟩
          rw [List.pairwise_append]
          refine ⟨hplaces, List.pairwise_singleton _ _, fun i hi j hj => ?_⟩
          rw [List.mem_singleton.1 hj]
          exact lt_length_of_enters henters i hi
      | edge source target => exact ⟨places, hplaces, hstay⟩
      | block id => exact ⟨places, hplaces, hstay⟩
    | keepNodes p =>
      obtain ⟨kept, hsublist, hkept⟩ := exists_places_filter henters
      have hkeys : ((ofSteps steps).perform (.keepNodes p)).nodeIds =
          (ofSteps steps).nodeIds.filter p := Keyed.keys_keep _ p
      rw [hkeys]
      exact ⟨kept, hplaces.sublist hsublist, hkept⟩
    | clear => exact ⟨[], .nil, .nil⟩

/-! ## What is remembered -/

/-- Metadata hold what the steps tell. -/
structure Remembers (m : MetadataStore) (steps : List Step) : Prop where
  /-- There is a record of what was added and has not been erased since. -/
  exists_iff : ∀ key : Key, key.Sound → ((m.record? key).isSome = true ↔
    Since (Step.Adds key) (fun s => ¬s.Erases key) steps)
  /-- A field has the value that it was given last, if its record has not been erased since. -/
  field_iff : ∀ key : Key, key.Sound → ∀ name value, m.field? key name = some value ↔
    Since (fun s => s.given? key name = some value)
      (fun s => ¬s.Erases key ∧ s.given? key name = none) steps
  /-- The next step changes no record but those that it adds to or erases, where edges with other
  ends have other records, -/
  other_keys : ∀ (s : Step) (key : Key), key.Sound → ¬s.Adds key → ¬s.Erases key →
    (m.perform s).record? key = m.record? key
  /-- and no table but those that it reaches. -/
  other_tables : ∀ (s : Step) (t : Table), ¬s.Reaches t → (m.perform s).table t = m.table t
  /-- The ids of nodes are those of the records, and stand in the order in which they entered. -/
  ids : ∀ id, id ∈ m.nodeIds ↔ (m.node? id).isSome = true
  entered_once : ∀ id i j, EntersAt steps id i → EntersAt steps id j → i = j
  order : InOrder steps m.nodeIds
  /-- What is dropped is what is missing afterwards. -/
  dropped : ∀ p : String → Bool, (m.keepNodes p).stats.nodes + m.dropCount p = m.stats.nodes

/-- Metadata that were empty once hold what the steps since tell, whatever these were. -/
theorem ofSteps_remembers (steps : List Step) : (ofSteps steps).Remembers steps where
  exists_iff _ hkey := isSome_record?_ofSteps hkey steps
  field_iff _ hkey := field?_ofSteps hkey steps
  other_keys _ _ hkey hadds herases := record?_perform hkey herases hadds _
  other_tables _ _ h := table_perform h _
  ids _ := Keyed.mem_keys_iff
  entered_once _ _ _ := EntersAt.unique
  order := inOrder_nodeIds steps
  dropped _ := Nat.add_sub_cancel' (List.length_filter_le _ _)

/-- Of the fields of an edge one is given anew and one stays, while its target goes and comes. -/
theorem ofSteps_remembers_edge :
    let key := Key.edge (nodeId 1) (nodeId 2)
    let steps : List Step :=
      [.add key (.object [("line", .bool true), ("call", .null)]), .add (.node "N2") .null,
        .add (.node "N1") .null, .keepNodes (· = "N1"), .add (.node "N2") .null,
        .add key (.object [("line", .bool false)])]
    key.Sound ∧ (ofSteps steps).field? key "line" = some (.bool false) ∧
      (ofSteps steps).field? key "call" = some .null ∧ InOrder steps ["N1", "N2"] := by
  intro key steps
  have hkey : key.Sound := ⟨isNodeId_nodeId 1, isNodeId_nodeId 2⟩
  have hremembers := ofSteps_remembers steps
  refine ⟨hkey, (hremembers.field_iff key hkey _ _).2 ⟨steps.take 5, _, [], rfl, rfl, by simp⟩,
    (hremembers.field_iff key hkey _ _).2 ⟨[], _, steps.tail, rfl, rfl, ?_⟩, hremembers.order⟩
  simp [steps, key, Step.Erases, Step.given?, Json.lastMember?]

end MetadataStore

end CallChart
