import CallChart.Metadata

/-!
# Tables of records

How a keyed table looks after entries have been put in. A key that is not there goes to the end
(`Entries.alter_of_notMem`), so entering values under fresh keys one after another appends the
entries (`Keyed.entries_foldl_insert`, `MetadataStore.entries_foldl_mergeInto`). With distinct
keys, looking up a key finds the one entry that has it (`Keyed.get?_eq_some_iff`), and a change of
one key changes what is found under this key only (`Entries.lookup_alter`). Fields merged into one
record in two steps are merged in one (`MetadataStore.mergeInto_mergeInto`).
-/

namespace CallChart

variable {α : Type}

namespace Entries

theorem alter_of_notMem {k : String} {f : Option α → α} :
    ∀ {es : Entries α}, k ∉ keys es → alter k f es = es ++ [(k, f none)]
  | [], _ => rfl
  | e :: es, h => by
    rw [keys_cons, List.mem_cons, not_or] at h
    rw [alter, if_neg (Ne.symm h.1), alter_of_notMem h.2, List.cons_append]

/-- Two changes of one key are one change. -/
theorem alter_alter {k : String} {f f' : Option α → α} : ∀ es : Entries α,
    alter k f' (alter k f es) = alter k (fun a => f' (some (f a))) es
  | [] => by simp [alter]
  | e :: es => by
    by_cases h : e.1 = k
    · simp [alter, h]
    · rw [alter, if_neg h, alter, if_neg h, alter_alter es, alter, if_neg h]

theorem lookup_cons (k k' : String) (a : α) (es : Entries α) :
    List.lookup k ((k', a) :: es) = if k = k' then some a else es.lookup k := by
  by_cases h : k = k'
  · rw [if_pos h, h, List.lookup_cons_self]
  · rw [if_neg h, List.lookup_cons, beq_false_of_ne h]

theorem mem_of_lookup_eq_some {k : String} {a : α} {es : Entries α}
    (h : es.lookup k = some a) : (k, a) ∈ es := by
  obtain ⟨before, after, rfl, -⟩ := List.lookup_eq_some_iff.1 h
  simp

theorem lookup_eq_some_of_mem {k : String} {a : α} :
    ∀ {es : Entries α}, (keys es).Nodup → (k, a) ∈ es → es.lookup k = some a
  | (k', a') :: es, hnd, h => by
    rw [keys_cons, List.nodup_cons] at hnd
    rcases List.mem_cons.1 h with h | hmem
    · obtain ⟨rfl, rfl⟩ := Prod.mk.inj h
      exact List.lookup_cons_self
    · have hne : k ≠ k' := by
        rintro rfl
        exact hnd.1 (List.mem_map.2 ⟨_, hmem, rfl⟩)
      rw [lookup_cons, if_neg hne]
      exact lookup_eq_some_of_mem hnd.2 hmem

theorem lookup_eq_some_iff {k : String} {a : α} {es : Entries α} (h : (keys es).Nodup) :
    es.lookup k = some a ↔ (k, a) ∈ es :=
  ⟨mem_of_lookup_eq_some, lookup_eq_some_of_mem h⟩

/-- A change of one key changes what is found under this key only. -/
theorem lookup_alter {k : String} {f : Option α → α} (k' : String) : ∀ es : Entries α,
    (alter k f es).lookup k' = if k' = k then some (f (es.lookup k)) else es.lookup k'
  | [] => by
    rw [alter, lookup_cons, List.lookup_nil, List.lookup_nil]
  | (key, a) :: es => by
    by_cases hkey : key = k
    · subst hkey
      by_cases h : k' = key <;> simp [alter, lookup_cons, h]
    · rw [alter, if_neg hkey, lookup_cons, lookup_cons, lookup_cons, lookup_alter k' es,
        if_neg (Ne.symm hkey)]
      by_cases h : k' = key
      · subst h
        simp [hkey]
      · simp [h]

end Entries

namespace Keyed

theorem get?_alter (t : Keyed α) (k k' : String) (f : Option α → α) :
    (t.alter k f).get? k' = if k' = k then some (f (t.get? k)) else t.get? k' :=
  Entries.lookup_alter k' t.entries

theorem get?_insert (t : Keyed α) (k k' : String) (a : α) :
    (t.insert k a).get? k' = if k' = k then some a else t.get? k' :=
  get?_alter t k k' fun _ => a

theorem get?_eq_some_iff {t : Keyed α} {k : String} {a : α} :
    t.get? k = some a ↔ (k, a) ∈ t.entries :=
  Entries.lookup_eq_some_iff t.nodup_keys

theorem get?_eq_none_iff {t : Keyed α} {k : String} : t.get? k = none ↔ k ∉ t.keys := by
  rw [get?, List.lookup_eq_none_iff, keys, Entries.keys, List.mem_map]
  constructor
  · rintro h ⟨e, he, rfl⟩
    simpa using h e he
  · intro h e he
    exact bne_iff_ne.2 fun hk => h ⟨e, he, hk.symm⟩

theorem mem_keys_iff {t : Keyed α} {k : String} : k ∈ t.keys ↔ (t.get? k).isSome = true := by
  rw [Option.isSome_iff_ne_none, ne_eq, get?_eq_none_iff, Decidable.not_not]

theorem keys_keep (t : Keyed α) (p : String → Bool) : (t.keep p).keys = t.keys.filter p := by
  rw [keys, keys, keep, Entries.keys, Entries.keys, List.filter_map]
  rfl

/-- What is kept is found as before. -/
theorem get?_keep (t : Keyed α) (p : String → Bool) (k : String) :
    (t.keep p).get? k = if p k then t.get? k else none := by
  ext a
  rw [get?_eq_some_iff, keep, List.mem_filter]
  split
  next hp => simp [get?_eq_some_iff, hp]
  next hp => simp [hp]

theorem alter_alter (t : Keyed α) (k : String) (f f' : Option α → α) :
    (t.alter k f).alter k f' = t.alter k fun a => f' (some (f a)) :=
  Keyed.ext (Entries.alter_alter t.entries)

theorem entries_alter_of_notMem {t : Keyed α} {k : String} {f : Option α → α}
    (h : k ∉ t.keys) : (t.alter k f).entries = t.entries ++ [(k, f none)] :=
  Entries.alter_of_notMem h

/-- Fresh entries put in one after another stand behind the others. -/
theorem entries_foldl_insert :
    ∀ (es : Entries α) (t : Keyed α), (t.keys ++ es.keys).Nodup →
      (es.foldl (fun t e => t.insert e.1 e.2) t).entries = t.entries ++ es
  | [], t, _ => by simp
  | (k, a) :: es, t, h => by
    have hk : k ∉ t.keys := fun hk => by
      rw [List.nodup_append] at h
      exact h.2.2 k hk k (by simp) rfl
    have hins : (t.insert k a).entries = t.entries ++ [(k, a)] := entries_alter_of_notMem hk
    rw [List.foldl_cons, entries_foldl_insert es, hins, List.append_assoc, List.singleton_append]
    simpa [keys, hins, Entries.keys] using h

/-- The table of entries with distinct keys has them in their order. -/
theorem entries_ofEntries {es : Entries α} (h : es.keys.Nodup) : (ofEntries es).entries = es :=
  entries_foldl_insert es empty h

theorem ofEntries_entries (t : Keyed α) : ofEntries t.entries = t :=
  Keyed.ext (entries_ofEntries t.nodup_keys)

theorem get?_ofEntries {es : Entries α} (h : es.keys.Nodup) (k : String) :
    (ofEntries es).get? k = es.lookup k := by
  rw [get?, entries_ofEntries h]

theorem ofEntries_concat (es : Entries α) (e : String × α) :
    ofEntries (es ++ [e]) = (ofEntries es).insert e.1 e.2 := by
  rw [ofEntries, List.foldl_append]
  rfl

end Keyed

/-- The record of distinct fields has them in their order. -/
theorem Record.entries_merge_empty {ms : List (String × Json)} (h : (ms.map Prod.fst).Nodup) :
    (Record.merge Keyed.empty (.object ms)).entries = ms :=
  Keyed.entries_foldl_insert ms Keyed.empty h

namespace MetadataStore

/-- The record that fields make by themselves. -/
def record (fields : Json) : Record :=
  Record.merge Keyed.empty fields

/-- Fields merged into a record one after the other are merged together. -/
theorem mergeInto_mergeInto (t : Keyed Record) (key : String) (ms ms' : List (String × Json)) :
    mergeInto (mergeInto t key (.object ms)) key (.object ms') =
      mergeInto t key (.object (ms ++ ms')) := by
  rw [mergeInto, mergeInto, Keyed.alter_alter]
  simp only [Option.getD_some, Record.merge, mergeInto, List.foldl_append]

theorem addNode_addNode (m : MetadataStore) (id : String) (ms ms' : List (String × Json)) :
    (m.addNode id (.object ms)).addNode id (.object ms') = m.addNode id (.object (ms ++ ms')) := by
  rw [addNode, addNode, mergeInto_mergeInto]
  rfl

/-- Records entered under fresh keys one after another stand behind the others. -/
theorem entries_foldl_mergeInto {β : Type} (key : β → String) (fields : β → Json) :
    ∀ (bs : List β) (t : Keyed Record), (t.keys ++ bs.map key).Nodup →
      (bs.foldl (fun t b => mergeInto t (key b) (fields b)) t).entries =
        t.entries ++ bs.map fun b => (key b, record (fields b))
  | [], t, _ => by simp
  | b :: bs, t, h => by
    have hk : key b ∉ t.keys := fun hk => by
      rw [List.nodup_append] at h
      exact h.2.2 _ hk _ (by simp) rfl
    have hins : (mergeInto t (key b) (fields b)).entries =
        t.entries ++ [(key b, record (fields b))] := Keyed.entries_alter_of_notMem hk
    rw [List.foldl_cons, entries_foldl_mergeInto key fields bs, hins, List.append_assoc,
      List.singleton_append, List.map_cons]
    simpa [Keyed.keys, hins, Entries.keys] using h

end MetadataStore

end CallChart
