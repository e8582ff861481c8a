import CallChart.Proofs.Written
import CallChart.Proofs.Tables
import Mathlib.Data.List.Induction

/-!
# Values that say the same

The order of the members of an object says nothing, and of two members of one name the later one
counts. `Json.Same` is what is left : two values say the same if they agree name by name. Sorting
the members finds it out. Sorted members are known by what is found under each name
(`Json.eq_of_lookup_eq`), sorting changes nothing of what is found (`Json.lookup_sortMembers`), so
values say the same if and only if they are the same sorted (`Json.same_iff_sorted`).

Two tables are alike (`Keyed.Alike`) if they have entries under the same keys and these are alike,
in whatever order the keys came.
-/

namespace Option

/-- Both are there or neither, and what is there is related. -/
theorem rel_iff {α β : Type*} {R : α → β → Prop} {o : Option α} {o' : Option β} :
    Rel R o o' ↔ o.isSome = o'.isSome ∧ ∀ a b, o = some a → o' = some b → R a b := by
  constructor
  · rintro (hab | _)
    · exact ⟨rfl, by rintro a b ⟨⟩ ⟨⟩; exact hab⟩
    · exact ⟨rfl, nofun⟩
  · rintro ⟨hsome, hrel⟩
    cases o <;> cases o'
    · exact .none
    · exact absurd hsome (by simp)
    · exact absurd hsome (by simp)
    · exact .some (hrel _ _ rfl rfl)

end Option

namespace CallChart

variable {α β : Type}

/-! ## What is found under a key -/

namespace Keyed

/-- What is found when every value is changed. -/
theorem get?_ofEntries_map (f : α → β) (es : Entries α) (k : String) :
    (ofEntries (es.map fun e => (e.1, f e.2))).get? k = ((ofEntries es).get? k).map f := by
  induction es using List.reverseRecOn with
  | nil => rfl
  | append_singleton es e ih =>
    rw [List.map_append, List.map_singleton, ofEntries_concat, ofEntries_concat, get?_insert,
      get?_insert, ih]
    split <;> rfl

theorem mem_of_get?_ofEntries {es : Entries α} {k : String} {a : α}
    (h : (ofEntries es).get? k = some a) : (k, a) ∈ es := by
  induction es using List.reverseRecOn with
  | nil => exact nomatch h
  | append_singleton es e ih =>
    rw [ofEntries_concat, get?_insert] at h
    split at h
    next hk =>
      obtain rfl := Option.some.inj h
      exact List.mem_append_right _ (List.mem_singleton.2 (Prod.ext hk rfl))
    next => exact List.mem_append_left _ (ih h)

/-- Tables with entries under the same keys, of which two of one key are related. -/
def Alike (R : α → α → Prop) (t u : Keyed α) : Prop :=
  ∀ k, Option.Rel R (t.get? k) (u.get? k)

end Keyed

namespace Json

/-! ## Sorted members -/

/-- Members with their names in order, each once. -/
def Ordered (ms : List (String × Json)) : Prop :=
  ms.Pairwise fun m n => m.1 < n.1

theorem Ordered.nodup_keys {ms : List (String × Json)} (h : Ordered ms) :
    (Entries.keys ms).Nodup :=
  List.pairwise_map.2 (h.imp fun {m n} hlt (heq : m.1 = n.1) =>
    String.lt_irrefl n.1 (heq ▸ hlt))

theorem Ordered.nodup {ms : List (String × Json)} (h : Ordered ms) : ms.Nodup :=
  h.imp fun {m n} hlt (heq : m = n) => String.lt_irrefl n.1 (heq ▸ hlt)

theorem lookup_insertMember (k k' : String) (v : Json) (ms : List (String × Json)) :
    (insertMember k v ms).lookup k' = if k' = k then some v else ms.lookup k' := by
  induction ms with
  | nil => rw [insertMember, Entries.lookup_cons]
  | cons m ms ih =>
    rw [insertMember]
    split
    · rw [Entries.lookup_cons]
    · split
      next h =>
        subst h
        rw [Entries.lookup_cons, Entries.lookup_cons]
        split <;> rfl
      next h =>
        rw [Entries.lookup_cons, ih, Entries.lookup_cons]
        by_cases hk : k' = k
        · rw [if_neg (hk.trans_ne h), if_pos hk, if_pos hk]
        · rw [if_neg hk, if_neg hk]

theorem mem_of_mem_insertMember {k : String} {v : Json} {n : String × Json} :
    ∀ {ms : List (String × Json)}, n ∈ insertMember k v ms → n = (k, v) ∨ n ∈ ms
  | [], h => .inl (List.mem_singleton.1 h)
  | (k₁, v₁) :: ms, h => by
    rw [insertMember] at h
    split at h
    · exact List.mem_cons.1 h
    · split at h
      · exact (List.mem_cons.1 h).imp_right (List.mem_cons_of_mem _)
      · rcases List.mem_cons.1 h with rfl | h
        · exact .inr List.mem_cons_self
        · exact (mem_of_mem_insertMember h).imp_right (List.mem_cons_of_mem _)

theorem Ordered.insertMember {k : String} {v : Json} : ∀ {ms : List (String × Json)},
    Ordered ms → Ordered (insertMember k v ms)
  | [], _ => List.pairwise_singleton _ _
  | (k₁, v₁) :: ms, h => by
    obtain ⟨hfirst, hms⟩ := List.pairwise_cons.1 h
    rw [Json.insertMember]
    split
    next hlt =>
      refine List.pairwise_cons.2 ⟨List.forall_mem_cons.2 ⟨hlt, fun n hn => ?_⟩, h⟩
      exact String.lt_trans hlt (hfirst n hn)
    next hnot =>
      split
      next heq =>
        subst heq
        exact List.pairwise_cons.2 ⟨hfirst, hms⟩
      next hne =>
        have hgt : k₁ < k :=
          Std.Trichotomous.rel_or_eq_or_rel_swap.resolve_right (not_or.2 ⟨Ne.symm hne, hnot⟩)
        refine List.pairwise_cons.2 ⟨fun n hn => ?_, Ordered.insertMember hms⟩
        rcases mem_of_mem_insertMember hn with rfl | hn
        · exact hgt
        · exact hfirst n hn

theorem sortMembers_concat (ms : List (String × Json)) (m : String × Json) :
    sortMembers (ms ++ [m]) = insertMember m.1 m.2 (sortMembers ms) := by
  rw [sortMembers, List.foldl_append]
  rfl

theorem ordered_sortMembers (ms : List (String × Json)) : Ordered (sortMembers ms) := by
  induction ms using List.reverseRecOn with
  | nil => exact List.Pairwise.nil
  | append_singleton ms m ih =>
    rw [sortMembers_concat]
    exact ih.insertMember

/-- Sorted members have under each name what the last member of this name has. -/
theorem lookup_sortMembers (ms : List (String × Json)) (k : String) :
    (sortMembers ms).lookup k = (Record.ofFields ms).get? k := by
  induction ms using List.reverseRecOn with
  | nil => rfl
  | append_singleton ms m ih =>
    rw [Record.ofFields] at ih ⊢
    rw [sortMembers_concat, lookup_insertMember, ih, Keyed.ofEntries_concat, Keyed.get?_insert]

theorem get?_ofFields_sortMembers (ms : List (String × Json)) (k : String) :
    (Record.ofFields (sortMembers ms)).get? k = (Record.ofFields ms).get? k := by
  rw [← lookup_sortMembers ms, Record.ofFields,
    Keyed.get?_ofEntries (ordered_sortMembers ms).nodup_keys]

/-- Sorted members are known by what is found under each name. -/
theorem eq_of_lookup_eq {ms ns : List (String × Json)} (hms : Ordered ms) (hns : Ordered ns)
    (h : ∀ k, ms.lookup k = ns.lookup k) : ms = ns := by
  have hperm : ms.Perm ns := by
    rw [List.perm_ext_iff_of_nodup hms.nodup hns.nodup]
    rintro ⟨k, v⟩
    rw [← Entries.lookup_eq_some_iff hms.nodup_keys, h k,
      Entries.lookup_eq_some_iff hns.nodup_keys]
  exact hperm.eq_of_pairwise (fun _ _ _ _ hlt hgt => absurd hgt (String.lt_asymm hlt)) hms hns

theorem sortedItems_eq (vs : List Json) : sortedItems vs = vs.map sorted := by
  induction vs with
  | nil => rfl
  | cons v vs ih => rw [sortedItems, ih, List.map_cons]

theorem sortedMembers_eq (ms : List (String × Json)) :
    sortedMembers ms = ms.map fun m => (m.1, m.2.sorted) := by
  induction ms with
  | nil => rfl
  | cons m ms ih => rw [sortedMembers, ih, List.map_cons]

theorem get?_ofFields_sortedMembers (ms : List (String × Json)) (k : String) :
    (Record.ofFields (sortedMembers ms)).get? k = ((Record.ofFields ms).get? k).map sorted := by
  rw [sortedMembers_eq]
  exact Keyed.get?_ofEntries_map sorted ms k

/-! ## Values that say the same -/

/-- The values say the same : scalars are equal, arrays agree item by item, and objects have
members of the same names, which agree name by name. -/
inductive Same : Json → Json → Prop where
  | null : Same .null .null
  | bool (b : Bool) : Same (.bool b) (.bool b)
  | int (n : Int) : Same (.int n) (.int n)
  | text (s : String) : Same (.text s) (.text s)
  | array {vs ws : List Json} (length : vs.length = ws.length)
      (items : ∀ (i : Nat) (v w : Json), vs[i]? = some v → ws[i]? = some w → Same v w) :
      Same (.array vs) (.array ws)
  | object {ms ns : List (String × Json)}
      (names : ∀ k, ((Record.ofFields ms).get? k).isSome = ((Record.ofFields ns).get? k).isSome)
      (members : ∀ k v w, (Record.ofFields ms).get? k = some v →
        (Record.ofFields ns).get? k = some w → Same v w) :
      Same (.object ms) (.object ns)

/-- Values that say the same are the same sorted. -/
theorem Same.sorted_eq {v w : Json} (h : Same v w) : v.sorted = w.sorted := by
  induction h with
  | null => rfl
  | bool b => rfl
  | int n => rfl
  | text s => rfl
  | array length items ih =>
    rw [sorted, sorted, sortedItems_eq, sortedItems_eq]
    refine congrArg _ (List.ext_getElem (by simp [length]) fun i hi hi' => ?_)
    rw [List.length_map] at hi hi'
    rw [List.getElem_map, List.getElem_map]
    exact ih i _ _ (List.getElem?_eq_getElem hi) (List.getElem?_eq_getElem hi')
  | @object ms ns names members ih =>
    rw [sorted, sorted]
    refine congrArg _ (eq_of_lookup_eq (ordered_sortMembers _) (ordered_sortMembers _) fun k => ?_)
    have hnames := names k
    have hih := ih k
    rw [lookup_sortMembers, lookup_sortMembers, get?_ofFields_sortedMembers,
      get?_ofFields_sortedMembers]
    cases hv : (Record.ofFields ms).get? k <;> cases hw : (Record.ofFields ns).get? k <;>
      simp_all

/-- Values that are the same sorted say the same. -/
theorem same_of_sorted_eq (v : Json) : ∀ w : Json, v.sorted = w.sorted → Same v w := by
  induction v using induct with
  | null => intro w h; cases w <;> simp_all [sorted, Same.null]
  | bool b => intro w h; cases w <;> simp_all [sorted, Same.bool]
  | int n => intro w h; cases w <;> simp_all [sorted, Same.int]
  | text s => intro w h; cases w <;> simp_all [sorted, Same.text]
  | array vs ih =>
    intro w h
    cases w with
    | array ws =>
      rw [sorted, sorted, sortedItems_eq, sortedItems_eq, array.injEq] at h
      have hlength := congrArg List.length h
      rw [List.length_map, List.length_map] at hlength
      refine .array hlength fun i v w hv hw => ih v (List.mem_of_getElem? hv) w ?_
      have hi := congrArg (fun us => us[i]?) h
      rwa [List.getElem?_map, List.getElem?_map, hv, hw, Option.map_some, Option.map_some,
        Option.some.injEq] at hi
    | _ => simp [sorted] at h
  | object ms ih =>
    intro w h
    cases w with
    | object ns =>
      rw [sorted, sorted, object.injEq] at h
      have hfind : ∀ k, ((Record.ofFields ms).get? k).map sorted =
          ((Record.ofFields ns).get? k).map sorted := by
        intro k
        rw [← get?_ofFields_sortedMembers, ← lookup_sortMembers, h, lookup_sortMembers,
          get?_ofFields_sortedMembers]
      refine .object (fun k => ?_) fun k v w hv hw => ?_
      · simpa using congrArg Option.isSome (hfind k)
      · have hk := hfind k
        rw [hv, hw, Option.map_some, Option.map_some, Option.some.injEq] at hk
        exact ih (k, v) (Keyed.mem_of_get?_ofEntries hv) w hk
    | _ => simp [sorted] at h

/-- Values say the same if and only if they are the same sorted. -/
theorem same_iff_sorted {v w : Json} : Same v w ↔ v.sorted = w.sorted :=
  ⟨Same.sorted_eq, same_of_sorted_eq v w⟩

/-- Objects say the same if and only if their members are alike. -/
theorem same_object {ms ns : List (String × Json)} : Same (.object ms) (.object ns) ↔
    (Record.ofFields ms).Alike Same (Record.ofFields ns) := by
  constructor
  · rintro (_ | _ | _ | _ | _ | ⟨names, members⟩) k
    exact Option.rel_iff.2 ⟨names k, members k⟩
  · intro h
    exact .object (fun k => (Option.rel_iff.1 (h k)).1) fun k => (Option.rel_iff.1 (h k)).2

/-- A value says the same sorted. -/
theorem same_sorted (v : Json) : Same v.sorted v := by
  induction v using induct with
  | null => exact .null
  | bool b => exact .bool b
  | int n => exact .int n
  | text s => exact .text s
  | array vs ih =>
    rw [sorted, sortedItems_eq]
    refine .array (List.length_map _) fun i v w hv hw => ?_
    rw [List.getElem?_map, hw, Option.map_some, Option.some.injEq] at hv
    exact hv ▸ ih w (List.mem_of_getElem? hw)
  | object ms ih =>
    rw [sorted, same_object]
    intro k
    rw [get?_ofFields_sortMembers, get?_ofFields_sortedMembers]
    cases hv : (Record.ofFields ms).get? k with
    | none => exact .none
    | some v => exact .some (ih (k, v) (Keyed.mem_of_get?_ofEntries hv))

end Json

end CallChart
