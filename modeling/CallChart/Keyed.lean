/-!
# Keyed tables

A keyed table holds values under distinct text keys and remembers the order in which the keys
came. `alter` is the one way in : a key that is there keeps its place and has its value
changed, a new key goes to the end (`keys_alter`). `keep` drops entries and leaves the order
of the others. Trees of tables use the operations on plain entry lists directly.
-/

namespace CallChart

variable {α : Type}

/-! ## Entry lists -/

/-- Entries of a table, in the order in which the keys came. -/
abbrev Entries (α : Type) := List (String × α)

namespace Entries

def keys (es : Entries α) : List String :=
  es.map Prod.fst

@[simp]
theorem keys_nil : keys ([] : Entries α) = [] :=
  rfl

@[simp]
theorem keys_cons (e : String × α) (es : Entries α) : keys (e :: es) = e.1 :: keys es :=
  rfl

/-- Change the value under `k` to what `f` makes of it, or enter it at the end. -/
def alter (k : String) (f : Option α → α) : Entries α → Entries α
  | [] => [(k, f none)]
  | e :: es => if e.1 = k then (k, f (some e.2)) :: es else e :: alter k f es

/-- A key that is there keeps its place, a new one goes to the end. -/
theorem keys_alter (k : String) (f : Option α → α) (es : Entries α) :
    keys (alter k f es) = if k ∈ keys es then keys es else keys es ++ [k] := by
  induction es with
  | nil => simp [alter]
  | cons e es ih =>
    by_cases h : e.1 = k
    · simp [alter, h]
    · rw [alter, if_neg h, keys_cons, ih, keys_cons]
      by_cases hk : k ∈ keys es <;> simp [hk, Ne.symm h]

theorem nodup_keys_alter {k : String} {f : Option α → α} {es : Entries α}
    (h : (keys es).Nodup) : (keys (alter k f es)).Nodup := by
  rw [keys_alter]
  split
  · exact h
  · next hk => exact List.nodup_append.2 ⟨h, by simp, by grind⟩

end Entries

/-! ## Tables -/

/-- Values under distinct keys, in the order in which the keys came. -/
structure Keyed (α : Type) where
  entries : Entries α
  nodup_keys : entries.keys.Nodup

namespace Keyed

def empty : Keyed α :=
  ⟨[], List.nodup_nil⟩

instance : Inhabited (Keyed α) :=
  ⟨empty⟩

@[ext]
theorem ext {t u : Keyed α} (h : t.entries = u.entries) : t = u := by
  cases t
  cases u
  simp_all

instance [DecidableEq α] : DecidableEq (Keyed α) := fun t u =>
  decidable_of_iff (t.entries = u.entries) ⟨ext, fun h => h ▸ rfl⟩

/-- Change the value under `k` to what `f` makes of it, or enter it at the end. -/
def alter (t : Keyed α) (k : String) (f : Option α → α) : Keyed α :=
  ⟨t.entries.alter k f, Entries.nodup_keys_alter t.nodup_keys⟩

/-- Put `a` under `k`. -/
def insert (t : Keyed α) (k : String) (a : α) : Keyed α :=
  t.alter k fun _ => a

/-- The table with the entries of a list, a later one replacing an earlier one of its key. -/
def ofEntries (es : Entries α) : Keyed α :=
  es.foldl (fun t e => t.insert e.1 e.2) empty

def get? (t : Keyed α) (k : String) : Option α :=
  t.entries.lookup k

def keys (t : Keyed α) : List String :=
  t.entries.keys

def values (t : Keyed α) : List α :=
  t.entries.map Prod.snd

def size (t : Keyed α) : Nat :=
  t.entries.length

def isEmpty (t : Keyed α) : Bool :=
  t.entries.isEmpty

/-- The entries whose key passes `p`. -/
def keep (t : Keyed α) (p : String → Bool) : Keyed α :=
  ⟨t.entries.filter fun e => p e.1,
    (t.nodup_keys.sublist (List.Sublist.map _ List.filter_sublist))⟩

end Keyed

end CallChart
