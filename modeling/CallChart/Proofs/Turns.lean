import CallChart.Palette
import CallChart.Proofs.Groups
import Mathlib.Data.Nat.ModEq

/-!
# Turns of groups

A group takes its turn when a node that is no entry point is first styled in it : its turn is the
number of groups that were seen before (`Palette.turn`). The groups a palette remembers are those
seen so far, in the order of their first appearance, and the place of a group among them is its
turn (`Palette.turn_append_cons`). So the line of a node depends on the turn of its group in the
whole sequence and on nothing else that came before (`Palette.nodeStyles_eq`).

Main statement : `Palette.nodeStyles_inTurns`.
-/

namespace List

theorem takeWhile_append_cons {α : Type*} {p : α → Bool} {a : α} (h : p a = false)
    (l rest : List α) : (l ++ a :: rest).takeWhile p = l.takeWhile p := by
  induction l with
  | nil => simp [h]
  | cons b l ih => by_cases hb : p b = true <;> simp [hb, ih]

variable {α : Type*} [BEq α] [LawfulBEq α]

theorem takeWhile_bne_of_notMem {l : List α} {a : α} (h : a ∉ l) :
    l.takeWhile (· != a) = l := by
  have hall : ∀ b ∈ l, (b != a) = true := fun b hb => bne_iff_ne.2 fun heq => h (heq ▸ hb)
  rw [← l.append_nil, takeWhile_append_of_pos hall, takeWhile_nil]

theorem nodup_eraseDups (l : List α) : l.eraseDups.Nodup := by
  induction l using reverseRecOn with
  | nil => simp
  | append_singleton l a ih =>
    rw [eraseDups_concat]
    split_ifs with h
    · exact ih
    · exact nodup_append.2 ⟨ih, by simp, by grind⟩

/-- The place of an element among the first appearances is the number of different elements that
come before its own. -/
theorem idxOf_eraseDups (l : List α) (a : α) :
    l.eraseDups.idxOf a = (l.takeWhile (· != a)).eraseDups.length := by
  by_cases h : a ∈ l
  · obtain ⟨front, rest, rfl, hfront⟩ := eq_append_cons_of_mem h
    have hremove : (a :: rest).removeAll front = a :: rest.removeAll front := by
      simp [removeAll, hfront]
    rw [takeWhile_append_cons (by simp), takeWhile_bne_of_notMem hfront, eraseDups_append, hremove,
      eraseDups_cons, idxOf_append, if_neg (mt mem_eraseDups.1 hfront), idxOf_cons_self,
      Nat.zero_add]
  · rw [takeWhile_bne_of_notMem h, idxOf_eq_length (mt mem_eraseDups.1 h)]

end List

namespace CallChart

namespace Palette

/-- A node to style : its id, its group and whether it is an entry point. -/
abbrev StyledNode := String × String × Bool

/-- The groups of the nodes that are no entry points. -/
def plainGroups (nodes : List StyledNode) : List String :=
  (nodes.filter fun n => !n.2.2).map fun n => n.2.1

/-- The groups of the nodes that are no entry points, in the order in which they are first seen. -/
def groupsSeen (nodes : List StyledNode) : List String :=
  (plainGroups nodes).eraseDups

/-- The turn of a group : how many groups are seen before it is. -/
def turn (nodes : List StyledNode) (group : String) : Nat :=
  ((plainGroups nodes).takeWhile (· != group)).eraseDups.length

/-- The style line of an entry point. -/
def entryLine (scheme : Scheme) (id : String) : String :=
  nodeLine ⟨scheme, []⟩ id scheme.entry "3"

/-- The style line of any other node. -/
def plainLine (scheme : Scheme) (id : String) (swatch : Swatch) : String :=
  nodeLine ⟨scheme, []⟩ id swatch "1"

/-- Nodes are styled in turns : entry points in colours of their own, and all others in those that
are the turn of their group. -/
structure InTurns (scheme : Scheme) (lines : List StyledNode → List String)
    (nodes : List StyledNode) : Prop where
  length_eq : (lines nodes).length = nodes.length
  entry : ∀ (k : Nat) id group, nodes[k]? = some (id, group, true) →
    (lines nodes)[k]? = some (entryLine scheme id)
  /-- The swatches of the scheme come round again. -/
  plain : ∀ (k : Nat) id group, nodes[k]? = some (id, group, false) → ∃ swatch,
    (lines nodes)[k]? = some (plainLine scheme id swatch) ∧ (scheme.nodes ≠ [] →
      scheme.nodes[turn nodes group % scheme.nodes.length]? = some swatch)
  /-- A group keeps its colours. -/
  same : ∀ (j k : Nat) id id' group, nodes[j]? = some (id, group, false) →
    nodes[k]? = some (id', group, false) → ∃ swatch,
      (lines nodes)[j]? = some (plainLine scheme id swatch) ∧
        (lines nodes)[k]? = some (plainLine scheme id' swatch)
  /-- As many groups in a row as there are swatches come to different ones. -/
  apart : ∀ k, ((((groupsSeen nodes).drop k).take scheme.nodes.length).map fun group =>
    turn nodes group % scheme.nodes.length).Nodup
  /-- Entry points make no difference to the others. -/
  unaffected : lines (nodes.filter fun n => !n.2.2) =
    ((nodes.zip (lines nodes)).filter fun e => !e.1.2.2).map Prod.snd

/-! ## One turn after another -/

/-- The place of a group and the groups with it. -/
theorem slot_eq (groups : List String) (group : String) : slot groups group =
    (groups.idxOf group, if group ∈ groups then groups else groups ++ [group]) := by
  unfold slot
  rw [List.idxOf_eq_getD_idxOf?]
  cases h : groups.idxOf? group with
  | none => rw [if_neg (List.idxOf?_eq_none_iff.1 h), Option.getD_none]
  | some k =>
    have hmem : group ∈ groups := by
      by_contra hmem
      exact absurd ((List.idxOf?_eq_none_iff.2 hmem).symm.trans h) (by simp)
    rw [if_pos hmem, Option.getD_some]

section Turns

variable (before nodes : List StyledNode) (id group : String)

theorem plainGroups_append :
    plainGroups (before ++ nodes) = plainGroups before ++ plainGroups nodes := by
  simp [plainGroups]

theorem groupsSeen_concat_entry :
    groupsSeen (before ++ [(id, group, true)]) = groupsSeen before := by
  rw [groupsSeen, plainGroups_append, groupsSeen]
  simp [plainGroups]

/-- A group that has not been seen comes behind the others. -/
theorem groupsSeen_concat_plain : groupsSeen (before ++ [(id, group, false)]) =
    if group ∈ groupsSeen before then groupsSeen before else groupsSeen before ++ [group] := by
  rw [groupsSeen, plainGroups_append, groupsSeen, ← List.eraseDups_concat]
  rfl

theorem turn_eq_idxOf : turn nodes group = (groupsSeen nodes).idxOf group :=
  (List.idxOf_eraseDups _ _).symm

/-- What comes later does not change the turn of a group. -/
theorem turn_append_cons :
    turn (before ++ (id, group, false) :: nodes) group = (groupsSeen before).idxOf group := by
  have hgroups : plainGroups (before ++ (id, group, false) :: nodes) =
      plainGroups before ++ group :: plainGroups nodes :=
    plainGroups_append before _
  rw [turn, hgroups, List.takeWhile_append_cons (by simp), ← List.idxOf_eraseDups, groupsSeen]

end Turns

/-- The style line of a node in the turn `k` of its group. -/
def lineAt (scheme : Scheme) (k : Nat) : StyledNode → String
  | (id, _, true) => entryLine scheme id
  | (id, _, false) => plainLine scheme id (rotate scheme.nodes k)

/-- Behind other nodes, nodes are styled by the turns their groups have in the whole sequence. -/
theorem nodeStyles_append (scheme : Scheme) : ∀ before nodes : List StyledNode,
    nodeStyles ⟨scheme, groupsSeen before⟩ nodes =
      nodes.map fun n => lineAt scheme (turn (before ++ nodes) n.2.1) n
  | _, [] => rfl
  | before, (id, group, isEntry) :: nodes => by
    have hnext := nodeStyles_append scheme (before ++ [(id, group, isEntry)]) nodes
    rw [List.append_assoc, List.singleton_append] at hnext
    cases isEntry with
    | true =>
      rw [groupsSeen_concat_entry] at hnext
      rw [nodeStyles, nodeStyle, if_pos rfl, List.map_cons, ← hnext]
      rfl
    | false =>
      rw [groupsSeen_concat_plain] at hnext
      rw [nodeStyles, nodeStyle, if_neg Bool.false_ne_true, slot_eq, List.map_cons, ← hnext,
        turn_append_cons]
      rfl

theorem nodeStyles_eq (scheme : Scheme) (nodes : List StyledNode) :
    nodeStyles ⟨scheme, []⟩ nodes = nodes.map fun n => lineAt scheme (turn nodes n.2.1) n :=
  nodeStyles_append scheme [] nodes

/-! ## Groups in a row -/

/-- The turns of groups are their places in the order in which they are first seen. -/
theorem turn_groupsSeen (nodes : List StyledNode) {k : Nat} {group : String}
    (h : (groupsSeen nodes)[k]? = some group) : turn nodes group = k := by
  obtain ⟨hlt, rfl⟩ := List.getElem?_eq_some_iff.1 h
  rw [turn_eq_idxOf]
  exact (List.nodup_eraseDups _).idxOf_getElem k hlt

/-- Numbers that are less than `n` apart are told by their remainders. -/
theorem mod_ne_mod {j k n : Nat} (hlt : j < k) (hnear : k < j + n) : j % n ≠ k % n := by
  intro h
  have hdvd : n ∣ k - j := (Nat.modEq_iff_dvd' hlt.le).1 h
  have hle := Nat.le_of_dvd (Nat.sub_pos_of_lt hlt) hdvd
  omega

/-- Groups in a row, no more than there are swatches, come to different ones. -/
theorem nodup_turns (nodes : List StyledNode) (k n : Nat) :
    ((((groupsSeen nodes).drop k).take n).map fun group => turn nodes group % n).Nodup := by
  have hturn : ∀ j group, (((groupsSeen nodes).drop k).take n)[j]? = some group →
      j < n ∧ turn nodes group = k + j := by
    intro j group h
    rw [List.getElem?_take] at h
    split_ifs at h with hj
    exact ⟨hj, turn_groupsSeen nodes (by rwa [List.getElem?_drop] at h)⟩
  rw [List.Nodup, List.pairwise_map, List.pairwise_iff_getElem]
  intro i j hi hj hij
  obtain ⟨-, hturni⟩ := hturn i _ (List.getElem?_eq_getElem hi)
  obtain ⟨hlt, hturnj⟩ := hturn j _ (List.getElem?_eq_getElem hj)
  rw [hturni, hturnj]
  exact mod_ne_mod (by omega) (by omega)

/-- A new palette styles nodes in turns. -/
theorem nodeStyles_inTurns (scheme : Scheme) (nodes : List StyledNode) :
    InTurns scheme (nodeStyles ⟨scheme, []⟩) nodes := by
  have hline : ∀ {k : Nat} {n}, nodes[k]? = some n →
      (nodeStyles ⟨scheme, []⟩ nodes)[k]? = some (lineAt scheme (turn nodes n.2.1) n) := by
    intro k n h
    rw [nodeStyles_eq, List.getElem?_map, h, Option.map_some]
  refine ⟨?_, fun k id group h => hline h, fun k id group h => ⟨_, hline h, fun hne => ?_⟩,
    fun j k id id' group hj hk => ⟨_, hline hj, hline hk⟩, fun k => nodup_turns nodes k _, ?_⟩
  · rw [nodeStyles_eq, List.length_map]
  · have hlt := Nat.mod_lt (turn nodes group) (List.length_pos_iff.2 hne)
    rw [rotate, List.getElem?_eq_getElem hlt, Option.getD_some]
  · have hgroups : ∀ group, turn (nodes.filter fun n => !n.2.2) group = turn nodes group := by
      intro group
      rw [turn, turn, plainGroups, plainGroups, List.filter_filter]
      simp only [Bool.and_self]
    simp only [nodeStyles_eq, hgroups]
    rw [← List.map_prod_left_eq_zip, List.filter_map, List.map_map]
    rfl

/-- No scheme that has a name is without swatches. -/
example : ∀ scheme ∈ Scheme.all, scheme.nodes ≠ [] := by
  decide

end Palette

end CallChart
