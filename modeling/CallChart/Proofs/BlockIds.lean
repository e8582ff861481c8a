import CallChart.Proofs.Ids
import CallChart.Proofs.Items
import Mathlib.Data.List.Nodup

/-!
# Ids of blocks

A layout takes a numbering and gives back another, and the ids it issues lie between the two.
`Numbering.Issued c c' id` says so of one id, and `Numbering.Fresh c c' ids` of all ids of a
layout : each was issued, and none twice. What is issued from `a` to `b` is not issued again from
`b` to `c` (`Issued.ne`), so two layouts that follow one another have fresh ids together
(`Fresh.append`), and by induction over the grouping so has every layout (`Item.fresh_layout`).
No id of a block is the id of a node (`Issued.ne_nodeId`).
-/

namespace CallChart

namespace Numbering

/-- An id that is issued while a numbering goes from `c` to `c'`. -/
inductive Issued (c c' : Numbering) : String → Prop
  | ofDirectory {k : Nat} (hlt : c.directories < k) (hle : k ≤ c'.directories) :
    Issued c c' (directoryId k)
  | ofFile {k : Nat} (hlt : c.files < k) (hle : k ≤ c'.files) : Issued c c' (fileId k)
  | ofClass {k : Nat} (j : Nat) (hlt : c.files < k) (hle : k ≤ c'.files) :
    Issued c c' (classId (fileId k) j)

/-- `c'` has issued what `c` has. -/
structure AtMost (c c' : Numbering) : Prop where
  directories : c.directories ≤ c'.directories
  files : c.files ≤ c'.files

/-- Distinct ids, all issued while a numbering goes from `c` to `c'`. -/
structure Fresh (c c' : Numbering) (ids : List String) : Prop where
  atMost : AtMost c c'
  issued : ∀ id ∈ ids, Issued c c' id
  nodup : ids.Nodup

variable {a b c c' : Numbering} {id id' : String} {ids ids' : List String}

theorem Issued.mono (hab : AtMost a b) (hcc' : AtMost c c') : Issued b c id → Issued a c' id
  | .ofDirectory hlt hle =>
    .ofDirectory (Nat.lt_of_le_of_lt hab.directories hlt) (Nat.le_trans hle hcc'.directories)
  | .ofFile hlt hle => .ofFile (Nat.lt_of_le_of_lt hab.files hlt) (Nat.le_trans hle hcc'.files)
  | .ofClass j hlt hle =>
    .ofClass j (Nat.lt_of_le_of_lt hab.files hlt) (Nat.le_trans hle hcc'.files)

/-- What is issued up to `b` is not issued again from `b` on. -/
theorem Issued.ne : Issued a b id → Issued b c id' → id ≠ id'
  | .ofDirectory _ hle, .ofDirectory hlt _ => fun h => by
    have := directoryId_inj.1 h
    omega
  | .ofDirectory .., .ofFile .. => directoryId_ne_fileId _ _
  | .ofDirectory .., .ofClass .. => directoryId_ne_classId _ _ _
  | .ofFile .., .ofDirectory .. => (directoryId_ne_fileId _ _).symm
  | .ofFile _ hle, .ofFile hlt _ => fun h => by
    have := fileId_inj.1 h
    omega
  | .ofFile .., .ofClass .. => (classId_ne_fileId _ _ _).symm
  | .ofClass .., .ofDirectory .. => (directoryId_ne_classId _ _ _).symm
  | .ofClass .., .ofFile .. => classId_ne_fileId _ _ _
  | .ofClass _ _ hle, .ofClass _ hlt _ => fun h => by
    have := (classId_inj.1 h).1
    omega

theorem Issued.ne_nodeId (k : Nat) : Issued a b id → id ≠ nodeId k
  | .ofDirectory .. => by simp [← String.toList_inj, toList_directoryId, toList_nodeId]
  | .ofFile .. => by simp [← String.toList_inj, toList_fileId, toList_nodeId]
  | .ofClass .. => by simp [← String.toList_inj, toList_classId, toList_fileId, toList_nodeId]

theorem Fresh.nil (c : Numbering) : Fresh c c [] :=
  ⟨⟨Nat.le_refl _, Nat.le_refl _⟩, by simp, List.nodup_nil⟩

theorem Fresh.append (h : Fresh a b ids) (h' : Fresh b c ids') : Fresh a c (ids ++ ids') where
  atMost := ⟨Nat.le_trans h.atMost.directories h'.atMost.directories,
    Nat.le_trans h.atMost.files h'.atMost.files⟩
  issued id hid := by
    rcases List.mem_append.1 hid with hid | hid
    · exact (h.issued id hid).mono (Fresh.nil a).atMost h'.atMost
    · exact (h'.issued id hid).mono h.atMost (Fresh.nil c).atMost
  nodup := List.nodup_append.2
    ⟨h.nodup, h'.nodup, fun id hid id' hid' => (h.issued id hid).ne (h'.issued id' hid')⟩

theorem fresh_nextDirectory (c : Numbering) : Fresh c c.nextDirectory.2 [c.nextDirectory.1] where
  atMost := ⟨Nat.le_succ _, Nat.le_refl _⟩
  issued id hid := by
    rw [List.mem_singleton.1 hid]
    exact .ofDirectory (Nat.lt_succ_self _) (Nat.le_refl _)
  nodup := List.nodup_singleton _

/-- A file and its classes, at distinct places. -/
theorem fresh_nextFile (c : Numbering) {places : List Nat} (h : places.Nodup) :
    Fresh c c.nextFile.2 (c.nextFile.1 :: places.map (classId c.nextFile.1)) where
  atMost := ⟨Nat.le_refl _, Nat.le_succ _⟩
  issued id hid := by
    rcases List.mem_cons.1 hid with rfl | hid
    · exact .ofFile (Nat.lt_succ_self _) (Nat.le_refl _)
    · obtain ⟨j, -, rfl⟩ := List.mem_map.1 hid
      exact .ofClass j (Nat.lt_succ_self _) (Nat.le_refl _)
  nodup := by
    refine List.nodup_cons.2 ⟨fun hmem => ?_, h.map fun i j hij => (classId_inj.1 hij).2⟩
    obtain ⟨j, -, hj⟩ := List.mem_map.1 hmem
    exact classId_ne_fileId _ _ _ hj

end Numbering

namespace Item

open CallChart.Numbering (Fresh fresh_nextDirectory fresh_nextFile)

variable (r : Roster) (most : Nat)

theorem blockIds_nodesOf (functions : List String) :
    (nodesOf r most functions).flatMap blockIds = [] := by
  rw [List.flatMap_eq_nil_iff]
  intro item hitem
  obtain ⟨name, -, hname⟩ := List.mem_filterMap.1 hitem
  obtain ⟨id, -, rfl⟩ := Option.map_eq_some_iff.1 hname
  exact blockIds_node _ _

/-- The blocks of a file are those of its wrapped classes. -/
theorem blockIds_ofClasses (file : String) (classes : Classes) :
    (ofClasses r most file classes).flatMap blockIds =
      ((classes.zipIdx.filter fun p => wrapsClasses classes && !isModuleClass p.1.1).map
        Prod.snd).map (classId file) := by
  rw [ofClasses, List.flatMap_assoc, List.map_map]
  induction classes.zipIdx with
  | nil => rfl
  | cons p ps ih =>
    rw [List.flatMap_cons, ih, List.filter_cons]
    cases wrapsClasses classes && !isModuleClass p.1.1 <;> simp [blockIds_nodesOf]

theorem fresh_ofFiles : ∀ (c : Numbering) (files : Entries Classes),
    Fresh c (ofFiles r most c files).2 ((ofFiles r most c files).1.flatMap blockIds)
  | c, [] => .nil c
  | c, (stem, classes) :: files => by
    rw [ofFiles]
    split
    · have hplaces : ((classes.zipIdx.filter fun p =>
          wrapsClasses classes && !isModuleClass p.1.1).map Prod.snd).Nodup := by
        refine List.Nodup.sublist (List.filter_sublist.map _) ?_
        rw [List.zipIdx_map_snd]
        exact List.nodup_range'
      have hfile := fresh_nextFile c hplaces
      rw [← blockIds_ofClasses r most] at hfile
      simpa using hfile.append (fresh_ofFiles c.nextFile.2 files)
    · exact fresh_ofFiles c files

mutual

/-- A layout issues every id once. -/
theorem fresh_layout (c : Numbering) : ∀ g : Grouping,
    Fresh c (layout r most c g).2 ((layout r most c g).1.flatMap blockIds)
  | .level files directories => by
    rw [layout]
    simpa using (fresh_ofFiles r most c files).append
      (fresh_ofDirectories (ofFiles r most c files).2 directories)

theorem fresh_ofDirectories (c : Numbering) : ∀ directories : List (String × Grouping),
    Fresh c (ofDirectories r most c directories).2
      ((ofDirectories r most c directories).1.flatMap blockIds)
  | [] => .nil c
  | (name, g) :: rest => by
    rw [ofDirectories]
    split
    · have hblock := (fresh_nextDirectory c).append (fresh_layout c.nextDirectory.2 g)
      simpa using hblock.append (fresh_ofDirectories _ rest)
    · exact fresh_ofDirectories c rest

end

end Item

end CallChart
