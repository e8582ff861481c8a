import CallChart.Block
import Mathlib.Data.List.Basic

/-!
# Ids

Ids of nodes, directories, files and classes are told apart by their characters : `N` and
digits, `dir_` and digits, `file_` and digits, and the id of a file followed by an underscore
and digits. Numbers have distinct digits (`toDigits_inj`), so each family is injective and no
two families share an id.
-/

namespace CallChart

theorem toDigits_inj {j k : Nat} : Nat.toDigits 10 j = Nat.toDigits 10 k ↔ j = k := by
  refine ⟨fun h => ?_, fun h => h ▸ rfl⟩
  rw [← Nat.ofDigitChars_ten_toDigits (n := j), h, Nat.ofDigitChars_ten_toDigits]

/-! ## Their characters -/

theorem toList_nodeId (k : Nat) : (nodeId k).toList = 'N' :: Nat.toDigits 10 k := by
  simp [nodeId]

theorem toList_directoryId (k : Nat) :
    (directoryId k).toList = 'd' :: 'i' :: 'r' :: '_' :: Nat.toDigits 10 k := by
  simp [directoryId]

theorem toList_fileId (k : Nat) :
    (fileId k).toList = 'f' :: 'i' :: 'l' :: 'e' :: '_' :: Nat.toDigits 10 k := by
  simp [fileId]

theorem toList_classId (file : String) (k : Nat) :
    (classId file k).toList = file.toList ++ '_' :: Nat.toDigits 10 k := by
  simp [classId]

/-! ## Their families -/

theorem nodeId_inj {j k : Nat} : nodeId j = nodeId k ↔ j = k := by
  rw [← String.toList_inj, toList_nodeId, toList_nodeId, List.cons.injEq, toDigits_inj]
  simp

theorem directoryId_inj {j k : Nat} : directoryId j = directoryId k ↔ j = k := by
  simp [← String.toList_inj, toList_directoryId, toDigits_inj]

theorem fileId_inj {j k : Nat} : fileId j = fileId k ↔ j = k := by
  simp [← String.toList_inj, toList_fileId, toDigits_inj]

theorem classId_inj {i j k l : Nat} :
    classId (fileId i) j = classId (fileId k) l ↔ i = k ∧ j = l := by
  simp only [← String.toList_inj, toList_classId, toList_fileId, List.cons_append,
    List.cons.injEq, true_and]
  rw [List.append_cons_inj_of_notMem Nat.underscore_not_in_toDigits Nat.underscore_not_in_toDigits,
    toDigits_inj, toDigits_inj]
  simp

theorem classId_ne_fileId (i j k : Nat) : classId (fileId i) j ≠ fileId k := fun h => by
  have h := String.toList_inj.2 h
  simp only [toList_classId, toList_fileId, List.cons_append, List.cons.injEq, true_and] at h
  exact Nat.underscore_not_in_toDigits (h ▸ List.mem_append_right _ List.mem_cons_self)

theorem directoryId_ne_fileId (j k : Nat) : directoryId j ≠ fileId k := fun h => by
  have h := String.toList_inj.2 h
  simp [toList_directoryId, toList_fileId] at h

theorem directoryId_ne_classId (i j k : Nat) : directoryId i ≠ classId (fileId j) k := fun h => by
  have h := String.toList_inj.2 h
  simp [toList_directoryId, toList_classId, toList_fileId] at h

end CallChart
