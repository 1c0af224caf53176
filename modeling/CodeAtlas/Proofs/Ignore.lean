import CodeAtlas.Ignore.Rules
import CodeAtlas.Proofs.FileTree

/-!
# Rules of a tree that has moved

Which files are left out below a place depends on the entries below it, and above it on plain rules
and on the roots of version-controlled trees alone. Where there are none of these above, the same
files are left out wherever the entries lie.
-/

namespace CodeAtlas

namespace Ignore

variable {tree other : FileTree} {place site names : Trail} {isDirectory : Bool}

theorem directoriesAbove_append (place names : Trail) :
    directoriesAbove (place ++ names) =
      (directoriesAbove names).map (place ++ ·) ++ directoriesAbove place := by
  rw [directoriesAbove, List.length_append, List.range_add, List.reverse_append, List.map_append]
  congr 1
  · rw [directoriesAbove, ← List.map_reverse, List.map_map, List.map_map]
    refine List.map_congr_left fun length _ => ?_
    simp [List.take_append, List.take_of_length_le]
  · refine List.map_congr_left fun length hm => ?_
    have hlength : length < place.length := by simpa using hm
    exact List.take_append_of_le_length (Nat.le_of_lt hlength)

/-- No directory above a place has plain rules or is the root of a version-controlled tree. -/
def IsUnruled (tree : FileTree) (place : Trail) : Prop :=
  ∀ directory ∈ directoriesAbove place, ∀ name ∈ [".ignore", ".git", ".jj"],
    tree.get? (directory ++ [name]) = none

instance (tree : FileTree) (place : Trail) : Decidable (IsUnruled tree place) :=
  inferInstanceAs (Decidable (∀ directory ∈ directoriesAbove place, _))

/-- The same entries lie below two places. -/
def SameEntries (tree : FileTree) (place : Trail) (other : FileTree) (site : Trail) : Prop :=
  ∀ names, names ≠ [] → other.get? (site ++ names) = tree.get? (place ++ names)

/-- The directories down to the root of a version-controlled tree, by the names that lead to them
from a place. -/
def withinBelow (tree : FileTree) (place : Trail) (directories : List Trail) : List Trail :=
  match directories.findIdx? fun directory => isTreeRoot tree (place ++ directory) with
  | some index => directories.take (index + 1)
  | none => []

theorem withinTree_append (h : IsUnruled tree place) (directories : List Trail) :
    withinTree tree (directories.map (place ++ ·) ++ directoriesAbove place) =
      (withinBelow tree place directories).map (place ++ ·) := by
  have hnone : (directoriesAbove place).findIdx? (isTreeRoot tree) = none := by
    rw [List.findIdx?_eq_none_iff]
    intro directory hm
    simp [isTreeRoot, h directory hm ".git" (by simp), h directory hm ".jj" (by simp)]
  rw [withinTree, withinBelow, List.findIdx?_append, hnone, List.findIdx?_map]
  have hcomp : (isTreeRoot tree ∘ fun directory => place ++ directory) =
      fun directory => isTreeRoot tree (place ++ directory) := rfl
  rw [hcomp]
  cases hi : directories.findIdx? fun directory => isTreeRoot tree (place ++ directory) with
  | none => rfl
  | some index =>
      have hlt : index < directories.length := (List.findIdx?_eq_some_iff_findIdx_eq.1 hi).1
      simp only [Option.some_or]
      rw [List.take_append_of_le_length (by simpa using Nat.succ_le_of_lt hlt), List.map_take]

theorem nearestVerdict?_append (file : Trail) (trail : Trail) (directories outer : List Trail)
    (h : ∀ directory ∈ outer, tree.get? (directory ++ file) = none) :
    nearestVerdict? tree file trail isDirectory (directories ++ outer) =
      nearestVerdict? tree file trail isDirectory directories := by
  have hnone : nearestVerdict? tree file trail isDirectory outer = none := by
    rw [nearestVerdict?, List.findSome?_eq_none_iff]
    intro directory hm
    rw [h directory hm]
  rw [nearestVerdict?, List.findSome?_append]
  exact (congrArg _ hnone).trans (Option.or_none ..)

section

variable (h : SameEntries tree place other site)

include h

theorem isTreeRoot_eq (directory : Trail) :
    isTreeRoot other (site ++ directory) = isTreeRoot tree (place ++ directory) := by
  simp only [isTreeRoot, List.append_assoc]
  rw [h _ (by simp), h _ (by simp)]

theorem withinBelow_eq (directories : List Trail) :
    withinBelow other site directories = withinBelow tree place directories := by
  rw [withinBelow, withinBelow]
  simp only [isTreeRoot_eq h]

theorem nearestVerdict?_eq {file : Trail} (hfile : file ≠ []) (names : Trail)
    (directories : List Trail) :
    nearestVerdict? other file (site ++ names) isDirectory (directories.map (site ++ ·)) =
      nearestVerdict? tree file (place ++ names) isDirectory (directories.map (place ++ ·)) := by
  have hdrop (front directory : Trail) :
      (front ++ names).drop (front ++ directory).length = names.drop directory.length := by
    simp [List.drop_append]
  simp only [nearestVerdict?, List.findSome?_map, Function.comp_def, hdrop, List.append_assoc]
  congr 1
  funext directory
  rw [h _ (by simp [hfile])]

variable (htree : IsUnruled tree place) (hother : IsUnruled other site)

include htree hother

theorem verdictAt?_eq (names : Trail) :
    verdictAt? other (site ++ names) isDirectory = verdictAt? tree (place ++ names) isDirectory := by
  simp only [verdictAt?, directoriesAbove_append, withinTree_append htree,
    withinTree_append hother, withinBelow_eq h]
  rw [nearestVerdict?_append [".ignore"] _ _ _ fun directory hm => htree directory hm _ (by simp),
    nearestVerdict?_append [".ignore"] _ _ _ fun directory hm => hother directory hm _ (by simp),
    nearestVerdict?_eq h (by simp), nearestVerdict?_eq h (by simp), nearestVerdict?_eq h (by simp)]

theorem isLeftOut_eq (names : Trail) :
    isLeftOut other site (site ++ names) = isLeftOut tree place (place ++ names) := by
  have habove (tree : FileTree) (place : Trail) :
      ((directoriesAbove place).any fun directory => place.length < directory.length &&
        verdictAt? tree directory true = some .ignored) = false := by
    rw [List.any_eq_false]
    intro directory hm
    obtain ⟨length, -, rfl⟩ := List.mem_map.1 hm
    have hle : ¬ place.length < (place.take length).length :=
      Nat.not_lt.2 (List.length_take_le' ..)
    rw [decide_eq_false hle, Bool.false_and]
    exact Bool.false_ne_true
  rw [isLeftOut, isLeftOut, verdictAt?_eq h htree hother]
  simp only [directoriesAbove_append, List.any_append, habove, List.any_map, Function.comp_def,
    verdictAt?_eq h htree hother, List.length_append, Nat.lt_add_right_iff_pos]

end

end Ignore

end CodeAtlas
