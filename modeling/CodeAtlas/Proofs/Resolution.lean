import CodeAtlas.Proofs.FileTree
import CodeAtlas.Resolution

/-!
# Where references lead

A reference that is resolved leads to a file of the tree, and never out of the tree: its segments
are names, whatever text they were written in. The module's own file goes before the package file. A
reference leads nowhere just where it climbs above the root, where its segments are no names, and
where there is neither of the two files.
-/

namespace CodeAtlas

namespace Resolution

theorem isSegment_iff {segment : String} :
    isSegment segment = true ↔
      Path.IsName segment ∧ '/' ∉ segment.toList ∧ '\\' ∉ segment.toList := by
  simp [isSegment, Path.IsName, and_assoc]

/-! ## References -/

/-- The names of the directories on the way to a file. -/
def directoriesOf (file : String) : List String :=
  ((Path.split '/' file).filter (· ≠ "")).dropLast

theorem climb_eq (level : Nat) (names : List String) :
    climb level names =
      if names.length < level then none else some (names.take (names.length - level)) := by
  induction level generalizing names with
  | zero => simp [climb]
  | succ level ih =>
      rw [climb, ih]
      cases names with
      | nil => simp
      | cons name rest =>
          have hlength : (name :: rest).dropLast.length = rest.length := by simp
          have hbound : rest.length < level ↔ (name :: rest).length < level + 1 := by simp
          rw [hlength, List.isEmpty_cons, if_neg Bool.false_ne_true]
          simp only [hbound]
          split
          · rfl
          · rw [List.dropLast_eq_take, List.take_take]
            congr 2
            simp only [List.length_cons]
            omega

theorem package?_eq (file : String) (level : Nat) :
    package? file level =
      if (directoriesOf file).length < level - 1 then none
      else some ((directoriesOf file).take ((directoriesOf file).length - (level - 1))) :=
  climb_eq (level - 1) (directoriesOf file)

/-- A reference to a module: by its name from the root, or from the package of a file, which is one
package further up for each level above the first. -/
inductive Reference where
  | absolute (module : String)
  | relative (file : String) (level : Nat) (module : Option String)

namespace Reference

/-- There are not as many packages around the file as the reference leads up. -/
def Climbs : Reference → Prop
  | absolute _ => False
  | relative file level _ => (directoriesOf file).length < level - 1

instance : DecidablePred Climbs
  | absolute _ => inferInstanceAs (Decidable False)
  | relative _ _ _ => inferInstanceAs (Decidable (_ < _))

def segments : Reference → List String
  | absolute module => segmentsOf module
  | relative file level module =>
      (directoriesOf file).take ((directoriesOf file).length - (level - 1)) ++
        (module.map segmentsOf).getD []

/-- The segments as a path, to which a file adds its end. -/
def stem (reference : Reference) : String := "/".intercalate reference.segments

end Reference

end Resolution

namespace SourceTree

open Resolution

variable {tree : SourceTree} {segments : List String} {path : String}

/-! ## Segments -/

/-- The file of the module that segments name. -/
def moduleFile (tree : SourceTree) (segments : List String) : String :=
  "/".intercalate segments ++ "." ++ tree.language.moduleExtension

/-- The file of the package that segments name. -/
def packageFile (tree : SourceTree) (segments : List String) : String :=
  "/".intercalate segments ++ "/" ++ tree.language.packageFile

theorem fileOf?_eq (tree : SourceTree) (segments : List String) :
    tree.fileOf? segments =
      if segments = [] ∨ ∃ segment ∈ segments, isSegment segment = false then none
      else if tree.hasFile (tree.moduleFile segments) then some (tree.moduleFile segments)
      else if tree.hasFile (tree.packageFile segments) then some (tree.packageFile segments)
      else none := by
  have hguard : (segments.isEmpty || !segments.all isSegment) = true ↔
      segments = [] ∨ ∃ segment ∈ segments, isSegment segment = false := by simp
  exact ite_congr (propext hguard) (fun _ => rfl) fun _ => rfl

theorem fileOf?_eq_none_iff : tree.fileOf? segments = none ↔
    segments = [] ∨ (∃ segment ∈ segments, isSegment segment = false) ∨
      tree.hasFile (tree.moduleFile segments) = false ∧
        tree.hasFile (tree.packageFile segments) = false := by
  rw [fileOf?_eq, ← or_assoc]
  split
  · simp_all
  · split
    · simp_all
    · split <;> simp_all

theorem fileOf?_eq_some_iff : tree.fileOf? segments = some path ↔
    segments ≠ [] ∧ (∀ segment ∈ segments, isSegment segment = true) ∧ tree.hasFile path = true ∧
      (path = tree.moduleFile segments ∨
        tree.hasFile (tree.moduleFile segments) = false ∧ path = tree.packageFile segments) := by
  rw [fileOf?_eq]
  split
  · rename_i hbad
    simp only [reduceCtorEq, false_iff]
    rintro ⟨hne, hall, -⟩
    rcases hbad with hnil | ⟨segment, hm, hs⟩
    · exact hne hnil
    · rw [hall segment hm] at hs
      cases hs
  · rename_i hgood
    simp only [not_or, not_exists, not_and, Bool.not_eq_false] at hgood
    grind

/-- A path leads to a file of the tree, which lies below the root in every known language. -/
structure Contains (tree : SourceTree) (path : String) : Prop where
  hasFile : tree.hasFile path = true
  descends : tree.language ∈ Language.all → Path.Descends path

theorem contains_of_fileOf? (h : tree.fileOf? segments = some path) : tree.Contains path := by
  obtain ⟨hne, hsegments, hfile, hpath⟩ := fileOf?_eq_some_iff.1 h
  refine ⟨hfile, fun hl => ?_⟩
  have hpython : tree.language = Language.python := List.mem_singleton.1 hl
  have hnames : ∀ segment ∈ segments, Path.IsName segment ∧ '/' ∉ segment.toList := by
    intro segment hm
    obtain ⟨hn, hs, -⟩ := isSegment_iff.1 (hsegments segment hm)
    exact ⟨hn, hs⟩
  intro name hm
  rcases hpath with rfl | ⟨-, rfl⟩
  · have hext : "." ++ Language.python.moduleExtension = ".py" := rfl
    rw [← List.dropLast_concat_getLast hne] at hnames hm
    have hlast : '/' ∉ (segments.getLast hne).toList := (hnames _ (by simp)).2
    rw [moduleFile, hpython, String.append_assoc, hext, Path.split_intercalate_append _ _
      fun segment hs => (hnames segment (by simp [hs])).2] at hm
    rw [Path.split_of_not_mem (by simp [hlast])] at hm
    rcases List.mem_append.1 hm with hm | hm
    · exact (hnames name (by simp [hm])).1
    · rw [List.mem_singleton.1 hm]
      exact Path.IsName.append_extension _
  · have hpackage : Path.split '/' Language.python.packageFile = ["__init__.py"] := by decide
    rw [packageFile, hpython, Path.split_append_slash, hpackage,
      Path.split_intercalate hne fun segment hs => (hnames segment hs).2] at hm
    rcases List.mem_append.1 hm with hm | hm
    · exact (hnames name hm).1
    · rw [List.mem_singleton.1 hm]
      exact Path.IsName.append_extension "__init__"

theorem contains_of_resolve? {module : String} (h : tree.resolve? module = some path) :
    tree.Contains path := contains_of_fileOf? h

theorem contains_of_resolveRelative? {file : String} {level : Nat} {module : Option String}
    (h : tree.resolveRelative? file level module = some path) : tree.Contains path := by
  obtain ⟨package, -, hp⟩ := Option.bind_eq_some_iff.1 h
  exact contains_of_fileOf? hp

/-! ## Resolved references -/

def target? (tree : SourceTree) : Reference → Option String
  | .absolute module => tree.resolve? module
  | .relative file level module => tree.resolveRelative? file level module

theorem target?_eq (tree : SourceTree) (reference : Reference) : tree.target? reference =
    if reference.Climbs then none else tree.fileOf? reference.segments := by
  cases reference with
  | absolute module => exact (if_neg id).symm
  | relative file level module =>
      rw [target?, resolveRelative?, package?_eq]
      by_cases h : (directoriesOf file).length < level - 1
      · rw [if_pos h]
        exact (if_pos (show Reference.Climbs (.relative file level module) from h)).symm
      · rw [if_neg h]
        exact (if_neg (show ¬ Reference.Climbs (.relative file level module) from h)).symm

theorem exists_place_of_contains (hl : tree.language ∈ Language.all) (h : tree.Contains path) :
    ∃ top content, tree.files.placeOf tree.root = .ok top ∧
      tree.files.locate (Path.join tree.root path) = .ok (top ++ Path.split '/' path) ∧
      tree.files.get? (top ++ Path.split '/' path) = some (.file content) := by
  have hfile := h.hasFile
  rw [hasFile, FileTree.isFile, FileTree.find?] at hfile
  cases hplace : tree.files.locate (Path.join tree.root path) with
  | error cause => simp [hplace] at hfile
  | ok place =>
      obtain ⟨top, htop, rfl⟩ := FileTree.locate_join (h.descends hl) hplace
      rw [hplace] at hfile
      cases hentry : tree.files.get? (top ++ Path.split '/' path) with
      | none => simp [hentry] at hfile
      | some entry =>
          cases entry with
          | directory => simp [hentry] at hfile
          | file content => exact ⟨top, content, htop, rfl, hentry⟩

/-- What a reference is resolved to is the path of its segments with an end, namely that of a
module's file, or that of a package file where there is no module's file. It is a path down from the
root to a file. A reference is not resolved just where it climbs above the root, has no segments or
one that is no name, or where neither file is there. -/
theorem target?_of_reference (files : FileTree) (root : String) (reference : Reference) :
    let tree : SourceTree := ⟨files, root, .python⟩
    let module := reference.stem ++ ".py"
    let package := reference.stem ++ "/__init__.py"
    (∀ path, tree.target? reference = some path →
      (path = module ∨ tree.hasFile module = false ∧ path = package) ∧
      Path.isAbsolute path = false ∧ Path.Descends path ∧
      ∃ top content, files.placeOf root = .ok top ∧
        files.locate (Path.join root path) = .ok (top ++ Path.split '/' path) ∧
        files.get? (top ++ Path.split '/' path) = some (.file content)) ∧
    (tree.target? reference = none ↔
      reference.Climbs ∨ reference.segments = [] ∨
      (∃ segment ∈ reference.segments,
        ¬ (Path.IsName segment ∧ '/' ∉ segment.toList ∧ '\\' ∉ segment.toList)) ∨
      tree.hasFile module = false ∧ tree.hasFile package = false) := by
  intro tree module package
  have hmodule : tree.moduleFile reference.segments = module := String.append_assoc
  have hpackage : tree.packageFile reference.segments = package := String.append_assoc
  have hlanguage : tree.language ∈ Language.all := List.mem_singleton.2 rfl
  rw [target?_eq]
  constructor
  · intro path hp
    obtain ⟨-, hfile⟩ := Option.ite_none_left_eq_some.1 hp
    obtain ⟨-, -, -, hpath⟩ := fileOf?_eq_some_iff.1 hfile
    have hcontains := contains_of_fileOf? hfile
    have hdown := hcontains.descends hlanguage
    rw [hmodule, hpackage] at hpath
    exact ⟨hpath, hdown.isAbsolute_eq_false, hdown, exists_place_of_contains hlanguage hcontains⟩
  · by_cases hclimbs : reference.Climbs
    · simp [hclimbs]
    · rw [if_neg hclimbs, fileOf?_eq_none_iff, hmodule, hpackage]
      simp only [hclimbs, false_or, ← isSegment_iff, Bool.not_eq_true]

end SourceTree

end CodeAtlas
