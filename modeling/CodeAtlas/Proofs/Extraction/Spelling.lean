import CodeAtlas.Proofs.Extraction.Locality
import CodeAtlas.Proofs.Syntax.Spelling

/-!
# Relative and absolute references

A reference from a file in nested packages leads where the absolute reference leads that spells out
the packages left after climbing. So a statement may name a module either way: it imports the same
names from the same file, and the edges of its file stay as they are.
-/

namespace CodeAtlas

open CodeAtlas.Extraction CodeAtlas.Graph CodeAtlas.Syntax

namespace Resolution

theorem directoriesOf_intercalate {directories : List String} {name : String}
    (hdirectories : ∀ directory ∈ directories, directory ≠ "" ∧ '/' ∉ directory.toList)
    (hname : name ≠ "" ∧ '/' ∉ name.toList) :
    directoriesOf ("/".intercalate (directories ++ [name])) = directories := by
  have hsplit : Path.split '/' ("/".intercalate (directories ++ [name])) =
      directories ++ [name] := by
    rw [Path.split_intercalate_mark rfl _ fun directory hm => (hdirectories directory hm).2,
      Path.split_of_not_mem hname.2]
  have hall : (directories ++ [name]).filter (· ≠ "") = directories ++ [name] := by
    rw [List.filter_eq_self]
    intro directory hm
    rcases List.mem_append.1 hm with hm | hm
    · simpa using (hdirectories directory hm).1
    · rw [List.mem_singleton.1 hm]
      simpa using hname.1
  rw [directoriesOf, hsplit, hall, List.dropLast_concat]

end Resolution

namespace SourceTree

open Resolution

variable {tree : SourceTree} {directories : List String} {name : String} {level : Nat}

section Packages

variable (hdirectories : ∀ directory ∈ directories,
    directory ≠ "" ∧ '.' ∉ directory.toList ∧ '/' ∉ directory.toList)
  (hname : name ≠ "" ∧ '/' ∉ name.toList) (hlevel : 1 ≤ level)

include hdirectories hname hlevel

theorem resolveRelative?_of_directories (module : Option String) :
    tree.resolveRelative? ("/".intercalate (directories ++ [name])) level module =
      if directories.length + 1 < level then none
      else tree.fileOf? (directories.take (directories.length + 1 - level) ++
        (module.map segmentsOf).getD []) := by
  have hfile : directoriesOf ("/".intercalate (directories ++ [name])) = directories :=
    directoriesOf_intercalate (fun directory hm =>
      ⟨(hdirectories directory hm).1, (hdirectories directory hm).2.2⟩) hname
  rw [resolveRelative?, package?_eq, hfile]
  by_cases h : directories.length + 1 < level
  · rw [if_pos h, if_pos (by omega)]
    rfl
  · rw [if_neg h, if_neg (by omega)]
    show tree.fileOf? (_ ++ _) = _
    congr 3
    omega

omit hname hlevel in
theorem not_mem_of_mem_take {count : Nat} :
    ∀ package ∈ directories.take count, '.' ∉ package.toList :=
  fun package hm => (hdirectories package (List.mem_of_mem_take hm)).2.1

theorem resolveRelative?_some_eq (h : level ≤ directories.length + 1) (module : String) :
    tree.resolveRelative? ("/".intercalate (directories ++ [name])) level (some module) =
      tree.resolve? (".".intercalate
        (directories.take (directories.length + 1 - level) ++ [module])) := by
  rw [resolveRelative?_of_directories hdirectories hname hlevel, if_neg (by omega), resolve?,
    segmentsOf, Path.split_intercalate_mark rfl _ (not_mem_of_mem_take hdirectories)]
  rfl

theorem resolveRelative?_none_eq (h : level ≤ directories.length) :
    tree.resolveRelative? ("/".intercalate (directories ++ [name])) level none =
      tree.resolve? (".".intercalate (directories.take (directories.length + 1 - level))) := by
  have hne : directories.take (directories.length + 1 - level) ≠ [] := by
    rw [← List.length_pos_iff, List.length_take]
    omega
  rw [resolveRelative?_of_directories hdirectories hname hlevel, if_neg (by omega), resolve?,
    segmentsOf, Path.split_intercalate_of_ne_nil rfl hne (not_mem_of_mem_take hdirectories)]
  exact congrArg tree.fileOf? (List.append_nil _)

theorem resolveRelative?_none_eq_none (h : directories.length < level) :
    tree.resolveRelative? ("/".intercalate (directories ++ [name])) level none = none := by
  rw [resolveRelative?_of_directories hdirectories hname hlevel]
  split
  · rfl
  · have hnil : directories.take (directories.length + 1 - level) = [] := by
      rw [List.take_eq_nil_iff]
      omega
    rw [hnil]
    rfl

end Packages

end SourceTree

/-! ## Imports in another form -/

/-- The second outline is the first one with one of its imports in another form. -/
structure Syntax.Outline.DiffersIn (first second : Outline) (imported other : Import) : Prop where
  references : second.references = first.references
  imports : ∃ before after, first.imports = before ++ imported :: after ∧
    second.imports = before ++ other :: after

theorem Extraction.edgesOf_eq_of_differsIn {tree : SourceTree} {file : String}
    {first second : Outline} {imported other : Import}
    (h : first.DiffersIn second imported other)
    (hlinks : linksOf tree file other = linksOf tree file imported) (convention : Convention) :
    edgesOf tree convention file second = edgesOf tree convention file first := by
  obtain ⟨before, after, hfirst, hsecond⟩ := h.imports
  have hall : links tree file second = links tree file first := by
    rw [links, links, hfirst, hsecond]
    simp only [List.flatMap_append, List.flatMap_cons, hlinks]
  rw [edgesOf, edgesOf, hall, h.references]

namespace SourceTree

open Import (CanBeSpelled)

variable {tree : SourceTree} {directories : List String} {name : String} {level : Nat}

/-- A relative reference from a file in nested packages leads where the spelling of its module below
the packages left leads, to the module itself where none is left, and nowhere beyond that; without a
module it leads to the packages left, if there are any. Where the packages are identifiers a statement
can be read with this spelling, unless it starts with the word of another statement, and a file keeps
its edges when the one import gives way to the other. -/
theorem relative_eq_absolute
    (hdirectories : ∀ directory ∈ directories,
      directory ≠ "" ∧ '.' ∉ directory.toList ∧ '/' ∉ directory.toList)
    (hname : name ≠ "" ∧ '/' ∉ name.toList) (hlevel : 1 ≤ level) (module : String) :
    let file := "/".intercalate (directories ++ [name])
    let packages := directories.take (directories.length + 1 - level)
    let spelling := ".".intercalate (packages ++ [module])
    (level ≤ directories.length →
      tree.resolveRelative? file level (some module) = tree.resolve? spelling) ∧
    (level = directories.length + 1 →
      tree.resolveRelative? file level (some module) = tree.resolve? module) ∧
    (directories.length + 1 < level → tree.resolveRelative? file level (some module) = none) ∧
    (level ≤ directories.length →
      tree.resolveRelative? file level none = tree.resolve? (".".intercalate packages)) ∧
    (directories.length < level → tree.resolveRelative? file level none = none) ∧
    (level ≤ directories.length + 1 →
      ((∀ directory ∈ directories, IsIdentifier directory) →
        firstWord? spelling ≠ some "__future__" → CanBeSpelled level module spelling) ∧
      ∀ names other text respelled outline changed convention, tree.SameFiles other →
        tree.text? file = some text → Outline.ofText? text = some outline →
        other.text? file = some respelled → Outline.ofText? respelled = some changed →
        outline.DiffersIn changed (.members level (some module) names)
          (.members 0 (some spelling) names) →
        other.extract convention file = tree.extract convention file) := by
  intro file packages spelling
  have hspelling (h : level ≤ directories.length + 1) :
      tree.resolveRelative? file level (some module) = tree.resolve? spelling :=
    resolveRelative?_some_eq hdirectories hname hlevel h module
  refine ⟨fun h => hspelling (by omega), fun h => ?_, fun h => ?_,
    resolveRelative?_none_eq hdirectories hname hlevel,
    resolveRelative?_none_eq_none hdirectories hname hlevel, fun h => ⟨?_, ?_⟩⟩
  · have hnone : spelling = module := by
      have hpackages : packages = [] := by
        rw [List.take_eq_nil_iff]
        omega
      show ".".intercalate (packages ++ [module]) = module
      rw [hpackages, List.nil_append, String.intercalate_singleton]
    rw [hspelling (by omega), hnone]
  · rw [resolveRelative?_of_directories hdirectories hname hlevel, if_pos h]
  · intro hidentifiers hfirst
    apply Import.canBeSpelled_chain _ (by omega) hfirst
    exact fun package hm => hidentifiers package (List.mem_of_mem_take hm)
  · intro names other text respelled outline changed convention hsame htext houtline hrespelled
      hchanged hdiffers
    have hlinks : linksOf tree file (.members 0 (some spelling) names) =
        linksOf tree file (.members level (some module) names) := by
      rw [linksOf, linksOf, if_pos rfl, if_neg (by omega), hspelling h]
    rw [extract_of_text? htext, extract_of_text? hrespelled, houtline, hchanged]
    dsimp only
    rw [hsame.edgesOf_eq, edgesOf_eq_of_differsIn hdiffers hlinks]

/-- A tree in which a module names another one two levels up. -/
def packageTree : SourceTree :=
  ⟨⟨[(["lib"], .directory), (["lib", "pkg"], .directory), (["lib", "pkg", "sub"], .directory),
    (["lib", "pkg", "util"], .directory), (["lib", "pkg", "util", "io.py"], .file (.text "")),
    (["lib", "pkg", "sub", "mod.py"], .file (.text "from ..util.io import Box\nBox()\n"))]⟩,
    "lib", .python⟩

def spelledTree : SourceTree :=
  { packageTree with
    files := packageTree.files.put ["lib", "pkg", "sub", "mod.py"]
      (.file (.text "from pkg.util.io import Box\nBox()\n")) }

theorem relative_eq_absolute_of_packageTree :
    packageTree.resolveRelative? "pkg/sub/mod.py" 2 (some "util.io") =
        packageTree.resolve? "pkg.util.io" ∧
      packageTree.resolve? "pkg.util.io" = some "pkg/util/io.py" ∧
      (Import.membersStatement.run (Cursor.ofText " pkg.util.io import Box\n")).map Prod.fst =
        some [.imports (.members 0 (some "pkg.util.io") [⟨"Box", none⟩])] ∧
      spelledTree.extract .capitalized "pkg/sub/mod.py" =
        packageTree.extract .capitalized "pkg/sub/mod.py" := by
  have hfile : "/".intercalate (["pkg", "sub"] ++ ["mod.py"]) = "pkg/sub/mod.py" := by decide
  have hspelling : ".".intercalate (["pkg", "sub"].take (["pkg", "sub"].length + 1 - 2) ++
      ["util.io"]) = "pkg.util.io" := by decide
  have h := @relative_eq_absolute packageTree ["pkg", "sub"] "mod.py" 2 (by decide) (by decide)
    (by decide) "util.io"
  dsimp only at h
  rw [hfile, hspelling] at h
  obtain ⟨hresolve, -, -, -, -, hspelled⟩ := h
  obtain ⟨hreads, hedges⟩ := hspelled (by decide)
  have hidentifiers : ∀ directory ∈ ["pkg", "sub"], IsIdentifier directory := by
    intro directory hm
    rcases List.mem_pair.1 hm with rfl | rfl
    · exact ⟨by decide, by decide, by decide⟩
    · exact ⟨by decide, by decide, by decide⟩
  have hfirst : firstWord? "pkg.util.io" ≠ some "__future__" := by decide +kernel
  have hrelative : (Import.membersStatement.run (Cursor.ofText " ..util.io import Box\n")).map
      Prod.fst = some [.imports (.members 2 (some "util.io") [⟨"Box", none⟩])] := by
    decide +kernel
  have hplace : (Import.modulePlace? (Cursor.ofText " ..util.io import Box\n")).map
      (fun place => place.2.rest) = some " import Box\n".toList := by
    decide +kernel
  obtain ⟨stop, hrun⟩ := Parser.exists_run_eq_some hrelative
  obtain ⟨start, behind, hfound, -, -, hother⟩ :=
    hreads hidentifiers hfirst (Cursor.isSound_ofText _) hrun
  rw [hfound] at hplace
  have hbehind : behind.rest = " import Box\n".toList := Option.some.inj hplace
  have hrest : (Cursor.ofText " pkg.util.io import Box\n").rest =
      List.replicate 1 ' ' ++ ("pkg.util.io".toList ++ behind.rest) := by
    rw [hbehind]
    decide
  have hindents : (Cursor.ofText " pkg.util.io import Box\n").indents =
      (Cursor.ofText " ..util.io import Box\n").indents := by
    rw [Cursor.indents_ofText, Cursor.indents_ofText]
  have hformat : (Cursor.ofText " pkg.util.io import Box\n").inFormat =
      (Cursor.ofText " ..util.io import Box\n").inFormat := by
    rw [Cursor.inFormat_ofText, Cursor.inFormat_ofText]
  obtain ⟨_, last, hlast, -⟩ := hother (Cursor.isSound_ofText _) hrest hindents hformat
  have hsame : packageTree.SameFiles spelledTree :=
    @sameFiles_put packageTree ["lib", "pkg", "sub", "mod.py"]
      (.text "from ..util.io import Box\nBox()\n") (by decide +kernel) _
  have htold : (Outline.ofText? "from ..util.io import Box\nBox()\n").map
      (fun outline => (outline.references, outline.imports)) =
        some ([.call ⟨"Box", none⟩], [.members 2 (some "util.io") [⟨"Box", none⟩]]) := by
    decide +kernel
  have hchanged : (Outline.ofText? "from pkg.util.io import Box\nBox()\n").map
      (fun outline => (outline.references, outline.imports)) =
        some ([.call ⟨"Box", none⟩], [.members 0 (some "pkg.util.io") [⟨"Box", none⟩]]) := by
    decide +kernel
  obtain ⟨outline, houtline, htold⟩ := Option.map_eq_some_iff.1 htold
  obtain ⟨changed, hofText, hchanged⟩ := Option.map_eq_some_iff.1 hchanged
  simp only [Prod.mk.injEq] at htold hchanged
  have hdiffers : outline.DiffersIn changed (.members 2 (some "util.io") [⟨"Box", none⟩])
      (.members 0 (some "pkg.util.io") [⟨"Box", none⟩]) :=
    ⟨hchanged.1.trans htold.1.symm, [], [], htold.2, hchanged.2⟩
  refine ⟨hresolve (by decide), by decide +kernel, ?_, ?_⟩
  · rw [hlast]
    rfl
  · exact hedges _ spelledTree _ _ outline changed .capitalized hsame (by decide +kernel) houtline
      (by decide +kernel) hofText hdiffers

/-- The tree of a file with the name of an instruction to the language. -/
def futureTree : SourceTree :=
  ⟨⟨[(["lib"], .directory), (["lib", "__future__.py"], .file (.text "")),
    (["lib", "f.py"], .file (.text "from .__future__ import x\n"))]⟩, "lib", .python⟩

/-- At the root the spelling of a module is its name, and with this name in front the statement names
no module. -/
theorem edges_of_future_differ :
    futureTree.resolveRelative? "f.py" 1 (some "__future__") = futureTree.resolve? "__future__" ∧
      (ofContent futureTree .capitalized "f.py" (.text "from .__future__ import x\n")).toOption =
        some [⟨"f.py", "__future__.py", .imports, none⟩] ∧
      (ofContent futureTree .capitalized "f.py" (.text "from __future__ import x\n")).toOption =
        some [] := by
  decide +kernel

end SourceTree

end CodeAtlas
