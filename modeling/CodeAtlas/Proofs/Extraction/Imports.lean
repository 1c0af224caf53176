import CodeAtlas.Proofs.Extraction.Edges

/-!
# The files a file depends on

What an import statement leads to, by its form. A file has an edge to each other file that one of
its imports leads to, and to no file besides. One form is passed over: the import of all names of a
bare package, which has no names to go through, leads to the package and leaves no edge.
-/

namespace CodeAtlas.Extraction

open CodeAtlas.Graph
open Syntax (Import ImportedName Outline)

variable {tree : SourceTree} {convention : Convention} {file target : String} {outline : Outline}

/-- What the forms of an import lead to. A module that is named leads to its file. A bare package
leads for each name to the file of the submodule with that name, and to the file of the package
where there is no such submodule or where all names are meant. -/
inductive LeadsTo (tree : SourceTree) (file : String) : Import → String → Prop
  | module {names : List ImportedName} {name : ImportedName} {target : String} (hm : name ∈ names)
      (h : tree.target? (.absolute name.text) = some target) :
      LeadsTo tree file (.modules names) target
  | fromModule {module : String} {names : List ImportedName} {target : String}
      (h : tree.target? (.absolute module) = some target) :
      LeadsTo tree file (.members 0 (some module) names) target
  | fromRelative {level : Nat} {module : String} {names : List ImportedName} {target : String}
      (hl : level ≠ 0) (h : tree.target? (.relative file level (some module)) = some target) :
      LeadsTo tree file (.members level (some module) names) target
  | submodule {level : Nat} {names : List ImportedName} {name : ImportedName} {target : String}
      (hm : name ∈ names)
      (h : tree.target? (.relative file level (some name.text)) = some target) :
      LeadsTo tree file (.members level none names) target
  | package {level : Nat} {names : List ImportedName} {name : ImportedName} {target : String}
      (hm : name ∈ names) (hsub : tree.target? (.relative file level (some name.text)) = none)
      (h : tree.target? (.relative file level none) = some target) :
      LeadsTo tree file (.members level none names) target
  | wildcard {level : Nat} {target : String}
      (h : tree.target? (.relative file level none) = some target) :
      LeadsTo tree file (.members level none []) target

/-- All names of a package that is given by its level alone. -/
def IsBareWildcard (imported : Import) : Prop := ∃ level, imported = .members level none []

theorem mem_targets_filterMap_linkTo {names : List ImportedName}
    {follow : ImportedName → Option String} :
    (∃ link ∈ names.filterMap fun name => linkTo file [name.bound] (follow name),
        link.target = target) ↔
      (∃ name ∈ names, follow name = some target) ∧ target ≠ file := by
  constructor
  · intro h
    obtain ⟨link, hl, rfl⟩ := h
    obtain ⟨name, hm, hname⟩ := List.mem_filterMap.1 hl
    obtain ⟨ht, hne, -⟩ := linkTo_eq_some_iff.1 hname
    exact ⟨⟨name, hm, ht⟩, hne⟩
  · intro h
    obtain ⟨⟨name, hm, ht⟩, hne⟩ := h
    exact ⟨⟨target, [name.bound]⟩,
      List.mem_filterMap.2 ⟨name, hm, linkTo_eq_some_iff.2 ⟨ht, hne, rfl⟩⟩, rfl⟩

theorem mem_targets_linkTo {names : List String} {resolved : Option String} :
    (∃ link ∈ (linkTo file names resolved).toList, link.target = target) ↔
      resolved = some target ∧ target ≠ file := by
  constructor
  · intro h
    obtain ⟨link, hl, rfl⟩ := h
    obtain ⟨ht, hne, -⟩ := linkTo_eq_some_iff.1 (Option.mem_toList.1 hl)
    exact ⟨ht, hne⟩
  · intro h
    obtain ⟨ht, hne⟩ := h
    exact ⟨⟨target, names⟩, Option.mem_toList.2 (linkTo_eq_some_iff.2 ⟨ht, hne, rfl⟩), rfl⟩

theorem mem_targets_linksOf {imported : Import} :
    (∃ link ∈ linksOf tree file imported, link.target = target) ↔
      (LeadsTo tree file imported target ∧ ¬ IsBareWildcard imported) ∧ target ≠ file := by
  cases imported with
  | modules names =>
      rw [linksOf, mem_targets_filterMap_linkTo]
      refine and_congr_left fun _ => ⟨?_, ?_⟩
      · intro h
        obtain ⟨name, hm, ht⟩ := h
        exact ⟨.module hm ht, by simp [IsBareWildcard]⟩
      · intro h
        obtain ⟨⟨hm, ht⟩, -⟩ := h
        exact ⟨_, hm, ht⟩
  | members level module names =>
      cases module with
      | some module =>
          rw [linksOf, mem_targets_linkTo]
          refine and_congr_left fun _ => ⟨?_, ?_⟩
          · intro h
            refine ⟨?_, by simp [IsBareWildcard]⟩
            by_cases hl : level = 0
            · subst hl
              exact .fromModule h
            · rw [if_neg hl] at h
              exact .fromRelative hl h
          · intro h
            obtain ⟨hleads, -⟩ := h
            cases hleads with
            | fromModule ht => exact ht
            | fromRelative hl ht => rw [if_neg hl]; exact ht
      | none =>
          rw [linksOf, mem_targets_filterMap_linkTo]
          refine and_congr_left fun _ => ⟨?_, ?_⟩
          · intro h
            obtain ⟨name, hm, ht⟩ := h
            have hnames : ¬ IsBareWildcard (.members level none names) := by
              rintro ⟨_, he⟩
              obtain ⟨-, -, rfl⟩ := Import.members.inj he
              cases hm
            rcases orElse_eq_some_iff.1 ht with ht | ⟨hsub, ht⟩
            · exact ⟨.submodule hm ht, hnames⟩
            · exact ⟨.package hm hsub ht, hnames⟩
          · intro h
            obtain ⟨hleads, hnames⟩ := h
            cases hleads with
            | submodule hm ht => exact ⟨_, hm, orElse_eq_some_iff.2 (.inl ht)⟩
            | package hm hsub ht => exact ⟨_, hm, orElse_eq_some_iff.2 (.inr ⟨hsub, ht⟩)⟩
            | wildcard => exact absurd ⟨level, rfl⟩ hnames

theorem mem_dedup_edgesOf_imports :
    ⟨file, target, .imports, none⟩ ∈ Edge.dedup (edgesOf tree convention file outline) ↔
      ∃ link ∈ links tree file outline, link.target = target := by
  have hsome : (⟨file, target, .imports, none⟩ : Edge) ∈
        Edge.dedup (edgesOf tree convention file outline) ↔
      ∃ edge ∈ Edge.dedup (edgesOf tree convention file outline),
        edge.relation = .imports ∧ edge.target = target := by
    constructor
    · intro hm
      exact ⟨_, hm, rfl, rfl⟩
    · intro h
      obtain ⟨edge, hm, hr, rfl⟩ := h
      have hg := grounded_of_mem_edgesOf ((Edge.dedup_sublist _).mem hm)
      -- An import carries no note, so its relation and its target give the whole edge.
      have hnote : edge.note = none := by simpa [hr] using hg.note
      obtain ⟨source, target, relation, note⟩ := edge
      obtain rfl : source = file := hg.source
      obtain rfl : relation = .imports := hr
      obtain rfl : note = none := hnote
      exact hm
  rw [hsome, exists_mem_dedup_edgesOf]
  constructor
  · intro h
    obtain ⟨edge, hm, -, rfl⟩ := h
    exact exists_link_of_mem_edgesOf hm
  · intro h
    obtain ⟨link, hl, rfl⟩ := h
    exact ⟨_, mem_edgesOf.2 (.inl ⟨link, hl, rfl⟩), rfl, rfl⟩

/-- A source that can be parsed has edges. They import just those other files that its statements
lead to, a statement that imports all names of a bare package apart. -/
theorem imports_of_leadsTo {content : Content} {text : String}
    (htext : textOf file content = .ok text) (houtline : Outline.ofText? text = some outline) :
    ∃ edges, ofContent tree convention file content = .ok edges ∧
      ∀ target, ⟨file, target, .imports, none⟩ ∈ edges ↔
        (∃ imported ∈ outline.imports,
          LeadsTo tree file imported target ∧ ¬ IsBareWildcard imported) ∧ target ≠ file := by
  refine ⟨_, ofContent_eq_ok_iff.2 ⟨text, outline, htext, houtline, rfl⟩, fun target => ?_⟩
  rw [mem_dedup_edgesOf_imports]
  constructor
  · intro h
    obtain ⟨link, hl, ht⟩ := h
    obtain ⟨imported, hi, hl⟩ := List.mem_flatMap.1 hl
    obtain ⟨hleads, hne⟩ := mem_targets_linksOf.1 ⟨link, hl, ht⟩
    exact ⟨⟨imported, hi, hleads⟩, hne⟩
  · intro h
    obtain ⟨⟨imported, hi, hleads⟩, hne⟩ := h
    obtain ⟨link, hl, ht⟩ := mem_targets_linksOf.2 ⟨hleads, hne⟩
    exact ⟨link, List.mem_flatMap.2 ⟨imported, hi, hl⟩, ht⟩

def sampleForms : String :=
  "import pkg.shapes, pkg.lines as l\nfrom pkg.text import *\nfrom ..tools import saw\n" ++
    "from . import curves, missing\n"

def sampleLayout : SourceTree :=
  ⟨⟨[(["lib"], .directory), (["lib", "pkg"], .directory),
    (["lib", "pkg", "__init__.py"], .file (.text "")),
    (["lib", "pkg", "shapes.py"], .file (.text "")), (["lib", "pkg", "lines.py"], .file (.text "")),
    (["lib", "pkg", "text.py"], .file (.text "")), (["lib", "pkg", "tools.py"], .file (.text "")),
    (["lib", "pkg", "sub"], .directory), (["lib", "pkg", "sub", "__init__.py"], .file (.text "")),
    (["lib", "pkg", "sub", "curves.py"], .file (.text "")),
    (["lib", "pkg", "sub", "draw.py"], .file (.text sampleForms))]⟩, "lib", .python⟩

theorem imports_of_leadsTo_sampleForms :
    ∃ outline edges, Outline.ofText? sampleForms = some outline ∧
      ofContent sampleLayout .capitalized "pkg/sub/draw.py" (.text sampleForms) = .ok edges ∧
      edges = ["pkg/shapes.py", "pkg/lines.py", "pkg/text.py", "pkg/tools.py", "pkg/sub/curves.py",
        "pkg/sub/__init__.py"].map (fun target => ⟨"pkg/sub/draw.py", target, .imports, none⟩) ∧
      ∀ edge ∈ edges, ∃ imported ∈ outline.imports,
        LeadsTo sampleLayout "pkg/sub/draw.py" imported edge.target := by
  have hlist : (ofContent sampleLayout .capitalized "pkg/sub/draw.py"
      (.text sampleForms)).toOption = some (["pkg/shapes.py", "pkg/lines.py", "pkg/text.py",
        "pkg/tools.py", "pkg/sub/curves.py", "pkg/sub/__init__.py"].map fun target =>
          ⟨"pkg/sub/draw.py", target, .imports, none⟩) := by decide +kernel
  obtain ⟨text, outline, htext, houtline, -⟩ := ofContent_eq_ok_iff.1 (eq_ok_of_toOption hlist)
  obtain ⟨edges, hedges, himports⟩ :=
    @imports_of_leadsTo sampleLayout .capitalized "pkg/sub/draw.py" outline _ text htext houtline
  obtain rfl : sampleForms = text := Except.ok.inj htext
  obtain rfl := Option.some.inj (hedges ▸ hlist)
  refine ⟨outline, _, houtline, hedges, rfl, fun edge hm => ?_⟩
  obtain ⟨target, -, rfl⟩ := List.mem_map.1 hm
  obtain ⟨⟨imported, hi, hleads, -⟩, -⟩ := (himports target).1 hm
  exact ⟨imported, hi, hleads⟩

/-- A module that imports all names of its package. -/
def sampleWildcard : SourceTree :=
  ⟨⟨[(["lib"], .directory), (["lib", "pkg"], .directory),
    (["lib", "pkg", "__init__.py"], .file (.text "")),
    (["lib", "pkg", "mod.py"], .file (.text "from . import *\n"))]⟩, "lib", .python⟩

/-- The package such a module imports from is there, and the module has no edge. -/
theorem no_edge_of_sampleWildcard :
    ∃ outline imported, Outline.ofText? "from . import *\n" = some outline ∧
      imported ∈ outline.imports ∧ LeadsTo sampleWildcard "pkg/mod.py" imported "pkg/__init__.py" ∧
      ofContent sampleWildcard .capitalized "pkg/mod.py" (.text "from . import *\n") = .ok [] := by
  have himports : (Outline.ofText? "from . import *\n").map Outline.imports =
      some [.members 1 none []] := by decide +kernel
  obtain ⟨outline, houtline, hi⟩ := Option.map_eq_some_iff.1 himports
  have hpackage : sampleWildcard.target? (.relative "pkg/mod.py" 1 none) =
      some "pkg/__init__.py" := by decide +kernel
  have hedges : (ofContent sampleWildcard .capitalized "pkg/mod.py"
      (.text "from . import *\n")).toOption = some [] := by decide +kernel
  exact ⟨outline, .members 1 none [], houtline, by simp [hi], .wildcard hpackage,
    eq_ok_of_toOption hedges⟩

end CodeAtlas.Extraction
