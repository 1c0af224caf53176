import CodeAtlas.Proofs.Extraction.Imports
import CodeAtlas.Proofs.Extraction.Positions
import CodeAtlas.Proofs.Syntax.Blanks

/-!
# Blanks in dotted names

The module of an import and the qualifier of a symbol are taken as they are written. Where no file
has a blank in its name, a module that is written with one leads nowhere and binds nothing. So
blanks in dotted names are without effect on the edges of a file where they stand in modules that
lead to no other file anyway, and in qualifiers that are not bound or not asked for.
-/

namespace CodeAtlas

/-! ## Names without blanks -/

/-- No name that leads to an entry has a blank in it. -/
def FileTree.HasNoBlanks (files : FileTree) : Prop :=
  ∀ entry ∈ files.entries, ∀ name ∈ entry.1, ¬ Syntax.IsSpaced name

instance : DecidablePred FileTree.HasNoBlanks := fun files =>
  decidable_of_iff (files.entries.all (fun entry => entry.1.all fun name =>
    !name.toList.any Syntax.Lexeme.isSpace) = true) <| by
      simp [FileTree.HasNoBlanks, Syntax.IsSpaced]

namespace SourceTree

open Resolution (segmentsOf)

variable {tree : SourceTree} {path module : String} {segments : List String}

theorem not_isSpaced_of_contains (hl : tree.language ∈ Language.all)
    (hfiles : tree.files.HasNoBlanks) (h : tree.Contains path) : ¬ Syntax.IsSpaced path := by
  obtain ⟨top, content, -, -, hentry⟩ := exists_place_of_contains hl h
  rw [FileTree.get?, if_neg (by simp [Path.split_ne_nil])] at hentry
  obtain ⟨before, after, he, -⟩ := List.lookup_eq_some_iff.1 hentry
  have hnames := hfiles _ (he ▸ List.mem_append_right _ List.mem_cons_self)
  rintro ⟨char, hm, hspace⟩
  have hslash : char ≠ '/' := by rintro rfl; cases hspace
  obtain ⟨name, hname, hchar⟩ := (Path.exists_mem_split_iff hslash path).2 hm
  exact hnames name (List.mem_append_right _ hname) ⟨char, hchar, hspace⟩

theorem not_isSpaced_of_fileOf? (hl : tree.language ∈ Language.all)
    (hfiles : tree.files.HasNoBlanks) (h : tree.fileOf? segments = some path) :
    ∀ segment ∈ segments, ¬ Syntax.IsSpaced segment := by
  rintro segment hm ⟨char, hchar, hspace⟩
  refine not_isSpaced_of_contains hl hfiles (contains_of_fileOf? h) ⟨char, ?_, hspace⟩
  have hslash : char ≠ '/' := by rintro rfl; cases hspace
  obtain ⟨hne, hsegments, -, hpath⟩ := fileOf?_eq_some_iff.1 h
  have hstem : char ∈ ("/".intercalate segments).toList := by
    rw [← Path.exists_mem_split_iff hslash, Path.split_intercalate hne fun other ho =>
      (Resolution.isSegment_iff.1 (hsegments other ho)).2.1]
    exact ⟨segment, hm, hchar⟩
  rcases hpath with rfl | ⟨-, rfl⟩
  · rw [moduleFile, String.append_assoc, String.toList_append]
    exact List.mem_append_left _ hstem
  · rw [packageFile, String.append_assoc, String.toList_append]
    exact List.mem_append_left _ hstem

theorem not_isSpaced_of_segmentsOf (h : ∀ segment ∈ segmentsOf module, ¬ Syntax.IsSpaced segment) :
    ¬ Syntax.IsSpaced module := by
  rintro ⟨char, hm, hspace⟩
  have hpoint : char ≠ '.' := by rintro rfl; cases hspace
  obtain ⟨segment, hs, hchar⟩ := (Path.exists_mem_split_iff hpoint module).2 hm
  exact h segment hs ⟨char, hchar, hspace⟩

theorem not_isSpaced_of_resolve? (hl : tree.language ∈ Language.all)
    (hfiles : tree.files.HasNoBlanks) (h : tree.resolve? module = some path) :
    ¬ Syntax.IsSpaced module :=
  not_isSpaced_of_segmentsOf (not_isSpaced_of_fileOf? hl hfiles h)

theorem not_isSpaced_of_resolveRelative? {file : String} {level : Nat}
    (hl : tree.language ∈ Language.all) (hfiles : tree.files.HasNoBlanks)
    (h : tree.resolveRelative? file level (some module) = some path) :
    ¬ Syntax.IsSpaced module := by
  obtain ⟨package, -, hfile⟩ := Option.bind_eq_some_iff.1 h
  exact not_isSpaced_of_segmentsOf fun segment hs =>
    not_isSpaced_of_fileOf? hl hfiles hfile segment (List.mem_append_right _ hs)

end SourceTree

namespace Syntax

/-! ## Parts of imports -/

namespace Import

/-- An import of several modules, as one import for each. -/
def parts : Import → List Import
  | .modules names => names.map fun name => .modules [name]
  | .members level module names => [.members level module names]

/-- The dotted name of the one module of a part. -/
def module? : Import → Option String
  | .modules [name] => some name.text
  | .modules _ => none
  | .members _ module _ => module

theorem parts_bare (imported : Import) : imported.bare.parts = imported.parts.map bare := by
  cases imported with
  | modules names => simp [bare, parts, Function.comp_def]
  | members level module names => rfl

end Import

def Outline.importParts (outline : Outline) : List Import := outline.imports.flatMap Import.parts

theorem Outline.map_importParts_bare (outline : Outline) :
    outline.importParts.map Import.bare =
      (outline.imports.map Import.bare).flatMap Import.parts := by
  rw [importParts, List.map_flatMap, List.flatMap_map]
  exact List.flatMap_congr fun imported _ => (Import.parts_bare imported).symm

end Syntax

namespace Extraction

open CodeAtlas.Graph
open Syntax (Import Outline IsSpaced)

variable {tree : SourceTree} {convention : Convention} {file module target : String}
  {part other : Import} {outline respaced : Outline} {bindings : Bindings}

theorem linksOf_eq_flatMap_parts (imported : Import) :
    linksOf tree file imported = imported.parts.flatMap (linksOf tree file) := by
  cases imported with
  | modules names =>
      rw [Import.parts, List.flatMap_map]
      simp only [linksOf]
      rw [← List.filterMap_flatMap, List.flatMap_singleton']
  | members level module names => simp [Import.parts]

theorem links_eq_flatMap_importParts :
    links tree file outline = outline.importParts.flatMap (linksOf tree file) := by
  rw [links, Outline.importParts, List.flatMap_assoc]
  exact List.flatMap_congr fun imported _ => linksOf_eq_flatMap_parts imported

/-- A module that leads to a file is written without blanks, and so it is the same without them. -/
theorem LeadsTo.without_blanks (hl : tree.language ∈ Language.all)
    (hfiles : tree.files.HasNoBlanks) (h : LeadsTo tree file part target)
    (hm : part.module? = some module) :
    ¬ IsSpaced module ∧ LeadsTo tree file part.bare target := by
  cases h with
  | @module names name _ hname h =>
      rcases names with _ | ⟨first, _ | _⟩ <;> cases hm
      cases List.mem_singleton.1 hname
      have hs := SourceTree.not_isSpaced_of_resolve? hl hfiles h
      rw [← Syntax.bare_eq_self hs] at h
      exact ⟨hs, .module (List.mem_singleton_self _) h⟩
  | fromModule h =>
      cases hm
      have hs := SourceTree.not_isSpaced_of_resolve? hl hfiles h
      rw [← Syntax.bare_eq_self hs] at h
      exact ⟨hs, .fromModule h⟩
  | fromRelative hlevel h =>
      cases hm
      have hs := SourceTree.not_isSpaced_of_resolveRelative? hl hfiles h
      rw [← Syntax.bare_eq_self hs] at h
      exact ⟨hs, .fromRelative hlevel h⟩
  | submodule => cases hm
  | package => cases hm
  | wildcard => cases hm

theorem linksOf_eq_nil (h : ∀ target, LeadsTo tree file part target → target = file) :
    linksOf tree file part = [] := by
  rw [List.eq_nil_iff_forall_not_mem]
  intro link hlink
  obtain ⟨⟨hleads, -⟩, hne⟩ := mem_targets_linksOf.1 ⟨link, hlink, rfl⟩
  exact hne (h _ hleads)

theorem linksOf_eq_nil_of_isSpaced (hl : tree.language ∈ Language.all)
    (hfiles : tree.files.HasNoBlanks) (hm : part.module? = some module) (hs : IsSpaced module) :
    linksOf tree file part = [] :=
  linksOf_eq_nil fun _ h => absurd hs (h.without_blanks hl hfiles hm).1

/-- Two spellings of a part of an import come to the same: they are the same, or the module is
written with blanks in both of them, or it leads to no other file where it is written without. -/
def LeadAlike (tree : SourceTree) (file : String) (part other : Import) : Prop :=
  part = other ∨ ∃ module spelling, part.module? = some module ∧ other.module? = some spelling ∧
    (IsSpaced module ∧ IsSpaced spelling ∨
      ∀ target, LeadsTo tree file part.bare target → target = file)

theorem LeadAlike.linksOf_eq (hl : tree.language ∈ Language.all)
    (hfiles : tree.files.HasNoBlanks) (h : LeadAlike tree file part other)
    (hbare : part.bare = other.bare) : linksOf tree file part = linksOf tree file other := by
  rcases h with rfl | ⟨module, spelling, hm, hspelling, ⟨hs, hother⟩ | hnone⟩
  · rfl
  · rw [linksOf_eq_nil_of_isSpaced hl hfiles hm hs,
      linksOf_eq_nil_of_isSpaced hl hfiles hspelling hother]
  · rw [linksOf_eq_nil fun target h => hnone target (h.without_blanks hl hfiles hm).2,
      linksOf_eq_nil fun target h => hnone target
        (hbare ▸ (h.without_blanks hl hfiles hspelling).2)]

/-! ## References -/

def Symbol.bare (symbol : Symbol) : Symbol :=
  { symbol with qualifier := symbol.qualifier.map Syntax.bare }

namespace Reference

def symbol : Reference → Symbol
  | .base _ symbol => symbol
  | .call symbol => symbol

def bare : Reference → Reference
  | .base className symbol => .base className symbol.bare
  | .call symbol => .call symbol.bare

end Reference

/-- Two spellings of a symbol are found alike: its qualifier is the same in both, or its name is
bound, or its qualifier is not bound in either. -/
def FoundAlike (bindings : Bindings) (symbol other : Symbol) : Prop :=
  symbol.qualifier = other.qualifier ∨ (bindings.target? symbol.name).isSome ∨
    symbol.qualifier.bind bindings.target? = none ∧ other.qualifier.bind bindings.target? = none

theorem FoundAlike.lookup_eq {symbol other : Symbol} (h : FoundAlike bindings symbol other)
    (hname : symbol.name = other.name) : bindings.lookup symbol = bindings.lookup other := by
  rw [Bindings.lookup, Bindings.lookup, ← hname]
  rcases h with hqualifier | hbound | ⟨hnone, hother⟩
  · rw [hqualifier]
  · obtain ⟨target, ht⟩ := Option.isSome_iff_exists.1 hbound
    rw [ht]
    rfl
  · rw [hnone, hother]

theorem referenceEdge?_eq {reference respelled : Reference}
    (h : FoundAlike bindings reference.symbol respelled.symbol)
    (hbare : reference.bare = respelled.bare) :
    referenceEdge? convention file bindings reference =
      referenceEdge? convention file bindings respelled := by
  cases reference with
  | base className symbol =>
      cases respelled with
      | base otherClass spelling =>
          obtain ⟨rfl, hsymbol⟩ := Reference.base.inj hbare
          have hname : symbol.name = spelling.name := (Symbol.mk.inj hsymbol).1
          have hlookup : bindings.lookup symbol = bindings.lookup spelling := h.lookup_eq hname
          rw [referenceEdge?, referenceEdge?, hlookup, hname]
      | call => cases hbare
  | call symbol =>
      cases respelled with
      | base => cases hbare
      | call spelling =>
          have hname : symbol.name = spelling.name := (Symbol.mk.inj (Reference.call.inj hbare)).1
          have hlookup : bindings.lookup symbol = bindings.lookup spelling := h.lookup_eq hname
          rw [referenceEdge?, referenceEdge?, hlookup, hname]

/-! ## Edges -/

theorem map_eq_of_forall₂ {α β γ : Type} {relates : α → α → Prop} {bare : α → β} {value : α → γ}
    {items others : List α} (h : List.Forall₂ relates items others)
    (hbare : items.map bare = others.map bare)
    (hvalue : ∀ item other, relates item other → bare item = bare other →
      value item = value other) : items.map value = others.map value := by
  induction h with
  | nil => rfl
  | cons hitem _ ih =>
      obtain ⟨hfirst, hrest⟩ := List.cons.inj hbare
      rw [List.map_cons, List.map_cons, hvalue _ _ hitem hfirst, ih hrest]

theorem links_eq_of_leadAlike (hl : tree.language ∈ Language.all)
    (hfiles : tree.files.HasNoBlanks)
    (himports : outline.imports.map Import.bare = respaced.imports.map Import.bare)
    (h : List.Forall₂ (LeadAlike tree file) outline.importParts respaced.importParts) :
    links tree file outline = links tree file respaced := by
  have hbare : outline.importParts.map Import.bare = respaced.importParts.map Import.bare := by
    rw [Outline.map_importParts_bare, Outline.map_importParts_bare, himports]
  have hlinks := map_eq_of_forall₂ h hbare fun _ _ halike => halike.linksOf_eq hl hfiles
  rw [links_eq_flatMap_importParts, links_eq_flatMap_importParts, List.flatMap_def,
    List.flatMap_def, hlinks]

theorem edgesOf_eq_of_respaced (hlinks : links tree file outline = links tree file respaced)
    (hreferences : outline.references.map Reference.bare = respaced.references.map Reference.bare)
    (h : List.Forall₂ (fun reference respelled =>
        FoundAlike (bindingsOf (links tree file outline)) reference.symbol respelled.symbol)
      outline.references respaced.references) :
    edgesOf tree convention file outline = edgesOf tree convention file respaced := by
  have hedges := map_eq_of_forall₂ h hreferences fun _ _ halike hbare =>
    @referenceEdge?_eq convention file _ _ _ halike hbare
  have hfilter {α β : Type} (f : α → Option β) (items : List α) :
      items.filterMap f = (items.map f).filterMap id := by
    rw [List.filterMap_map]
    rfl
  rw [edgesOf, edgesOf, ← hlinks, hfilter, hedges, ← hfilter]

/-- In a tree without blanks a module that is written with one leads nowhere. Let a source be
written anew, with other blanks in the texts of its imports and in what its symbols are looked up
in. It keeps its edges if each part of an import is the same, or has a module with blanks in both
spellings, or one that leads to no other file even without them, and if the qualifier of each symbol
is the same or goes unused, since the name itself is bound or the qualifier in neither spelling. -/
theorem edges_of_respaced (tree : SourceTree) (convention : Convention) (file : String)
    (hl : tree.language ∈ Language.all) (hfiles : tree.files.HasNoBlanks)
    {content other : Content} {source target : String}
    (hsource : textOf file content = .ok source) (htarget : textOf file other = .ok target)
    (houtline : Outline.ofText? source = some outline)
    (hrespaced : Outline.ofText? target = some respaced) :
    (∃ texts, outline.HasImports source texts) ∧
    (∀ part ∈ outline.importParts, ∀ module, part.module? = some module → IsSpaced module →
      linksOf tree file part = []) ∧
    ∀ texts others, outline.HasImports source texts → respaced.HasImports target others →
      List.Forall₂ Import.Respelled texts others →
      outline.references.map Reference.bare = respaced.references.map Reference.bare →
      List.Forall₂ (LeadAlike tree file) outline.importParts respaced.importParts →
      List.Forall₂ (fun reference respelled =>
          FoundAlike (bindingsOf (links tree file outline)) reference.symbol respelled.symbol)
        outline.references respaced.references →
      ∃ edges, ofContent tree convention file content = .ok edges ∧
        ofContent tree convention file other = .ok edges := by
  refine ⟨Outline.exists_hasImports houtline,
    fun part _ module hm hs => linksOf_eq_nil_of_isSpaced hl hfiles hm hs, ?_⟩
  rintro texts others ⟨_, himports⟩ ⟨_, hother⟩ hspelled hreferences hparts hfound
  have hlinks := links_eq_of_leadAlike hl hfiles (himports.map_bare_eq hother hspelled) hparts
  refine ⟨_, ofContent_eq_ok_iff.2 ⟨source, outline, hsource, houtline, rfl⟩,
    ofContent_eq_ok_iff.2 ⟨target, respaced, htarget, hrespaced, ?_⟩⟩
  rw [edgesOf_eq_of_respaced hlinks hreferences hfound]

/-- A source that imports a module of the tree and one from elsewhere, and uses both. -/
def closeSpelling : String :=
  "import os.path, shapes as s\nclass Box(s.Square): os.path.Joiner()\n"

/-- The same with blanks around its points. -/
def wideSpelling : String :=
  "import os . path, shapes as s\nclass Box(s . Square): os . path . Joiner()\n"

/-- The modules they import in pieces, with a gap around the point of the first one. -/
def modulePieces (gap : String) : List Syntax.Piece :=
  [⟨" ".toList, "os".toList, .word "os"⟩, ⟨gap.toList, ".".toList, .symbol "."⟩,
    ⟨gap.toList, "path".toList, .word "path"⟩, ⟨[], ",".toList, .symbol ","⟩,
    ⟨" ".toList, "shapes".toList, .word "shapes"⟩, ⟨" ".toList, "as".toList, .word "as"⟩,
    ⟨" ".toList, "s".toList, .word "s"⟩]

theorem edges_of_respaced_wideSpelling :
    ∃ edges, ofContent sampleTree .capitalized "draw.py" (.text closeSpelling) = .ok edges ∧
      ofContent sampleTree .capitalized "draw.py" (.text wideSpelling) = .ok edges ∧
      edges.map Edge.key = [.imports, .inherits].map (("draw.py", "shapes.py", ·)) := by
  have hclose : (Outline.ofText? closeSpelling).map (fun outline =>
      (outline.imports, outline.references)) =
        some ([.modules [⟨"os.path", none⟩, ⟨"shapes", some "s"⟩]],
          [.base "Box" ⟨"Square", some "s"⟩, .call ⟨"Joiner", some "os.path"⟩]) := by
    decide +kernel
  have hwide : (Outline.ofText? wideSpelling).map (fun outline =>
      (outline.imports, outline.references)) =
        some ([.modules [⟨"os . path", none⟩, ⟨"shapes", some "s"⟩]],
          [.base "Box" ⟨"Square", some "s"⟩, .call ⟨"Joiner", some "os . path"⟩]) := by
    decide +kernel
  obtain ⟨outline, houtline, hread⟩ := Option.map_eq_some_iff.1 hclose
  obtain ⟨respaced, hrespaced, hother⟩ := Option.map_eq_some_iff.1 hwide
  obtain ⟨himports, hreferences⟩ := Prod.mk.inj hread
  obtain ⟨hotherImports, hotherReferences⟩ := Prod.mk.inj hother
  have hwritten : outline.HasImports closeSpelling ["import os.path, shapes as s"] :=
    hasImports_of_run 0 himports (by decide +kernel)
  have hotherWritten : respaced.HasImports wideSpelling ["import os . path, shapes as s"] :=
    hasImports_of_run 0 hotherImports (by decide +kernel)
  let first : Syntax.Piece := ⟨[], "import".toList, .word "import"⟩
  have hrespelled : Import.Respelled (Syntax.Piece.textOf (first :: modulePieces ""))
      (Syntax.Piece.textOf (first :: modulePieces " ")) :=
    Import.respelled_of_divide first first _ _ (by decide +kernel) (by decide +kernel)
      (by decide +kernel)
  have htext (text : String) : textOf "draw.py" (.text text) = .ok text := rfl
  have hnowhere : ∀ target, LeadsTo sampleTree "draw.py" (.modules [⟨"os.path", none⟩]) target →
      target = "draw.py" := by
    intro target h
    cases h with
    | module hm h =>
        cases List.mem_singleton.1 hm
        rw [show sampleTree.target? (.absolute "os.path") = none by decide +kernel] at h
        cases h
  obtain ⟨edges, hedges, hsame⟩ := (edges_of_respaced sampleTree .capitalized "draw.py"
    (by decide) (by decide +kernel) (htext closeSpelling) (htext wideSpelling) houtline
    hrespaced).2.2 _ _ hwritten hotherWritten (.cons hrespelled .nil)
    (by rw [hreferences, hotherReferences]; decide +kernel)
    (by
      rw [Outline.importParts, Outline.importParts, himports, hotherImports]
      exact .cons (.inr ⟨_, _, rfl, rfl, .inr hnowhere⟩) (.cons (.inl rfl) .nil))
    (by
      rw [links, himports, hreferences, hotherReferences]
      exact .cons (.inl rfl) (.cons (.inr (.inr (by decide +kernel))) .nil))
  have hkeys : ((ofContent sampleTree .capitalized "draw.py" (.text closeSpelling)).toOption.map
      fun edges => edges.map Edge.key) =
        some ([.imports, .inherits].map (("draw.py", "shapes.py", ·))) := by
    decide +kernel
  rw [hedges] at hkeys
  exact ⟨edges, hedges, hsame, Option.some.inj hkeys⟩

/-- A tree with a module in a package, and a file beside the package. -/
def packageTree : SourceTree :=
  ⟨⟨[(["lib"], .directory), (["lib", "pkg"], .directory),
    (["lib", "pkg", "mod.py"], .file (.text "")), (["lib", "a.py"], .file (.text ""))]⟩, "lib",
    .python⟩

/-- A source that imports a module and derives a class from one of its symbols. -/
def derivedFrom (module qualifier : String) : String :=
  "import " ++ module ++ "\nclass Box(" ++ qualifier ++ ".Square): pass\n"

/-- With blanks around the point of the module both edges are lost, and with blanks around the point
of the qualifier that of the class, although the three sources are the same without blanks. -/
theorem edges_lost_of_blanks :
    (ofContent packageTree .capitalized "a.py"
        (.text (derivedFrom "pkg.mod" "pkg.mod"))).toOption.map (·.map Edge.key) =
      some [("a.py", "pkg/mod.py", .imports), ("a.py", "pkg/mod.py", .inherits)] ∧
    (ofContent packageTree .capitalized "a.py"
        (.text (derivedFrom "pkg . mod" "pkg.mod"))).toOption.map (·.map Edge.key) = some [] ∧
    (ofContent packageTree .capitalized "a.py"
        (.text (derivedFrom "pkg.mod" "pkg . mod"))).toOption.map (·.map Edge.key) =
      some [("a.py", "pkg/mod.py", .imports)] ∧
    Syntax.bare (derivedFrom "pkg . mod" "pkg.mod") =
      Syntax.bare (derivedFrom "pkg.mod" "pkg.mod") ∧
    Syntax.bare (derivedFrom "pkg.mod" "pkg . mod") =
      Syntax.bare (derivedFrom "pkg.mod" "pkg.mod") := by
  decide +kernel

end Extraction

end CodeAtlas
