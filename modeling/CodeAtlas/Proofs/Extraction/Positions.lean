import CodeAtlas.Proofs.Extraction.Edges
import CodeAtlas.Proofs.Syntax.Imports

/-!
# Imports in other places

The edges of a file depend on its imports in their order and on its references in theirs, and not on
how the two stand among each other. Of both only the texts count: an import says the same wherever
it stands, and so do a call and the heading of a class. So an import may be moved to any place and
depth; it binds what comes before it as well.
-/

namespace CodeAtlas.Extraction

open CodeAtlas.Graph
open Syntax (Cursor Import Outline)

variable {tree : SourceTree} {convention : Convention} {file : String} {outline moved : Outline}

theorem edgesOf_congr (himports : outline.imports = moved.imports)
    (hreferences : outline.references = moved.references) :
    edgesOf tree convention file outline = edgesOf tree convention file moved := by
  rw [edgesOf, edgesOf, links, links, himports, hreferences]

/-- The imports of a source that parses are written in it one behind the other, and its calls and
headings of classes are read from their texts. Where the same texts stand in another source as its
imports, and the same as its calls and headings, it has the same edges: it does not matter how the
two stand among each other, what is around them, or how deep they are nested. -/
theorem edges_of_moved (tree : SourceTree) (convention : Convention) (file : String)
    {content other : Content} {source target : String}
    (hsource : textOf file content = .ok source) (htarget : textOf file other = .ok target)
    (houtline : Outline.ofText? source = some outline)
    (hmoved : Outline.ofText? target = some moved) :
    (∃ texts, outline.HasImports source texts) ∧
    (∀ node ∈ outline, node.IsRead source.toList) ∧
    ∀ texts, outline.HasImports source texts → moved.HasImports target texts →
      outline.texts = moved.texts →
      ∃ edges, ofContent tree convention file content = .ok edges ∧
        ofContent tree convention file other = .ok edges := by
  refine ⟨Outline.exists_hasImports houtline, Outline.isRead_of_ofText houtline, ?_⟩
  intro texts himports hother htexts
  have hreferences : outline.references = moved.references :=
    Outline.references_eq_of_ofText houtline hmoved htexts
  refine ⟨_, ofContent_eq_ok_iff.2 ⟨source, outline, hsource, houtline, rfl⟩,
    ofContent_eq_ok_iff.2 ⟨target, moved, htarget, hmoved, ?_⟩⟩
  rw [edgesOf_congr (himports.eq hother) hreferences]

/-- A source that starts with its import. -/
def importFirst : String := "import shapes as s\nclass Box(s.Square):\n  def draw(): s.Pen()\n"

/-- The same import at the end of a function, over more blanks. -/
def importLast : String :=
  "class Box(s.Square):\n  def draw():\n    s.Pen()\n    import shapes as s\n"

theorem hasImports_of_run {source : String} {outline : Outline} {value : Import} (point : Nat)
    {text : String} (himports : outline.imports = [value])
    (h : ((Import.statement {}).run ((Cursor.ofText source).skip point)).map (fun (read, last) =>
      (read, (((Cursor.ofText source).skip point).ahead {}).start.textTo last.offset)) =
        some ([.imports value], text)) : outline.HasImports source [text] := by
  obtain ⟨⟨read, last⟩, hrun, he⟩ := Option.map_eq_some_iff.1 h
  obtain ⟨rfl, htext⟩ := Prod.mk.inj he
  rw [Outline.HasImports, himports]
  exact ⟨last, .cons ⟨{}, _, Syntax.Cursor.reaches_skip point _, hrun, htext⟩ (.nil (.refl _))⟩

theorem edges_of_moved_importLast :
    ∃ edges, ofContent sampleTree .capitalized "draw.py" (.text importFirst) = .ok edges ∧
      ofContent sampleTree .capitalized "draw.py" (.text importLast) = .ok edges ∧
      edges.map Edge.key =
        [.imports, .inherits, .instantiates].map (("draw.py", "shapes.py", ·)) := by
  have hfirst : (Outline.ofText? importFirst).map (fun outline =>
      (outline.imports, outline.texts)) =
        some ([.modules [⟨"shapes", some "s"⟩]], ["class Box(s.Square)", "s.Pen()"]) := by
    decide +kernel
  have hlast : (Outline.ofText? importLast).map (fun outline =>
      (outline.imports, outline.texts)) =
        some ([.modules [⟨"shapes", some "s"⟩]], ["class Box(s.Square)", "s.Pen()"]) := by
    decide +kernel
  obtain ⟨outline, houtline, hread⟩ := Option.map_eq_some_iff.1 hfirst
  obtain ⟨moved, hmoved, hother⟩ := Option.map_eq_some_iff.1 hlast
  obtain ⟨himports, htexts⟩ := Prod.mk.inj hread
  obtain ⟨hotherImports, hotherTexts⟩ := Prod.mk.inj hother
  have hwritten : outline.HasImports importFirst ["import shapes as s"] :=
    hasImports_of_run 0 himports (by decide +kernel)
  have hmovedWritten : moved.HasImports importLast ["import shapes as s"] :=
    hasImports_of_run 51 hotherImports (by decide +kernel)
  have htext (text : String) : textOf "draw.py" (.text text) = .ok text := rfl
  obtain ⟨edges, hedges, hsame⟩ := (edges_of_moved sampleTree .capitalized "draw.py"
    (htext importFirst) (htext importLast) houtline hmoved).2.2 _ hwritten hmovedWritten
    (htexts.trans hotherTexts.symm)
  have hkeys : ((ofContent sampleTree .capitalized "draw.py" (.text importFirst)).toOption.map
      fun edges => edges.map Edge.key) =
        some ([.imports, .inherits, .instantiates].map (("draw.py", "shapes.py", ·))) := by
    decide +kernel
  rw [hedges] at hkeys
  exact ⟨edges, hedges, hsame, Option.some.inj hkeys⟩

end CodeAtlas.Extraction
