import CodeAtlas.Proofs.Extraction.Edges

/-!
# Conventions compared

A convention decides over calls alone. The other edges of a file are those that are left when no call
counts, and stay as they are under any convention, notes and order included. A convention that takes
in more callees leaves no pair of files without its edge; the call which that edge tells of may be
another one.
-/

namespace CodeAtlas

def Convention.never : Convention := fun _ => false

namespace Extraction

open CodeAtlas.Graph
open Syntax (Outline)

variable {tree : SourceTree} {file : String} {outline : Outline}

theorem filter_referenceEdge? (convention : Convention) (bindings : Bindings)
    (reference : Reference) :
    (referenceEdge? convention file bindings reference).filter
        (fun edge => edge.relation ≠ .instantiates) =
      referenceEdge? .never file bindings reference := by
  cases reference with
  | base className symbol =>
      rw [referenceEdge?, referenceEdge?]
      cases bindings.lookup symbol <;> rfl
  | call symbol =>
      rw [referenceEdge?, referenceEdge?]
      cases convention symbol.name <;> cases bindings.lookup symbol <;> rfl

theorem filter_edgesOf (convention : Convention) :
    (edgesOf tree convention file outline).filter (fun edge => edge.relation ≠ .instantiates) =
      edgesOf tree .never file outline := by
  rw [edgesOf, List.filter_append, List.filter_filterMap]
  congr 1
  · exact List.filter_eq_self.2 (by simp)
  · exact congrArg (outline.references.filterMap ·) (funext (filter_referenceEdge? convention _))

theorem filter_dedup_edgesOf (convention : Convention) :
    (Edge.dedup (edgesOf tree convention file outline)).filter
        (fun edge => edge.relation ≠ .instantiates) =
      Edge.dedup (edgesOf tree .never file outline) := by
  rw [← filter_edgesOf convention]
  exact Edge.dedup_filter (fun key => key.2.2 ≠ .instantiates) _

theorem mem_edgesOf_of_wider {narrow wide : Convention} {edge : Edge}
    (hwider : ∀ name, narrow name = true → wide name = true)
    (h : edge ∈ edgesOf tree narrow file outline) : edge ∈ edgesOf tree wide file outline := by
  rw [mem_edgesOf] at h ⊢
  rcases h with hlink | hbase | ⟨symbol, target, hcall, hnarrow, hcomes, he⟩
  · exact .inl hlink
  · exact .inr (.inl hbase)
  · exact .inr (.inr ⟨symbol, target, hcall, hwider _ hnarrow, hcomes, he⟩)

theorem mem_keys_dedup_edgesOf_of_wider {narrow wide : Convention} {key : Edge.Key}
    (hwider : ∀ name, narrow name = true → wide name = true)
    (h : key ∈ (Edge.dedup (edgesOf tree narrow file outline)).map Edge.key) :
    key ∈ (Edge.dedup (edgesOf tree wide file outline)).map Edge.key := by
  rw [Edge.mem_keys_dedup] at h ⊢
  obtain ⟨edge, hm, hrest⟩ := h
  exact ⟨edge, mem_edgesOf_of_wider hwider hm, hrest⟩

/-- A source that parses has edges under every convention. A wider convention keeps all but the edges
of calls as they are, in their order, and has an edge of a call wherever a narrower one has it. Where
no callee counts, nothing is left but what all conventions have in common. -/
theorem edges_of_wider (tree : SourceTree) (file : String) {content : Content} {text : String}
    (htext : textOf file content = .ok text) (houtline : Outline.ofText? text = some outline)
    {narrow wide : Convention} (hwider : ∀ name, narrow name = true → wide name = true) :
    ∃ few many, ofContent tree narrow file content = .ok few ∧
      ofContent tree wide file content = .ok many ∧
      few.filter (fun edge => edge.relation ≠ .instantiates) =
        many.filter (fun edge => edge.relation ≠ .instantiates) ∧
      (∀ source target, (source, target, .instantiates) ∈ few.map Edge.key →
        (source, target, .instantiates) ∈ many.map Edge.key) ∧
      ((∀ name, narrow name = false) →
        few = many.filter fun edge => edge.relation ≠ .instantiates) := by
  have hok := fun convention => ofContent_eq_ok_iff.2
    ⟨text, outline, htext, houtline, (rfl : Edge.dedup (edgesOf tree convention file outline) = _)⟩
  refine ⟨_, _, hok narrow, hok wide, ?_, fun source target => ?_, fun hnever => ?_⟩
  · rw [filter_dedup_edgesOf, filter_dedup_edgesOf]
  · exact mem_keys_dedup_edgesOf_of_wider hwider
  · obtain rfl : narrow = .never := funext hnever
    exact (filter_dedup_edgesOf wide).symm

/-- A source in which another callee comes before the one with a capital letter. -/
def mixedSource : String :=
  "import shapes\nshapes.draw()\nclass Box(shapes.Square): shapes.Pen()\n"

/-- The call that an edge tells of is the first that counts, so its note hangs on the convention. -/
theorem edges_of_wider_mixedSource :
    ∃ few many,
      ofContent sampleTree .capitalized "draw.py" (.text mixedSource) = .ok few ∧
      ofContent sampleTree (fun _ => true) "draw.py" (.text mixedSource) = .ok many ∧
      few.map Edge.note = [none, some "Box inherits Square", some "calls Pen()"] ∧
      many.map Edge.note = [none, some "calls draw()", some "Box inherits Square"] ∧
      few.filter (fun edge => edge.relation ≠ .instantiates) =
        many.filter (fun edge => edge.relation ≠ .instantiates) ∧
      ("draw.py", "shapes.py", .instantiates) ∈ many.map Edge.key := by
  have hparses : (Outline.ofText? mixedSource).isSome = true := by decide +kernel
  obtain ⟨outline, houtline⟩ := Option.isSome_iff_exists.1 hparses
  have htext : textOf "draw.py" (.text mixedSource) = .ok mixedSource := rfl
  obtain ⟨few, many, hfew, hmany, hsame, hpairs, -⟩ :=
    edges_of_wider sampleTree "draw.py" htext houtline
      fun name (_ : Convention.capitalized name = true) => rfl
  have hfirst : (ofContent sampleTree .capitalized "draw.py" (.text mixedSource)).toOption.map
      (fun edges => (edges.map Edge.note, edges.map Edge.key)) =
        some ([none, some "Box inherits Square", some "calls Pen()"],
          [.imports, .inherits, .instantiates].map (("draw.py", "shapes.py", ·))) := by
    decide +kernel
  have hsecond : (ofContent sampleTree (fun _ => true) "draw.py" (.text mixedSource)).toOption.map
      (fun edges => edges.map Edge.note) =
        some [none, some "calls draw()", some "Box inherits Square"] := by
    decide +kernel
  rw [hfew] at hfirst
  rw [hmany] at hsecond
  obtain ⟨hnotes, hkeys⟩ := Prod.mk.inj (Option.some.inj hfirst)
  refine ⟨few, many, hfew, hmany, hnotes, Option.some.inj hsecond, hsame, hpairs _ _ ?_⟩
  rw [hkeys]
  decide

end Extraction

end CodeAtlas
