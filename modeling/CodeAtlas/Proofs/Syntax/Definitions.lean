import CodeAtlas.Proofs.Syntax.Statements

/-!
# Where definitions stand

The definitions of an outline come in the order in which they start. Each takes up a stretch of the
text that was read, from a word of its kind on, and of two stretches the second lies within the first
or behind it. So the outline of a source has its definitions in order, nested or apart, at points of
the text.
-/

namespace CodeAtlas.Syntax

/-! ## Stretches -/

/-- Of two definitions the second starts behind the start of the first, and lies within it or behind
it. -/
def Definition.Precedes (first second : Definition) : Prop :=
  first.start.offset < second.start.offset ∧
    (second.stop.offset ≤ first.stop.offset ∨ first.stop.offset ≤ second.start.offset)

/-- A definition takes up room between two cursors, from a word of its kind on. -/
def Definition.Between (definition : Definition) (first last : Cursor) : Prop :=
  ∃ start stop : Cursor, first.Reaches start ∧ start.Reaches stop ∧ stop.Reaches last ∧
    start.offset < stop.offset ∧ definition.kind.Opens start.rest ∧
    definition.start = start.toPosition ∧ definition.stop = stop.toPosition

namespace Outline

@[simp] theorem definitions_nil : definitions [] = [] := rfl

@[simp] theorem definitions_append (first second : Outline) :
    definitions (first ++ second) = first.definitions ++ second.definitions :=
  List.filterMap_append

theorem definitions_callsPreorder (calls : List Call) : (callsPreorder calls).definitions = [] :=
  List.filterMap_eq_nil_iff.2 (forall_mem_callsPreorder (fun _ _ => rfl) calls)

@[simp] theorem definitions_cons_definition (value : Definition) (heading : Option Heading)
    (rest : Outline) :
    definitions (.definition value heading :: rest) = value :: rest.definitions := rfl

/-- The definitions of an outline lie between two cursors, in order, nested or apart. -/
structure Spans (first last : Cursor) (outline : Outline) : Prop where
  reaches : first.Reaches last
  between : ∀ definition ∈ outline.definitions, definition.Between first last
  ordered : outline.definitions.Pairwise Definition.Precedes

variable {first middle last : Cursor} {outline other : Outline}

theorem spans_of_definitions_eq_nil (h : first.Reaches last) (he : outline.definitions = []) :
    outline.Spans first last := by
  refine ⟨h, ?_, ?_⟩ <;> simp [he]

theorem Spans.onward (h : outline.Spans first middle) (hr : middle.Reaches last) :
    outline.Spans first last := by
  refine ⟨h.reaches.trans hr, fun definition hm => ?_, h.ordered⟩
  obtain ⟨start, stop, hstart, hroom, hstop, hlt, he⟩ := h.between definition hm
  exact ⟨start, stop, hstart, hroom, hstop.trans hr, hlt, he⟩

theorem Spans.append (h : outline.Spans first middle) (hother : other.Spans middle last) :
    (outline ++ other).Spans first last := by
  refine ⟨h.reaches.trans hother.reaches, ?_, ?_⟩
  · intro definition hm
    rw [definitions_append, List.mem_append] at hm
    rcases hm with hm | hm
    · exact (h.onward hother.reaches).between definition hm
    · obtain ⟨start, stop, hstart, hroom, hstop, hlt, he⟩ := hother.between definition hm
      exact ⟨start, stop, h.reaches.trans hstart, hroom, hstop, hlt, he⟩
  · rw [definitions_append, List.pairwise_append]
    refine ⟨h.ordered, hother.ordered, fun earlier hearlier later hlater => ?_⟩
    obtain ⟨start, stop, -, -, hstop, hlt, -, hs, ht⟩ := h.between earlier hearlier
    obtain ⟨nextStart, _, hnext, -, -, -, -, hn, -⟩ := hother.between later hlater
    have hbefore := hstop.offset_le
    have hbehind := hnext.offset_le
    rw [Definition.Precedes, hs, ht, hn]
    omega

theorem Spans.define {start : Cursor} (h : outline.Spans first last) (hr : start.Reaches first)
    (hlt : start.offset < first.offset) {kind : Definition.Kind} (hopens : kind.Opens start.rest)
    (name : String) (heading : Option Heading) :
    Spans start last
      (.definition ⟨kind, name, start.toPosition, last.toPosition⟩ heading :: outline) := by
  have hfirst := h.reaches.offset_le
  refine ⟨hr.trans h.reaches, ?_, ?_⟩
  · intro definition hm
    rw [definitions_cons_definition, List.mem_cons] at hm
    rcases hm with rfl | hm
    · exact ⟨start, last, .refl _, hr.trans h.reaches, .refl _, by omega, hopens, rfl, rfl⟩
    · obtain ⟨inner, stop, hinner, hroom, hstop, hlt, he⟩ := h.between definition hm
      exact ⟨inner, stop, hr.trans hinner, hroom, hstop, hlt, he⟩
  · rw [definitions_cons_definition, List.pairwise_cons]
    refine ⟨fun inner hm => ?_, h.ordered⟩
    obtain ⟨innerStart, innerStop, hinner, -, hstop, -, -, hs, ht⟩ := h.between inner hm
    have hbehind := hinner.offset_le
    have hwithin := hstop.offset_le
    rw [Definition.Precedes, hs, ht]
    refine ⟨?_, .inl hwithin⟩
    show start.offset < innerStart.offset
    omega

/-- Where definitions stand is an account of a reading. -/
def spansAccount : Account where
  Between first last outline := outline.Spans first last
  nil hr := spans_of_definitions_eq_nil hr rfl
  append := Spans.append
  calling hr _ := spans_of_definitions_eq_nil hr (definitions_callsPreorder _)
  importing h := by
    refine spans_of_definitions_eq_nil (Parser.advances _ h) ?_
    rcases Import.statement_cases h with rfl | ⟨value, rfl⟩ <;> rfl
  defining h hr hlt hopens _ := h.define hr hlt hopens _ _

/-- The definitions of a source stand at points of its text, each with a word of its kind at its
start. Of two of them the first starts further in front, and the second lies within it or behind it.
-/
theorem definitions_of_ofText? {text : String} {outline : Outline}
    (h : Outline.ofText? text = some outline) :
    outline.definitions.Pairwise Definition.Precedes ∧
    ∀ definition ∈ outline.definitions, definition.start.IsIn text.toList ∧
      definition.stop.IsIn text.toList ∧ definition.start.offset < definition.stop.offset ∧
      definition.kind.Opens (text.toList.drop definition.start.offset) := by
  obtain ⟨last, hspans⟩ := spansAccount.exists_between h
  refine ⟨hspans.ordered, fun definition hm => ?_⟩
  obtain ⟨start, stop, hstart, hroom, -, hlt, hopens, hs, ht⟩ := hspans.between definition hm
  obtain ⟨hisIn, hrest⟩ := hstart.isIn
  rw [hs, ht]
  exact ⟨hisIn, (hstart.trans hroom).isIn.1, hlt, hrest ▸ hopens⟩

end Outline

end CodeAtlas.Syntax
