import CodeAtlas.Chunking
import CodeAtlas.Proofs.Syntax.Definitions
import CodeAtlas.Proofs.Text.Lines
import Mathlib.Data.List.Basic

/-!
# The chunks of a text

A definition stands on rows of the text that are those of lines, from the row of its first word to the
one it stops on. A definition that ends with the text may stop on the row behind the last line, so the
last row is cut to the lines there are. No two definitions start at the same point, so none is left
out as seen before, and they are found in the order in which they start. Hence no definition of a
source goes without its chunk.
-/

namespace CodeAtlas.Chunking

open Syntax (Definition Outline Position)

/-! ## Rows -/

/-- The last of the lines a definition stands on. -/
def lastRow (lines : List String) (definition : Definition) : Nat :=
  min definition.stop.row (lines.length - 1)

/-- The lines a definition stands on, whole. -/
def linesOf (lines : List String) (definition : Definition) : List String :=
  lines.extract definition.start.row (lastRow lines definition + 1)

theorem lastRow_lt {lines : List String} {definition : Definition}
    (h : definition.start.row < lines.length) : lastRow lines definition < lines.length := by
  unfold lastRow
  omega

theorem row_lt_of_isIn {text : String} {position : Position} (h : position.IsIn text.toList)
    (hlt : position.offset < text.toList.length) : position.row < (Text.lines text).length := by
  rw [h.row_eq]
  exact Text.count_lt_length_lines hlt

theorem rowsBetween_eq_linesOf {lines : List String} {definition : Definition} :
    rowsBetween lines definition.start.row definition.stop.row = linesOf lines definition := by
  unfold rowsBetween linesOf lastRow
  rw [List.extract_eq_take_drop, List.take_eq_take_iff, List.length_drop]
  omega

theorem row_lt_of_mem {text : String} {outline : Outline} (h : Outline.ofText? text = some outline)
    {definition : Definition} (hm : definition ∈ outline.definitions) :
    definition.start.row < (Text.lines text).length := by
  obtain ⟨hstart, hstop, hlt, -⟩ := (Outline.definitions_of_ofText? h).2 definition hm
  have hle := hstop.offset_le
  exact row_lt_of_isIn hstart (by omega)

theorem rows_of_stop_le {text : String} {outer inner : Definition}
    (houter : outer.start.IsIn text.toList ∧ outer.stop.IsIn text.toList)
    (hinner : inner.start.IsIn text.toList ∧ inner.stop.IsIn text.toList)
    (hstart : outer.start.offset ≤ inner.start.offset)
    (hstop : inner.stop.offset ≤ outer.stop.offset) (lines : List String) :
    outer.start.row ≤ inner.start.row ∧ lastRow lines inner ≤ lastRow lines outer := by
  have hrows := hinner.2.row_le houter.2 hstop
  refine ⟨houter.1.row_le hinner.1 hstart, ?_⟩
  unfold lastRow
  omega

/-! ## Chunks -/

theorem ofDefinition?_eq {file : String} {lines : List String} {definition : Definition}
    (h : definition.start.row < lines.length) :
    ofDefinition? file lines definition =
      some ⟨file, kindOf definition.kind, definition.name,
        "\n".intercalate (linesOf lines definition)⟩ := by
  rw [ofDefinition?, if_pos h, rowsBetween_eq_linesOf]

theorem front_eq (length : Nat) (text : String) :
    front length text = String.ofList (text.toList.take (min length text.length)) := by
  rw [front, ← String.length_toList, List.take_eq_take_min]

theorem once_eq_self {definitions : List Definition} {seen : List (Nat × Nat)}
    (hordered : definitions.Pairwise fun first second => first.start.offset < second.start.offset)
    (hseen : ∀ definition ∈ definitions,
      (definition.start.offset, definition.stop.offset) ∉ seen) :
    once seen definitions = definitions := by
  induction definitions generalizing seen with
  | nil => rfl
  | cons definition rest ih =>
      obtain ⟨hfirst, hrest⟩ := List.pairwise_cons.1 hordered
      rw [once, if_neg (hseen definition List.mem_cons_self), ih hrest]
      intro other hm hstretch
      rcases List.mem_cons.1 hstretch with he | hstretch
      · have hlt := hfirst other hm
        have hstart := (Prod.mk.inj he).1
        omega
      · exact hseen other (List.mem_cons_of_mem _ hm) hstretch

theorem ofDefinitions_eq {file : String} {lines : List String} {definitions : List Definition}
    (hordered : definitions.Pairwise fun first second => first.start.offset < second.start.offset)
    (hrows : ∀ definition ∈ definitions, definition.start.row < lines.length) :
    ofDefinitions file lines definitions = definitions.map fun definition =>
      (definition.start.offset, ⟨file, kindOf definition.kind, definition.name,
        "\n".intercalate (linesOf lines definition)⟩) := by
  rw [ofDefinitions, once_eq_self hordered (by simp), List.filterMap_eq_map_iff_forall_eq_some]
  intro definition hm
  rw [ofDefinition?_eq (hrows definition hm)]
  rfl

theorem ofText_eq {text : String} {outline : Outline} (h : Outline.ofText? text = some outline)
    (length : Nat) (file : String) :
    ofText length file text =
      outline.definitions.map (fun definition =>
        ⟨file, kindOf definition.kind, definition.name,
          "\n".intercalate (linesOf (Text.lines text) definition)⟩) ++
      [ofModule file (front length text)] := by
  have hordered := (Outline.definitions_of_ofText? h).1.imp And.left
  rw [ofText, h]
  dsimp only
  rw [ofDefinitions_eq hordered fun definition hm => row_lt_of_mem h hm,
    List.mergeSort_of_pairwise, List.map_map]
  · rfl
  · rw [List.pairwise_map]
    exact hordered.imp fun hlt => by simpa using Nat.le_of_lt hlt

/-- A class and its method stand on the line both end on, and line ends give way to a line feed. -/
example : let text := "class A:\r\n  def f(self):\r\n    pass\r\n"
    (Outline.ofText? text).map (fun outline =>
      (ofDefinitions "a.py" (Text.lines text) outline.definitions).map fun found =>
        (found.1, found.2.name, found.2.source)) =
      some [(0, "A", "class A:\n  def f(self):\n    pass"),
        (12, "f", "  def f(self):\n    pass")] := by
  decide +kernel

end CodeAtlas.Chunking
