import CodeAtlas.Proofs.Graph.EdgeFile
import CodeAtlas.Proofs.Json.Strays
import CodeAtlas.Proofs.Search.ChunkLists
import CodeAtlas.Proofs.Search.Validation

/-!
# Files that are refused

The readers of index files and of legacy lists are given the bytes of a file, and whatever is wrong
with them is an error of their own kind that names the file. The reader of edge lists is given a
text. What keeps bytes from being one is left as an error of the system, which names no file.
-/

namespace CodeAtlas

namespace Error

/-- An error of a kind that has the path of the file as a part, and names it in its text. -/
def Blames (kind : String → String → Error) (path : String) (error : Error) : Prop :=
  ∃ reason, error = kind path reason ∧ ∃ front back, error.message = front ++ path ++ back

theorem blames_indexMalformed (path reason : String) :
    (indexMalformed path reason).Blames indexMalformed path := by
  refine ⟨reason, rfl, "chunk index at ",
    " is unreadable (" ++ (reason ++ ("). Rebuild it with: " ++ indexCommand)), ?_⟩
  rw [← String.append_assoc, ← String.append_assoc, ← String.append_assoc]
  rfl

theorem blames_edgeList (path reason : String) : (edgeList path reason).Blames edgeList path := by
  refine ⟨reason, rfl, "invalid edge list ", ": " ++ reason, ?_⟩
  rw [← String.append_assoc]
  rfl

end Error

open Error

/-- What is read is a value, or else the file is blamed. -/
def Result.IsClassified {α : Type} (kind : String → String → Error) (path : String)
    (result : Result α) : Prop :=
  ∀ error, result = .error error → error.Blames kind path

theorem Result.isClassified_mapError {α β : Type} {kind : String → String → Error} {path : String}
    (hkind : ∀ reason, (kind path reason).Blames kind path) (reason : β → String)
    (found : Except β α) :
    Result.IsClassified kind path (found.mapError fun error => kind path (reason error)) := by
  intro error h
  cases found with
  | ok value => cases h
  | error cause =>
      cases h
      exact hkind (reason cause)

/-! ## Bytes that are no text -/

theorem Json.Document.refused_of_mem {input : Input} (h : none ∈ input) :
    (∃ error, (read input).root.readFault depthLimit = some error) ∨
      (read input).root.readFault depthLimit = none ∧ (read input).trailing = true := by
  cases hroot : (read input).root.readFault depthLimit with
  | some error => exact .inl ⟨error, rfl⟩
  | none => exact .inr ⟨rfl, trailing_of_mem h hroot⟩

section

open Json

variable {input : Input}

theorem Search.Index.exists_ofDocument_of_mem (h : none ∈ input) :
    ∃ reason, Search.Index.ofDocument (Document.read input) = .error reason := by
  obtain ⟨error, hroot⟩ | ⟨hroot, htrailing⟩ := Document.refused_of_mem h
  · exact ⟨error.message, by rw [Search.Index.ofDocument, Document.whole, hroot]; rfl⟩
  · refine ⟨SyntaxError.trailingCharacters.message, ?_⟩
    rw [Search.Index.ofDocument, Document.whole, hroot, htrailing]
    rfl

theorem Search.Legacy.exists_ofDocument_of_mem (h : none ∈ input) :
    ∃ reason, Search.Legacy.ofDocument (Document.read input) = .error reason := by
  obtain ⟨error, hroot⟩ | ⟨hroot, htrailing⟩ := Document.refused_of_mem h
  · exact ⟨error.message, by rw [Search.Legacy.ofDocument, hroot]; rfl⟩
  · -- The shape is told first, and what stands behind the value only where that is right.
    rw [Search.Legacy.ofDocument, hroot, htrailing]
    cases Search.Legacy.decoder .value (Document.read input).root with
    | error cause => exact ⟨cause.message, rfl⟩
    | ok found => exact ⟨SyntaxError.trailingCharacters.message, rfl⟩

end

/-! ## The readers -/

namespace Graph.EdgeList

variable {tree : FileTree} {path : String} {content : Content}

theorem load_of_read_text {text : String} (hread : tree.read path = .ok content)
    (htext : content.decode = .ok text) :
    load tree path = (ofText text).mapError fun error => .edgeList path error.message := by
  rw [load_eq_match, FileTree.read_eq_ok_iff_find?.1 hread]
  dsimp only
  rw [Content.readText, htext]
  rfl

theorem load_of_read_fault {fault : Text.Utf8.Fault} (hread : tree.read path = .ok content)
    (hfault : content.decode = .error fault) : load tree path = .error (.system .notText) := by
  rw [load_eq_match, FileTree.read_eq_ok_iff_find?.1 hread]
  dsimp only
  rw [Content.readText, hfault]
  rfl

theorem not_isClassified_notText :
    ¬Result.IsClassified edgeList path (.error (.system .notText) : Result EdgeList) := by
  intro h
  obtain ⟨reason, heq, -⟩ := h _ rfl
  cases heq

end Graph.EdgeList

open Search

/-- Whatever the bytes of a file, an index and a legacy list are read from it or the file is blamed,
and so is an edge list if the bytes are a text. Bytes that are none are refused by all three, but
the edge list then fails with an error of the system. -/
theorem isClassified_of_read {tree : FileTree} {path : String} {content : Content}
    (hread : tree.read path = .ok content) :
    Result.IsClassified indexMalformed path (Index.load tree path) ∧
      Result.IsClassified indexMalformed path (Legacy.load tree path) ∧
      (Result.IsClassified edgeList path (Graph.EdgeList.load tree path) ↔
        ∃ text, content.decode = .ok text) ∧
      ∀ fault, content.decode = .error fault →
        (∃ reason, Index.load tree path = .error (.indexMalformed path reason)) ∧
          (∃ reason, Legacy.load tree path = .error (.indexMalformed path reason)) ∧
          Graph.EdgeList.load tree path = .error (.system .notText) := by
  have hindex := Index.load_of_read hread
  have hlegacy := Legacy.load_of_read hread
  refine ⟨?_, ?_, ⟨fun hclassified => ?_, fun ⟨text, htext⟩ => ?_⟩,
    fun fault hfault => ⟨?_, ?_, ?_⟩⟩
  · rw [hindex]
    exact Result.isClassified_mapError (blames_indexMalformed path) id _
  · rw [hlegacy]
    exact Result.isClassified_mapError (blames_indexMalformed path) id _
  · cases hdecode : content.decode with
    | ok text => exact ⟨text, rfl⟩
    | error fault =>
        rw [Graph.EdgeList.load_of_read_fault hread hdecode] at hclassified
        exact absurd hclassified Graph.EdgeList.not_isClassified_notText
  · rw [Graph.EdgeList.load_of_read_text hread htext]
    exact Result.isClassified_mapError (blames_edgeList path) Json.Error.message _
  · obtain ⟨reason, hreason⟩ := Index.exists_ofDocument_of_mem (Content.mem_input_of_decode hfault)
    exact ⟨reason, by rw [hindex, hreason]; rfl⟩
  · obtain ⟨reason, hreason⟩ := Legacy.exists_ofDocument_of_mem (Content.mem_input_of_decode hfault)
    exact ⟨reason, by rw [hlegacy, hreason]; rfl⟩
  · exact Graph.EdgeList.load_of_read_fault hread hfault

/-- A list of one string, of which a byte begins no character. -/
def strayTree : FileTree := ⟨[(["edges.json"], .file (.bytes [0x5B, 0x22, 0xFF, 0x22, 0x5D]))]⟩

theorem isClassified_of_read_strayTree :
    strayTree.read "edges.json" = .ok (.bytes [0x5B, 0x22, 0xFF, 0x22, 0x5D]) ∧
      (∃ reason, Index.load strayTree "edges.json" = .error (.indexMalformed "edges.json" reason)) ∧
      (∃ reason,
        Legacy.load strayTree "edges.json" = .error (.indexMalformed "edges.json" reason)) ∧
      Graph.EdgeList.load strayTree "edges.json" = .error (.system .notText) := by
  have hread : strayTree.read "edges.json" = .ok (.bytes [0x5B, 0x22, 0xFF, 0x22, 0x5D]) := rfl
  obtain ⟨-, -, -, hrefused⟩ := isClassified_of_read hread
  have hdecode : (Content.bytes [0x5B, 0x22, 0xFF, 0x22, 0x5D]).decode = .error ⟨2, some 1⟩ := rfl
  exact ⟨hread, hrefused _ hdecode⟩

/-- The error says nothing of the edge list or its file. -/
theorem not_isClassified_strayTree :
    strayTree.isFile "edges.json" = true ∧
      Graph.EdgeList.load strayTree "edges.json" = .error (.system .notText) ∧
      ¬Result.IsClassified edgeList "edges.json" (Graph.EdgeList.load strayTree "edges.json") := by
  have hload : Graph.EdgeList.load strayTree "edges.json" = .error (.system .notText) := rfl
  refine ⟨rfl, hload, ?_⟩
  rw [hload]
  exact Graph.EdgeList.not_isClassified_notText

end CodeAtlas
