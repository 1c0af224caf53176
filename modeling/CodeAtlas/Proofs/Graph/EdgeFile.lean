import CodeAtlas.Graph.EdgeList
import CodeAtlas.Proofs.Graph.Dedup
import CodeAtlas.Proofs.Json.DecodeRoundTrip
import CodeAtlas.Proofs.Publication

/-!
# Edge lists as texts and files

What is written of an edge list is read back as this list, whatever its paths and notes hold, and so
is the file it is published as.
-/

namespace CodeAtlas

namespace Graph

open Json

namespace Edge

theorem decoder_toJson (edge : Edge) :
    Edge.decoder (.text (Document.depthLimit - 1)) edge.toJson.draft = .ok edge := by
  obtain ⟨source, target, relation, note⟩ := edge
  cases note <;> cases relation <;> rfl

end Edge

namespace EdgeList

theorem ofEdges_edges (list : EdgeList) : ofEdges list.edges = list := by
  obtain ⟨edges, distinct⟩ := list
  simpa [ofEdges] using distinct

theorem ofText_toText (list : EdgeList) : ofText list.toText = .ok list := by
  have hread := Decoder.ofText_list fun edge (_ : edge ∈ list.edges) => edge.decoder_toJson
  have htext := (Value.array (list.edges.map Edge.toJson)).read_print (.pretty 0)
  rw [ofText, toText, Value.pretty, htext, hread]
  exact congrArg Except.ok list.ofEdges_edges

theorem load_eq_match (tree : FileTree) (path : String) : load tree path =
    match tree.find? path with
    | none => .error (.edgeList path "file not found; run `codecompass extract <repo>` first")
    | some .directory => .error (.system .isDirectory)
    | some (.file content) =>
        content.readText.mapError .system >>= fun text =>
          (ofText text).mapError fun error => .edgeList path error.message := by
  rw [load, FileTree.contains]
  cases hf : tree.find? path with
  | none => rfl
  | some entry =>
      rw [FileTree.read_of_find? hf]
      cases entry <;> rfl

theorem load_save {list : EdgeList} {tree new : FileTree} {path : String}
    (h : list.save tree path = (.ok (), new)) : load new path = .ok list := by
  have hread : new.read path = .ok (.text list.toText) := FileTree.read_publish h
  have htext : (new.read path >>= Content.readText) = .ok list.toText := by
    rw [hread]
    rfl
  unfold load
  rw [FileTree.contains_of_read hread, htext]
  change (ofText list.toText).mapError _ = .ok list
  rw [ofText_toText]
  rfl

theorem source_ne_target_of_mem {list : EdgeList} {edge : Edge} (hm : edge ∈ list.edges) :
    edge.source ≠ edge.target := by
  rw [← list.distinct, Edge.mem_dedup] at hm
  simpa [Edge.isLoop] using hm.1

theorem nodup_keys (list : EdgeList) : (list.edges.map Edge.key).Nodup := by
  rw [← list.distinct]
  exact Edge.nodup_keys_dedup list.edges

theorem read_save {list : EdgeList} {tree new : FileTree} {path : String}
    (h : list.save tree path = (.ok (), new)) : new.read path = .ok (.text list.toText) :=
  FileTree.read_publish h

theorem load_eq_ok {list : EdgeList} {tree : FileTree} {path : String}
    (h : load tree path = .ok list) :
    ∃ text edges, (tree.read path >>= Content.readText) = .ok text ∧
      (Decoder.list Edge.decoder).ofText (Document.read (Input.ofText text)) = .ok edges ∧
      list.edges = Edge.dedup edges := by
  unfold load at h
  cases hc : tree.contains path with
  | false =>
      rw [hc] at h
      cases h
  | true =>
      cases ht : tree.read path >>= Content.readText with
      | error cause =>
          rw [hc, ht] at h
          cases h
      | ok text =>
          rw [hc, ht] at h
          change (ofText text).mapError _ = _ at h
          cases he : (Decoder.list Edge.decoder).ofText (Document.read (Input.ofText text)) with
          | error cause =>
              rw [ofText, he] at h
              cases h
          | ok edges =>
              rw [ofText, he] at h
              cases h
              exact ⟨text, edges, rfl, he, rfl⟩

/-- What is merged and saved is loaded as it was, and saved again as the same text. What is loaded
from any file is what it holds without loops and repetitions, and stays the same when it is saved
and loaded again. -/
theorem load_save_load (batches : List (List Edge)) :
    ofText (merge batches).toText = .ok (merge batches) ∧
    (∀ tree new path, (merge batches).save tree path = (.ok (), new) →
      load new path = .ok (merge batches) ∧
      ∀ list other last target, load new path = .ok list →
        list.save other target = (.ok (), last) →
          ∃ text, new.read path = .ok (.text text) ∧ last.read target = .ok (.text text)) ∧
    ∀ tree path list, load tree path = .ok list →
      (∃ text edges, (tree.read path >>= Content.readText) = .ok text ∧
        (Decoder.list Edge.decoder).ofText (Document.read (Input.ofText text)) = .ok edges ∧
        list.edges = Edge.dedup edges) ∧
      (∀ edge ∈ list.edges, edge.source ≠ edge.target) ∧
      (list.edges.map Edge.key).Nodup ∧
      ∀ other last target, list.save other target = (.ok (), last) →
        load last target = .ok list := by
  refine ⟨ofText_toText _, fun tree new path hsave => ⟨load_save hsave, ?_⟩, ?_⟩
  · intro list other last target hload hagain
    obtain rfl : merge batches = list := by simpa [load_save hsave] using hload
    exact ⟨_, read_save hsave, read_save hagain⟩
  · intro tree path list hload
    exact ⟨load_eq_ok hload, fun edge hm => source_ne_target_of_mem hm, list.nodup_keys,
      fun other last target hsave => load_save hsave⟩

/-- Edges with quotes, backslashes, control characters, empty texts and repetitions. -/
def sampleBatches : List (List Edge) :=
  [[⟨"a\"b", "c\\d\n", .imports, some "\x01\t"⟩, ⟨"", "ü", .inherits, none⟩],
    [⟨"x", "x", .imports, none⟩, ⟨"a\"b", "c\\d\n", .imports, none⟩, ⟨"", "ü", .imports, some ""⟩]]

/-- A file that was not written from a list, with a loop and a repetition. -/
def sampleFile : FileTree :=
  ⟨[(["edges.json"], .file (.text ("[[\"x\", \"x\", \"IMPORTS\", null]," ++
    "[\"x\", \"y\", \"IMPORTS\", null], [\"x\", \"y\", \"IMPORTS\", \"again\"]]")))]⟩

theorem load_save_load_of_sampleBatches :
    ∃ merged list last, (merge sampleBatches).save {} "merged.json" = (.ok (), merged) ∧
      load merged "merged.json" = .ok (merge sampleBatches) ∧
      (merge sampleBatches).size = 3 ∧
      load sampleFile "edges.json" = .ok list ∧
      list.edges = [⟨"x", "y", .imports, none⟩] ∧
      list.save sampleFile "edges.json" = (.ok (), last) ∧
      load last "edges.json" = .ok list := by
  obtain ⟨-, hmerged, hloaded⟩ := load_save_load sampleBatches
  have hsave : (merge sampleBatches).save {} "merged.json" = (.ok (),
      ⟨[(["merged.json"], .file (.text (merge sampleBatches).toText))]⟩) := rfl
  have hsome : (load sampleFile "edges.json").toOption =
      some ⟨[⟨"x", "y", .imports, none⟩], rfl⟩ := by decide +kernel
  cases hload : load sampleFile "edges.json" with
  | error cause =>
      rw [hload] at hsome
      cases hsome
  | ok list =>
      rw [hload] at hsome
      cases hsome
      obtain ⟨-, -, -, hlast⟩ := hloaded _ _ _ hload
      have hagain : EdgeList.save ⟨[⟨"x", "y", .imports, none⟩], rfl⟩ sampleFile "edges.json" =
          (.ok (), ⟨[(["edges.json"], .file (.text
            (EdgeList.toText ⟨[⟨"x", "y", .imports, none⟩], rfl⟩)))]⟩) := rfl
      exact ⟨_, _, _, hsave, (hmerged _ _ _ hsave).1, by decide +kernel, rfl, rfl, hagain,
        hlast _ _ _ hagain⟩

end EdgeList

end Graph

end CodeAtlas
