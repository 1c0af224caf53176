import CodeAtlas.CommandLine.Program
import CodeAtlas.Proofs.CommandLine.Arguments
import CodeAtlas.Proofs.Json.DecodeRoundTrip
import CodeAtlas.Proofs.Text.Numeral

/-!
# Questions

A question about the neighbours of a file, or about the files for a query, can be put in the
arguments of a command and in a request of an assistant. Both understand it as it is meant.
-/

namespace CodeAtlas.CommandLine

open Given Invocation
open CodeAtlas.Graph (Direction)
open Json (Decoder Number Value)

/-- A question with what may be said besides: the word for a direction, the number of files. -/
inductive Question where
  | neighbors (file : String) (direction : Option String)
  | search (query : String) (count : Option Nat)

namespace Question

/-- The word does not look like an option, and what is said besides makes sense to the program. -/
def IsAccepted : Question → Prop
  | neighbors file direction => file.toList.head? ≠ some '-' ∧
      ∀ word ∈ direction, ∃ value, Direction.ofName word = .ok value
  | search query count => query.toList.head? ≠ some '-' ∧ ∀ limit ∈ count, limit < Nat.pow 2 64

/-- The direction that is meant, which is both unless another is given. -/
def directionOf (word : Option String) : Direction :=
  (word.bind fun word => (Direction.ofName word).toOption).getD .both

def command (json : Bool) : Question → Command
  | neighbors file direction => .neighbors file (directionOf direction) json
  | search query count => .search query count json

/-- The call of a tool that asks the question. -/
def call : Question → Assistant.Call
  | neighbors file direction => .context file direction
  | search query count => .search query count

/-! ## As arguments -/

def directionOption : Parameter :=
  { name := "direction", short := some 'd', kind := some .direction }

def topOption : Parameter := { name := "top", short := some 'n', kind := some .size }

def arguments (json : Bool) : Question → List String
  | neighbors file direction =>
      "neighbors" :: (optionArguments json directionOption direction ++ [file])
  | search query count =>
      "search" :: (optionArguments json topOption (count.map toString) ++ [query])

theorem takes_neighbors : ∃ entry, named? "neighbors" = some entry ∧
    entry.Takes (word "file" .text) directionOption ∧
    entry.make = fun given => .neighbors ((given.text? "file").getD "")
      ((given.direction? "direction").getD .both) (given.isGiven "json") := by
  refine ⟨_, rfl, ⟨rfl, rfl, by decide, by decide, by decide, rfl, by decide, by decide⟩, rfl⟩

theorem takes_search : ∃ entry, named? "search" = some entry ∧
    entry.Takes (word "query" .text) topOption ∧
    entry.make = fun given =>
      .search ((given.text? "query").getD "") (given.size? "top") (given.isGiven "json") := by
  refine ⟨_, rfl, ⟨rfl, rfl, by decide, by decide, by decide, rfl, by decide, by decide⟩, rfl⟩

theorem parse_arguments {question : Question} (h : question.IsAccepted) (json : Bool) :
    parse (question.arguments json) =
      .ok ⟨Configuration.defaultFile, question.command json⟩ := by
  cases question with
  | neighbors file direction =>
      obtain ⟨hfile, hdirection⟩ := h
      obtain ⟨entry, hn, htakes, hmake⟩ := takes_neighbors
      have hcheck : ∀ word ∈ direction, check directionOption (id word) =
          .ok (.direction (directionOf (some word))) := by
        intro word hm
        obtain ⟨value, hv⟩ := hdirection word hm
        simp [check, directionOption, directionOf, hv, Except.toOption]
      have htaken := takeCommand_eq htakes json hcheck hfile
      rw [Option.map_id, id] at htaken
      rw [arguments, parse_cons hn rfl, htaken, Except.map, hmake, command]
      cases direction with
      | none => cases json <;> rfl
      | some word =>
          rw [Option.map_some]
          generalize directionOf (some word) = meant
          cases json <;> rfl
  | search query count =>
      obtain ⟨hquery, hcount⟩ := h
      obtain ⟨entry, hn, htakes, hmake⟩ := takes_search
      have hcheck : ∀ limit ∈ count, check topOption (toString limit) = .ok (.size limit) := by
        intro limit hm
        have hread : Text.Numeral.natural (Nat.pow 2 64 - 1) (toString limit) = .ok limit :=
          Text.Numeral.natural_toString (Nat.le_sub_one_of_lt (hcount limit hm))
        simp only [check, topOption, hread]
      rw [arguments, parse_cons hn rfl, takeCommand_eq htakes json hcheck hquery, Except.map, hmake]
      cases json <;> cases count <;> rfl

/-! ## As a request -/

/-- The request of an assistant that asks the question. -/
def request : Question → Assistant.Request
  | neighbors file direction =>
      ⟨"get_architectural_context",
        (Value.object ((direction.map fun word => ("direction", .string word)).toList ++
          [("file_path", .string file)])).draft⟩
  | search query count =>
      ⟨"semantic_search",
        (Value.object ([("query", .string query)] ++
          (count.map fun limit => ("top_n", .natural limit)).toList)).draft⟩

theorem ofRequest_request {question : Question} (h : question.IsAccepted) :
    Assistant.Call.ofRequest question.request = .ok question.call := by
  cases question with
  | neighbors file direction => cases direction <;> rfl
  | search query count =>
      cases count with
      | none => rfl
      | some limit =>
          have hlimit := h.2 limit rfl
          have hdraft : (Value.natural limit).draft = .number (.ok (.whole limit)) :=
            Number.draft_whole hlimit
          have harguments : (search query (some limit)).request.arguments =
              .object [(.ok "query", .string (.ok query)),
                (.ok "top_n", .number (.ok (.whole limit)))] none := by
            rw [← hdraft]
            rfl
          have hcount : Decoder.optional Decoder.size .value (.number (.ok (.whole limit))) =
              .ok (some limit) := by
            have hsize := hdraft ▸ Decoder.size_draft .value hlimit
            simp [Decoder.optional, hsize, bind, Except.bind, pure, Except.pure]
          have hread : Assistant.Call.searchDecoder .value
              (search query (some limit)).request.arguments.sorted =
                .ok (.search query (some limit)) := by
            have hsorted : (search query (some limit)).request.arguments.sorted =
                .object [(.ok "query", .string (.ok query)),
                  (.ok "top_n", .number (.ok (.whole limit)))] none := by
              rw [harguments]
              rfl
            rw [hsorted, Assistant.Call.searchDecoder, Decoder.record_object,
              Decoder.recordEntries_cons rfl rfl rfl, Decoder.recordEntries_cons rfl rfl hcount]
            rfl
          exact congrArg (Except.mapError Assistant.Refusal.invalidArguments) hread

end Question

end CodeAtlas.CommandLine
