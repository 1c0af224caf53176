import CodeAtlas.Navigator
import CodeAtlas.Report

/-!
# Assistants

Two tools for a coding assistant: the files around a file, and the files that match a query. A call
is refused if there is no such tool or its arguments do not fit; any other call is replied to with a
text, which may say that something went wrong.
-/

namespace CodeAtlas.Assistant

/-- A call of a tool with its arguments. -/
inductive Call where
  | context (file : String) (direction : Option String)
  | search (query : String) (limit : Option Nat)
deriving DecidableEq, Repr

structure Reply where
  text : String
  isError : Bool := false
deriving DecidableEq, Repr

/-- Why a call is not replied to. -/
inductive Refusal where
  | unknownTool
  | invalidArguments (error : Json.Error)

namespace Refusal

def code : Int := -32602

def message : Refusal → String
  | unknownTool => "tool not found"
  | invalidArguments error => s!"failed to deserialize parameters: {error.message}"

end Refusal

structure Request where
  tool : String
  arguments : Json.Draft

/-! ## Calls -/

namespace Call

/-- Arguments of the first tool as far as they are given. -/
structure ContextArguments where
  file : Option String := none
  direction : Option (Option String) := none

def contextDecoder : Json.Decoder Call :=
  Json.Decoder.record "ContextParams"
    [Json.Field.make ["file_path"] false Json.Decoder.string ContextArguments.file
        fun state value => { state with file := some value },
      Json.Field.make ["direction"] false (Json.Decoder.optional Json.Decoder.string)
        ContextArguments.direction fun state value => { state with direction := some value }]
    {}
    fun state => do
      return .context (← Json.Decoder.need "file_path" state.file) state.direction.join

/-- Arguments of the second tool as far as they are given. -/
structure SearchArguments where
  query : Option String := none
  limit : Option (Option Nat) := none

def searchDecoder : Json.Decoder Call :=
  Json.Decoder.record "SearchParams"
    [Json.Field.make ["query"] false Json.Decoder.string SearchArguments.query
        fun state value => { state with query := some value },
      Json.Field.make ["top_n"] false (Json.Decoder.optional Json.Decoder.size)
        SearchArguments.limit fun state value => { state with limit := some value }]
    {}
    fun state => do
      return .search (← Json.Decoder.need "query" state.query) state.limit.join

def decoders : List (String × Json.Decoder Call) :=
  [("get_architectural_context", contextDecoder), ("semantic_search", searchDecoder)]

def ofRequest (request : Request) : Except Refusal Call :=
  match decoders.lookup request.tool with
  | none => .error .unknownTool
  | some decoder => (decoder .value request.arguments.sorted).mapError .invalidArguments

end Call

/-! ## Replies -/

def failure (text : String) : Reply := { text, isError := true }

/-- Rows as a text, with another one where there are none. -/
def replyWith {α : Type} (text : List α → String) (nothing : String) : Result (List α) → Reply
  | .error error => failure error.message
  | .ok [] => { text := nothing }
  | .ok rows => { text := text rows }

variable {σ η : Type} (around : Surroundings σ η) (limit : Nat)

/-- The files around a file. Unless a direction is given, both count. -/
def context (file : String) (direction : Option String) : StateM (Navigator.Situated σ η) Reply :=
  if Text.isBlankText file then pure (failure "file_path is required")
  else
    match Graph.Direction.ofName (direction.getD "both") with
    | .error error => pure (failure error.message)
    | .ok direction =>
        return replyWith (Report.neighbors file) (Report.noNeighbors file)
          (← (Navigator.neighbors around file direction).run)

/-- The files for a query, as many as asked for or up to the usual limit. -/
def search (query : String) (count : Option Nat) : StateM (Navigator.Situated σ η) Reply :=
  if Text.isBlankText query then pure (failure "query is required")
  else
    return replyWith (Report.search query) (Report.noResults query)
      (← (Navigator.search around query (count.getD limit)).run)

def answer : Call → StateM (Navigator.Situated σ η) Reply
  | .context file direction => context around file direction
  | .search query count => search around limit query count

def respond (request : Request) : StateM (Navigator.Situated σ η) (Except Refusal Reply) :=
  match Call.ofRequest request with
  | .error refusal => pure (.error refusal)
  | .ok call => return .ok (← answer around limit call)

/-- Responds to requests in turn and lets go of everything at the end. -/
def converse (requests : List Request) :
    StateM (Navigator.Situated σ η) (List (Except Refusal Reply)) := do
  let replies ← requests.mapM (respond around limit)
  let _ ← (Navigator.close around).run
  return replies

end CodeAtlas.Assistant
