import CodeAtlas.Assistant
import CodeAtlas.Json.Print

/-!
# Messages

What an assistant sends as lines of JSON, and what it is sent back. A message without a number to
reply to, or that is none, is passed over.
-/

namespace CodeAtlas.Assistant

open Json

/-- A message that asks for a reply. -/
structure Message where
  id : Value
  method : String
  parameters : Draft

namespace Message

def identity? : Draft → Option Value
  | .string (.ok text) => some (.string text)
  | .number (.ok number) => some (.number number)
  | _ => none

def ofText? (text : String) : Option Message := do
  let draft ← (Document.read (Input.ofText text)).whole.toOption
  let id ← (draft.field? "id").bind identity?
  let method ← (draft.field? "method").bind Draft.text?
  return ⟨id, method, (draft.field? "params").getD (.object [] none)⟩

/-- The request in the parameters of a call. -/
def request (parameters : Draft) : Request :=
  ⟨((parameters.field? "name").bind Draft.text?).getD "",
    (parameters.field? "arguments").getD (.object [] none)⟩

/-! ## Tools -/

/-- An argument of a tool: its name, its type and what it is for. -/
structure Argument where
  name : String
  type : String
  description : String
  isRequired : Bool := false

structure Tool where
  name : String
  description : String
  arguments : List Argument

def tools : List Tool := [
  { name := "get_architectural_context"
    description := "List the files structurally connected to a file."
    arguments := [
      { name := "file_path", type := "string", isRequired := true
        description := "Repository-relative file path" },
      { name := "direction", type := "string", description := "Direction: in | out | both" }] },
  { name := "semantic_search"
    description := "Keyword search over indexed source chunks."
    arguments := [
      { name := "query", type := "string", isRequired := true
        description := "Keywords describing the code" },
      { name := "top_n", type := "integer", description := "Max files to return" }] }]

def Tool.toJson (tool : Tool) : Value :=
  let properties := tool.arguments.map fun argument =>
    (argument.name, Value.object [("type", .string argument.type),
      ("description", .string argument.description)])
  let needed := (tool.arguments.filter Argument.isRequired).map fun argument =>
    Value.string argument.name
  .object [("name", .string tool.name), ("description", .string tool.description),
    ("inputSchema", .object [("type", .string "object"), ("properties", .object properties),
      ("required", .array needed)])]

/-! ## Replies -/

def introduction : Value :=
  .object [("protocolVersion", .string "2025-03-26"),
    ("capabilities", .object [("tools", .object [])]),
    ("serverInfo", .object [("name", .string "codecompass"), ("version", .string "0.3.0")])]

def envelope (id : Value) (key : String) (content : Value) : String :=
  (Value.object [("jsonrpc", .string "2.0"), ("id", id), (key, content)]).compact

def problem (id : Value) (code : Int) (text : String) : String :=
  envelope id "error" (.object [("code", .number (.whole code)), ("message", .string text)])

def replyJson (reply : Reply) : Value :=
  .object [("content", .array [.object [("type", .string "text"), ("text", .string reply.text)]]),
    ("isError", .bool reply.isError)]

/-- The line that is sent back for a message. -/
def answer {σ η : Type} (around : Surroundings σ η) (limit : Nat) (message : Message) :
    StateM (Navigator.Situated σ η) String := do
  match message.method with
  | "initialize" => return envelope message.id "result" introduction
  | "ping" => return envelope message.id "result" (.object [])
  | "tools/list" =>
      return envelope message.id "result" (.object [("tools", .array (tools.map Tool.toJson))])
  | "tools/call" =>
      match ← respond around limit (request message.parameters) with
      | .ok reply => return envelope message.id "result" (replyJson reply)
      | .error refusal => return problem message.id Refusal.code refusal.message
  | method => return problem message.id (-32601) method

end Message

end CodeAtlas.Assistant
