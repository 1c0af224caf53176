import CodeAtlas.Configuration
import CodeAtlas.Graph.Loading
import CodeAtlas.Graph.Neighbor
import CodeAtlas.Graph.Stats
import CodeAtlas.Remote.Command
import CodeAtlas.Remote.Cypher
import CodeAtlas.Remote.Endpoint
import CodeAtlas.Remote.ResultSet

/-!
# Client of a graph server

A client sends a command and reads one reply for it. The server is what it will ever send: a stream
of bytes. When the stream fails, the client gives up its connection.
-/

namespace CodeAtlas.Remote

open CodeAtlas.Graph

structure Client where
  /-- The name of the graph on the server. -/
  graph : String
  address : String
  isConnected : Bool := true
  /-- What the server has sent or will send, as far as it is unread. -/
  stream : Bytes
  sent : List Command := []
deriving Repr

namespace Client

/-! ## Commands -/

def call (command : Command) (client : Client) : Except ReplyError Reply × Client :=
  let (reply, stream) := Reply.read client.stream
  (reply, { client with stream, sent := client.sent ++ [command] })

def unavailable (address reason remediation : String) : Error :=
  .datastoreUnavailable address reason remediation

def statementCommand (graph statement : String) : Command :=
  ["GRAPH.QUERY", graph, statement, "--compact"]

def query (statement : String) : Action Client Reply := ExceptT.mk fun client =>
  if client.isConnected then
    match client.call (statementCommand client.graph statement) with
    | (.ok (.failure reason), client) => (.error (.query reason), client)
    | (.ok reply, client) => (.ok reply, client)
    | (.error (.stream cause), client) =>
        (.error (unavailable client.address cause.message "Is FalkorDB still running?"),
          { client with isConnected := false })
    | (.error (.malformed reason), client) => (.error (ReplyError.malformed reason).toError, client)
  else
    (.error (unavailable client.address "connection closed" "Reopen the graph store."), client)

def rows (statement : String) : Action Client (List ResultRow) := do
  Action.ofResult (← query statement).rows

/-! ## Connecting -/

/-- Reaches an address, and gives the stream of bytes that comes from there. -/
abbrev Dialer := String → Except SystemError Bytes

def offline : Dialer := fun _ => .error .networkUnreachable

/-- Why the server does not take the credentials, if it does not. -/
def refusal? : Except ReplyError Reply → Option String
  | .ok (.failure reason) => some reason
  | .ok _ => none
  | .error error => some error.toError.message

/-- Presents credentials where there is a password. -/
def authenticate (endpoint : Endpoint) : Action Client Unit := ExceptT.mk fun client =>
  match endpoint.password with
  | none => (.ok (), client)
  | some password =>
      let (reply, client) := client.call ("AUTH" :: endpoint.user.toList ++ [password])
      match refusal? reply with
      | none => (.ok (), client)
      | some reason =>
          (.error (unavailable client.address s!"authentication failed: {reason}"
            ("Check the credentials in the graph url or " ++
              "CODECOMPASS_GRAPH_USER / CODECOMPASS_GRAPH_PASSWORD.")), client)

/-- Opens a connection that has been made: presents credentials, and adds the index unless it is
there. -/
def greet (endpoint : Endpoint) : Action Client Unit := do
  authenticate endpoint
  let _ ← (query Cypher.createIndex).attempt

/-- What came of an attempt to connect, with the commands that were sent. -/
structure Attempt where
  outcome : Result Client
  sent : List Command

def connect (settings : GraphSettings) (dial : Dialer) : Attempt :=
  match Endpoint.parse settings.url with
  | .error error => ⟨.error error, []⟩
  | .ok endpoint =>
      let endpoint := endpoint.withSettings settings
      match dial endpoint.address with
      | .error cause =>
          ⟨.error (unavailable endpoint.address cause.message
            ("Is FalkorDB running? Try: docker run -p 6379:6379 falkordb/falkordb " ++
              "(or set CODECOMPASS_GRAPH_URL)")), []⟩
      | .ok stream =>
          let start : Client :=
            { graph := settings.graphName, address := endpoint.address, stream }
          match (greet endpoint).perform start with
          | (.ok _, client) => ⟨.ok client, client.sent⟩
          | (.error error, client) => ⟨.error error, client.sent⟩

/-! ## The graph -/

/-- The server does not know how to put in edges of all relations at once. -/
def isRejection (reason : String) : Bool :=
  let reason := (Text.lowercase reason).toList
  ["foreach", "not supported", "unsupported"].any fun word =>
    (List.range (reason.length + 1)).any fun start => word.toList.isPrefixOf (reason.drop start)

def mergeAll (edges : List Edge) : Action Client Unit := ExceptT.mk fun client =>
  match (query (Cypher.mergeAll edges)).perform client with
  | (.ok _, client) => (.ok (), client)
  | (.error (.query reason), client) =>
      if isRejection reason then
        (.error (.unsupported s!"generic relationship merge ({reason})"), client)
      else (.error (.query reason), client)
  | (.error error, client) => (.error error, client)

def mergeOne (relation : Relation) (edges : List Edge) : Action Client Unit := do
  let _ ← query (Cypher.mergeOne relation edges)

def load (strategy : Strategy) (edges : List Edge) : Action Client LoadSummary := do
  let proper := edges.filter fun edge => !edge.isLoop
  match strategy with
  | .generic => (batches proper).forM mergeAll
  | .perRelation =>
      Relation.all.forM fun relation =>
        (batches (proper.filter fun edge => edge.relation = relation)).forM (mergeOne relation)
  return ⟨edges.length, strategy⟩

def clear : Action Client Unit := do
  let _ ← query Cypher.clear

/-- Rows of a file and a relation as neighbours; rows without both do not count. -/
def neighborsOf (direction : Direction) : List ResultRow → Result (List Neighbor)
  | [] => .ok []
  | row :: rest =>
      match row.text? 0, row.text? 1 with
      | some file, some relation => do
          let relation ← Relation.ofName relation
          return ⟨file, relation, direction⟩ :: (← neighborsOf direction rest)
      | _, _ => neighborsOf direction rest

/-- Asks for the neighbours in one direction, if it is wanted. -/
def neighborsIn (file : String) (wanted direction : Direction) :
    Action Client (List Neighbor) := do
  if wanted.includes direction then
    Action.ofResult (neighborsOf direction (← rows (Cypher.neighbors file direction)))
  else return []

def neighbors (file : String) (direction : Direction) : Action Client (List Neighbor) := do
  let outgoing ← neighborsIn file direction .outgoing
  let incoming ← neighborsIn file direction .incoming
  return Neighbor.sort (outgoing ++ incoming)

/-- Rows of a relation and a count; rows without both do not count. -/
def relationCount? (row : ResultRow) : Option RelationCount :=
  match row.text? 0, row.number? 1 with
  | some relation, some count => some ⟨relation, count.toNat⟩
  | _, _ => none

def stats : Action Client Stats := do
  let files := (((← rows Cypher.countFiles).head?).bind fun row => row.number? 0).getD 0
  let counts ← rows Cypher.countRelations
  return Stats.ofCounts files.toNat (counts.filterMap relationCount?)

/-- Takes leave of the server, whatever it answers. -/
def close : Action Client Unit := ExceptT.mk fun client =>
  if client.isConnected then
    let (_, client) := client.call ["QUIT"]
    (.ok (), { client with isConnected := false })
  else (.ok (), client)

end Client

end CodeAtlas.Remote
