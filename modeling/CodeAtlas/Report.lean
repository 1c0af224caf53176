import CodeAtlas.Decimal.Rounded
import CodeAtlas.Graph.Neighbor
import CodeAtlas.Graph.Stats
import CodeAtlas.Search.Ranking
import CodeAtlas.Text.Blank

/-!
# Reports

Answers as plain text, for the command line and for assistants alike.
-/

namespace CodeAtlas.Report

def alignRight (width : Nat) (text : String) : String :=
  String.ofList (List.replicate (width - text.length) ' ') ++ text

def alignLeft (width : Nat) (text : String) : String :=
  text ++ String.ofList (List.replicate (width - text.length) ' ')

/-- A number behind its name, in columns. -/
def countLine (indent : Nat) (name : String) (count : Nat) : String :=
  alignLeft indent "" ++ alignLeft 15 name ++ " " ++ alignRight 4 (toString count) ++ "\n"

def arrow : Graph.Direction → String
  | .incoming => "←"
  | _ => "→"

def neighborLine (row : Graph.Neighbor) : String :=
  s!"  {arrow row.direction} [{row.relation.name}]  {row.file}\n"

def neighbors (file : String) (rows : List Graph.Neighbor) : String :=
  s!"Structural neighbors of '{file}':\n\n" ++ "".intercalate (rows.map neighborLine) ++
    s!"\nTotal: {rows.length} structural connections"

def noNeighbors (file : String) : String :=
  s!"No structural neighbors found for '{file}'.\n" ++
    "Check the file path or run 'codecompass stats' to verify the graph is loaded."

/-- A file with its score, as it is shown. -/
structure Hit where
  file : String
  score : Float

def Hit.ofScored (scored : Search.Scored Float) : Hit := ⟨scored.chunk.file, scored.score⟩

/-- Files behind their places in the ranking. -/
def hitLines (place : Nat) : List Hit → List String
  | [] => []
  | hit :: rest =>
      s!"  {alignRight 2 (toString place)}. (score {Decimal.fixed 3 hit.score})  {hit.file}\n" ::
        hitLines (place + 1) rest

def hits (query : String) (found : List Hit) : String :=
  Text.trimEnd (s!"Top {found.length} files for '{query}':\n\n" ++
    "".intercalate (hitLines 1 found))

def search (query : String) (found : List (Search.Scored Float)) : String :=
  hits query (found.map Hit.ofScored)

def noResults (query : String) : String := s!"No results found for query: '{query}'"

def stats (stats : Graph.Stats) : String :=
  let lines :=
    if stats.counts.isEmpty then ["    (none)\n"]
    else stats.counts.map fun entry => countLine 4 entry.relation entry.count
  Text.trimEnd (s!"CodeCompass Graph Statistics:\n\n  Files: {stats.files}\n\n  Edges:\n" ++
    "".intercalate lines)

end CodeAtlas.Report
