import CodeAtlas.Graph.Edge

/-!
# Cypher statements

The statements that a graph server is asked to carry out. Texts appear in them as literals between
single quotes, in which a backslash escapes what would end the literal or break the line.
-/

namespace CodeAtlas.Remote.Cypher

open CodeAtlas.Graph

/-! ## Literals -/

def escape (char : Char) : List Char :=
  if char = '\\' then ['\\', '\\']
  else if char = '\x27' then ['\\', '\x27']
  else if char = '\n' then ['\\', 'n']
  else if char = '\r' then ['\\', 'r']
  else if char = '\t' then ['\\', 't']
  else [char]

def literal (text : String) : String :=
  String.ofList ('\x27' :: text.toList.flatMap escape ++ ['\x27'])

def edgeLiteral (edge : Edge) : String :=
  "\x7bsource: " ++ literal edge.source ++ ", target: " ++ literal edge.target ++
    ", relation: " ++ literal edge.relation.name ++ "\x7d"

def edgesLiteral (edges : List Edge) : String :=
  "[" ++ ", ".intercalate (edges.map edgeLiteral) ++ "]"

/-! ## Statements -/

/-- Adds the index by which files are found. -/
def createIndex : String := "CREATE INDEX FOR (f:File) ON (f.path)"

def clear : String := "MATCH (n) DETACH DELETE n"

/-- Goes through edges and puts in the files at their ends. -/
def mergeFiles (edges : List Edge) : String :=
  "UNWIND " ++ edgesLiteral edges ++ " AS edge MERGE (a:File \x7bpath: edge.source\x7d) " ++
    "MERGE (b:File \x7bpath: edge.target\x7d)"

def mergeEdge (relation : Relation) : String := s!"MERGE (a)-[:{relation.name}]->(b)"

def mergeAll (edges : List Edge) : String :=
  mergeFiles edges ++ "".intercalate (Relation.all.map fun relation =>
    s!" FOREACH (_ IN CASE WHEN edge.relation = '{relation.name}' THEN [1] ELSE [] END " ++
      s!"| {mergeEdge relation})")

def mergeOne (relation : Relation) (edges : List Edge) : String :=
  mergeFiles edges ++ " " ++ mergeEdge relation

/-- The neighbours of a file at the end or at the start of its edges. -/
def neighbors (file : String) (direction : Direction) : String :=
  let pattern :=
    match direction with
    | .incoming => "<-[r]-"
    | _ => "-[r]->"
  "MATCH (f:File \x7bpath: " ++ literal file ++ "\x7d)" ++ pattern ++
    "(n:File) RETURN n.path, type(r)"

def countFiles : String := "MATCH (f:File) RETURN count(f)"

def countRelations : String := "MATCH ()-[r]->() RETURN type(r), count(r)"

end CodeAtlas.Remote.Cypher
