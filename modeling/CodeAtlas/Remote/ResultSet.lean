import CodeAtlas.Remote.Reply

/-!
# Result sets

The answer to a statement in compact form: a list of a header, rows and statistics, or of statistics
alone. A cell of a row is a pair of a type tag and a value.
-/

namespace CodeAtlas.Remote

abbrev ResultRow := List Reply

namespace ResultRow

def cell? (row : ResultRow) (column : Nat) : Option Reply :=
  match row[column]? with
  | some (.list [_, value]) => some value
  | _ => none

def text? (row : ResultRow) (column : Nat) : Option String := (row.cell? column).bind Reply.text?

def number? (row : ResultRow) (column : Nat) : Option Int := (row.cell? column).bind Reply.number?

def ofReply? : Reply → Option ResultRow
  | .list cells => some cells
  | _ => none

end ResultRow

namespace Reply

def rows : Reply → Result (List ResultRow)
  | .list (_ :: .list rows :: _) => .ok (rows.filterMap ResultRow.ofReply?)
  | .list _ => .ok []
  | _ => .error (ReplyError.malformed "GRAPH.QUERY reply is not a list").toError

end Reply

end CodeAtlas.Remote
