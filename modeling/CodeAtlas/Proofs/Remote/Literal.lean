import CodeAtlas.Proofs.Graph.Rows
import CodeAtlas.Remote.Cypher

/-!
# Literals that are told apart

A server finds the end of a literal by the rule for escapes: a backslash takes the character behind
it, and the first quote that is not taken is the last character of the literal. Whatever a text is
made of, its literal is scanned as this text and no further. So the records of a statement are told
apart from each other and from what stands around them, and a statement that puts edges in shows
which ones they are.
-/

namespace CodeAtlas.Remote.Cypher

open CodeAtlas.Graph

/-! ## Scanning -/

/-- What a character stands for if a backslash takes it. -/
def unescape (char : Char) : Char :=
  if char = 'n' then '\n'
  else if char = 'r' then '\r'
  else if char = 't' then '\t'
  else char

/-- The text of a literal from behind its first quote, and what is behind the last one. -/
def scanText : List Char → Option (List Char × List Char)
  | [] => none
  | ['\\'] => none
  | '\\' :: char :: rest =>
      (scanText rest).map fun (text, behind) => (unescape char :: text, behind)
  | char :: rest =>
      if char = '\x27' then some ([], rest)
      else (scanText rest).map fun (text, behind) => (char :: text, behind)

/-- The text of the literal that begins here, and what is behind it. -/
def scan : List Char → Option (String × List Char)
  | '\x27' :: rest => (scanText rest).map fun (text, behind) => (String.ofList text, behind)
  | _ => none

theorem scanText_taken (char : Char) (rest : List Char) :
    scanText ('\\' :: char :: rest) =
      (scanText rest).map fun (text, behind) => (unescape char :: text, behind) := rfl

theorem scanText_plain {char : Char} (hb : char ≠ '\\') (hq : char ≠ '\x27') (rest : List Char) :
    scanText (char :: rest) =
      (scanText rest).map fun (text, behind) => (char :: text, behind) := by
  rw [scanText, if_neg hq]
  · exact fun h _ => hb h
  · exact fun _ _ h _ => hb h

theorem scanText_escape_append (char : Char) (rest : List Char) :
    scanText (escape char ++ rest) =
      (scanText rest).map fun (text, behind) => (char :: text, behind) := by
  unfold escape
  split
  · subst_vars
    exact scanText_taken _ rest
  split
  · subst_vars
    exact scanText_taken _ rest
  split
  · subst_vars
    exact scanText_taken _ rest
  split
  · subst_vars
    exact scanText_taken _ rest
  split
  · subst_vars
    exact scanText_taken _ rest
  · rename_i hb hq _ _ _
    exact scanText_plain hb hq rest

theorem scanText_flatMap_escape (chars behind : List Char) :
    scanText (chars.flatMap escape ++ '\x27' :: behind) = some (chars, behind) := by
  induction chars with
  | nil => rfl
  | cons char chars ih =>
      rw [List.flatMap_cons, List.append_assoc, scanText_escape_append, ih]
      rfl

theorem scan_literal_append (text : String) (behind : List Char) :
    scan ((literal text).toList ++ behind) = some (text, behind) := by
  have hscan := scanText_flatMap_escape text.toList behind
  rw [literal, String.toList_ofList, List.cons_append, List.cons_append, List.append_assoc,
    List.singleton_append, scan, hscan]
  show some (String.ofList text.toList, behind) = _
  rw [String.ofList_toList]

/-! ## What stands in front of another text -/

variable {α β : Type}

/-- A text that begins with what is written of a value tells of this value what `view` does, and
where it ends. -/
def Shows (write : α → String) (view : α → β) : Prop :=
  ∀ {left right : α} {behind rest : List Char},
    (write left).toList ++ behind = (write right).toList ++ rest →
      view left = view right ∧ behind = rest

theorem shows_literal : Shows literal id := by
  intro left right behind rest h
  have hscan := congrArg scan h
  rw [scan_literal_append, scan_literal_append] at hscan
  exact Prod.mk.inj (Option.some.inj hscan)

theorem toList_edgeLiteral (edge : Edge) : (edgeLiteral edge).toList =
    '\x7b' :: ("source: ".toList ++ ((literal edge.source).toList ++ (", target: ".toList ++
      ((literal edge.target).toList ++ (", relation: ".toList ++
        ((literal edge.relation.name).toList ++ ['\x7d'])))))) := by
  have hopen : "\x7bsource: ".toList = '\x7b' :: "source: ".toList := by decide
  have hclose : "\x7d".toList = ['\x7d'] := by decide
  -- Not by the equation of the definition, as it takes long to set up for texts like these.
  delta edgeLiteral
  simp only [String.toList_append, List.append_assoc, hopen, hclose, List.cons_append]

theorem shows_edgeLiteral : Shows edgeLiteral Edge.key := by
  intro left right behind rest h
  simp only [toList_edgeLiteral, List.append_assoc, List.cons_append, List.cons.injEq,
    true_and] at h
  obtain ⟨hsource, h⟩ := shows_literal (List.append_cancel_left h)
  obtain ⟨htarget, h⟩ := shows_literal (List.append_cancel_left h)
  obtain ⟨hrelation, h⟩ := shows_literal (List.append_cancel_left h)
  have hkey : left.key = right.key := by
    rw [Edge.key, Edge.key]
    exact congrArg₂ Prod.mk hsource (congrArg₂ Prod.mk htarget (Relation.name_injective hrelation))
  exact ⟨hkey, (List.cons.inj h).2⟩

/-! ## Records -/

/-- The records behind the first of a list, each with what stands between it and the one before. -/
def records (edges : List Edge) : List Char :=
  edges.flatMap fun edge => ',' :: ' ' :: (edgeLiteral edge).toList

theorem toList_intercalate_edgeLiteral (edge : Edge) (edges : List Edge) :
    (", ".intercalate ((edge :: edges).map edgeLiteral)).toList =
      (edgeLiteral edge).toList ++ records edges := by
  induction edges generalizing edge with
  | nil => simp [records]
  | cons next edges ih =>
      have hnext := ih next
      rw [List.map_cons, List.map_cons, String.intercalate_cons_cons, String.toList_append,
        String.toList_append, ← List.map_cons, hnext]
      simp [records]

theorem toList_edgesLiteral_nil : (edgesLiteral []).toList = ['[', ']'] := by
  simp [edgesLiteral]

theorem toList_edgesLiteral_cons (edge : Edge) (edges : List Edge) :
    (edgesLiteral (edge :: edges)).toList =
      '[' :: ((edgeLiteral edge).toList ++ (records edges ++ [']'])) := by
  rw [edgesLiteral, String.toList_append, String.toList_append, toList_intercalate_edgeLiteral]
  simp

theorem keys_eq_of_records {edges others : List Edge} {behind rest : List Char}
    (h : records edges ++ (']' :: behind) = records others ++ (']' :: rest)) :
    edges.map Edge.key = others.map Edge.key ∧ behind = rest := by
  induction edges generalizing others with
  | nil =>
      cases others with
      | nil => exact ⟨rfl, (List.cons.inj h).2⟩
      | cons other others => exact absurd (List.cons.inj h).1 (by decide)
  | cons edge edges ih =>
      cases others with
      | nil => exact absurd (List.cons.inj h).1 (by decide)
      | cons other others =>
          simp only [records, List.flatMap_cons, List.append_assoc, List.cons_append,
            List.cons.injEq, true_and] at h
          obtain ⟨hkey, h⟩ := shows_edgeLiteral h
          obtain ⟨hkeys, hrest⟩ := ih h
          exact ⟨congrArg₂ List.cons hkey hkeys, hrest⟩

theorem edgesLiteral_nil_ne_cons {edge : Edge} {edges : List Edge} {behind rest : List Char} :
    (edgesLiteral []).toList ++ behind ≠ (edgesLiteral (edge :: edges)).toList ++ rest := by
  intro h
  rw [toList_edgesLiteral_nil, toList_edgesLiteral_cons, toList_edgeLiteral] at h
  exact absurd (List.cons.inj (List.cons.inj h).2).1 (by decide)

theorem shows_edgesLiteral : Shows edgesLiteral (List.map Edge.key) := by
  intro edges others behind rest h
  cases edges with
  | nil =>
      cases others with
      | nil => exact ⟨rfl, List.append_cancel_left h⟩
      | cons other others => exact absurd h edgesLiteral_nil_ne_cons
  | cons edge edges =>
      cases others with
      | nil => exact absurd h.symm edgesLiteral_nil_ne_cons
      | cons other others =>
          rw [toList_edgesLiteral_cons, toList_edgesLiteral_cons] at h
          simp only [List.cons_append, List.append_assoc, List.nil_append, List.cons.injEq,
            true_and] at h
          obtain ⟨hkey, h⟩ := shows_edgeLiteral h
          obtain ⟨hkeys, hrest⟩ := keys_eq_of_records h
          exact ⟨congrArg₂ List.cons hkey hkeys, hrest⟩

/-! ## Statements -/

/-- The statement puts edges in, those of all relations or those of one. -/
def IsMerge (statement : String) (edges : List Edge) : Prop :=
  statement = mergeAll edges ∨ ∃ relation, statement = mergeOne relation edges

theorem IsMerge.exists_append {statement : String} {edges : List Edge}
    (h : IsMerge statement edges) :
    ∃ behind, statement.toList = "UNWIND ".toList ++ ((edgesLiteral edges).toList ++ behind) := by
  rcases h with rfl | ⟨relation, rfl⟩
  · simp only [mergeAll, mergeFiles, String.toList_append, List.append_assoc]
    exact ⟨_, rfl⟩
  · simp only [mergeOne, mergeFiles, String.toList_append, List.append_assoc]
    exact ⟨_, rfl⟩

/-- A literal is scanned as its text, whatever follows it, and no further than to its last character.
So a list of records tells source, target and relation of each, and where it ends; and statements
that put edges in are the same only for edges that agree in these three, one by one. -/
theorem literals_are_told_apart :
    (∀ text behind, scan ((literal text).toList ++ behind) = some (text, behind)) ∧
    (∀ edges others behind rest,
      (edgesLiteral edges).toList ++ behind = (edgesLiteral others).toList ++ rest →
        edges.map Edge.key = others.map Edge.key ∧ behind = rest) ∧
    ∀ statement edges others, IsMerge statement edges → IsMerge statement others →
      edges.map Edge.key = others.map Edge.key := by
  refine ⟨scan_literal_append, fun _ _ _ _ h => shows_edgesLiteral h, ?_⟩
  intro statement edges others h ho
  obtain ⟨behind, hedges⟩ := h.exists_append
  obtain ⟨rest, hothers⟩ := ho.exists_append
  rw [hedges] at hothers
  exact (shows_edgesLiteral (List.append_cancel_left hothers)).1

/-- An edge whose ends look like the end of a record and the start of another one. -/
def hostileEdge : Edge :=
  ⟨"a\\", "', relation: 'IMPORTS'\x7d, \x7bsource: 'b", .inherits, some "B inherits A"⟩

theorem literals_are_told_apart_of_hostileEdge :
    scan ((literal hostileEdge.target).toList ++ [',']) = some (hostileEdge.target, [',']) ∧
      ((edgesLiteral [hostileEdge]).toList ++ [' '] =
          (edgesLiteral [{ hostileEdge with note := none }]).toList ++ [' '] ∧
        [hostileEdge].map Edge.key = [{ hostileEdge with note := none }].map Edge.key ∧
        [' '] = [' ']) ∧
      IsMerge (mergeOne .inherits [hostileEdge]) [hostileEdge] ∧
      IsMerge (mergeOne .inherits [hostileEdge]) [{ hostileEdge with note := none }] ∧
      [hostileEdge].map Edge.key = [{ hostileEdge with note := none }].map Edge.key := by
  have hedge : IsMerge (mergeOne .inherits [hostileEdge]) [hostileEdge] := .inr ⟨_, rfl⟩
  have hother : IsMerge (mergeOne .inherits [hostileEdge]) [{ hostileEdge with note := none }] :=
    .inr ⟨_, rfl⟩
  obtain ⟨hscan, hrecords, hkeys⟩ := literals_are_told_apart
  exact ⟨hscan _ _, ⟨rfl, hrecords _ _ _ _ rfl⟩, hedge, hother, hkeys _ _ _ hedge hother⟩

end CodeAtlas.Remote.Cypher
