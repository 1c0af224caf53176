import CodeAtlas.Proofs.Syntax.Pieces
import CodeAtlas.Proofs.Syntax.Spelling
import CodeAtlas.Proofs.Syntax.Statements

/-!
# What an import says

The pieces of the text of an import tell what it says. So it says the same wherever it stands: two
imports that are written alike are read alike, at whatever depth, and whatever is around them.
-/

namespace CodeAtlas.Syntax.Import

open Syntax.Parser
open Piece (Fill textOf)

/-! ## Reading off pieces -/

def isSymbol (texts : List String) (piece : Piece) : Bool :=
  match piece.lexeme with
  | .symbol text => texts.contains text
  | _ => false

def isWord (text : String) (piece : Piece) : Bool := piece.lexeme = .word text

/-- A name is what stands in front of `as`, and is bound to the word behind it. -/
def nameOf (pieces : List Piece) : ImportedName where
  text := textOf (pieces.takeWhile fun piece => !isWord "as" piece)
  alternative := ((pieces.dropWhile fun piece => !isWord "as" piece)[1]?).bind fun piece =>
    match piece.lexeme with
    | .word text => some text
    | _ => none

/-- Names stand between commas; nothing may stand behind the last comma. -/
def namesOf (pieces : List Piece) : List ImportedName :=
  ((pieces.splitOnP (isSymbol [","])).filter fun item => !item.isEmpty).map nameOf

/-- The module stands in front of `import`, behind its points, and the names behind it. -/
def membersIn (pieces : List Piece) : Import :=
  let place := pieces.takeWhile fun piece => !isWord "import" piece
  let module := place.dropWhile (isSymbol [".", "..."])
  let names := (pieces.dropWhile fun piece => !isWord "import" piece).drop 1
  .members ((textOf (place.takeWhile (isSymbol [".", "..."]))).toList.count '.')
    (if module.isEmpty then none else some (textOf module))
    (namesOf (names.filter fun piece => !isSymbol ["(", ")", "*"] piece))

def ofPieces : List Piece → Import
  | [] => .modules []
  | first :: others => if isWord "from" first then membersIn others else .modules (namesOf others)

/-! ## Dotted names -/

variable {cursor stop : Cursor} {setting : Setting} {text : String}

def IsName (piece : Piece) : Prop := ∃ text, piece.lexeme = .word text ∧ isName text = true

def IsDotted (piece : Piece) : Prop := IsName piece ∨ piece.lexeme = .symbol "."

theorem isWord_of_isDotted {piece : Piece} (h : IsDotted piece) {text : String}
    (ht : isName text = false) : isWord text piece = false := by
  rcases h with ⟨word, hword, hname⟩ | hsymbol
  · rw [isWord, hword]
    simp only [Lexeme.word.injEq, decide_eq_false_iff_not]
    rintro rfl
    rw [ht] at hname
    cases hname
  · simp [isWord, hsymbol]

theorem isSymbol_of_isName {piece : Piece} (h : IsName piece) (texts : List String) :
    isSymbol texts piece = false := by
  obtain ⟨word, hword, -⟩ := h
  simp [isSymbol, hword]

theorem exists_piece_of_word {expected : Expectation} {lexeme : Lexeme}
    (h : (cursor.ahead expected).lexeme = lexeme) (ht : Lexeme.IsText lexeme) :
    ∃ piece, piece.lexeme = lexeme ∧ Fill [piece] cursor (cursor.ahead expected).stop := by
  obtain ⟨piece, hpiece, hfill, -⟩ := Piece.exists_fill_of_ahead h ht
  exact ⟨piece, hpiece, hfill⟩

theorem exists_piece_of_name {expected : Expectation}
    (h : (name expected).run cursor = some (text, stop)) :
    ∃ piece, piece.lexeme = .word text ∧ isName text = true ∧ Fill [piece] cursor stop ∧
      (cursor.ahead expected).start = cursor.skip piece.gap.length := by
  obtain ⟨hlexeme, hname, rfl⟩ := run_name_eq_some.1 h
  obtain ⟨piece, hpiece, hfill, hstart⟩ :=
    Piece.exists_fill_of_ahead hlexeme ⟨text, .inl rfl⟩
  exact ⟨piece, hpiece, hname, hfill, hstart⟩

theorem exists_pieces_of_dottedName (h : (dottedName setting).run cursor = some (text, stop)) :
    ∃ first others, Fill (first :: others) cursor stop ∧ textOf (first :: others) = text ∧
      IsName first ∧ ∀ piece ∈ others, IsDotted piece := by
  obtain ⟨⟨_, h⟩, htext⟩ := run_written_eq_some.1 h
  obtain ⟨word, middle, hname, hloop⟩ := run_bind_eq_some.1 h
  rw [run_loop] at hloop
  obtain ⟨first, hword, hisName, hfirst, hstart⟩ := exists_piece_of_name hname
  have hothers : ∃ others, Fill others middle stop ∧ ∀ piece ∈ others, IsDotted piece := by
    refine (Piece.fill_nil middle).loop (fun _ pieces => ∀ piece ∈ pieces, IsDotted piece)
      (fun _ pieces => ∀ piece ∈ pieces, IsDotted piece) (by simp) ?_ hloop
    intro _ pieces cursor _ stop hpieces hstep
    rcases run_onNext_cases hstep with ⟨next, hturn, hnext⟩ | ⟨next, hturn, hnext⟩
    · split at hturn <;> cases hturn
      rename_i hpoint
      obtain ⟨point, hlexeme, hpoint⟩ := exists_piece_of_word hpoint ⟨_, .inr rfl⟩
      obtain ⟨_, _, hname, hnext⟩ := run_bind_eq_some.1 hnext
      obtain ⟨rfl, rfl⟩ := run_pure_eq_some.1 hnext
      obtain ⟨piece, hpiece, hisName, hbehind, -⟩ := exists_piece_of_name hname
      refine ⟨[point] ++ [piece], hpoint.append hbehind, ?_⟩
      simp only [Sum.elim_inl, List.mem_append, List.mem_singleton]
      rintro part (hm | rfl | rfl)
      · exact hpieces part hm
      · exact .inr hlexeme
      · exact .inl ⟨_, hpiece, hisName⟩
    · split at hturn <;> cases hturn
      obtain ⟨rfl, rfl⟩ := run_pure_eq_some.1 hnext
      exact ⟨[], Piece.fill_nil cursor, by simpa using hpieces⟩
  obtain ⟨others, hothers, hdotted⟩ := hothers
  have hall : Fill (first :: others) cursor stop := hfirst.append hothers
  exact ⟨first, others, hall, by rw [htext, hstart, hall.textTo], ⟨word, hword, hisName⟩, hdotted⟩

/-! ## Names -/

/-- The piece is part of a name, or of what the name is bound to. -/
def IsNamed (piece : Piece) : Prop := IsDotted piece ∨ piece.lexeme = .word "as"

theorem isSymbol_of_isNamed {piece : Piece} (h : IsNamed piece) {texts : List String}
    (ht : "." ∉ texts) : isSymbol texts piece = false := by
  rcases h with (⟨word, hword, -⟩ | hpoint) | has
  · simp [isSymbol, hword]
  · simp [isSymbol, hpoint, ht]
  · simp [isSymbol, has]

theorem nameOf_append {pieces others : List Piece} (h : ∀ piece ∈ pieces, IsDotted piece)
    (hothers : ∀ piece ∈ others.head?, isWord "as" piece = true) :
    nameOf (pieces ++ others) = ⟨textOf pieces, others[1]?.bind fun piece =>
      match piece.lexeme with
      | .word text => some text
      | _ => none⟩ := by
  have hplain : ∀ piece ∈ pieces, (!isWord "as" piece) = true := by
    intro piece hm
    rw [isWord_of_isDotted (h piece hm) (by decide)]
    rfl
  have hfront : (others.takeWhile fun piece => !isWord "as" piece) = [] ∧
      (others.dropWhile fun piece => !isWord "as" piece) = others := by
    cases others with
    | nil => exact ⟨rfl, rfl⟩
    | cons piece others =>
        have hpiece := hothers piece rfl
        simp [hpiece]
  rw [nameOf, List.takeWhile_append_of_pos hplain, List.dropWhile_append_of_pos hplain,
    hfront.1, hfront.2, List.append_nil]

theorem exists_pieces_of_importedName {value : ImportedName}
    (h : (importedName setting).run cursor = some (value, stop)) :
    ∃ pieces, Fill pieces cursor stop ∧ nameOf pieces = value ∧ pieces ≠ [] ∧
      ∀ piece ∈ pieces, IsNamed piece := by
  obtain ⟨text, middle, hdotted, h⟩ := run_bind_eq_some.1 h
  obtain ⟨first, others, hfill, rfl, hfirst, hothers⟩ := exists_pieces_of_dottedName hdotted
  have hname : ∀ piece ∈ first :: others, IsDotted piece := by
    intro piece hm
    rcases List.mem_cons.1 hm with rfl | hm
    · exact .inl hfirst
    · exact hothers piece hm
  rcases run_onNext_cases h with ⟨next, hturn, hnext⟩ | ⟨next, hturn, hnext⟩
  · split at hturn <;> cases hturn
    rename_i has
    obtain ⟨word, hword, has⟩ := exists_piece_of_word has ⟨_, .inl rfl⟩
    obtain ⟨bound, _, hbound, hnext⟩ := run_bind_eq_some.1 hnext
    obtain ⟨rfl, rfl⟩ := run_pure_eq_some.1 hnext
    obtain ⟨piece, hpiece, hisName, hbehind, -⟩ := exists_piece_of_name hbound
    refine ⟨first :: others ++ [word, piece], hfill.append (has.append hbehind), ?_, by simp, ?_⟩
    · rw [nameOf_append hname (by simp [isWord, hword])]
      simp [hpiece]
    · simp only [List.mem_append, List.mem_cons, List.not_mem_nil, or_false]
      rintro part (hm | rfl | rfl)
      · exact .inl (hname part (List.mem_cons.2 hm))
      · exact .inr hword
      · exact .inl (.inl ⟨_, hpiece, hisName⟩)
  · split at hturn <;> cases hturn
    obtain ⟨rfl, rfl⟩ := run_pure_eq_some.1 hnext
    refine ⟨first :: others, hfill, ?_, by simp, fun piece hm => .inl (hname piece hm)⟩
    have hnone := @nameOf_append (first :: others) [] hname (by simp)
    simpa using hnone

/-- The piece is part of a list of names. -/
def IsListed (piece : Piece) : Prop := IsNamed piece ∨ piece.lexeme = .symbol ","

theorem namesOf_append_comma {pieces item : List Piece} {comma : Piece}
    (hcomma : comma.lexeme = .symbol ",") (hitem : ∀ piece ∈ item, IsNamed piece) :
    namesOf (pieces ++ comma :: item) =
      namesOf pieces ++ if item = [] then [] else [nameOf item] := by
  have hsingle : item.splitOnP (isSymbol [","]) = [item] :=
    List.splitOnP_eq_singleton fun piece hm => isSymbol_of_isNamed (hitem piece hm) (by decide)
  rw [namesOf, List.splitOnP_append_cons _ _ (by simp [isSymbol, hcomma]), hsingle,
    List.filter_append, List.map_append, namesOf]
  cases item <;> simp

theorem namesOf_of_isNamed {item : List Piece} (hne : item ≠ [])
    (hitem : ∀ piece ∈ item, IsNamed piece) : namesOf item = [nameOf item] := by
  rw [namesOf, List.splitOnP_eq_singleton fun piece hm =>
    isSymbol_of_isNamed (hitem piece hm) (by decide)]
  cases item with
  | nil => exact absurd rfl hne
  | cons piece others => rfl

theorem exists_pieces_of_importedNames {names : List ImportedName}
    (h : (importedNames setting).run cursor = some (names, stop)) :
    ∃ pieces, Fill pieces cursor stop ∧ namesOf pieces = names ∧
      ∀ piece ∈ pieces, IsListed piece := by
  obtain ⟨first, middle, hfirst, hloop⟩ := run_bind_eq_some.1 h
  rw [run_loop] at hloop
  obtain ⟨item, hitem, hname, hne, hnamed⟩ := exists_pieces_of_importedName hfirst
  refine hitem.loop
    (fun read pieces => namesOf pieces = read.reverse ∧ ∀ piece ∈ pieces, IsListed piece)
    (fun names pieces => namesOf pieces = names ∧ ∀ piece ∈ pieces, IsListed piece) ?_ ?_ hloop
  · rw [namesOf_of_isNamed hne hnamed, hname]
    exact ⟨rfl, fun piece hm => .inl (hnamed piece hm)⟩
  · intro read pieces cursor result stop hread hstep
    rcases run_onNext_cases hstep with ⟨next, hturn, hnext⟩ | ⟨next, hturn, hnext⟩
    · split at hturn <;> cases hturn
      rename_i hcomma
      obtain ⟨comma, hlexeme, hcomma⟩ := exists_piece_of_word hcomma ⟨_, .inr rfl⟩
      rcases run_onNext_cases hnext with ⟨next, hturn, hnext⟩ | ⟨next, hturn, hnext⟩
      · split at hturn <;> cases hturn
      · split at hturn <;> cases hturn
        · obtain ⟨value, _, hvalue, hnext⟩ := run_bind_eq_some.1 hnext
          obtain ⟨rfl, rfl⟩ := run_pure_eq_some.1 hnext
          obtain ⟨item, hitem, hname, hne, hnamed⟩ := exists_pieces_of_importedName hvalue
          refine ⟨[comma] ++ item, hcomma.append hitem, ?_, ?_⟩
          · rw [List.singleton_append, namesOf_append_comma hlexeme hnamed, if_neg hne, hname,
              hread.1, List.reverse_cons]
          · refine List.forall_mem_append.2 ⟨hread.2, List.forall_mem_append.2 ⟨?_, ?_⟩⟩
            · exact List.forall_mem_singleton.2 (.inr hlexeme)
            · exact fun piece hm => .inl (hnamed piece hm)
        · obtain ⟨rfl, rfl⟩ := run_pure_eq_some.1 hnext
          refine ⟨[comma], hcomma, ?_, ?_⟩
          · rw [namesOf_append_comma hlexeme (by simp), if_pos rfl, List.append_nil, hread.1]
          · refine List.forall_mem_append.2 ⟨hread.2, ?_⟩
            exact List.forall_mem_singleton.2 (.inr hlexeme)
    · split at hturn <;> cases hturn
      obtain ⟨rfl, rfl⟩ := run_pure_eq_some.1 hnext
      exact ⟨[], Piece.fill_nil cursor, by simpa using hread⟩

/-! ## Members -/

theorem filter_of_isListed {pieces : List Piece} (h : ∀ piece ∈ pieces, IsListed piece) :
    (pieces.filter fun piece => !isSymbol ["(", ")", "*"] piece) = pieces := by
  rw [List.filter_eq_self]
  intro piece hm
  rcases h piece hm with hnamed | hcomma
  · simp [isSymbol_of_isNamed hnamed]
  · simp [isSymbol, hcomma]

theorem exists_pieces_of_listed {names : List ImportedName}
    (h : listed.run cursor = some (names, stop)) :
    ∃ pieces, Fill pieces cursor stop ∧
      namesOf (pieces.filter fun piece => !isSymbol ["(", ")", "*"] piece) = names := by
  rcases run_onNext_cases h with ⟨next, hturn, hnext⟩ | ⟨next, hturn, hnext⟩
  · split at hturn <;> cases hturn
    rename_i hstar
    obtain ⟨star, hlexeme, hstar⟩ := exists_piece_of_word hstar ⟨_, .inr rfl⟩
    obtain ⟨rfl, rfl⟩ := run_pure_eq_some.1 hnext
    refine ⟨[star], hstar, ?_⟩
    rw [List.filter_cons_of_neg (by simp [isSymbol, hlexeme])]
    rfl
  · split at hturn <;> cases hturn
    rcases run_onNext_cases hnext with ⟨next, hturn, hnext⟩ | ⟨next, hturn, hnext⟩
    · split at hturn <;> cases hturn
      rename_i hopen
      obtain ⟨opening, hopening, hopen⟩ := exists_piece_of_word hopen ⟨_, .inr rfl⟩
      obtain ⟨_, _, hnames, hnext⟩ := run_bind_eq_some.1 hnext
      obtain ⟨_, _, hclose, hnext⟩ := run_bind_eq_some.1 hnext
      obtain ⟨rfl, rfl⟩ := run_pure_eq_some.1 hnext
      obtain ⟨hclosing, rfl⟩ := run_exactly_eq_some.1 hclose
      obtain ⟨closing, hclosing, hclose⟩ := exists_piece_of_word hclosing ⟨_, .inr rfl⟩
      obtain ⟨pieces, hpieces, hsay, hlisted⟩ := exists_pieces_of_importedNames hnames
      refine ⟨[opening] ++ (pieces ++ [closing]), hopen.append (hpieces.append hclose), ?_⟩
      rw [List.filter_append, List.filter_append, filter_of_isListed hlisted,
        List.filter_cons_of_neg (by simp [isSymbol, hopening]),
        List.filter_cons_of_neg (by simp [isSymbol, hclosing]), List.filter_nil,
        List.nil_append, List.append_nil, hsay]
    · split at hturn <;> cases hturn
      obtain ⟨pieces, hpieces, hsay, hlisted⟩ := exists_pieces_of_importedNames hnext
      exact ⟨pieces, hpieces, by rw [filter_of_isListed hlisted, hsay]⟩

def point (_ : Unit) : Parser (Unit ⊕ Unit) :=
  onNext {} fun
    | .symbol "." => .take (again ())
    | .symbol "..." => .take (again ())
    | _ => .leave (done ())

theorem run_point_cases {result : Unit ⊕ Unit} (h : (point ()).run cursor = some (result, stop)) :
    (result = .inl () ∧ ∃ piece, isSymbol [".", "..."] piece = true ∧ Fill [piece] cursor stop ∧
      (cursor.ahead {}).start = cursor.skip piece.gap.length) ∨
    result = .inr () ∧ cursor = stop := by
  rcases run_onNext_cases h with ⟨next, hturn, hnext⟩ | ⟨next, hturn, hnext⟩
  · split at hturn <;> cases hturn
    all_goals
      rename_i hpoint
      obtain ⟨piece, hlexeme, hfill, hstart⟩ := Piece.exists_fill_of_ahead hpoint ⟨_, .inr rfl⟩
      obtain ⟨rfl, rfl⟩ := run_pure_eq_some.1 hnext
      exact .inl ⟨rfl, piece, by simp [isSymbol, hlexeme], hfill, hstart⟩
  · split at hturn <;> cases hturn
    obtain ⟨rfl, rfl⟩ := run_pure_eq_some.1 hnext
    exact .inr ⟨rfl, rfl⟩

theorem exists_pieces_of_points {dots : String} (hrun : points.run cursor = some (dots, stop)) :
    ∃ pieces, Fill pieces cursor stop ∧ textOf pieces = dots ∧
      ∀ piece ∈ pieces, isSymbol [".", "..."] piece = true := by
  obtain ⟨⟨_, h⟩, htext⟩ := run_written_eq_some.1 hrun
  change loopRun point (cursor.extent - cursor.offset + 1 + 1) () cursor = some (_, stop) at h
  rw [loopRun] at h
  split at h
  · cases h
  · rename_i hstep
    rcases run_point_cases hstep with ⟨-, first, hpoint, hfirst, hstart⟩ | ⟨hresult, -⟩
    · obtain ⟨pieces, hpieces, others, rfl, hothers⟩ := hfirst.loop
        (fun _ pieces => ∃ others, pieces = first :: others ∧
          ∀ piece ∈ others, isSymbol [".", "..."] piece = true)
        (fun _ pieces => ∃ others, pieces = first :: others ∧
          ∀ piece ∈ others, isSymbol [".", "..."] piece = true) ⟨[], rfl, by simp⟩ (by
          rintro _ _ cursor result stop ⟨others, rfl, hothers⟩ hstep
          rcases run_point_cases hstep with ⟨rfl, piece, hpoint, hpiece, -⟩ | ⟨rfl, rfl⟩
          · refine ⟨[piece], hpiece, others ++ [piece], rfl, ?_⟩
            exact List.forall_mem_append.2 ⟨hothers, List.forall_mem_singleton.2 hpoint⟩
          · exact ⟨[], Piece.fill_nil _, others, by simp, hothers⟩) h
      refine ⟨first :: others, hpieces, ?_, List.forall_mem_cons.2 ⟨hpoint, hothers⟩⟩
      rw [htext, hstart, hpieces.textTo]
    · cases hresult
  · rename_i hstep
    rcases run_point_cases hstep with ⟨hresult, -⟩ | ⟨-, rfl⟩
    · cases hresult
    · cases h
      refine ⟨[], Piece.fill_nil _, ?_, by simp⟩
      have hle := (Cursor.reaches_start {} cursor).offset_le
      rw [htext, Cursor.textTo, Nat.sub_eq_zero_of_le hle, List.take_zero]
      rfl

theorem membersIn_append {dots module names : List Piece} {word : Piece}
    (hdots : ∀ piece ∈ dots, isSymbol [".", "..."] piece = true)
    (hmodule : ∀ piece ∈ module, IsDotted piece) (hname : ∀ piece ∈ module.head?, IsName piece)
    (hword : word.lexeme = .word "import") :
    membersIn (dots ++ module ++ word :: names) =
      .members ((textOf dots).toList.count '.')
        (if module.isEmpty then none else some (textOf module))
        (namesOf (names.filter fun piece => !isSymbol ["(", ")", "*"] piece)) := by
  have hplace : ∀ piece ∈ dots ++ module, (!isWord "import" piece) = true := by
    refine List.forall_mem_append.2 ⟨fun piece hm => ?_, fun piece hm => ?_⟩
    · have hpoint := hdots piece hm
      unfold isSymbol at hpoint
      split at hpoint
      · rename_i hlexeme
        simp [isWord, hlexeme]
      · cases hpoint
    · rw [isWord_of_isDotted (hmodule piece hm) (by decide)]
      rfl
  have hbehind : (!isWord "import" word) = false := by simp [isWord, hword]
  have hmoduleFront : module.takeWhile (isSymbol [".", "..."]) = [] ∧
      module.dropWhile (isSymbol [".", "..."]) = module := by
    cases module with
    | nil => exact ⟨rfl, rfl⟩
    | cons piece others =>
        have hpiece := isSymbol_of_isName (hname piece rfl) [".", "..."]
        simp [hpiece]
  rw [membersIn, List.takeWhile_append_of_pos hplace, List.dropWhile_append_of_pos hplace,
    List.takeWhile_cons_of_neg (by simp [hbehind]), List.dropWhile_cons_of_neg (by simp [hbehind]),
    List.append_nil, List.takeWhile_append_of_pos hdots, List.dropWhile_append_of_pos hdots,
    hmoduleFront.1, hmoduleFront.2, List.append_nil]
  rfl

theorem exists_pieces_behind_module {middle : Cursor} {read : Unit} {names : List ImportedName}
    (hword : (word "import").run cursor = some (read, middle))
    (hnames : listed.run middle = some (names, stop)) :
    ∃ word others, word.lexeme = .word "import" ∧ Fill (word :: others) cursor stop ∧
      namesOf (others.filter fun piece => !isSymbol ["(", ")", "*"] piece) = names := by
  obtain ⟨hahead, rfl⟩ := run_exactly_eq_some.1 hword
  obtain ⟨word, hlexeme, hfill⟩ := exists_piece_of_word hahead ⟨_, .inl rfl⟩
  obtain ⟨others, hothers, hsay⟩ := exists_pieces_of_listed hnames
  exact ⟨word, others, hlexeme, hfill.append hothers, hsay⟩

theorem exists_pieces_of_module? {module? : Option String}
    (h : (onNext {} fun lexeme =>
        if startsName lexeme then
          .leave do pure (some (← dottedName (Setting.inside.openedBy {})))
        else .leave (pure none)).run cursor = some (module?, stop)) :
    ∃ module, Fill module cursor stop ∧ (∀ piece ∈ module.head?, IsName piece) ∧
      (∀ piece ∈ module, IsDotted piece) ∧
      (if module.isEmpty then none else some (textOf module)) = module? := by
  rcases run_onNext_cases h with ⟨next, hturn, hnext⟩ | ⟨next, hturn, hnext⟩
  · split at hturn <;> cases hturn
  · split at hturn <;> cases hturn
    · obtain ⟨_, _, hdotted, hnext⟩ := run_bind_eq_some.1 hnext
      obtain ⟨rfl, rfl⟩ := run_pure_eq_some.1 hnext
      obtain ⟨first, others, hfill, rfl, hname, hothers⟩ := exists_pieces_of_dottedName hdotted
      exact ⟨first :: others, hfill, by simpa using hname,
        List.forall_mem_cons.2 ⟨.inl hname, hothers⟩, rfl⟩
    · obtain ⟨rfl, rfl⟩ := run_pure_eq_some.1 hnext
      exact ⟨[], Piece.fill_nil cursor, by simp, by simp, rfl⟩

theorem exists_pieces_of_membersStatement {value : Import}
    (h : membersStatement.run cursor = some ([.imports value], stop)) :
    ∃ pieces, Fill pieces cursor stop ∧ membersIn pieces = value := by
  rcases run_onNext_cases h with ⟨next, hturn, hnext⟩ | ⟨next, hturn, hnext⟩
  · -- From `__future__` nothing is imported.
    split at hturn <;> cases hturn
    obtain ⟨_, _, _, hnext⟩ := run_bind_eq_some.1 hnext
    obtain ⟨_, _, _, hnext⟩ := run_bind_eq_some.1 hnext
    cases (run_pure_eq_some.1 hnext).1
  · split at hturn <;> cases hturn
    · obtain ⟨_, _, hmodule, hnext⟩ := run_bind_eq_some.1 hnext
      obtain ⟨_, _, hword, hnext⟩ := run_bind_eq_some.1 hnext
      obtain ⟨names, hnames, he⟩ := run_membersOf_eq_some.1 hnext
      cases he
      obtain ⟨word, others, hlexeme, hothers, rfl⟩ := exists_pieces_behind_module hword hnames
      obtain ⟨first, module, hfirst, rfl, hname, hdotted⟩ := exists_pieces_of_dottedName hmodule
      refine ⟨[] ++ (first :: module) ++ word :: others, hfirst.append hothers, ?_⟩
      rw [membersIn_append (by simp) (List.forall_mem_cons.2 ⟨.inl hname, hdotted⟩)
        (by simpa using hname) hlexeme]
      rfl
    · obtain ⟨_, _, hread, hnext⟩ := run_bind_eq_some.1 hnext
      obtain ⟨_, _, hrequire, hnext⟩ := run_bind_eq_some.1 hnext
      obtain ⟨_, _, hmodule, hnext⟩ := run_bind_eq_some.1 hnext
      obtain ⟨_, _, hword, hnext⟩ := run_bind_eq_some.1 hnext
      obtain ⟨names, hnames, he⟩ := run_membersOf_eq_some.1 hnext
      cases he
      obtain ⟨word, others, hlexeme, hothers, rfl⟩ := exists_pieces_behind_module hword hnames
      obtain ⟨dots, hdots, rfl, hpoints⟩ := exists_pieces_of_points hread
      obtain ⟨module, hfill, hname, hdotted, rfl⟩ := exists_pieces_of_module? hmodule
      rw [← eq_of_run_require hrequire] at hfill
      refine ⟨dots ++ module ++ word :: others, (hdots.append hfill).append hothers, ?_⟩
      exact membersIn_append hpoints hdotted hname hlexeme

/-! ## Statements -/

theorem exists_pieces_of_statement {opening : Expectation} {value : Import}
    (h : (statement opening).run cursor = some ([.imports value], stop)) :
    ∃ first others, Fill (first :: others) cursor stop ∧ ofPieces (first :: others) = value ∧
      (cursor.ahead opening).start = cursor.skip first.gap.length := by
  rcases run_onNext_cases h with ⟨next, hturn, hnext⟩ | ⟨next, hturn, hnext⟩
  · split at hturn <;> cases hturn
    all_goals
      rename_i hword
      obtain ⟨first, hlexeme, hfirst, hstart⟩ := Piece.exists_fill_of_ahead hword ⟨_, .inl rfl⟩
    · obtain ⟨names, _, hnames, hnext⟩ := run_bind_eq_some.1 hnext
      obtain ⟨he, rfl⟩ := run_pure_eq_some.1 hnext
      cases he
      obtain ⟨others, hothers, rfl, -⟩ := exists_pieces_of_importedNames hnames
      exact ⟨first, others, hfirst.append hothers, by simp [ofPieces, isWord, hlexeme], hstart⟩
    · obtain ⟨others, hothers, rfl⟩ := exists_pieces_of_membersStatement hnext
      exact ⟨first, others, hfirst.append hothers, by simp [ofPieces, isWord, hlexeme], hstart⟩
  · split at hturn <;> cases hturn
    cases hnext

/-- A statement that imports is read between two cursors, and is written as the text says. -/
def IsWritten (value : Import) (text : String) (first last : Cursor) : Prop :=
  ∃ opening cursor, first.Reaches cursor ∧
    (statement opening).run cursor = some ([.imports value], last) ∧
    (cursor.ahead opening).start.textTo last.offset = text

theorem IsWritten.eq {value other : Import} {text : String} {first last front behind : Cursor}
    (h : value.IsWritten text first last) (hother : other.IsWritten text front behind) :
    value = other := by
  obtain ⟨_, _, -, hrun, htext⟩ := h
  obtain ⟨_, _, -, hotherRun, hotherText⟩ := hother
  obtain ⟨piece, pieces, hfill, rfl, hstart⟩ := exists_pieces_of_statement hrun
  obtain ⟨head, others, hothers, rfl, hotherStart⟩ := exists_pieces_of_statement hotherRun
  rw [hstart, hfill.textTo] at htext
  rw [hotherStart, hothers.textTo] at hotherText
  obtain ⟨hlexeme, rfl⟩ :=
    hfill.divide.eq_of_textOf hothers.divide (htext.trans hotherText.symm)
  rw [ofPieces, ofPieces, isWord, isWord, hlexeme]

/-- Imports are read one behind the other, each as its text says. -/
inductive AreWritten : List Import → List String → Cursor → Cursor → Prop
  | nil {first last : Cursor} (h : first.Reaches last) : AreWritten [] [] first last
  | cons {value : Import} {text : String} {values : List Import} {texts : List String}
      {first middle last : Cursor} (h : value.IsWritten text first middle)
      (hothers : AreWritten values texts middle last) :
      AreWritten (value :: values) (text :: texts) first last

theorem AreWritten.eq {values others : List Import} {texts : List String}
    {first last front behind : Cursor} (h : AreWritten values texts first last)
    (hothers : AreWritten others texts front behind) : values = others := by
  induction h generalizing others front with
  | nil => cases hothers with
    | nil => rfl
  | cons hvalue _ ih => cases hothers with
    | cons hother hothers => rw [hvalue.eq hother, ih hothers]

theorem IsWritten.behind {value : Import} {text : String} {start first last : Cursor}
    (h : value.IsWritten text first last) (hr : start.Reaches first) :
    value.IsWritten text start last := by
  obtain ⟨opening, cursor, hreaches, hrun⟩ := h
  exact ⟨opening, cursor, hr.trans hreaches, hrun⟩

theorem AreWritten.behind {values : List Import} {texts : List String} {start first last : Cursor}
    (h : AreWritten values texts first last) (hr : start.Reaches first) :
    AreWritten values texts start last := by
  cases h with
  | nil hreaches => exact .nil (hr.trans hreaches)
  | cons hvalue hothers => exact .cons (hvalue.behind hr) hothers

theorem AreWritten.append {values others : List Import} {texts more : List String}
    {first middle last : Cursor} (h : AreWritten values texts first middle)
    (hothers : AreWritten others more middle last) :
    AreWritten (values ++ others) (texts ++ more) first last := by
  induction h with
  | nil hr => exact hothers.behind hr
  | cons hvalue _ ih => exact .cons hvalue (ih hothers)

end CodeAtlas.Syntax.Import

namespace CodeAtlas.Syntax.Outline

theorem imports_callsPreorder (calls : List Call) : (callsPreorder calls).imports = [] :=
  List.filterMap_eq_nil_iff.2 (forall_mem_callsPreorder (fun _ _ => rfl) calls)

theorem imports_append (first second : Outline) :
    imports (first ++ second) = first.imports ++ second.imports :=
  List.filterMap_append

/-- What the imports are written like is an account of a reading. -/
def importsAccount : Account where
  Between first last outline := ∃ texts, Import.AreWritten outline.imports texts first last
  nil hr := ⟨[], .nil hr⟩
  append := by
    rintro first middle last outline other ⟨texts, h⟩ ⟨more, hother⟩
    exact ⟨texts ++ more, imports_append outline other ▸ h.append hother⟩
  calling {_ _ calls} hr _ := ⟨[], by
    rw [imports_callsPreorder calls]
    exact .nil hr⟩
  importing := by
    intro opening cursor stop outline h
    rcases Import.statement_cases h with rfl | ⟨value, rfl⟩
    · exact ⟨[], .nil (Parser.advances _ h)⟩
    · exact ⟨_, .cons ⟨opening, cursor, .refl _, h, rfl⟩ (.nil (.refl _))⟩
  defining := by
    rintro start first last outline kind name heading ⟨texts, h⟩ hr - - -
    exact ⟨texts, h.behind hr⟩

/-- The imports of a source are written in it like these texts, one behind the other. -/
def HasImports (outline : Outline) (source : String) (texts : List String) : Prop :=
  ∃ last, Import.AreWritten outline.imports texts (Cursor.ofText source) last

theorem exists_hasImports {source : String} {outline : Outline}
    (h : ofText? source = some outline) : ∃ texts, outline.HasImports source texts := by
  obtain ⟨last, texts, hwritten⟩ := importsAccount.exists_between h
  exact ⟨texts, last, hwritten⟩

theorem HasImports.eq {source other : String} {outline moved : Outline} {texts : List String}
    (h : outline.HasImports source texts) (hmoved : moved.HasImports other texts) :
    outline.imports = moved.imports := by
  obtain ⟨_, hwritten⟩ := h
  obtain ⟨_, hother⟩ := hmoved
  exact hwritten.eq hother

end CodeAtlas.Syntax.Outline
