import CodeAtlas.Proofs.Syntax.Imports
import Mathlib.Data.List.Forall2

/-!
# Texts without their blanks

A dotted name is kept as it is written, with the blanks around its points. Two imports that are
written in the same words and symbols say the same but for these blanks; how many points stand in
front of a module does not depend on them at all.
-/

namespace CodeAtlas.Syntax

/-- The characters of a text that are no blanks. -/
def bareChars (chars : List Char) : List Char := chars.filter fun char => !Lexeme.isSpace char

def bare (text : String) : String := String.ofList (bareChars text.toList)

def IsSpaced (text : String) : Prop := ∃ char ∈ text.toList, Lexeme.isSpace char = true

instance : DecidablePred IsSpaced := fun text =>
  decidable_of_iff (text.toList.any Lexeme.isSpace = true) List.any_eq_true

theorem bare_eq_self {text : String} (h : ¬ IsSpaced text) : bare text = text := by
  have hall : bareChars text.toList = text.toList :=
    List.filter_eq_self.2 fun char hm => by simpa using fun hs => h ⟨char, hm, hs⟩
  rw [bare, hall, String.ofList_toList]

namespace ImportedName

def bare (imported : ImportedName) : ImportedName :=
  { imported with text := Syntax.bare imported.text }

end ImportedName

def Import.bare : Import → Import
  | .modules names => .modules (names.map ImportedName.bare)
  | .members level module names =>
      .members level (module.map Syntax.bare) (names.map ImportedName.bare)

/-! ## Pieces -/

namespace Lexeme

def isText : Lexeme → Bool
  | .word _ => true
  | .symbol _ => true
  | _ => false

theorem isText_iff {lexeme : Lexeme} : lexeme.isText = true ↔ IsText lexeme := by
  cases lexeme <;> simp [isText, IsText]

end Lexeme

namespace Piece

/-- Tells whether pieces behind blanks alone are what a text is divided into. -/
def divide : List Piece → Bool
  | [] => true
  | piece :: pieces =>
      let rest := piece.chars ++ spelled pieces
      Lexeme.blanks (piece.gap ++ rest) = piece.gap.length && Lexeme.gapLength rest = 0 &&
        Lexeme.textAt rest = (piece.lexeme, piece.chars.length) && piece.lexeme.isText &&
        divide pieces

theorem divide_of_blanks {pieces : List Piece} (h : divide pieces = true) : Divide pieces [] := by
  induction pieces with
  | nil => trivial
  | cons piece pieces ih =>
      simp only [divide, Bool.and_eq_true, decide_eq_true_eq] at h
      obtain ⟨⟨⟨⟨hblanks, hgap⟩, htext⟩, hlexeme⟩, hmore⟩ := h
      refine ⟨⟨?_, by rwa [List.append_nil], Lexeme.isText_iff.1 hlexeme⟩, ih hmore⟩
      rw [List.append_nil, List.append_assoc]
      have hlast := @Lexeme.Skips.last (piece.gap ++ (piece.chars ++ spelled pieces))
      rw [hblanks, List.drop_left] at hlast
      exact hlast hgap

def bare (piece : Piece) : Piece := ⟨bareChars piece.gap, bareChars piece.chars, piece.lexeme⟩

theorem spelled_map_bare (pieces : List Piece) :
    spelled (pieces.map bare) = bareChars (spelled pieces) := by
  induction pieces with
  | nil => rfl
  | cons piece pieces ih =>
      rw [List.map_cons, spelled_cons, spelled_cons, ih]
      simp only [bare, bareChars, List.filter_append]

theorem textOf_map_bare (pieces : List Piece) :
    textOf (pieces.map bare) = Syntax.bare (textOf pieces) := by
  cases pieces with
  | nil => rfl
  | cons first others =>
      rw [List.map_cons, textOf, textOf, spelled_map_bare, Syntax.bare, String.toList_ofList]
      simp only [bare, bareChars, List.filter_append]

end Piece

/-! ## What pieces say -/

namespace Import

open Piece (textOf textOf_map_bare)

theorem nameOf_map_bare (pieces : List Piece) :
    nameOf (pieces.map Piece.bare) = (nameOf pieces).bare := by
  have hword : (fun piece => !isWord "as" piece) ∘ Piece.bare = fun piece => !isWord "as" piece :=
    rfl
  rw [nameOf, nameOf, ImportedName.bare, List.takeWhile_map, List.dropWhile_map, hword,
    textOf_map_bare, List.getElem?_map, Option.bind_map]
  rfl

theorem splitOnP_map {α β : Type} (f : α → β) (mark : β → Bool) (items : List α) :
    (items.map f).splitOnP mark = (items.splitOnP (mark ∘ f)).map (List.map f) := by
  induction items with
  | nil => simp
  | cons item items ih =>
      rw [List.map_cons, List.splitOnP_cons_eq_if_modifyHead, List.splitOnP_cons_eq_if_modifyHead,
        ih, Function.comp_apply]
      split
      · rfl
      · cases items.splitOnP (mark ∘ f) <;> rfl

theorem namesOf_map_bare (pieces : List Piece) :
    namesOf (pieces.map Piece.bare) = (namesOf pieces).map ImportedName.bare := by
  have hsymbol : isSymbol [","] ∘ Piece.bare = isSymbol [","] := rfl
  rw [namesOf, namesOf, splitOnP_map, hsymbol, List.filter_map, List.map_map, List.map_map]
  have hempty : (fun item : List Piece => !item.isEmpty) ∘ List.map Piece.bare =
      fun item => !item.isEmpty := by
    funext item
    simp
  rw [hempty]
  exact List.map_congr_left fun item _ => nameOf_map_bare item

theorem count_bare (text : String) :
    (Syntax.bare text).toList.count '.' = text.toList.count '.' := by
  rw [Syntax.bare, String.toList_ofList, bareChars, List.count_filter (by decide)]

theorem membersIn_map_bare (pieces : List Piece) :
    membersIn (pieces.map Piece.bare) = (membersIn pieces).bare := by
  have hword : (fun piece => !isWord "import" piece) ∘ Piece.bare =
      fun piece => !isWord "import" piece := rfl
  have hpoint : isSymbol [".", "..."] ∘ Piece.bare = isSymbol [".", "..."] := rfl
  have hmark : (fun piece => !isSymbol ["(", ")", "*"] piece) ∘ Piece.bare =
      fun piece => !isSymbol ["(", ")", "*"] piece := rfl
  rw [membersIn, membersIn, List.takeWhile_map, List.dropWhile_map, hword]
  rw [List.takeWhile_map, List.dropWhile_map, hpoint, ← List.map_drop, List.filter_map, hmark,
    namesOf_map_bare, textOf_map_bare, textOf_map_bare, count_bare, Import.bare, List.isEmpty_map]
  congr 1
  split <;> rfl

theorem ofPieces_map_bare (pieces : List Piece) :
    ofPieces (pieces.map Piece.bare) = (ofPieces pieces).bare := by
  cases pieces with
  | nil => rfl
  | cons first others =>
      have hfirst : isWord "from" first.bare = isWord "from" first := rfl
      rw [List.map_cons, ofPieces, ofPieces, hfirst]
      split
      · exact membersIn_map_bare others
      · rw [namesOf_map_bare, Import.bare]

/-! ## Statements -/

/-- The texts are divided into the same words and symbols, up to blanks. -/
def Respelled (text other : String) : Prop :=
  ∃ first pieces head others, Piece.Divide (first :: pieces) [] ∧ Piece.Divide (head :: others) [] ∧
    textOf (first :: pieces) = text ∧ textOf (head :: others) = other ∧
    (first :: pieces).map Piece.bare = (head :: others).map Piece.bare

theorem respelled_of_divide (first head : Piece) (pieces others : List Piece)
    (h : Piece.divide (first :: pieces) = true) (hother : Piece.divide (head :: others) = true)
    (hbare : (first :: pieces).map Piece.bare = (head :: others).map Piece.bare) :
    Respelled (textOf (first :: pieces)) (textOf (head :: others)) :=
  ⟨first, pieces, head, others, Piece.divide_of_blanks h, Piece.divide_of_blanks hother, rfl, rfl,
    hbare⟩

theorem IsWritten.eq_ofPieces {value : Import} {first last : Cursor} {piece : Piece}
    {pieces : List Piece} (h : value.IsWritten (textOf (piece :: pieces)) first last)
    (hdivide : Piece.Divide (piece :: pieces) []) : value = ofPieces (piece :: pieces) := by
  obtain ⟨opening, cursor, -, hrun, htext⟩ := h
  obtain ⟨head, others, hfill, rfl, hstart⟩ := exists_pieces_of_statement hrun
  rw [hstart, hfill.textTo] at htext
  obtain ⟨hlexeme, rfl⟩ := hfill.divide.eq_of_textOf hdivide htext
  rw [ofPieces, ofPieces, isWord, isWord, hlexeme]

theorem IsWritten.bare_eq {value other : Import} {text spelling : String}
    {first last front behind : Cursor} (h : value.IsWritten text first last)
    (hother : other.IsWritten spelling front behind) (hspelled : Respelled text spelling) :
    value.bare = other.bare := by
  obtain ⟨piece, pieces, head, others, hdivide, hotherDivide, rfl, rfl, hsame⟩ := hspelled
  rw [h.eq_ofPieces hdivide, hother.eq_ofPieces hotherDivide, ← ofPieces_map_bare, hsame,
    ofPieces_map_bare]

theorem AreWritten.map_bare_eq {values others : List Import} {texts spellings : List String}
    {first last front behind : Cursor} (h : AreWritten values texts first last)
    (hothers : AreWritten others spellings front behind)
    (hspelled : List.Forall₂ Respelled texts spellings) :
    values.map Import.bare = others.map Import.bare := by
  induction h generalizing others spellings front with
  | nil =>
      cases hspelled
      cases hothers
      rfl
  | cons hvalue _ ih =>
      cases hspelled with
      | cons hfirst hrest =>
          cases hothers with
          | cons hother hothers =>
              rw [List.map_cons, List.map_cons, hvalue.bare_eq hother hfirst, ih hothers hrest]

end Import

end CodeAtlas.Syntax
