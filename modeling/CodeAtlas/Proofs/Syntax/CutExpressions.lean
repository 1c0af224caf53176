import CodeAtlas.Proofs.Syntax.CutOperands
import CodeAtlas.Syntax.Source

/-!
# Expressions in cut texts

The parsers of expressions and of types are mirrored by themselves, given a level below that mirrors
theirs. So a level of some depth is mirrored by every deeper one, by induction on the depth.
-/

namespace CodeAtlas.Syntax

open Cursor (Precedes Sees)
open Syntax.Parser (Mirrors MirrorsAmid MirrorsTo)

namespace Level

open Syntax.Parser

variable {tail : List Char} {lower mirror : Thunk Level} {setting : Setting}

/-! ## Operators -/

theorem isPlain_opening (hplain : setting.IsPlain) (sign : Sign) :
    (sign.opening setting).IsPlain := by
  cases sign with
  | none => exact hplain.opening
  | symbol => exact ⟨rfl, rfl, rfl⟩
  | await => exact hplain.orEnd

theorem mirrors_signs (hplain : setting.IsPlain) :
    Mirrors tail (Sees tail setting.opening)
      (fun read => Sees tail (if read.2 then setting.behind else read.1.opening setting))
      (signs setting) (signs setting) := by
  change Mirrors tail (Sees tail (Sign.none.opening setting)) _ _ _
  refine mirrors_loop (fun sign => Sees tail (Sign.opening setting sign)) fun sign => ?_
  apply mirrors_onNext (isPlain_opening hplain sign).flattens
  intro lexeme
  split
  · split
    · exact .take trivial (mirrors_pure id) Sees.precedes
    · exact .stay (mirrors_pure id)
  · refine .take trivial (mirrors_onNext hplain.orEnd.flattens fun lexeme => ?_) Sees.precedes
    split
    · exact .stay (mirrors_pure id)
    · rename_i hawaited
      refine .leave (mirrors_pure id) fun he hsees => Sees.orEnd hsees he ?_
      rintro delimiter rfl
      exact hawaited rfl
  · exact .stay (mirrors_pure id)

section Operators

variable (h : lower.get.IsMirrored tail mirror.get)

include h

theorem mirrors_signed (hplain : setting.IsPlain) :
    MirrorsAmid tail setting.opening setting.behind (signed lower setting)
      (signed mirror setting) := by
  refine (mirrors_signs hplain).bind fun read => ?_
  obtain ⟨sign, isAwait⟩ := read
  cases isAwait with
  | true =>
      simp only [↓reduceIte]
      exact (mirrors_operandBehind h hplain.flattens (Front.ofName "await").chain).bind
        fun _ => mirrors_pure id
  | false =>
      simp only [Bool.false_eq_true, ↓reduceIte]
      exact (mirrors_operand h (hplain.openedBy (isPlain_opening hplain sign))).bind
        fun _ => mirrors_pure id

theorem mirrors_arithmeticBehind (hplain : setting.IsPlain) (first : Operand) :
    MirrorsAmid tail setting.behind setting.behind (arithmeticBehind lower setting first)
      (arithmeticBehind mirror setting first) := by
  refine mirrors_loop (fun _ => Sees tail setting.behind) fun left => ?_
  apply mirrors_onNext hplain.behind.flattens
  intro lexeme
  split
  · split
    · exact .take trivial ((mirrors_signed h hplain.later).bind fun _ => mirrors_pure id)
        Sees.precedes
    · exact .stay (mirrors_pure id)
  · exact .stay (mirrors_pure id)

theorem mirrors_arithmetic (hplain : setting.IsPlain) :
    MirrorsAmid tail setting.opening setting.behind (arithmetic lower setting)
      (arithmetic mirror setting) :=
  (mirrors_signed h hplain).bind fun first => mirrors_arithmeticBehind h hplain first

theorem mirrors_comparisonBehind (hplain : setting.IsPlain) (first : Operand) :
    MirrorsAmid tail setting.behind setting.behind (comparisonBehind lower setting first)
      (comparisonBehind mirror setting first) := by
  refine mirrors_loop (fun _ => Sees tail setting.behind) fun left => ?_
  have hnext : Mirrors tail (Sees tail { quote := true })
      (Sum.elim (fun _ => Sees tail setting.behind) fun _ => Sees tail setting.behind)
      (do again (.combine [left, ← arithmetic lower setting.later]) : Parser (Operand ⊕ Operand))
      (do again (.combine [left, ← arithmetic mirror setting.later])) :=
    (mirrors_arithmetic h hplain.later).bind fun _ => mirrors_pure id
  apply mirrors_onNext hplain.behind.flattens
  intro lexeme
  split
  · split
    · exact .take trivial hnext Sees.precedes
    · exact .stay (mirrors_pure id)
  · exact .take trivial hnext Sees.precedes
  · exact .take trivial ((mirrors_word Setting.isPlain_inside.behind _).bind
      fun _ => hnext.onward) Sees.precedes
  · refine .take trivial ((mirrors_optionally Setting.isPlain_inside.opening (by trivial)).bind
      fun found => ?_) Sees.precedes
    cases found with
    | true => exact hnext.onward
    | false => exact hnext
  · exact .stay (mirrors_pure id)

theorem mirrors_leadingBehind (hplain : setting.IsPlain) (first : Operand) :
    MirrorsAmid tail setting.behind setting.behind (leadingBehind lower setting first)
      (leadingBehind mirror setting first) := by
  refine (mirrors_arithmeticBehind h hplain first).bind fun left => ?_
  refine (mirrors_comparisonBehind h hplain left).bind fun left => ?_
  apply mirrors_onNext hplain.behind.flattens
  intro lexeme
  split
  · rename_i hgiven
    simp only [Bool.and_eq_true, decide_eq_true_eq] at hgiven
    exact .take (hgiven.1 ▸ trivial) ((h.expression hplain.later).bind fun _ => mirrors_pure id)
      Sees.precedes
  · exact .stay (mirrors_pure id)

theorem mirrors_anonymous (inHead : Bool) (hplain : setting.IsPlain) :
    MirrorsAmid tail Setting.inside.behind setting.behind (anonymous lower inHead setting)
      (anonymous mirror inHead setting) := by
  refine ((mirrors_parameters h Setting.isPlain_inside).given fun hmeets => ⟨":", hmeets⟩).bind
    fun defaults => ?_
  refine (mirrors_exactly Setting.isPlain_inside.behind (by trivial)).bind fun _ => ?_
  exact (h.expression hplain.later).onward.bind fun _ => mirrors_pure id

theorem mirrors_leading (inHead : Bool) (hplain : setting.IsPlain) :
    MirrorsAmid tail setting.opening setting.behind (leading lower inHead setting)
      (leading mirror inHead setting) := by
  apply mirrors_onNext hplain.opening.flattens
  intro lexeme
  split
  · exact .take trivial ((h.expression hplain.later).bind fun _ => mirrors_pure id) Sees.precedes
  · exact .take trivial (mirrors_anonymous h inHead hplain) Sees.precedes
  · exact .stay ((mirrors_signed h hplain).bind fun _ => mirrors_leadingBehind h hplain _)

theorem mirrors_joinedBehind (strength : Strength) (hplain : setting.IsPlain) (first : Operand) :
    MirrorsAmid tail setting.behind setting.behind (joinedBehind lower strength setting first)
      (joinedBehind mirror strength setting first) := by
  refine mirrors_loop (fun _ => Sees tail setting.behind) fun left => ?_
  have hjoin (left : Operand) (strength : Strength) : Mirrors tail (Sees tail { quote := true })
      (Sum.elim (fun _ => Sees tail setting.behind) fun _ => Sees tail setting.behind)
      (do again (.combine [left, ← lower.get.expression strength false setting.later]) :
        Parser (Operand ⊕ Operand))
      (do again (.combine [left, ← mirror.get.expression strength false setting.later])) :=
    (h.expression hplain.later).bind fun _ => mirrors_pure id
  apply mirrors_onNext hplain.behind.flattens
  intro lexeme
  split
  · split
    · exact .take trivial (hjoin left .negation) Sees.precedes
    · exact .stay (mirrors_pure id)
  · split
    · exact .take trivial (hjoin left .conjunction) Sees.precedes
    · exact .stay (mirrors_pure id)
  · split
    · exact .take trivial (hjoin left .disjunction) Sees.precedes
    · exact .stay (mirrors_pure id)
  · split
    · refine .take trivial ((h.whole Setting.isPlain_inside).bind fun condition => ?_)
        Sees.precedes
      exact (mirrors_word Setting.isPlain_inside.behind _).bind
        fun _ => (hjoin (.combine [left, condition]) .conditional).onward
    · exact .stay (mirrors_pure id)
  · exact .stay (mirrors_pure id)

theorem mirrors_expressionAt (strength : Strength) (inHead : Bool) (hplain : setting.IsPlain) :
    MirrorsAmid tail setting.opening setting.behind (expressionAt lower strength inHead setting)
      (expressionAt mirror strength inHead setting) :=
  (mirrors_leading h inHead hplain).bind fun first =>
    mirrors_joinedBehind h strength hplain first

theorem mirrors_expressionBehind (hplain : setting.IsPlain) (chain : Chain) :
    Mirrors tail (Sees tail (setting.behindStars chain.stars)) (fun _ => Sees tail setting.behind)
      (expressionBehind lower setting chain) (expressionBehind mirror setting chain) :=
  (mirrors_operandBehind h hplain.flattens chain).bind fun first =>
    (mirrors_leadingBehind h hplain first).bind fun left =>
      mirrors_joinedBehind h .weakest hplain left

/-! ## Types -/

theorem mirrors_typeArguments :
    MirrorsTo tail { quote := true } (typeArguments lower) (typeArguments mirror) :=
  (mirrors_list Setting.isPlain_bracketed
    (fun hopening => h.annotation (Setting.isPlain_bracketed.openedBy hopening)) fun _ => rfl).bind
      fun _ => (mirrors_symbol Setting.isPlain_bracketed.behind _).bind fun _ => mirrors_pure id

omit h in
theorem stars_chain_of_eq_zero {front : Front} (hzero : front.stars = 0) :
    front.chain.stars = 0 := by
  rw [stars_chain, hzero]
  unfold starsBehind
  split <;> rfl

omit h in
theorem stars_chain_of_isStarredName {front : Front} (hstarred : isStarredName front = true) :
    front.chain.stars = 0 := by
  unfold isStarredName at hstarred
  rw [Bool.and_eq_true, decide_eq_true_eq] at hstarred
  obtain ⟨hone, hname⟩ := hstarred
  have hisName : front.base.isName = true := by
    unfold Operand.isName
    cases hnamed : front.base.name? with
    | none =>
        rw [hnamed] at hname
        cases hname
    | some text => rfl
  rw [stars_chain, hone, starsBehind, if_pos hisName]

omit h in
theorem sees_behind_of_stars (hplain : setting.IsPlain) {stars : Nat} {cursor : Cursor}
    (hsees : cursor.Sees tail (setting.behindStars stars)) : cursor.Sees tail setting.behind := by
  cases stars with
  | zero => exact hsees
  | succ stars =>
      refine hsees.of_widens ⟨hplain.newline, rfl, rfl, id, fun hcloser => ?_⟩ (.inr (.inr rfl))
      cases hcloser

/-- Behind stars that need more, only an expression can go on. -/
theorem mirrors_typeBehind (hplain : setting.IsPlain) (front : Front) :
    Mirrors tail (Sees tail (setting.behindStars front.chain.stars))
      (fun _ => Sees tail setting.behind) (typeBehind lower setting front)
      (typeBehind mirror setting front) := by
  have hexpression : Mirrors tail (Sees tail (setting.behindStars front.chain.stars))
      (fun _ => Sees tail setting.behind)
      (do
        let operand ← expressionBehind lower setting front.chain
        pure operand.calls)
      (do
        let operand ← expressionBehind mirror setting front.chain
        pure operand.calls) :=
    (mirrors_expressionBehind h hplain front.chain).bind fun _ => mirrors_pure id
  have hbehind : MirrorsAmid tail setting.behind setting.behind (typeBehind lower setting front)
      (typeBehind mirror setting front) := by
    apply mirrors_onNext hplain.behind.flattens
    intro lexeme
    split
    · rename_i hopen
      simp only [Bool.and_eq_true, decide_eq_true_eq] at hopen
      exact .take (hopen.1 ▸ trivial) ((mirrors_typeArguments h).given Sees.precedes)
        Sees.precedes
    · split
      · exact .stay (mirrors_pure id)
      · exact .leave hexpression fun _ hsees => sees_behind_of_stars hplain hsees
  refine ⟨fun {cursor calls stop} hrun hafter => ?_, hbehind.mirrors⟩
  have hzero (hstars : front.chain.stars = 0) :
      cursor.Sees tail (setting.behindStars front.chain.stars) := by
    rw [hstars]
    exact hbehind.asks hrun hafter
  rcases run_onNext_cases hrun with ⟨next, hturn, hnext⟩ | ⟨next, hturn, hnext⟩
  · split at hturn
    · rename_i hopen
      simp only [Bool.and_eq_true, decide_eq_true_eq] at hopen
      exact hzero (stars_chain_of_eq_zero hopen.2)
    · split at hturn <;> cases hturn
  · split at hturn
    · cases hturn
    · split at hturn
      · rename_i hstarred
        exact hzero (stars_chain_of_isStarredName (Bool.and_eq_true_iff.1 hstarred).2)
      · cases hturn
        exact hexpression.asks hnext hafter

theorem mirrors_namedType (hplain : setting.IsPlain) :
    MirrorsAmid tail setting.opening setting.behind (namedType lower setting)
      (namedType mirror setting) :=
  (mirrors_front h hplain.flattens).bind fun front => mirrors_typeBehind h hplain front

theorem mirrors_doubleStarredExpression (hplain : setting.IsPlain) :
    MirrorsAmid tail { quote := true } setting.behind (doubleStarredExpression lower setting)
      (doubleStarredExpression mirror setting) := by
  refine (mirrors_consumed (mirrors_starredAtom h hplain.flattens 2)).bind fun read => ?_
  refine ((mirrors_expressionBehind h hplain _).asking fun hsees => ?_).bind
    fun _ => mirrors_pure id
  rwa [stars_chain] at hsees

theorem mirrors_doubleStarred (hplain : setting.IsPlain) :
    MirrorsAmid tail { quote := true } setting.behind (doubleStarred lower setting)
      (doubleStarred mirror setting) := by
  have hexpression := mirrors_doubleStarredExpression h hplain
  apply mirrors_onNext hplain.later.opening.flattens
  intro lexeme
  split
  · split
    · exact .take trivial (mirrors_pure Sees.precedes) id
    · exact .stay hexpression
  · exact .stay hexpression

theorem mirrors_simpleType (hplain : setting.IsPlain) :
    MirrorsAmid tail setting.opening setting.behind (simpleType lower setting)
      (simpleType mirror setting) := by
  apply mirrors_onNext hplain.opening.flattens
  intro lexeme
  split
  · exact .stay (mirrors_namedType h hplain)
  · exact .take trivial (mirrors_doubleStarred h hplain) Sees.precedes
  · split
    · exact .stay (mirrors_namedType h hplain)
    · exact .stay (h.callsIn hplain)
  · exact .stay (h.callsIn hplain)

theorem mirrors_annotationRest (constrained : Bool) (hplain : setting.IsPlain) :
    MirrorsAmid tail setting.opening setting.behind (annotationRest lower constrained setting)
      (annotationRest mirror constrained setting) := by
  refine (mirrors_simpleType h hplain).bind fun first => ?_
  refine mirrors_loop (fun _ => Sees tail setting.behind) fun calls => ?_
  apply mirrors_onNext hplain.behind.flattens
  intro lexeme
  split
  · exact .take trivial ((mirrors_simpleType h hplain.later).bind fun _ => mirrors_pure id)
      Sees.precedes
  · exact .take trivial ((mirrors_name Setting.isPlain_inside.behind).bind
      fun _ => mirrors_pure Sees.precedes) Sees.precedes
  · split
    · exact .take trivial ((mirrors_simpleType h hplain.later).bind fun _ => mirrors_pure id)
        Sees.precedes
    · exact .stay (mirrors_pure id)
  · exact .stay (mirrors_pure id)

/-! ## Depths -/

theorem IsMirrored.above : (above lower).IsMirrored tail (above mirror) where
  expression := mirrors_expressionAt h _ _
  target := mirrors_targetOperand h
  replacement := mirrors_replacementRest h
  annotation := mirrors_annotationRest h _

end Operators

theorem isMirrored_ofDepth {depth deeper : Nat} (hle : depth ≤ deeper) :
    (ofDepth depth).IsMirrored tail (ofDepth deeper) := by
  induction depth generalizing deeper with
  | zero =>
      exact ⟨fun _ => mirrors_fail, fun _ => mirrors_fail, mirrors_fail, fun _ => mirrors_fail⟩
  | succ depth ih =>
      obtain ⟨deeper, rfl⟩ := Nat.exists_eq_add_of_le' (Nat.le_trans (Nat.le_add_left 1 _) hle)
      exact @IsMirrored.above tail ⟨fun _ => ofDepth depth⟩ ⟨fun _ => ofDepth deeper⟩
        (ih (Nat.le_of_succ_le_succ hle))

end Level

end CodeAtlas.Syntax
