import CodeAtlas.Proofs.Syntax.ReadCalls
import CodeAtlas.Syntax.CasePattern

/-!
# All calls are read from their texts

A call is made in one place only, where arguments are read behind an operand, and there it is read
from its text. Every other parser hands on the calls of those it is made of. So by induction on the
depth all calls of an expression, a type or a pattern are read from their texts.
-/

namespace CodeAtlas.Syntax

namespace Level

open Syntax.Parser

variable {source : List Char} {lower : Thunk Level} {setting : Setting}

section Parts

variable (h : lower.get.ReadsCalls source)

include h

/-! ## Operands -/

omit h in
theorem gives_sequence (closer : String) {elements : List Element}
    (hread : ∀ element ∈ elements, element.operand.IsRead source) :
    (sequence closer elements).Gives source (Operand.IsRead source) :=
  gives_behind _ fun _ => gives_pure (areRead_callsOf hread)

theorem gives_collection (closer : String) :
    (collection lower closer).Gives source (Operand.IsRead source) := by
  apply gives_onNext
  intro lexeme
  split
  · exact gives_pure areRead_nil
  · refine (gives_element h).bind fun first hfirst => ?_
    apply gives_onNext
    intro lexeme
    split
    · exact (gives_comprehension h).bind fun clauses hclauses => gives_behind _ fun _ =>
        gives_pure (areRead_append.2 ⟨hfirst, hclauses⟩)
    · exact (gives_moreElements fun _ => gives_element h).bind fun rest hrest =>
        gives_sequence closer (List.forall_mem_cons.2 ⟨hfirst, hrest⟩)

theorem gives_moreEntries : (moreEntries lower).Gives source (AreRead source) := by
  refine gives_loop (AreRead source) areRead_nil fun calls hcalls => ?_
  apply gives_onNext
  intro lexeme
  split
  · apply gives_onNext
    intro lexeme
    split
    · exact h.callsIn.bind fun more hmore => gives_pure (areRead_append.2 ⟨hcalls, hmore⟩)
    · split
      · exact h.callsIn.bind fun key hkey => gives_behind _ fun _ => h.callsIn.bind
          fun value hvalue => gives_pure (by simp [hcalls, hkey, hvalue])
      · exact gives_pure hcalls
  · exact gives_pure hcalls

theorem gives_braces : (braces lower).Gives source (Operand.IsRead source) := by
  have hentries {first : List Call} (hfirst : AreRead source first) :
      (do let rest ← moreEntries lower
          symbol "\x7d" Setting.bracketed.behind
          pure (.ofCalls (first ++ rest)) : Parser Operand).Gives source (Operand.IsRead source) :=
    (gives_moreEntries h).bind fun rest hrest => gives_behind _ fun _ =>
      gives_pure (areRead_append.2 ⟨hfirst, hrest⟩)
  have hclauses {first : List Call} (hfirst : AreRead source first) :
      (do let rest ← comprehension lower
          symbol "\x7d" Setting.bracketed.behind
          pure (.ofCalls (first ++ rest)) : Parser Operand).Gives source (Operand.IsRead source) :=
    (gives_comprehension h).bind fun rest hrest => gives_behind _ fun _ =>
      gives_pure (areRead_append.2 ⟨hfirst, hrest⟩)
  unfold braces
  apply gives_onNext
  intro lexeme
  split
  · exact gives_pure areRead_nil
  · exact gives_behind _ fun _ => gives_pure areRead_nil
  · exact h.callsIn.bind fun _ hcalls => hentries hcalls
  · refine (gives_element h).bind fun first hfirst => ?_
    apply gives_onNext
    intro lexeme
    split
    · refine h.callsIn.bind fun value hvalue => ?_
      have hpair := areRead_append.2 ⟨hfirst, hvalue⟩
      apply gives_onNext
      intro lexeme
      split
      · exact hclauses hpair
      · exact hentries hpair
    · split
      · exact hclauses hfirst
      · exact (gives_moreElements fun _ => gives_element h).bind fun rest hrest =>
          gives_behind _ fun _ =>
            gives_pure (areRead_callsOf (List.forall_mem_cons.2 ⟨hfirst, hrest⟩))

theorem gives_atom (stars : Nat) :
    (atom lower setting stars).Gives source (Operand.IsRead source) := by
  apply gives_onNext
  intro lexeme
  unfold atomTurn
  split
  · exact gives_pure areRead_nil
  · exact gives_pure areRead_nil
  · exact (gives_strings h _ _).bind fun _ hcalls => gives_pure hcalls
  · exact gives_collection h ")"
  · exact gives_collection h "]"
  · exact gives_braces h
  · apply gives_onNext
    intro lexeme
    split
    · exact gives_fail
    · exact gives_pure (Operand.isRead_ofName _)
  · split
    · exact gives_pure (Operand.isRead_ofName _)
    · split
      · exact gives_pure areRead_nil
      · exact gives_fail
  · exact gives_fail

theorem gives_starredAtom (count : Nat) :
    (starredAtom lower setting count).Gives source fun read => read.1.IsRead source :=
  gives_behind _ fun _ => (gives_atom h _).bind fun _ hbase => gives_pure hbase

theorem gives_front : (front lower setting).Gives source fun front => front.base.IsRead source := by
  intro cursor front stop hsource hrun
  have hparts : (frontParts lower setting).Gives source fun read => read.1.IsRead source := by
    apply gives_onNext
    intro lexeme
    split
    · exact gives_starredAtom h 1
    · exact gives_starredAtom h 2
    · exact (gives_atom h 0).bind fun _ hbase => gives_pure hbase
  exact hparts hsource (run_front_eq_some.1 hrun).1

end Parts

/-! ## Chains -/

theorem isRead_chain {front : Front} (h : front.base.IsRead source) :
    front.chain.operand.IsRead source := by
  obtain ⟨base, stars, text⟩ := front
  unfold Front.chain
  dsimp only
  split
  · exact h
  · split
    · exact areRead_nil
    · exact h
  · exact h

theorem text_chain (front : Front) : front.chain.text = front.text := by
  obtain ⟨base, stars, text⟩ := front
  unfold Front.chain
  dsimp only
  split
  · rfl
  · split <;> rfl
  · rfl

theorem text_extend (chain : Chain) (trailer : Trailer) (text : String) :
    (chain.extend trailer text).text = chain.text ++ text := by
  have hplace (referent : Referent) (calls : List Call) (text : String) :
      (chain.place referent calls text).text = text := by
    unfold Chain.place
    split <;> rfl
  match trailer with
  | .arguments _ => rfl
  | .attribute _ | .subscripts _ => exact hplace _ _ _

theorem isRead_place {chain : Chain} (h : chain.operand.IsRead source) {calls : List Call}
    (hcalls : AreRead source calls) (referent : Referent) (text : String) :
    (chain.place referent calls text).operand.IsRead source := by
  unfold Chain.place
  split <;> exact areRead_append.2 ⟨h, hcalls⟩

theorem isRead_call {chain : Chain} (h : chain.operand.IsRead source) {calls : List Call}
    (hcalls : AreRead source calls) {text : String} (htext : text.toList <:+: source)
    (hread : (chain.call calls text).IsReadFrom text) :
    (chain.call calls text).operand.IsRead source := by
  show AreRead source [.of text chain.operand.referent (chain.operand.calls ++ calls)]
  unfold AreRead
  rw [callsPreorder, callsPreorder, List.append_nil, Call.preorder]
  exact List.forall_mem_cons.2 ⟨⟨htext, _, _, hread, rfl⟩, areRead_append.2 ⟨h, hcalls⟩⟩

theorem isRead_extend {chain : Chain} (h : chain.operand.IsRead source) {trailer : Trailer}
    (htrailer : AreRead source trailer.calls) {text : String}
    (htext : (chain.text ++ text).toList <:+: source)
    (hread : (chain.extend trailer text).IsReadFrom (chain.text ++ text)) :
    (chain.extend trailer text).operand.IsRead source := by
  match trailer with
  | .attribute _ => exact isRead_place h areRead_nil _ _
  | .subscripts _ => exact isRead_place h htrailer _ _
  | .arguments _ => exact isRead_call h htrailer htext hread

/-- The front that was read in the source ends at the cursor. -/
structure EndsFront (source : List Char) (depth : Nat) (setting : Setting) (front : Front)
    (cursor : Cursor) : Prop where
  run : ∃ opening first, first.rest <:+ source ∧
    (Level.front (below depth) (setting.openedBy opening)).run first = some (front, cursor)
  base : front.base.IsRead source

theorem EndsFront.suffix {depth : Nat} {front : Front} {cursor : Cursor}
    (h : EndsFront source depth setting front cursor) : cursor.rest <:+ source := by
  obtain ⟨_, _, hsource, hrun⟩ := h.run
  exact suffix_of_run hsource hrun

section Depth

variable {depth : Nat} (h : (below depth).get.ReadsCalls source)

include h

/-- The chain is read behind the front, and its text from the start of that on. -/
structure IsTrail (source : List Char) (depth : Nat) (setting : Setting) (front : Front)
    (start cursor : Cursor) (chain : Chain) (middle : Cursor) : Prop where
  isRead : chain.operand.IsRead source
  text : chain.text = start.textTo middle.offset
  run : ∃ rounds, (extended (below depth) setting.behindStars rounds front.chain).run cursor =
    some (chain, middle)

/-- One trailer more: a call is made of the text from where the front starts. -/
theorem IsTrail.extend {front : Front} {chain : Chain} {first cursor middle point : Cursor}
    {opening : Expectation} {trailer : Trailer} (hsource : first.rest <:+ source)
    (hfront : (Level.front (below depth) (setting.openedBy opening)).run first =
      some (front, cursor))
    (htrail : IsTrail source depth setting front (first.ahead opening).start cursor chain middle)
    (htrailer : (trailer? (below depth) (setting.behindStars chain.stars)).run middle =
      some (some trailer, point)) :
    IsTrail source depth setting front (first.ahead opening).start cursor
      (chain.extend trailer (middle.textTo point.offset)) point := by
  obtain ⟨hchain, htext, rounds, hextended⟩ := htrail
  have hparts := (run_front_eq_some.1 hfront).1
  have hreaches : (first.ahead opening).start.Reaches middle :=
    (start_reaches_of_frontParts hparts).trans (Parser.advances _ hextended)
  have hmore := run_extended_append hextended htrailer
  have hwhole : (chain.extend trailer (middle.textTo point.offset)).text =
      (first.ahead opening).start.textTo point.offset := by
    rw [text_extend, htext]
    exact hreaches.textTo_append (Parser.advances _ htrailer)
  have hbehind : setting.behindStars = (setting.openedBy opening).behindStars := rfl
  have hopening : (setting.openedBy opening).opening = opening := rfl
  have hread := isReadFrom_of_run hfront (hbehind ▸ hmore)
  have hinfix : ((first.ahead opening).start.textTo point.offset).toList <:+: source :=
    (Cursor.textTo_infix _ _).trans
      ((Cursor.suffix_of_reaches (first.reaches_start opening)).trans hsource).isInfix
  rw [← hwhole, text_extend] at hinfix
  rw [hopening, ← hwhole, text_extend] at hread
  have hmiddle : middle.rest <:+ source :=
    suffix_of_run (suffix_of_run hsource hfront) hextended
  have hcalls := gives_trailer? h _ hmiddle htrailer trailer rfl
  exact ⟨isRead_extend hchain hcalls hinfix hread, hwhole, rounds + 1, hmore⟩

theorem isRead_trailers {front : Front} {chain : Chain} {cursor stop : Cursor}
    (hfront : EndsFront source depth setting front cursor)
    (hrun : (trailers (below depth) setting front.chain).run cursor = some (chain, stop)) :
    chain.operand.IsRead source := by
  obtain ⟨⟨opening, first, hsource, hfront⟩, hbase⟩ := hfront
  rw [trailers, run_loop] at hrun
  have hstart : IsTrail source depth setting front (first.ahead opening).start cursor
      front.chain cursor :=
    ⟨isRead_chain hbase, (text_chain front).trans (run_front_eq_some.1 hfront).2, 0, rfl⟩
  refine loopRun_induct
    (IsTrail source depth setting front (first.ahead opening).start cursor)
    (fun (chain : Chain) _ => chain.operand.IsRead source) ?_ ?_ cursor.fuel hstart hrun
  · intro chain middle next stop htrail hstep
    obtain ⟨⟨trailer?, text⟩, point, hread, hstep⟩ := run_bind_eq_some.1 hstep
    obtain ⟨htrailer, rfl⟩ := run_consumed_eq_some.1 hread
    cases trailer? with
    | none => cases (run_pure_eq_some.1 hstep).1
    | some trailer =>
        obtain ⟨he, rfl⟩ := run_pure_eq_some.1 hstep
        cases he
        exact htrail.extend h hsource hfront htrailer
  · intro chain middle value stop htrail hstep
    obtain ⟨⟨trailer?, text⟩, point, hread, hstep⟩ := run_bind_eq_some.1 hstep
    cases trailer? with
    | none =>
        cases (run_pure_eq_some.1 hstep).1
        exact htrail.isRead
    | some trailer => cases (run_pure_eq_some.1 hstep).1

theorem isRead_operandBehind {front : Front} {operand : Operand} {cursor stop : Cursor}
    (hfront : EndsFront source depth setting front cursor)
    (hrun : (operandBehind (below depth) setting front.chain).run cursor = some (operand, stop)) :
    operand.IsRead source := by
  obtain ⟨chain, middle, hchain, hrun⟩ := run_bind_eq_some.1 hrun
  obtain ⟨_, _, -, hrun⟩ := run_bind_eq_some.1 hrun
  obtain ⟨rfl, -⟩ := run_pure_eq_some.1 hrun
  exact isRead_trailers h hfront hchain

theorem gives_operand : (operand (below depth) setting).Gives source (Operand.IsRead source) := by
  intro cursor operand stop hsource hrun
  obtain ⟨front, middle, hfront, hrun⟩ := run_bind_eq_some.1 hrun
  exact isRead_operandBehind h
    ⟨⟨setting.opening, cursor, hsource, hfront⟩, gives_front h hsource hfront⟩ hrun

theorem gives_targetOperand :
    (targetOperand (below depth) setting).Gives source (Operand.IsRead source) :=
  (gives_operand h).bind fun _ hoperand => gives_behind _ fun _ => gives_pure hoperand

/-! ## Operators -/

omit h in
theorem run_frontParts_await {cursor : Cursor}
    (hlexeme : (cursor.ahead setting.opening).lexeme = .word "await")
    (hawaited : ¬ startsAwaited
      ((cursor.ahead setting.opening).stop.ahead setting.orEnd).lexeme = true) :
    (frontParts lower setting).run cursor =
      some ((.ofName "await", 0), (cursor.ahead setting.opening).stop) := by
  have hparts : (frontParts lower setting).run cursor =
      (do pure (← atom lower setting 0, 0) : Parser (Operand × Nat)).run cursor :=
    run_onNext_leave (by rw [hlexeme])
  have hatom : (atom lower setting 0).run cursor =
      (onNext setting.orEnd fun lexeme =>
        if startsAwaited lexeme then .leave fail
        else .leave (pure (.ofName "await"))).run (cursor.ahead setting.opening).stop :=
    run_onNext_take rfl (by rw [hlexeme]; rfl)
  rw [run_onNext_leave (if_neg hawaited)] at hatom
  rw [hparts]
  exact run_bind_eq_some.2 ⟨_, _, hatom, rfl⟩

omit h in
/-- The word `await` that begins no operator is read as a front, too. -/
theorem endsFront_await {cursor stop : Cursor} {sign : Sign} (hsource : cursor.rest <:+ source)
    (hrun : (signs setting).run cursor = some ((sign, true), stop)) :
    EndsFront source depth setting (Front.ofName "await") stop := by
  rw [signs, run_loop] at hrun
  refine loopRun_induct (fun _ cursor => cursor.rest <:+ source) (fun (read : Sign × Bool) stop =>
    read.2 = true → EndsFront source depth setting (Front.ofName "await") stop) ?_ ?_ cursor.fuel
    hsource hrun rfl
  · intro sign cursor next stop hsource hstep
    exact suffix_of_run hsource hstep
  · intro sign cursor read stop hsource hstep hawait
    rcases run_onNext_cases hstep with ⟨next, hturn, hnext⟩ | ⟨next, hturn, hnext⟩
    · split at hturn
      · split at hturn <;> cases hturn
        cases (run_pure_eq_some.1 hnext).1
      · rename_i hlexeme
        cases hturn
        rcases run_onNext_cases hnext with ⟨next, hturn, hnext⟩ | ⟨next, hturn, hnext⟩
        · split at hturn <;> cases hturn
        · split at hturn <;> cases hturn
          · cases (run_pure_eq_some.1 hnext).1
          · rename_i hawaited
            obtain ⟨-, rfl⟩ := run_pure_eq_some.1 hnext
            exact ⟨⟨sign.opening setting, cursor, hsource, run_front_eq_some.2
              ⟨run_frontParts_await hlexeme hawaited, (Cursor.textTo_ahead (.inl hlexeme)).symm⟩⟩,
              Operand.isRead_ofName _⟩
      · cases hturn
    · split at hturn
      · split at hturn <;> cases hturn
        cases (run_pure_eq_some.1 hnext).1
        cases hawait
      · cases hturn
      · cases hturn
        cases (run_pure_eq_some.1 hnext).1
        cases hawait

theorem gives_signed : (signed (below depth) setting).Gives source (Operand.IsRead source) := by
  intro cursor operand stop hsource hrun
  obtain ⟨⟨sign, isAwait⟩, middle, hsigns, hrun⟩ := run_bind_eq_some.1 hrun
  have hpure {read : Parser Operand} (hread : ∀ {operand stop},
        read.run middle = some (operand, stop) → operand.IsRead source)
      (hrun : (do let operand ← read
                  pure (if sign = Sign.none then operand else operand.inner)).run middle =
        some (operand, stop)) : operand.IsRead source := by
    obtain ⟨value, last, hvalue, hrun⟩ := run_bind_eq_some.1 hrun
    obtain ⟨rfl, -⟩ := run_pure_eq_some.1 hrun
    split
    · exact hread hvalue
    · exact Operand.isRead_inner.2 (hread hvalue)
  cases isAwait with
  | true => exact hpure (isRead_operandBehind h (endsFront_await hsource hsigns)) hrun
  | false => exact hpure (fun hread => gives_operand h (suffix_of_run hsource hsigns) hread) hrun

theorem gives_arithmeticBehind {first : Operand} (hfirst : first.IsRead source) :
    (arithmeticBehind (below depth) setting first).Gives source (Operand.IsRead source) := by
  refine gives_loop (Operand.IsRead source) hfirst fun left hleft => ?_
  apply gives_onNext
  intro lexeme
  split
  · split
    · exact (gives_signed h).bind fun right hright =>
        gives_pure (Operand.isRead_combine hleft hright)
    · exact gives_pure hleft
  · exact gives_pure hleft

theorem gives_arithmetic :
    (arithmetic (below depth) setting).Gives source (Operand.IsRead source) :=
  (gives_signed h).bind fun _ hfirst => gives_arithmeticBehind h hfirst

theorem gives_comparisonBehind {first : Operand} (hfirst : first.IsRead source) :
    (comparisonBehind (below depth) setting first).Gives source (Operand.IsRead source) := by
  refine gives_loop (Operand.IsRead source) hfirst fun left hleft => ?_
  have hnext : (do again (.combine [left, ← arithmetic (below depth) setting.later]) :
      Parser (Operand ⊕ Operand)).Gives source
        (Sum.elim (Operand.IsRead source) (Operand.IsRead source)) :=
    (gives_arithmetic h).bind fun right hright => gives_pure (Operand.isRead_combine hleft hright)
  apply gives_onNext
  intro lexeme
  split
  · split
    · exact hnext
    · exact gives_pure hleft
  · exact hnext
  · exact gives_behind _ fun _ => hnext
  · exact gives_behind _ fun _ => hnext
  · exact gives_pure hleft

theorem gives_leadingBehind {first : Operand} (hfirst : first.IsRead source) :
    (leadingBehind (below depth) setting first).Gives source (Operand.IsRead source) := by
  refine (gives_arithmeticBehind h hfirst).bind fun left hleft => ?_
  refine (gives_comparisonBehind h hleft).bind fun left hleft => ?_
  apply gives_onNext
  intro lexeme
  split
  · exact h.expression.bind fun _ hvalue => gives_pure hvalue
  · exact gives_pure hleft

theorem gives_leading (inHead : Bool) :
    (leading (below depth) inHead setting).Gives source (Operand.IsRead source) := by
  apply gives_onNext
  intro lexeme
  split
  · exact h.expression.bind fun _ hoperand => gives_pure hoperand
  · exact (gives_parameters h false).bind fun _ hdefaults => gives_behind _ fun _ =>
      h.expression.bind fun _ hbody => gives_pure (areRead_append.2 ⟨hdefaults, hbody⟩)
  · exact (gives_signed h).bind fun _ hfirst => gives_leadingBehind h hfirst

theorem gives_joinedBehind (strength : Strength) {first : Operand} (hfirst : first.IsRead source) :
    (joinedBehind (below depth) strength setting first).Gives source (Operand.IsRead source) := by
  refine gives_loop (Operand.IsRead source) hfirst fun left hleft => ?_
  have hjoin {left : Operand} (hleft : left.IsRead source) (strength : Strength) :
      (do again (.combine [left,
            ← (below depth).get.expression strength false setting.later]) :
        Parser (Operand ⊕ Operand)).Gives source
          (Sum.elim (Operand.IsRead source) (Operand.IsRead source)) :=
    h.expression.bind fun right hright => gives_pure (Operand.isRead_combine hleft hright)
  apply gives_onNext
  intro lexeme
  split
  · split
    · exact hjoin hleft _
    · exact gives_pure hleft
  · split
    · exact hjoin hleft _
    · exact gives_pure hleft
  · split
    · exact hjoin hleft _
    · exact gives_pure hleft
  · split
    · exact h.expression.bind fun condition hcondition => gives_behind _ fun _ =>
        hjoin (Operand.isRead_combine hleft hcondition) _
    · exact gives_pure hleft
  · exact gives_pure hleft

theorem gives_expressionAt (strength : Strength) (inHead : Bool) :
    (expressionAt (below depth) strength inHead setting).Gives source (Operand.IsRead source) :=
  (gives_leading h inHead).bind fun _ hfirst => gives_joinedBehind h strength hfirst

theorem isRead_expressionBehind {front : Front} {operand : Operand} {cursor stop : Cursor}
    (hfront : EndsFront source depth setting front cursor)
    (hrun : (expressionBehind (below depth) setting front.chain).run cursor =
      some (operand, stop)) : operand.IsRead source := by
  obtain ⟨first, middle, hfirst, hrun⟩ := run_bind_eq_some.1 hrun
  have hread := isRead_operandBehind h hfront hfirst
  exact ((gives_leadingBehind h hread).bind fun _ hleft =>
    gives_joinedBehind h .weakest hleft) (suffix_of_run hfront.suffix hfirst) hrun

/-! ## Types -/

theorem gives_typeArguments : (typeArguments (below depth)).Gives source (AreRead source) :=
  (gives_separated fun _ => h.annotation).bind fun _ hcalls =>
    gives_behind _ fun _ => gives_pure (areRead_flatten hcalls)

theorem gives_typeParameters : (typeParameters (below depth)).Gives source (AreRead source) :=
  gives_behindOpening (gives_typeArguments h) areRead_nil

theorem gives_namedType : (namedType (below depth) setting).Gives source (AreRead source) := by
  intro cursor calls stop hsource hrun
  obtain ⟨front, middle, hfront, hrun⟩ := run_bind_eq_some.1 hrun
  rcases run_onNext_cases hrun with ⟨next, hturn, hrun⟩ | ⟨next, hturn, hrun⟩
  · split at hturn
    · cases hturn
      exact gives_typeArguments h (suffix_of_ahead (suffix_of_run hsource hfront) _) hrun
    · split at hturn <;> cases hturn
  · split at hturn
    · cases hturn
    · split at hturn <;> cases hturn
      · obtain ⟨rfl, -⟩ := run_pure_eq_some.1 hrun
        exact areRead_nil
      · obtain ⟨operand, last, hoperand, hrun⟩ := run_bind_eq_some.1 hrun
        obtain ⟨rfl, -⟩ := run_pure_eq_some.1 hrun
        exact isRead_expressionBehind h
          ⟨⟨setting.opening, cursor, hsource, hfront⟩, gives_front h hsource hfront⟩ hoperand

/-- Behind a double star, an expression goes on from the front that the star begins. -/
theorem areRead_doubleStarredExpression {calls : List Call} {cursor stop : Cursor}
    (hsource : cursor.rest <:+ source)
    (hstars : (cursor.ahead setting.opening).lexeme = .symbol "**")
    (hrun : (doubleStarredExpression (below depth) setting).run
      (cursor.ahead setting.opening).stop = some (calls, stop)) : AreRead source calls := by
  obtain ⟨⟨⟨base, stars⟩, text⟩, middle, hread, hrun⟩ := run_bind_eq_some.1 hrun
  obtain ⟨hatom, rfl⟩ := run_consumed_eq_some.1 hread
  obtain ⟨operand, last, hoperand, hrun⟩ := run_bind_eq_some.1 hrun
  obtain ⟨rfl, -⟩ := run_pure_eq_some.1 hrun
  refine isRead_expressionBehind h ⟨⟨setting.opening, cursor, hsource,
    run_front_eq_some.2 ⟨?_, ?_⟩⟩, gives_starredAtom h 2 (suffix_of_ahead hsource _) hatom⟩ hoperand
  · have hparts : (frontParts (below depth) setting).run cursor =
        (starredAtom (below depth) setting 2).run (cursor.ahead setting.opening).stop :=
      run_onNext_take rfl (by rw [hstars]; rfl)
    exact hparts.trans hatom
  · show "**" ++ _ = (cursor.ahead setting.opening).start.textTo middle.offset
    rw [← (cursor.start_reaches_stop setting.opening).textTo_append (Parser.advances _ hatom),
      Cursor.textTo_ahead (.inr hstars)]

theorem gives_simpleType : (simpleType (below depth) setting).Gives source (AreRead source) := by
  intro cursor calls stop hsource hrun
  rcases run_onNext_cases hrun with ⟨next, hturn, hrun⟩ | ⟨next, hturn, hrun⟩
  · split at hturn
    · cases hturn
    · rename_i hstars
      cases hturn
      have hexpression (hrun : (doubleStarredExpression (below depth) setting).run
          (cursor.ahead setting.opening).stop = some (calls, stop)) : AreRead source calls :=
        areRead_doubleStarredExpression h hsource hstars hrun
      rcases run_onNext_cases hrun with ⟨next, hturn, hrun⟩ | ⟨next, hturn, hrun⟩
      · split at hturn
        · split at hturn <;> cases hturn
          obtain ⟨rfl, -⟩ := run_pure_eq_some.1 hrun
          exact areRead_nil
        · cases hturn
      · split at hturn
        · split at hturn <;> cases hturn
          exact hexpression hrun
        · cases hturn
          exact hexpression hrun
    · split at hturn <;> cases hturn
    · cases hturn
  · split at hturn
    · cases hturn
      exact gives_namedType h hsource hrun
    · cases hturn
    · split at hturn <;> cases hturn
      · exact gives_namedType h hsource hrun
      · exact h.callsIn hsource hrun
    · cases hturn
      exact h.callsIn hsource hrun

theorem gives_annotationRest (constrained : Bool) :
    (annotationRest (below depth) constrained setting).Gives source (AreRead source) := by
  refine (gives_simpleType h).bind fun first hfirst => ?_
  refine gives_loop (AreRead source) hfirst fun calls hcalls => ?_
  have hmore : (do again (calls ++ (← simpleType (below depth) setting.later)) :
      Parser (List Call ⊕ List Call)).Gives source (Sum.elim (AreRead source) (AreRead source)) :=
    (gives_simpleType h).bind fun more hmore => gives_pure (areRead_append.2 ⟨hcalls, hmore⟩)
  apply gives_onNext
  intro lexeme
  split
  · exact hmore
  · exact gives_behind _ fun _ => gives_pure hcalls
  · split
    · exact hmore
    · exact gives_pure hcalls
  · exact gives_pure hcalls

end Depth

/-! ## Patterns -/

section Patterns

variable (h : lower.get.ReadsCalls source)

include h

theorem gives_patternSequence (closer : String) :
    (patternSequence lower closer).Gives source (AreRead source) := by
  unfold patternSequence
  apply gives_onNext
  intro lexeme
  split
  · exact gives_pure areRead_nil
  · exact (gives_separated fun _ => h.casePattern).bind fun _ hcalls => gives_behind _ fun _ =>
      gives_pure (areRead_flatten hcalls)

omit h in
theorem gives_numberPattern : (numberPattern setting).Gives source (AreRead source) := by
  refine gives_behind _ fun _ => ?_
  apply gives_onNext
  intro lexeme
  split
  · split
    · exact gives_behind _ fun _ => gives_pure areRead_nil
    · exact gives_pure areRead_nil
  · exact gives_pure areRead_nil

theorem gives_namePattern : (namePattern lower setting).Gives source (AreRead source) := by
  refine gives_behind _ fun _ => gives_loop (fun _ => True) trivial fun _ _ => ?_
  apply gives_onNext
  intro lexeme
  split
  · exact gives_behind _ fun _ => gives_pure trivial
  · exact (gives_patternSequence h _).bind fun _ hcalls => gives_pure hcalls
  · exact gives_pure areRead_nil

theorem gives_singlePattern {mapping : Parser (List Call)}
    (hmapping : mapping.Gives source (AreRead source)) :
    (singlePattern lower mapping setting).Gives source (AreRead source) := by
  have hsplat : (do let _ ← name; pure [] : Parser (List Call)).Gives source (AreRead source) :=
    gives_behind _ fun _ => gives_pure areRead_nil
  unfold singlePattern
  apply gives_onNext
  intro lexeme
  split
  · exact hsplat
  · exact hsplat
  · exact gives_patternSequence h _
  · exact gives_patternSequence h _
  · exact hmapping
  · exact gives_numberPattern
  · exact gives_numberPattern
  · exact gives_strings h _ _
  · exact gives_pure areRead_nil
  · split
    · exact gives_namePattern h
    · split
      · exact gives_pure areRead_nil
      · exact gives_fail
  · exact gives_fail

omit h in
theorem gives_alternatives {single : Setting → Parser (List Call)}
    (hsingle : ∀ setting, (single setting).Gives source (AreRead source)) :
    (alternatives single setting).Gives source (AreRead source) := by
  refine (hsingle setting).bind fun first hfirst => ?_
  refine gives_loop (AreRead source) hfirst fun calls hcalls => ?_
  apply gives_onNext
  intro lexeme
  split
  · exact (hsingle _).bind fun more hmore => gives_pure (areRead_append.2 ⟨hcalls, hmore⟩)
  · exact gives_pure hcalls

theorem gives_mappingPattern : (mappingPattern lower).Gives source (AreRead source) := by
  unfold mappingPattern
  apply gives_onNext
  intro lexeme
  split
  · exact gives_pure areRead_nil
  · refine (gives_separated fun inner => ?_).bind fun _ hcalls => gives_behind _ fun _ =>
      gives_pure (areRead_flatten hcalls)
    apply gives_onNext
    intro lexeme
    split
    · exact gives_behind _ fun _ => gives_pure areRead_nil
    · exact h.casePattern.bind fun key hkey => gives_behind _ fun _ => h.casePattern.bind
        fun value hvalue => gives_pure (areRead_append.2 ⟨hkey, hvalue⟩)

omit h in
theorem gives_boundNames {calls : List Call} (hcalls : AreRead source calls) :
    (boundNames setting calls).Gives source (AreRead source) := by
  refine gives_loop (fun _ => True) trivial fun _ _ => ?_
  apply gives_onNext
  intro lexeme
  split
  · exact gives_behind _ fun _ => gives_pure trivial
  · exact gives_pure hcalls

theorem gives_casePatternRest (naming : Bool) :
    (casePatternRest lower naming setting).Gives source (AreRead source) := by
  have halternatives (setting : Setting) :
      (alternatives (singlePattern lower (mappingPattern lower)) setting).Gives source
        (AreRead source) :=
    gives_alternatives fun _ => gives_singlePattern h (gives_mappingPattern h)
  unfold casePatternRest
  dsimp only
  split
  · exact halternatives setting
  · refine gives_behind _ fun isKeyword => ?_
    cases isKeyword with
    | true =>
        exact gives_behind _ fun _ => (halternatives _).bind fun _ => gives_boundNames
    | false => exact (halternatives _).bind fun _ => gives_boundNames

end Patterns

/-! ## Depths -/

theorem readsCalls_ofDepth (depth : Nat) : (ofDepth depth).ReadsCalls source := by
  induction depth with
  | zero =>
      exact ⟨@fun _ _ _ => gives_fail, @fun _ => gives_fail, gives_fail, @fun _ _ => gives_fail,
        @fun _ _ => gives_fail⟩
  | succ depth ih =>
      have h : (below depth).get.ReadsCalls source := ih
      exact ⟨@fun _ _ _ => gives_expressionAt h _ _, @fun _ => gives_targetOperand h,
        gives_replacementRest h, @fun _ _ => gives_annotationRest h _,
        @fun _ _ => gives_casePatternRest h _⟩

end Level

end CodeAtlas.Syntax
