import CodeAtlas.Proofs.Syntax.Accounts

/-!
# Statements keep to an account

Every parser of statements keeps to an account where the block parser below it does, so by induction
on the depth of nesting they all do. What the account says is true of the outline of a whole source.
One account says that calls and headings of classes are read from their texts.
-/

namespace CodeAtlas.Syntax

open Syntax.Parser
open Outline (Account)

namespace Level

variable {account : Account} {source : List Char} {depth : Nat} {start : Cursor}

/-! ## Calls of statements -/

theorem readsCalls_below (depth : Nat) : (below depth).get.ReadsCalls source :=
  readsCalls_ofDepth depth

theorem gives_assignmentSide (opening : Expectation) :
    (assignmentSide (below depth) opening).Gives source fun side => AreRead source side.1 := by
  have h : (below depth).get.ReadsCalls source := readsCalls_below depth
  unfold assignmentSide
  apply gives_onNext
  intro lexeme
  split
  · exact h.yielded.bind fun _ hcalls => gives_pure hcalls
  · exact h.expressions.bind fun _ hoperands => gives_pure (Operand.areRead_flatMap hoperands)

theorem gives_targetList (opening : Expectation) :
    (targetList (below depth) opening).Gives source fun side => AreRead source side.1 := by
  have h : (below depth).get.ReadsCalls source := readsCalls_below depth
  refine h.target.bind fun first hfirst => gives_behind _ fun _ => ?_
  refine @Gives.bind _ _ _ _ (fun operands => ∀ operand ∈ operands, operand.IsRead source) _ _ ?_
    fun rest hrest => ?_
  · apply gives_onNext
    intro lexeme
    split
    · exact gives_separated fun _ => h.target
    · exact gives_pure (by simp)
  · exact gives_behind _ fun _ => gives_behind _ fun _ =>
      gives_pure (Operand.areRead_flatMap (List.forall_mem_cons.2 ⟨hfirst, hrest⟩))

theorem gives_expressionStatement (opening : Expectation) :
    (expressionStatement (below depth) opening).Gives source (AreRead source) := by
  have h : (below depth).get.ReadsCalls source := readsCalls_below depth
  refine ((gives_targetList opening).orElse (gives_assignmentSide opening)).bind
    fun first hfirst => ?_
  refine gives_loop (fun side : List Call × Bool => AreRead source side.1) hfirst
    fun side hcalls => ?_
  obtain ⟨calls, isTarget⟩ := side
  have hassigned {calls : List Call} (hcalls : AreRead source calls) :
      (do
        let side ← assignmentSide (below depth) { quote := true }
        again (calls ++ side.1, side.2) : Parser ((List Call × Bool) ⊕ List Call)).Gives source
          (Sum.elim (fun side => AreRead source side.1) (AreRead source)) :=
    (gives_assignmentSide _).bind fun _ hright => gives_pure (areRead_append.2 ⟨hcalls, hright⟩)
  apply gives_onNext
  intro lexeme
  split
  · split
    · exact gives_pure hcalls
    · split
      · exact hassigned hcalls
      · split
        · refine h.annotation.bind fun type htype => ?_
          have hboth := areRead_append.2 ⟨hcalls, htype⟩
          apply gives_onNext
          intro lexeme
          split
          · exact hassigned hboth
          · exact gives_pure hboth
        · exact gives_pure hcalls
  · exact gives_pure hcalls

theorem gives_all {parser : Parser (List Operand)}
    (h : parser.Gives source fun operands => ∀ operand ∈ operands, operand.IsRead source) :
    parser.Gives source fun operands => AreRead source (callsOfAll operands) := by
  intro cursor operands stop hsource hrun
  exact Operand.areRead_flatMap (h hsource hrun)

theorem gives_callsOfAll {parser : Parser (List Operand)}
    (h : parser.Gives source fun operands => ∀ operand ∈ operands, operand.IsRead source) :
    (do pure (callsOfAll (← parser)) : Parser (List Call)).Gives source (AreRead source) :=
  h.bind fun _ hoperands => gives_pure (Operand.areRead_flatMap hoperands)

theorem gives_expressions? : (expressions? (below depth)).Gives source (AreRead source) := by
  apply gives_onNext
  intro lexeme
  split
  · exact gives_callsOfAll (readsCalls_below depth).expressions
  · exact gives_pure areRead_nil

theorem gives_printed (setting : Setting) :
    (printed (below depth) setting).Gives source (AreRead source) :=
  gives_callsOfAll (gives_separated fun _ => (readsCalls_below depth).expression)

theorem gives_printStatement (opening : Expectation) :
    (printStatement (below depth) opening).Gives source (AreRead source) := by
  refine gives_behind _ fun hasArrow => ?_
  cases hasArrow with
  | true => exact gives_behind _ fun _ => gives_printed _
  | false =>
      refine Gives.orElse ?_ (gives_behind _ fun _ => gives_printed _)
      exact (gives_expressionStatement opening).bind fun _ hcalls =>
        gives_behind _ fun _ => gives_pure hcalls

theorem gives_executed : (executed (below depth)).Gives source (AreRead source) := by
  have h : (below depth).get.ReadsCalls source := readsCalls_below depth
  refine @Gives.bind _ _ _ _ (AreRead source) _ _ ?_ fun code hcode => ?_
  · apply gives_onNext
    intro lexeme
    split
    · exact gives_stringRest h _
    · split
      · exact gives_pure areRead_nil
      · exact gives_fail
    · exact gives_fail
  · apply gives_onNext
    intro lexeme
    split
    · exact (gives_separated fun _ => h.expression).bind fun _ hscopes =>
        gives_pure (areRead_append.2 ⟨hcode, Operand.areRead_flatMap hscopes⟩)
    · exact gives_pure hcode

theorem gives_execStatement (opening : Expectation) :
    (execStatement (below depth) opening).Gives source (AreRead source) := by
  refine gives_behind _ fun isStatement => ?_
  cases isStatement with
  | true => exact gives_behind _ fun _ => gives_executed
  | false => exact gives_expressionStatement opening

theorem gives_typeAlias (opening : Expectation) :
    (typeAlias (below depth) opening).Gives source (AreRead source) := by
  have h : (below depth).get.ReadsCalls source := readsCalls_below depth
  exact gives_behind _ fun _ => h.annotation.bind fun _ hdeclared => gives_behind _ fun _ =>
    h.annotation.bind fun _ hvalue => gives_pure (areRead_append.2 ⟨hdeclared, hvalue⟩)

theorem gives_raised : (raised (below depth)).Gives source (AreRead source) := by
  refine gives_expressions?.bind fun raised hraised => ?_
  apply gives_onNext
  intro lexeme
  split
  · exact (readsCalls_below depth).callsIn.bind fun _ hcause =>
      gives_pure (areRead_append.2 ⟨hraised, hcause⟩)
  · exact gives_pure hraised

theorem gives_headingRest : (headingRest (below depth)).Gives source fun read =>
    AreRead source (read.2.1 ++ callsOfAll read.2.2) := by
  have h : (below depth).get.ReadsCalls source := readsCalls_below depth
  refine gives_behind _ fun className => (gives_typeParameters h).bind fun types htypes => ?_
  exact (gives_behindOpening (gives_arguments h false) (by simp)).bind fun bases hbases =>
    gives_pure (areRead_append.2 ⟨htypes, Operand.areRead_flatMap hbases⟩)

/-! ## Simple statements -/

theorem keeps_simpleStatement (opening : Expectation) :
    Keeps account (simpleStatement (below depth) opening) := by
  have hcalls {parser : Parser (List Call)}
      (hparser : ∀ source, parser.Gives source (AreRead source)) :
      Keeps account (do pure (Forest.ofCalls (← parser)) : Parser Forest) :=
    Continues.keeps fun _ => (continues_calls hparser).bind fun _ => continues_pure rfl
  have hnone : Keeps account (pure [] : Parser Forest) :=
    Continues.keeps fun _ => continues_pure rfl
  have hnames {α : Type} (parser : Parser α) :
      Keeps account (do let _ ← parser; pure [] : Parser Forest) :=
    Continues.keeps fun _ => continues_behind _ fun _ => continues_pure rfl
  intro cursor forest stop hrun
  unfold simpleStatement at hrun
  dsimp only at hrun
  -- A statement that imports is told by its first word, and is one for the account as well.
  rcases run_onNext_cases hrun with ⟨next, hturn, hnext⟩ | ⟨next, hturn, hnext⟩
  · have hbehind := (cursor.reaches_start opening).trans (cursor.start_reaches_stop opening)
    split at hturn <;> cases hturn
    case h_1 hword | h_2 hword =>
      have hstatement : (Import.statement opening).run cursor = some (forest, stop) := by
        rw [Import.statement, run_onNext, hword]
        exact hnext
      exact account.importing hstatement
    case h_3 =>
      exact account.behind hbehind
        (hcalls (fun _ => gives_callsOfAll (gives_separated fun _ =>
          (readsCalls_below depth).expression)) hnext)
    case h_4 => exact account.behind hbehind (hcalls (fun _ => gives_expressions?) hnext)
    case h_5 =>
      exact account.behind hbehind
        (hcalls (fun _ => gives_callsOfAll (readsCalls_below depth).expressions) hnext)
    case h_6 => exact account.behind hbehind (hcalls (fun _ => gives_raised) hnext)
    case h_10 | h_11 => exact account.behind hbehind (hnames _ hnext)
    all_goals exact account.behind hbehind (hnone hnext)
  · split at hturn <;> cases hturn
    · exact hcalls (fun _ => gives_printStatement opening) hnext
    · exact hcalls (fun _ => gives_execStatement opening) hnext
    · refine hcalls (fun _ => Gives.orElse ?_ (gives_expressionStatement opening)) hnext
      exact (gives_typeAlias opening).bind fun _ hread => gives_behind _ fun _ => gives_pure hread
    · exact hcalls (fun _ => gives_expressionStatement opening) hnext

theorem keeps_simpleStatements (opening : Expectation) :
    Keeps account (simpleStatements (below depth) opening) := by
  apply Continues.keeps
  intro start
  apply continues_loop Prod.fst
  intro state
  obtain ⟨read, opening⟩ := state
  apply ((keeps_simpleStatement opening).continues).bind
  intro statement
  apply continues_onNext
  intro lexeme
  split
  · exact continues_pure rfl
  · apply continues_onNext
    intro lexeme
    split
    · exact continues_pure rfl
    · exact continues_pure rfl
  · exact continues_fail

/-! ## Compound statements -/

section Compound

variable (hblock : Keeps account (below depth).get.block)

include hblock

theorem keeps_suite : Keeps account (suite (below depth)) := by
  apply Continues.keeps
  intro start
  unfold suite
  apply continues_onNext
  intro lexeme
  split
  · exact hblock.continues
  · exact continues_pure rfl
  · exact (keeps_simpleStatements _).continues

theorem keeps_body : Keeps account (body (below depth)) :=
  Continues.keeps fun _ => continues_behind _ fun _ => (keeps_suite hblock).continues

theorem keeps_conditioned : Keeps account (conditioned (below depth)) := by
  apply Continues.keeps
  intro start
  apply (continues_calls fun _ => (readsCalls_below depth).callsIn).bind
  intro condition
  apply (keeps_body hblock).continues.bind
  intro body
  exact continues_pure rfl

omit hblock in
theorem keeps_clause? {rest : Parser Forest} (h : Keeps account rest) (text : String) :
    Keeps account (clause? text rest) := by
  apply Continues.keeps
  intro start
  apply continues_onNext
  intro lexeme
  split
  · exact h.continues
  · exact continues_pure rfl

omit hblock in
theorem keeps_clauses {rest : Parser Forest} (h : Keeps account rest) (text : String) :
    Keeps account (clauses text rest) := by
  apply Continues.keeps
  intro start
  apply continues_loop id
  intro read
  apply continues_onNext
  intro lexeme
  split
  · exact h.continues.bind fun _ => continues_pure rfl
  · exact continues_pure rfl

theorem keeps_ifRest : Keeps account (ifRest (below depth)) := by
  apply Continues.keeps
  intro start
  apply (keeps_conditioned hblock).continues.bind
  intro first
  apply (keeps_clauses (keeps_conditioned hblock) _).continues.bind
  intro others
  apply (keeps_clause? (keeps_body hblock) _).continues.bind
  intro last
  exact continues_pure (by simp)

theorem keeps_whileRest : Keeps account (whileRest (below depth)) := by
  apply Continues.keeps
  intro start
  apply (keeps_conditioned hblock).continues.bind
  intro first
  apply (keeps_clause? (keeps_body hblock) _).continues.bind
  intro last
  exact continues_pure (by simp)

theorem keeps_forRest : Keeps account (forRest (below depth)) := by
  apply Continues.keeps
  intro start
  apply (continues_calls fun _ =>
    gives_all (gives_separated fun _ => (readsCalls_below depth).target)).bind
  intro targets
  apply continues_behind
  intro _
  apply (continues_calls fun _ => gives_all (readsCalls_below depth).expressions).bind
  intro sources
  apply (keeps_body hblock).continues.bind
  intro first
  apply (keeps_clause? (keeps_body hblock) _).continues.bind
  intro last
  exact continues_pure (by simp [callsOfAll])

omit hblock in
theorem gives_caught : (caught (below depth)).Gives source (AreRead source) := by
  have h : (below depth).get.ReadsCalls source := readsCalls_below depth
  apply gives_onNext
  intro lexeme
  split
  · refine h.callsIn.bind fun caught hcaught => ?_
    apply gives_onNext
    intro lexeme
    split
    · exact h.callsIn.bind fun _ hmore => gives_pure (areRead_append.2 ⟨hcaught, hmore⟩)
    · exact gives_pure hcaught
  · exact gives_pure areRead_nil

theorem keeps_handler : Keeps account (handler (below depth)) := by
  apply Continues.keeps
  intro start
  apply continues_behind
  intro _
  apply (continues_calls fun _ => gives_caught).bind
  intro caught
  apply (keeps_body hblock).continues.bind
  intro body
  exact continues_pure rfl

theorem keeps_tryRest : Keeps account (tryRest (below depth)) := by
  apply Continues.keeps
  intro start
  apply (keeps_body hblock).continues.bind
  intro first
  apply (keeps_clauses (keeps_handler hblock) _).continues.bind
  intro handlers
  apply (keeps_clause? (keeps_body hblock) _).continues.bind
  intro otherwise
  apply (keeps_clause? (keeps_body hblock) _).continues.bind
  intro last
  exact continues_pure (by simp)

theorem keeps_withRest : Keeps account (withRest (below depth)) := by
  apply Continues.keeps
  intro start
  apply (continues_calls fun _ => gives_all (readsCalls_below depth).expressions).bind
  intro items
  apply (keeps_body hblock).continues.bind
  intro body
  exact continues_pure rfl

omit hblock in
theorem gives_patterns : (separated .inside (some startsPattern)
    ((below depth).get.casePattern true)).Gives source fun patterns =>
      AreRead source patterns.flatten := by
  intro cursor patterns stop hsource hrun
  exact areRead_flatten
    (gives_separated (fun _ => (readsCalls_below depth).casePattern) hsource hrun)

omit hblock in
theorem gives_guard : (guard? (below depth)).Gives source (AreRead source) := by
  apply gives_onNext
  intro lexeme
  split
  · exact (readsCalls_below depth).callsIn
  · exact gives_pure areRead_nil

theorem keeps_case : Keeps account (case (below depth)) := by
  apply Continues.keeps
  intro start
  apply (continues_calls fun _ => gives_patterns).bind
  intro patterns
  apply (continues_calls fun _ => gives_guard).bind
  intro condition
  apply (keeps_body hblock).continues.bind
  intro body
  exact continues_pure (by simp)

theorem keeps_cases : Keeps account (cases (below depth)) := by
  apply Continues.keeps
  intro start
  apply continues_loop id
  intro read
  apply continues_onNext
  intro lexeme
  split
  · exact continues_pure rfl
  · exact (keeps_case hblock).continues.bind fun _ => continues_pure rfl
  · exact continues_fail

theorem keeps_matchStatement (opening : Expectation) :
    Keeps account (matchStatement (below depth) opening) := by
  apply Continues.keeps
  intro start
  apply continues_behind
  intro _
  apply (continues_calls fun _ =>
    gives_all (gives_separated fun _ => (readsCalls_below depth).expression)).bind
  intro subjects
  apply continues_behind
  intro _
  apply Continues.bind
  · apply continues_onNext
    intro lexeme
    split
    · exact (keeps_cases hblock).continues
    · exact continues_pure (by simp)
    · exact continues_fail
  · intro cases
    exact continues_pure (by simp)

/-! ## Definitions -/

omit hblock in
theorem between_defined {kind : Definition.Kind} {name : String} {heading : Option Heading}
    {held forest : Forest} {first cursor stop : Cursor}
    (hheld : account.Between first cursor held.preorder) (hr : start.Reaches first)
    (hlt : start.offset < first.offset) (hopens : kind.Opens start.rest)
    (hread : ∀ last,
      (Node.definition ⟨kind, name, start.toPosition, last⟩ heading).IsRead start.rest)
    (h : (defined kind name heading start held).run cursor = some (forest, stop)) :
    account.Between start stop forest.preorder := by
  obtain ⟨last, _, hhere, h⟩ := run_bind_eq_some.1 h
  obtain ⟨rfl, rfl⟩ := run_pure_eq_some.1 h
  cases hhere
  show account.Between start cursor (.definition _ heading :: held.preorder ++ [])
  rw [List.append_nil]
  exact account.defining hheld hr hlt hopens (hread _)

omit hblock in
/-- Calls, and behind them what is read from where they end. -/
theorem between_ofCalls {calls : List Call} {forest : Forest} {first middle last : Cursor}
    (hr : first.Reaches middle) (hcalls : AreRead first.rest calls)
    (h : account.Between middle last forest.preorder) :
    account.Between first last (Forest.ofCalls calls ++ forest).preorder := by
  rw [Forest.preorder_append, Forest.preorder_ofCalls]
  exact account.append (account.calling hr hcalls) h

theorem between_functionRest {forest : Forest} {cursor stop : Cursor} (hr : start.Reaches cursor)
    (hlt : start.offset < cursor.offset)
    (hopens : Definition.Kind.Opens .function start.rest)
    (h : (functionRest (below depth) start).run cursor = some (forest, stop)) :
    account.Between start stop forest.preorder := by
  obtain ⟨functionName, afterName, hname, h⟩ := run_bind_eq_some.1 h
  obtain ⟨types, afterTypes, htypes, h⟩ := run_bind_eq_some.1 h
  obtain ⟨_, inside, hopen, h⟩ := run_bind_eq_some.1 h
  obtain ⟨parameters, afterParameters, hparameters, h⟩ := run_bind_eq_some.1 h
  obtain ⟨_, first, hclose, h⟩ := run_bind_eq_some.1 h
  obtain ⟨rest, last, hrest, h⟩ := run_bind_eq_some.1 h
  have hpassed : cursor.Reaches first := by
    apply (advances _ hname).trans
    apply (advances _ htypes).trans
    apply (advances _ hopen).trans
    apply (advances _ hparameters).trans
    exact advances _ hclose
  have hresult (constrained : Bool) : Keeps account (do
      let type ← (below depth).get.annotation constrained .inside
      let body ← body (below depth)
      pure (Forest.ofCalls type ++ body) : Parser Forest) := by
    apply Continues.keeps
    intro start
    apply (continues_calls fun _ => ReadsCalls.annotation (readsCalls_below depth)).bind
    intro type
    apply (keeps_body hblock).continues.bind
    intro body
    exact continues_pure rfl
  have hbetween : account.Between first last rest.preorder := by
    revert hrest
    apply Continues.keeps
    intro start
    apply continues_onNext
    intro lexeme
    split
    · exact (hresult false).continues.orElse (hresult true).continues
    · exact (keeps_body hblock).continues
  have hlevel : (below depth).get.ReadsCalls cursor.rest := readsCalls_below depth
  have hbehindName := suffix_of_run (List.suffix_refl _) hname
  have hinside := suffix_of_run (suffix_of_run hbehindName htypes) hopen
  have hcalls := areRead_append.2
    ⟨gives_typeParameters hlevel hbehindName htypes,
      gives_parameters hlevel true hinside hparameters⟩
  refine between_defined (between_ofCalls hpassed hcalls hbetween) hr hlt hopens (fun _ => ?_) h
  trivial

/-- The heading of a class is read from its text, which starts with the first word. -/
theorem between_classRest {opening : Expectation} {forest : Forest} {cursor stop : Cursor}
    (hclass : (cursor.ahead opening).lexeme = .word "class")
    (h : (classRest (below depth) (cursor.ahead opening).start).run (cursor.ahead opening).stop =
      some (forest, stop)) :
    account.Between (cursor.ahead opening).start stop forest.preorder := by
  obtain ⟨⟨className, types, bases⟩, first, hheading, h⟩ := run_bind_eq_some.1 h
  obtain ⟨behind, _, hhere, h⟩ := run_bind_eq_some.1 h
  cases hhere
  obtain ⟨body, last, hbody, h⟩ := run_bind_eq_some.1 h
  obtain ⟨hopens, hlt⟩ := Cursor.ahead_word hclass
  refine between_defined
    (between_ofCalls (advances _ hheading) (gives_headingRest (List.suffix_refl _) hheading)
      (keeps_body hblock hbody))
    (cursor.start_reaches_stop opening) hlt ⟨_, by decide, hopens⟩ (fun _ => ?_) h
  exact ⟨Cursor.textTo_infix _ _, types, bases, isHeading_of_run hclass hheading, rfl⟩

theorem keeps_definition (opening : Expectation) :
    Keeps account (definition (below depth) opening) := by
  intro cursor forest stop h
  obtain ⟨first, _, hmark, h⟩ := run_bind_eq_some.1 h
  cases hmark
  -- The place that was marked is where the word of the definition starts.
  have hstart := cursor.reaches_start opening
  have hword := cursor.start_reaches_stop opening
  apply account.behind hstart
  rcases run_onNext_cases h with ⟨next, hturn, h⟩ | ⟨next, hturn, h⟩
  · split at hturn
    · rename_i hlexeme
      cases hturn
      exact between_classRest hblock hlexeme h
    · rename_i hlexeme
      cases hturn
      obtain ⟨hopens, hlt⟩ := Cursor.ahead_word hlexeme
      exact between_functionRest hblock hword hlt ⟨_, by decide, hopens⟩ h
    · rename_i hlexeme
      cases hturn
      obtain ⟨_, behind, hdef, h⟩ := run_bind_eq_some.1 h
      obtain ⟨hopens, hlt⟩ := Cursor.ahead_word hlexeme
      have hbehind := advances _ hdef
      have hle := hbehind.offset_le
      exact between_functionRest hblock (hword.trans hbehind) (by omega) ⟨_, by decide, hopens⟩ h
    · cases hturn
  · split at hturn <;> cases hturn
    cases h

theorem keeps_decorated (opening : Expectation) :
    Keeps account (decorated (below depth) opening) := by
  apply Continues.keeps
  intro start
  apply continues_loop Prod.fst
  intro state
  obtain ⟨read, opening⟩ := state
  apply continues_onNext
  intro lexeme
  split
  · apply (continues_calls fun _ => (readsCalls_below depth).callsIn).bind
    intro calls
    apply continues_behind
    intro _
    exact continues_pure rfl
  · apply (keeps_definition hblock _).continues.bind
    intro definition
    exact continues_pure rfl

theorem keeps_asyncStatement (opening : Expectation) :
    Keeps account (asyncStatement (below depth) opening) := by
  apply Continues.keeps
  intro start
  unfold asyncStatement
  apply continues_behind
  intro isDefinition
  split
  · exact (keeps_definition hblock _).continues
  · apply continues_behind
    intro isLoop
    split
    · exact continues_behind _ fun _ => (keeps_forRest hblock).continues
    · apply continues_behind
      intro isContext
      split
      · exact continues_behind _ fun _ => (keeps_withRest hblock).continues
      · exact (keeps_simpleStatements _).continues

theorem keeps_statement (opening : Expectation) :
    Keeps account (statement (below depth) opening) := by
  apply Continues.keeps
  intro start
  apply continues_onNext
  intro lexeme
  split
  · exact (keeps_ifRest hblock).continues
  · exact (keeps_whileRest hblock).continues
  · exact (keeps_forRest hblock).continues
  · exact (keeps_tryRest hblock).continues
  · exact (keeps_withRest hblock).continues
  · exact (keeps_definition hblock _).continues
  · exact (keeps_definition hblock _).continues
  · exact (keeps_decorated hblock _).continues
  · exact (keeps_asyncStatement hblock _).continues
  · exact (keeps_matchStatement hblock _).continues.orElse
      (keeps_simpleStatements _).continues
  · exact (keeps_simpleStatements _).continues

theorem keeps_statementsTo (last : Lexeme) : Keeps account (statementsTo (below depth) last) := by
  apply Continues.keeps
  intro start
  apply continues_loop id
  intro read
  apply continues_onNext
  intro lexeme
  split
  · exact continues_pure rfl
  · exact (keeps_statement hblock _).continues.bind fun _ => continues_pure rfl

end Compound

/-- By induction on the depth: the blocks of a level are read by the parsers of the one below. -/
theorem keeps_block_ofDepth (depth : Nat) : Keeps account (ofDepth depth).block := by
  induction depth with
  | zero =>
      intro cursor forest stop h
      cases h
  | succ depth ih => exact keeps_statementsTo ih _

end Level

/-! ## Sources -/

theorem Outline.Account.exists_between (account : Account) {text : String} {outline : Outline}
    (h : Outline.ofText? text = some outline) :
    ∃ last, account.Between (Cursor.ofText text) last outline := by
  obtain ⟨forest, hforest, rfl⟩ := Option.map_eq_some_iff.1 h
  unfold Forest.ofText? at hforest
  dsimp only at hforest
  split at hforest
  · cases hforest
  · obtain ⟨⟨read, last⟩, hrun, rfl⟩ := Option.map_eq_some_iff.1 hforest
    exact ⟨last, Level.keeps_statementsTo (Level.keeps_block_ofDepth _) _ hrun⟩

/-! ## Texts of calls and headings -/

theorem Node.IsRead.mono {source whole : List Char} {node : Node} (h : node.IsRead source)
    (hsource : source <:+: whole) : node.IsRead whole := by
  match node with
  | .call _ _ => exact ⟨h.1.trans hsource, h.2⟩
  | .definition _ (some _) => exact ⟨h.1.trans hsource, h.2⟩
  | .definition _ none | .imports _ => trivial

namespace Outline

theorem isRead_of_reaches {first middle : Cursor} {outline : Outline} (hr : first.Reaches middle)
    (h : ∀ node ∈ outline, node.IsRead middle.rest) : ∀ node ∈ outline, node.IsRead first.rest :=
  fun node hm => (h node hm).mono (Cursor.suffix_of_reaches hr).isInfix

/-- What is kept of calls and of classes is read from their texts, which stand in the source. -/
def reading : Account where
  Between first last outline := first.Reaches last ∧ ∀ node ∈ outline, node.IsRead first.rest
  nil hr := ⟨hr, by simp⟩
  append h hother :=
    ⟨h.1.trans hother.1, List.forall_mem_append.2 ⟨h.2, isRead_of_reaches h.1 hother.2⟩⟩
  calling hr hcalls := ⟨hr, hcalls⟩
  importing h := by
    refine ⟨Parser.advances _ h, ?_⟩
    obtain rfl | ⟨value, rfl⟩ := Import.statement_cases h
    · simp
    · simp [Forest.preorder, Tree.preorder, Node.IsRead]
  defining h hr _ _ hread :=
    ⟨hr.trans h.1, List.forall_mem_cons.2 ⟨hread, isRead_of_reaches hr h.2⟩⟩

theorem isRead_of_ofText {text : String} {outline : Outline} (h : ofText? text = some outline) :
    ∀ node ∈ outline, node.IsRead text.toList := by
  obtain ⟨last, -, hread⟩ := reading.exists_between h
  exact hread

/-- Sources whose calls and headings of classes have the same texts have the same references. -/
theorem references_eq_of_ofText {source target : String} {outline other : Outline}
    (h : ofText? source = some outline) (hother : ofText? target = some other)
    (htexts : outline.texts = other.texts) : outline.references = other.references :=
  references_eq_of_texts (isRead_of_ofText h) (isRead_of_ofText hother) htexts

end Outline

end CodeAtlas.Syntax
