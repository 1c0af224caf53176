import CodeAtlas.Proofs.Syntax.ReadExpressions

/-!
# Accounts of a reading

What is said of an outline and of the stretch of text it was read from may add up: it is said of
nothing, of two outlines one behind the other, of calls, of an import and of a definition with what
it holds. Then a parser that puts trees together from such parts keeps to it. Of calls and of the
headings of classes it may use that they are read from their texts.
-/

namespace CodeAtlas.Syntax

/-! ## Words of definitions -/

/-- The words a definition may start with. -/
def Definition.Kind.openings : Definition.Kind → List String
  | .function => ["def", "async"]
  | .type => ["class"]

/-- What starts with a word of a definition of some kind. -/
def Definition.Kind.Opens (kind : Definition.Kind) (chars : List Char) : Prop :=
  ∃ word ∈ kind.openings, word.toList <+: chars

/-! ## Imports -/

namespace Import

open Syntax.Parser

/-- A statement that imports, from its first word on. -/
def statement (opening : Expectation) : Parser Forest :=
  onNext opening fun
    | .word "import" => .take modulesStatement
    | .word "from" => .take membersStatement
    | _ => .leave fail

variable {cursor stop : Cursor} {forest : Forest}

theorem exists_import_of_membersOf {level : Nat} {module : Option String}
    (h : (membersOf level module).run cursor = some (forest, stop)) :
    ∃ value, forest = [.imports value] := by
  rcases run_onNext_cases h with ⟨next, hturn, hnext⟩ | ⟨next, hturn, hnext⟩
  · split at hturn <;> cases hturn
    exact ⟨_, (run_pure_eq_some.1 hnext).1.symm⟩
  · split at hturn <;> cases hturn
    obtain ⟨_, _, _, hnext⟩ := run_bind_eq_some.1 hnext
    exact ⟨_, (run_pure_eq_some.1 hnext).1.symm⟩

theorem statement_cases {opening : Expectation}
    (h : (statement opening).run cursor = some (forest, stop)) :
    forest = [] ∨ ∃ value, forest = [.imports value] := by
  rcases run_onNext_cases h with ⟨next, hturn, h⟩ | ⟨next, hturn, h⟩
  · split at hturn <;> cases hturn
    · obtain ⟨_, _, _, h⟩ := run_bind_eq_some.1 h
      exact .inr ⟨_, (run_pure_eq_some.1 h).1.symm⟩
    · rcases run_onNext_cases h with ⟨next, hturn, h⟩ | ⟨next, hturn, h⟩
      · split at hturn <;> cases hturn
        obtain ⟨_, _, _, h⟩ := run_bind_eq_some.1 h
        obtain ⟨_, _, _, h⟩ := run_bind_eq_some.1 h
        exact .inl (run_pure_eq_some.1 h).1.symm
      · split at hturn <;> cases hturn
        · obtain ⟨_, _, _, h⟩ := run_bind_eq_some.1 h
          obtain ⟨_, _, _, h⟩ := run_bind_eq_some.1 h
          exact .inr (exists_import_of_membersOf h)
        · obtain ⟨_, _, _, h⟩ := run_bind_eq_some.1 h
          obtain ⟨_, _, _, h⟩ := run_bind_eq_some.1 h
          obtain ⟨_, _, _, h⟩ := run_bind_eq_some.1 h
          obtain ⟨_, _, _, h⟩ := run_bind_eq_some.1 h
          exact .inr (exists_import_of_membersOf h)
  · split at hturn <;> cases hturn
    cases h

end Import

namespace Forest

@[simp] theorem preorder_nil : preorder [] = [] := rfl

@[simp] theorem preorder_append (first second : Forest) :
    preorder (first ++ second) = first.preorder ++ second.preorder := by
  induction first with
  | nil => rfl
  | cons tree rest ih => rw [List.cons_append, preorder, preorder, ih, List.append_assoc]

@[simp] theorem ofCalls_nil : ofCalls [] = [] := rfl

@[simp] theorem ofCalls_append (calls others : List Call) :
    ofCalls (calls ++ others) = ofCalls calls ++ ofCalls others :=
  List.map_append

theorem preorder_ofCalls (calls : List Call) :
    (ofCalls calls).preorder = callsPreorder calls := by
  induction calls with
  | nil => rfl
  | cons call rest ih =>
      show call.preorder ++ preorder (ofCalls rest) = _
      rw [ih, callsPreorder]

end Forest

namespace Outline

/-! ## Accounts -/

/-- What is said of outlines read between two cursors. -/
structure Account where
  Between : Cursor → Cursor → Outline → Prop
  nil : ∀ {first last}, first.Reaches last → Between first last []
  append : ∀ {first middle last outline other}, Between first middle outline →
    Between middle last other → Between first last (outline ++ other)
  calling : ∀ {first last calls}, first.Reaches last → AreRead first.rest calls →
    Between first last (callsPreorder calls)
  importing : ∀ {opening cursor stop forest},
    (Import.statement opening).run cursor = some (forest, stop) →
    Between cursor stop forest.preorder
  defining : ∀ {start first last outline} {kind : Definition.Kind} {name : String}
    {heading : Option Heading}, Between first last outline → start.Reaches first →
    start.offset < first.offset → kind.Opens start.rest →
    (Node.definition ⟨kind, name, start.toPosition, last.toPosition⟩ heading).IsRead start.rest →
    Between start last
      (.definition ⟨kind, name, start.toPosition, last.toPosition⟩ heading :: outline)

mutual

theorem forall_mem_preorder {holds : Node → Prop} (h : ∀ text callee, holds (.call text callee)) :
    (call : Call) → ∀ node ∈ call.preorder, holds node
  | .of text callee inner => by
      rw [Call.preorder]
      exact List.forall_mem_cons.2 ⟨h text callee, forall_mem_callsPreorder h inner⟩

/-- All nodes of calls are calls. -/
theorem forall_mem_callsPreorder {holds : Node → Prop}
    (h : ∀ text callee, holds (.call text callee)) :
    (calls : List Call) → ∀ node ∈ callsPreorder calls, holds node
  | [] => by simp [callsPreorder]
  | call :: rest => by
      rw [callsPreorder]
      exact List.forall_mem_append.2
        ⟨forall_mem_preorder h call, forall_mem_callsPreorder h rest⟩

end

namespace Account

variable {account : Account} {first middle last : Cursor} {outline : Outline}

theorem onward (h : account.Between first middle outline) (hr : middle.Reaches last) :
    account.Between first last outline := by
  simpa using account.append h (account.nil hr)

theorem behind (hr : first.Reaches middle) (h : account.Between middle last outline) :
    account.Between first last outline :=
  account.append (account.nil hr) h

end Account

end Outline

/-! ## Parsers -/

namespace Parser

open Outline (Account)

variable {α β σ : Type} {account : Account} {start : Cursor} {before : Forest}
  {whole : α → Forest}

/-- From a cursor behind what was read before, a parser reads on; the value tells all that has been
read by then. -/
def Continues (account : Account) (parser : Parser α) (start : Cursor) (before : Forest)
    (whole : α → Forest) : Prop :=
  ∀ ⦃cursor value stop⦄, account.Between start cursor before.preorder →
    parser.run cursor = some (value, stop) → account.Between start stop (whole value).preorder

/-- The account holds of what a parser reads, between the cursors it runs from and to. -/
def Keeps (account : Account) (parser : Parser Forest) : Prop :=
  ∀ ⦃cursor forest stop⦄, parser.run cursor = some (forest, stop) →
    account.Between cursor stop forest.preorder

theorem Keeps.continues {parser : Parser Forest} (h : Keeps account parser) :
    Continues account parser start before (before ++ ·) :=
  fun _ _ _ hbefore hrun => by
    rw [Forest.preorder_append]
    exact account.append hbefore (h hrun)

theorem Continues.keeps {parser : Parser Forest}
    (h : ∀ start, Continues account parser start [] id) : Keeps account parser :=
  fun _ _ _ hrun => h _ (account.nil (.refl _)) hrun

/-- The calls that a parser reads, if they are read from their texts. -/
theorem continues_calls {parser : Parser α} {calls : α → List Call}
    (h : ∀ source, parser.Gives source fun value => AreRead source (calls value)) :
    Continues account parser start before
      (fun value => before ++ Forest.ofCalls (calls value)) := by
  intro cursor value stop hbefore hrun
  rw [Forest.preorder_append, Forest.preorder_ofCalls]
  exact account.append hbefore (account.calling (parser.advances hrun)
    (h cursor.rest (List.suffix_refl _) hrun))

theorem continues_fail : Continues account (fail : Parser α) start before whole := by
  intro cursor value stop _ hrun
  cases hrun

theorem continues_pure {value : α} (h : whole value = before) :
    Continues account (pure value : Parser α) start before whole := by
  intro cursor read stop hbefore hrun
  obtain ⟨rfl, rfl⟩ := run_pure_eq_some.1 hrun
  rw [h]
  exact hbefore

theorem Continues.bind {first : Parser β} {next : β → Parser α} {between : β → Forest}
    (hfirst : Continues account first start before between)
    (hnext : ∀ value, Continues account (next value) start (between value) whole) :
    Continues account (first >>= next) start before whole := by
  intro cursor value stop hbefore hrun
  obtain ⟨read, middle, hread, hrun⟩ := run_bind_eq_some.1 hrun
  exact hnext read (hfirst hbefore hread) hrun

theorem continues_behind (first : Parser β) {next : β → Parser α}
    (hnext : ∀ value, Continues account (next value) start before whole) :
    Continues account (first >>= next) start before whole := by
  intro cursor value stop hbefore hrun
  obtain ⟨read, middle, hread, hrun⟩ := run_bind_eq_some.1 hrun
  exact hnext read (account.onward hbefore (first.advances hread)) hrun

theorem Continues.orElse {first second : Parser α}
    (hfirst : Continues account first start before whole)
    (hsecond : Continues account second start before whole) :
    Continues account (first <|> second) start before whole := by
  intro cursor value stop hbefore hrun
  rcases run_orElse_cases hrun with hrun | hrun
  · exact hfirst hbefore hrun
  · exact hsecond hbefore hrun

def Turn.Continues (account : Account) (turn : Turn α) (start : Cursor) (before : Forest)
    (whole : α → Forest) : Prop :=
  match turn with
  | .take next => Parser.Continues account next start before whole
  | .leave next => Parser.Continues account next start before whole

theorem continues_onNext {expected : Expectation} {turn : Lexeme → Turn α}
    (h : ∀ lexeme, (turn lexeme).Continues account start before whole) :
    Continues account (onNext expected turn) start before whole := by
  intro cursor value stop hbefore hrun
  have hturn := h (cursor.ahead expected).lexeme
  rw [run_onNext] at hrun
  split at hrun
  · rename_i next he
    rw [he] at hturn
    have hahead := (cursor.reaches_start expected).trans (cursor.start_reaches_stop expected)
    exact hturn (account.onward hbefore hahead) hrun
  · rename_i next he
    rw [he] at hturn
    exact hturn hbefore hrun

theorem continues_loop (read : σ → Forest) {state : σ} {step : σ → Parser (σ ⊕ α)}
    (h : ∀ state, Continues account (step state) start (read state) (Sum.elim read whole)) :
    Continues account (loop state step) start (read state) whole := by
  intro cursor value stop hbefore hrun
  refine loopRun_induct (fun state cursor => account.Between start cursor (read state).preorder)
    (fun value stop => account.Between start stop (whole value).preorder) ?_ ?_
    cursor.fuel hbefore hrun
  · intro state cursor next stop hread hstep
    exact h state hread hstep
  · intro state cursor value stop hread hstep
    exact h state hread hstep

end Parser

end CodeAtlas.Syntax
