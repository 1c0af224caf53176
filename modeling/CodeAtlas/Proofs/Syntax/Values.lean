import CodeAtlas.Proofs.Syntax.Cuts
import CodeAtlas.Proofs.Syntax.Parsing

/-!
# Values read from a source

An assertion about the values that a parser gives in a source holds if it does for those of the
parsers it is made of. In a loop it is kept by each round.
-/

namespace CodeAtlas.Syntax.Parser

variable {α β σ : Type} {source : List Char} {holds : α → Prop} {between : β → Prop}

/-- Whatever a parser gives in a source satisfies the assertion. -/
def Gives (source : List Char) (parser : Parser α) (holds : α → Prop) : Prop :=
  ∀ ⦃cursor value stop⦄, cursor.rest <:+ source → parser.run cursor = some (value, stop) →
    holds value

def Turn.Gives (source : List Char) (turn : Turn α) (holds : α → Prop) : Prop :=
  match turn with
  | .take next => next.Gives source holds
  | .leave next => next.Gives source holds

theorem suffix_of_run {parser : Parser α} {cursor stop : Cursor} {value : α}
    (hsource : cursor.rest <:+ source) (hrun : parser.run cursor = some (value, stop)) :
    stop.rest <:+ source :=
  (Cursor.suffix_of_reaches (parser.advances hrun)).trans hsource

theorem suffix_of_ahead {cursor : Cursor} (hsource : cursor.rest <:+ source)
    (expected : Expectation) : (cursor.ahead expected).stop.rest <:+ source :=
  (Cursor.suffix_of_reaches ((cursor.reaches_start expected).trans
    (cursor.start_reaches_stop expected))).trans hsource

theorem gives_fail : (fail : Parser α).Gives source holds := by
  intro cursor value stop hsource hrun
  cases hrun

theorem gives_pure {given : α} (h : holds given) : (pure given : Parser α).Gives source holds := by
  intro cursor value stop hsource hrun
  obtain ⟨rfl, -⟩ := run_pure_eq_some.1 hrun
  exact h

theorem Gives.bind {first : Parser β} {next : β → Parser α} (hfirst : first.Gives source between)
    (hnext : ∀ value, between value → (next value).Gives source holds) :
    (first >>= next).Gives source holds := by
  intro cursor value stop hsource hrun
  obtain ⟨read, middle, hread, hrun⟩ := run_bind_eq_some.1 hrun
  exact hnext read (hfirst hsource hread) (suffix_of_run hsource hread) hrun

theorem gives_behind (first : Parser β) {next : β → Parser α}
    (hnext : ∀ value, (next value).Gives source holds) : (first >>= next).Gives source holds := by
  intro cursor value stop hsource hrun
  obtain ⟨read, middle, hread, hrun⟩ := run_bind_eq_some.1 hrun
  exact hnext read (suffix_of_run hsource hread) hrun

theorem Gives.orElse {first second : Parser α} (hfirst : first.Gives source holds)
    (hsecond : second.Gives source holds) : (first <|> second).Gives source holds := by
  intro cursor value stop hsource hrun
  rcases run_orElse_cases hrun with hrun | hrun
  · exact hfirst hsource hrun
  · exact hsecond hsource hrun

theorem gives_alongside (first : Parser β) {second : Parser α}
    (hsecond : second.Gives source holds) : (alongside first second).Gives source holds := by
  intro cursor value stop hsource hrun
  obtain ⟨_, _, -, hrun, -⟩ := run_alongside_eq_some.1 hrun
  exact hsecond hsource hrun

theorem gives_onNext {expected : Expectation} {turn : Lexeme → Turn α}
    (h : ∀ lexeme, (turn lexeme).Gives source holds) :
    (onNext expected turn).Gives source holds := by
  intro cursor value stop hsource hrun
  have hturn := h (cursor.ahead expected).lexeme
  rcases run_onNext_cases hrun with ⟨next, he, hrun⟩ | ⟨next, he, hrun⟩
  · rw [he] at hturn
    exact hturn (suffix_of_ahead hsource expected) hrun
  · rw [he] at hturn
    exact hturn hsource hrun

theorem gives_loop (before : σ → Prop) {state : σ} {step : σ → Parser (σ ⊕ α)}
    (hstart : before state)
    (h : ∀ state, before state → (step state).Gives source (Sum.elim before holds)) :
    (loop state step).Gives source holds := by
  intro cursor value stop hsource hrun
  refine loopRun_induct (fun state cursor => before state ∧ cursor.rest <:+ source)
    (fun value _ => holds value) ?_ ?_ cursor.fuel ⟨hstart, hsource⟩ hrun
  · intro state cursor next stop hbefore hstep
    exact ⟨h state hbefore.1 hbefore.2 hstep, suffix_of_run hbefore.2 hstep⟩
  · intro state cursor value stop hbefore hstep
    exact h state hbefore.1 hbefore.2 hstep

theorem gives_separated {setting : Setting} {starts : Option (Lexeme → Bool)}
    {element : Setting → Parser α} (h : ∀ setting, (element setting).Gives source holds) :
    (separated setting starts element).Gives source fun values =>
      ∀ value ∈ values, holds value := by
  refine (h setting).bind fun first hfirst => ?_
  refine gives_loop (fun read => ∀ value ∈ read, holds value) (by simpa using hfirst)
    fun read hread => ?_
  have hdone : (done read.reverse : Parser (List α ⊕ List α)).Gives source
      (Sum.elim (fun read => ∀ value ∈ read, holds value)
        fun read => ∀ value ∈ read, holds value) :=
    gives_pure (by simpa using hread)
  have hagain (setting : Setting) :
      (do again ((← element setting) :: read) : Parser (List α ⊕ List α)).Gives source
        (Sum.elim (fun read => ∀ value ∈ read, holds value)
          fun read => ∀ value ∈ read, holds value) :=
    (h setting).bind fun value hvalue => gives_pure (List.forall_mem_cons.2 ⟨hvalue, hread⟩)
  apply gives_onNext
  intro lexeme
  split
  · cases starts with
    | none => exact hagain _
    | some test =>
        apply gives_onNext
        intro lexeme
        split
        · exact hagain _
        · exact hdone
  · exact hdone

theorem gives_behindOpening {bracket : String} {inside : Parser (List α)}
    {holds : List α → Prop} (h : inside.Gives source holds) (hnil : holds []) :
    (behindOpening bracket inside).Gives source holds := by
  apply gives_onNext
  intro lexeme
  split
  · exact h
  · exact gives_pure hnil

end CodeAtlas.Syntax.Parser
