import CodeAtlas.Proofs.Syntax.Parsing
import CodeAtlas.Proofs.Syntax.Places
import CodeAtlas.Syntax.Level

/-!
# The same text ahead

Two cursors with the same ahead of them may stand at different points of different texts. Nothing that
is read there tells them apart: from both of them a parser that is put together from decisions by the
next lexeme gives the same value, and the cursors it stops at have the same ahead of them again.
-/

namespace CodeAtlas.Syntax

namespace Cursor

/-- The second cursor has the same ahead of it as the first, in a text in which it stands by `shift`
characters further on. -/
structure Alike (shift : Int) (first second : Cursor) : Prop where
  rest : second.rest = first.rest
  indents : second.indents = first.indents
  inFormat : second.inFormat = first.inFormat
  room : second.extent - second.offset = first.extent - first.offset
  offset : (second.offset : Int) = first.offset + shift

variable {shift : Int} {first second : Cursor}

theorem IsSound.alike (hfirst : first.IsSound) (hsecond : second.IsSound)
    (hrest : second.rest = first.rest) (hindents : second.indents = first.indents)
    (hformat : second.inFormat = first.inFormat) :
    Alike (second.offset - first.offset) first second := by
  unfold IsSound at hfirst hsecond
  rw [hrest] at hsecond
  refine ⟨hrest, hindents, hformat, ?_, ?_⟩ <;> omega

namespace Alike

theorem fuel_eq (h : Alike shift first second) : second.fuel = first.fuel := by
  rw [fuel, fuel, h.room]

theorem skip (h : Alike shift first second) (count : Nat) :
    Alike shift (first.skip count) (second.skip count) where
  rest := by rw [rest_skip, rest_skip, h.rest]
  indents := h.indents
  inFormat := h.inFormat
  room := by
    show second.extent - (second.skip count).offset = first.extent - (first.skip count).offset
    have hroom := h.room
    rw [offset_skip, offset_skip, h.rest]
    omega
  offset := by
    have hoffset := h.offset
    rw [offset_skip, offset_skip, h.rest]
    omega

theorem apply (h : Alike shift first second) (token : Layout.Token) :
    Alike shift (token.apply first) (token.apply second) := by
  cases token with
  | newline => exact h
  | indent width => exact ⟨h.rest, congrArg (width :: ·) h.indents, h.inFormat, h.room, h.offset⟩
  | dedent => exact ⟨h.rest, congrArg List.tail h.indents, h.inFormat, h.room, h.offset⟩

theorem aheadFuel (h : Alike shift first second) (expected : Expectation) (rounds : Nat) :
    (second.aheadFuel expected rounds).lexeme = (first.aheadFuel expected rounds).lexeme ∧
      Alike shift (first.aheadFuel expected rounds).start
        (second.aheadFuel expected rounds).start ∧
      Alike shift (first.aheadFuel expected rounds).stop
        (second.aheadFuel expected rounds).stop := by
  induction rounds generalizing first second with
  | zero => exact ⟨rfl, h, h⟩
  | succ rounds ih =>
      have hsurvey : Layout.survey expected second = Layout.survey expected first := by
        rw [Layout.survey, Layout.survey, h.rest]
      have htoken (survey : Layout.Survey) :
          survey.token? expected second = survey.token? expected first := by
        rw [Layout.Survey.token?, Layout.Survey.token?, h.indents, h.inFormat]
      unfold Cursor.aheadFuel
      dsimp only
      rw [hsurvey, funext htoken, h.rest]
      split
      · exact ⟨rfl, h, h.apply _⟩
      · split
        · rename_i passed delimiter length hquote
          have hstop := (h.skip passed).skip length
          exact ⟨rfl, h.skip passed,
            ⟨hstop.rest, hstop.indents, rfl, hstop.room, hstop.offset⟩⟩
        · have hstart := h.skip (first.rest.takeWhile Lexeme.isSpace).length
          rw [hstart.rest]
          split
          · exact ⟨rfl, hstart, hstart.skip _⟩
          · exact ih (hstart.skip _)

theorem ahead (h : Alike shift first second) (expected : Expectation) :
    (second.ahead expected).lexeme = (first.ahead expected).lexeme ∧
      Alike shift (first.ahead expected).start (second.ahead expected).start ∧
      Alike shift (first.ahead expected).stop (second.ahead expected).stop := by
  rw [Cursor.ahead, Cursor.ahead, h.fuel_eq]
  exact h.aheadFuel expected first.fuel

theorem textTo_eq {stop last : Cursor} (h : Alike shift first second)
    (hstop : Alike shift stop last) : second.textTo last.offset = first.textTo stop.offset := by
  have hlength : last.offset - second.offset = stop.offset - first.offset := by
    have hfirst := h.offset
    have hlast := hstop.offset
    omega
  rw [textTo, textTo, h.rest, hlength]

end Alike

end Cursor

namespace Parser

variable {α β σ : Type}

/-- From cursors with the same ahead of them the parser reads the same. -/
def IsUniform (parser : Parser α) : Prop :=
  ∀ ⦃shift first second value stop⦄, Cursor.Alike shift first second →
    parser.run first = some (value, stop) →
    ∃ last, parser.run second = some (value, last) ∧ Cursor.Alike shift stop last

theorem isUniform_fail : (fail : Parser α).IsUniform := by
  intro shift first second value stop _ hrun
  cases hrun

theorem isUniform_pure (value : α) : (pure value : Parser α).IsUniform := by
  intro shift first second read stop h hrun
  obtain ⟨rfl, rfl⟩ := run_pure_eq_some.1 hrun
  exact ⟨second, rfl, h⟩

theorem IsUniform.bind {parser : Parser β} {next : β → Parser α} (h : parser.IsUniform)
    (hnext : ∀ value, (next value).IsUniform) : (parser >>= next).IsUniform := by
  intro shift first second value stop halike hrun
  obtain ⟨read, middle, hread, hrun⟩ := run_bind_eq_some.1 hrun
  obtain ⟨between, hbetween, hmiddle⟩ := h halike hread
  obtain ⟨last, hlast, hstop⟩ := hnext read hmiddle hrun
  exact ⟨last, run_bind_eq_some.2 ⟨read, between, hbetween, hlast⟩, hstop⟩

def Turn.IsUniform (turn : Turn α) : Prop :=
  match turn with
  | .take next => next.IsUniform
  | .leave next => next.IsUniform

theorem isUniform_onNext {expected : Expectation} {turn : Lexeme → Turn α}
    (h : ∀ lexeme, (turn lexeme).IsUniform) : (onNext expected turn).IsUniform := by
  intro shift first second value stop halike hrun
  obtain ⟨hlexeme, -, hbehind⟩ := halike.ahead expected
  have hturn := h (first.ahead expected).lexeme
  rw [run_onNext] at hrun
  rw [run_onNext, hlexeme]
  split at hrun
  · rename_i next he
    rw [he] at hturn
    exact hturn hbehind hrun
  · rename_i next he
    rw [he] at hturn
    exact hturn halike hrun

theorem isUniform_loopRun {step : σ → Parser (σ ⊕ α)} (h : ∀ state, (step state).IsUniform)
    {rounds : Nat} {state : σ} {shift : Int} {first second stop : Cursor} {value : α}
    (halike : Cursor.Alike shift first second)
    (hrun : loopRun step rounds state first = some (value, stop)) :
    ∃ last, loopRun step rounds state second = some (value, last) ∧
      Cursor.Alike shift stop last := by
  induction rounds generalizing state first second with
  | zero => cases hrun
  | succ rounds ih =>
      unfold loopRun at hrun ⊢
      split at hrun
      · cases hrun
      · rename_i hstep
        obtain ⟨middle, hsecond, hmiddle⟩ := h state halike hstep
        rw [hsecond]
        exact ih hmiddle hrun
      · rename_i hstep
        cases hrun
        obtain ⟨last, hsecond, hlast⟩ := h state halike hstep
        rw [hsecond]
        exact ⟨last, rfl, hlast⟩

theorem isUniform_loop {state : σ} {step : σ → Parser (σ ⊕ α)}
    (h : ∀ state, (step state).IsUniform) : (loop state step).IsUniform := by
  intro shift first second value stop halike hrun
  change loopRun step first.fuel state first = some (value, stop) at hrun
  show ∃ last, loopRun step second.fuel state second = some (value, last) ∧ _
  rw [halike.fuel_eq]
  exact isUniform_loopRun h halike hrun

theorem run_written_eq_some {expected : Expectation} {parser : Parser α} {cursor stop : Cursor}
    {text : String} : (written expected parser).run cursor = some (text, stop) ↔
      (∃ value, parser.run cursor = some (value, stop)) ∧
        text = (cursor.ahead expected).start.textTo stop.offset := by
  constructor
  · intro h
    obtain ⟨_, _, hmark, h⟩ := run_bind_eq_some.1 h
    cases hmark
    obtain ⟨value, _, hvalue, h⟩ := run_bind_eq_some.1 h
    obtain ⟨_, _, hhere, h⟩ := run_bind_eq_some.1 h
    cases hhere
    obtain ⟨rfl, rfl⟩ := run_pure_eq_some.1 h
    exact ⟨⟨value, hvalue⟩, rfl⟩
  · rintro ⟨⟨value, hvalue⟩, rfl⟩
    refine run_bind_eq_some.2 ⟨_, _, rfl, run_bind_eq_some.2 ⟨value, stop, hvalue, ?_⟩⟩
    exact run_bind_eq_some.2 ⟨_, _, rfl, rfl⟩

theorem isUniform_written {expected : Expectation} {parser : Parser α} (h : parser.IsUniform) :
    (written expected parser).IsUniform := by
  intro shift first second text stop halike hrun
  obtain ⟨⟨value, hvalue⟩, rfl⟩ := run_written_eq_some.1 hrun
  obtain ⟨last, hlast, hstop⟩ := h halike hvalue
  have hstart := (halike.ahead expected).2.1
  exact ⟨last, run_written_eq_some.2 ⟨⟨value, hlast⟩, (hstart.textTo_eq hstop).symm⟩, hstop⟩

theorem isUniform_exactly (expected : Expectation) (lexeme : Lexeme) :
    (exactly expected lexeme).IsUniform := by
  apply isUniform_onNext
  intro ahead
  split
  · exact isUniform_pure ()
  · exact isUniform_fail

theorem isUniform_name (expected : Expectation) : (name expected).IsUniform := by
  apply isUniform_onNext
  intro ahead
  split
  · split
    · exact isUniform_pure _
    · exact isUniform_fail
  · exact isUniform_fail

theorem isUniform_separated {setting : Setting} {starts : Option (Lexeme → Bool)}
    {element : Setting → Parser α} (h : ∀ setting, (element setting).IsUniform) :
    (separated setting starts element).IsUniform := by
  apply (h setting).bind
  intro first
  apply isUniform_loop
  intro read
  apply isUniform_onNext
  intro lexeme
  split
  · split
    · exact (h _).bind fun _ => isUniform_pure _
    · apply isUniform_onNext
      intro lexeme
      split
      · exact (h _).bind fun _ => isUniform_pure _
      · exact isUniform_pure _
  · exact isUniform_pure _

end Parser

end CodeAtlas.Syntax
