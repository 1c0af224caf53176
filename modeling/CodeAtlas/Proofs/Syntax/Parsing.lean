import CodeAtlas.Syntax.Parser

/-!
# What parsers read

A parser that gives a value where another one, or a step of a loop, has been run takes apart into
these runs. An assertion about the cursor that holds along the way is carried through a sequence, a
choice, a decision by the next lexeme, and every round of a loop.
-/

namespace CodeAtlas.Syntax.Parser

variable {α β σ : Type} {cursor stop : Cursor} {value : α}

/-! ## Runs -/

theorem run_pure_eq_some {given : α} :
    (pure given : Parser α).run cursor = some (value, stop) ↔ given = value ∧ cursor = stop := by
  show some (given, cursor) = some (value, stop) ↔ _
  simp

theorem run_bind_eq_some {first : Parser β} {next : β → Parser α} :
    (first >>= next).run cursor = some (value, stop) ↔
      ∃ read middle, first.run cursor = some (read, middle) ∧
        (next read).run middle = some (value, stop) := by
  change (Parser.bind first next).run cursor = some (value, stop) ↔ _
  unfold Parser.bind
  dsimp only
  cases first.run cursor with
  | none => simp
  | some result =>
      obtain ⟨read, middle⟩ := result
      constructor
      · intro h
        exact ⟨read, middle, rfl, h⟩
      · intro h
        obtain ⟨_, _, he, h⟩ := h
        cases he
        exact h

theorem exists_run_eq_some {parser : Parser α} (h : (parser.run cursor).map Prod.fst = some value) :
    ∃ stop, parser.run cursor = some (value, stop) := by
  obtain ⟨⟨read, stop⟩, hrun, rfl⟩ := Option.map_eq_some_iff.1 h
  exact ⟨stop, hrun⟩

theorem run_onNext (expected : Expectation) (turn : Lexeme → Turn α) (cursor : Cursor) :
    (onNext expected turn).run cursor =
      match turn (cursor.ahead expected).lexeme with
      | .take next => next.run (cursor.ahead expected).stop
      | .leave next => next.run cursor := rfl

theorem run_onNext_take {expected : Expectation} {turn : Lexeme → Turn α} {ahead : Ahead}
    {next : Parser α} (hahead : cursor.ahead expected = ahead)
    (hturn : turn ahead.lexeme = .take next) :
    (onNext expected turn).run cursor = next.run ahead.stop := by
  rw [run_onNext, hahead, hturn]

theorem run_onNext_leave {expected : Expectation} {turn : Lexeme → Turn α} {next : Parser α}
    (hturn : turn (cursor.ahead expected).lexeme = .leave next) :
    (onNext expected turn).run cursor = next.run cursor := by
  rw [run_onNext, hturn]

theorem run_onNext_cases {expected : Expectation} {turn : Lexeme → Turn α}
    (h : (onNext expected turn).run cursor = some (value, stop)) :
    (∃ next, turn (cursor.ahead expected).lexeme = .take next ∧
      next.run (cursor.ahead expected).stop = some (value, stop)) ∨
    ∃ next, turn (cursor.ahead expected).lexeme = .leave next ∧
      next.run cursor = some (value, stop) := by
  rw [run_onNext] at h
  split at h
  · rename_i next hturn
    exact .inl ⟨next, hturn, h⟩
  · rename_i next hturn
    exact .inr ⟨next, hturn, h⟩

theorem run_orElse (first second : Parser α) (cursor : Cursor) :
    (first <|> second).run cursor = (first.run cursor).or (second.run cursor) := by
  change (Parser.orElse first fun _ => second).run cursor = _
  unfold Parser.orElse
  dsimp only
  cases first.run cursor <;> rfl

theorem run_orElse_cases {first second : Parser α}
    (h : (first <|> second).run cursor = some (value, stop)) :
    first.run cursor = some (value, stop) ∨ second.run cursor = some (value, stop) := by
  rw [run_orElse, Option.or_eq_some_iff] at h
  exact h.imp_right And.right

theorem run_alongside_eq_some {first : Parser β} {second : Parser α} :
    (alongside first second).run cursor = some (value, stop) ↔
      ∃ read point, first.run cursor = some (read, point) ∧
        second.run cursor = some (value, stop) ∧ point.offset = stop.offset := by
  unfold alongside
  dsimp only
  constructor
  · intro h
    split at h
    · rename_i hfirst hsecond
      split at h <;> cases h
      exact ⟨_, _, hfirst, hsecond, ‹_›⟩
    · cases h
  · rintro ⟨read, point, hfirst, hsecond, he⟩
    rw [hfirst, hsecond]
    exact if_pos he

theorem run_loop (state : σ) (step : σ → Parser (σ ⊕ α)) (cursor : Cursor) :
    (loop state step).run cursor = loopRun step cursor.fuel state cursor := rfl

/-- What holds in front of the first round and is kept by each one holds in front of the last. -/
theorem loopRun_induct {step : σ → Parser (σ ⊕ α)} (before : σ → Cursor → Prop)
    (after : α → Cursor → Prop)
    (hagain : ∀ {state cursor next stop}, before state cursor →
      (step state).run cursor = some (.inl next, stop) → before next stop)
    (hdone : ∀ {state cursor value stop}, before state cursor →
      (step state).run cursor = some (.inr value, stop) → after value stop)
    (rounds : Nat) {state : σ} (hstart : before state cursor)
    (h : loopRun step rounds state cursor = some (value, stop)) : after value stop := by
  induction rounds generalizing state cursor with
  | zero => simp [loopRun] at h
  | succ rounds ih =>
      unfold loopRun at h
      split at h
      · simp at h
      · rename_i hstep
        exact ih (hagain hstart hstep) h
      · rename_i hstep
        simp only [Option.some.injEq, Prod.mk.injEq] at h
        obtain ⟨rfl, rfl⟩ := h
        exact hdone hstart hstep

theorem run_name_eq_some {expected : Expectation} {text : String} :
    (name expected).run cursor = some (text, stop) ↔
      (cursor.ahead expected).lexeme = .word text ∧ isName text = true ∧
        stop = (cursor.ahead expected).stop := by
  rw [name, run_onNext]
  cases hlexeme : (cursor.ahead expected).lexeme with
  | word word =>
      by_cases hname : isName word = true
      · simp only [hname, if_true, run_pure_eq_some, Lexeme.word.injEq]
        constructor
        · rintro ⟨rfl, rfl⟩
          exact ⟨rfl, hname, rfl⟩
        · rintro ⟨rfl, -, rfl⟩
          exact ⟨rfl, rfl⟩
      · simp only [hname, Lexeme.word.injEq]
        constructor
        · intro h
          cases h
        · rintro ⟨rfl, h, -⟩
          exact absurd h hname
  | _ => simp [fail]

theorem run_exactly_eq_some {expected : Expectation} {lexeme : Lexeme} {read : Unit} :
    (exactly expected lexeme).run cursor = some (read, stop) ↔
      (cursor.ahead expected).lexeme = lexeme ∧ (cursor.ahead expected).stop = stop := by
  rw [exactly, run_onNext]
  by_cases h : (cursor.ahead expected).lexeme = lexeme
  · simp [h, run_pure_eq_some]
  · simp [h, fail]

theorem eq_of_run_require {condition : Bool} {read : Unit}
    (h : (require condition).run cursor = some (read, stop)) : cursor = stop := by
  unfold require at h
  split at h
  · exact (run_pure_eq_some.1 h).2
  · cases h

theorem loopRun_add {step : σ → Parser (σ ⊕ α)} {rounds : Nat} {state : σ}
    (h : loopRun step rounds state cursor = some (value, stop)) (more : Nat) :
    loopRun step (rounds + more) state cursor = some (value, stop) := by
  induction rounds generalizing state cursor with
  | zero => cases h
  | succ rounds ih =>
      rw [Nat.add_right_comm]
      unfold loopRun at h ⊢
      split at h
      · cases h
      · exact ih h
      · exact h

end CodeAtlas.Syntax.Parser
