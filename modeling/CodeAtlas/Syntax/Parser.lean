import CodeAtlas.Syntax.Lexeme

/-!
# Parsers

A parser reads from a cursor and either fails or gives a value and the cursor behind what it read.
It carries the proof that it only moves forward. Choice is between two whole parsers: the second
runs from the same cursor when the first fails.
-/

namespace CodeAtlas.Syntax

structure Parser (α : Type) where
  run : Cursor → Option (α × Cursor)
  advances : ∀ {cursor value stop}, run cursor = some (value, stop) → cursor.Reaches stop

namespace Parser

protected def pure {α : Type} (value : α) : Parser α where
  run cursor := some (value, cursor)
  advances result := by
    cases result
    exact Cursor.Reaches.refl _

protected def bind {α β : Type} (first : Parser α) (next : α → Parser β) : Parser β where
  run cursor :=
    match first.run cursor with
    | none => none
    | some (value, stop) => (next value).run stop
  advances result := by
    split at result
    · contradiction
    · next value stop read =>
        exact (first.advances read).trans ((next value).advances result)

instance : Monad Parser where
  pure := Parser.pure
  bind := Parser.bind

def fail {α : Type} : Parser α where
  run _ := none
  advances result := by contradiction

/-- The second parser runs where the first fails. -/
protected def orElse {α : Type} (first : Parser α) (second : Unit → Parser α) : Parser α where
  run cursor :=
    match first.run cursor with
    | some result => some result
    | none => (second ()).run cursor
  advances result := by
    split at result
    · next read => exact first.advances (read.trans result)
    · exact (second ()).advances result

instance {α : Type} : OrElse (Parser α) where
  orElse := Parser.orElse

def require (condition : Bool) : Parser Unit := if condition then pure () else fail

def here : Parser Cursor where
  run cursor := some (cursor, cursor)
  advances result := by
    cases result
    exact Cursor.Reaches.refl _

/-- The point where the next lexeme starts. -/
def mark (expected : Expectation) : Parser Cursor where
  run cursor := some ((cursor.ahead expected).start, cursor)
  advances result := by
    cases result
    exact Cursor.Reaches.refl _

/-- Passes over what lies before the next lexeme. -/
def skipGap (expected : Expectation) : Parser Unit where
  run cursor := some ((), (cursor.ahead expected).start)
  advances {cursor} _ _ result := by
    cases result
    exact cursor.reaches_start expected

/-- What to do about the next lexeme: go on behind it, or in front of it. -/
inductive Turn (α : Type) where
  | take (next : Parser α)
  | leave (next : Parser α)

def onNext {α : Type} (expected : Expectation) (turn : Lexeme → Turn α) : Parser α where
  run cursor :=
    let ahead := cursor.ahead expected
    match turn ahead.lexeme with
    | .take next => next.run ahead.stop
    | .leave next => next.run cursor
  advances {cursor} _ _ result := by
    dsimp only at result
    split at result
    · next next _ =>
        exact (cursor.reaches_start expected).trans
          ((cursor.start_reaches_stop expected).trans (next.advances result))
    · next next _ => exact next.advances result

/-- Reads raw text: a function of the text ahead gives a value and a number of characters. -/
def raw {α : Type} (read : List Char → Option (α × Nat)) : Parser α where
  run cursor :=
    match read cursor.rest with
    | none => none
    | some (value, length) => some (value, cursor.skip length)
  advances result := by
    split at result
    · contradiction
    · cases result
      exact Cursor.reaches_skip _ _

def leaveFormat : Parser Unit where
  run cursor := some ((), { cursor with inFormat := false })
  advances result := by
    cases result
    exact Cursor.Reaches.refl _

/-- Runs a step until it gives a result, at most `rounds` times. -/
def loopRun {σ α : Type} (step : σ → Parser (σ ⊕ α)) : Nat → σ → Cursor → Option (α × Cursor)
  | 0, _, _ => none
  | rounds + 1, state, cursor =>
      match (step state).run cursor with
      | none => none
      | some (.inl state, cursor) => loopRun step rounds state cursor
      | some (.inr value, cursor) => some (value, cursor)

theorem reaches_loopRun {σ α : Type} (step : σ → Parser (σ ⊕ α)) (rounds : Nat) {state : σ}
    {cursor stop : Cursor} {value : α}
    (result : loopRun step rounds state cursor = some (value, stop)) : cursor.Reaches stop := by
  induction rounds generalizing state cursor with
  | zero => contradiction
  | succ rounds ih =>
      unfold loopRun at result
      split at result
      · contradiction
      · next read => exact ((step state).advances read).trans (ih result)
      · next read =>
          cases result
          exact (step state).advances read

/-- Runs a step until it gives a result. Every round but the last reads at least one character. -/
def loop {σ α : Type} (state : σ) (step : σ → Parser (σ ⊕ α)) : Parser α where
  run cursor := loopRun step cursor.fuel state cursor
  advances result := reaches_loopRun step _ result

def again {σ α : Type} (state : σ) : Parser (σ ⊕ α) := pure (.inl state)

def done {σ α : Type} (value : α) : Parser (σ ⊕ α) := pure (.inr value)

def exactly (expected : Expectation) (lexeme : Lexeme) : Parser Unit :=
  onNext expected fun ahead => if ahead = lexeme then .take (pure ()) else .leave fail

/-- Reads one given lexeme if it is there, and says whether it was. -/
def optionally (expected : Expectation) (lexeme : Lexeme) : Parser Bool :=
  onNext expected fun ahead => if ahead = lexeme then .take (pure true) else .leave (pure false)

def symbol (text : String) (expected : Expectation := {}) : Parser Unit :=
  exactly expected (.symbol text)

def word (text : String) (expected : Expectation := {}) : Parser Unit :=
  exactly expected (.word text)

def reserved : List String :=
  ["False", "None", "True", "and", "as", "assert", "break", "class", "continue", "def", "del",
   "elif", "else", "except", "finally", "for", "from", "global", "if", "import", "in", "is",
   "lambda", "nonlocal", "not", "or", "pass", "raise", "return", "try", "while", "with", "yield"]

/-- Reads the first of two stars. -/
def firstStar (expected : Expectation) : Parser Unit :=
  onNext expected fun
    | .symbol "**" => .leave do
        skipGap expected
        raw fun chars => some ((), min 1 chars.length)
    | _ => .leave fail

/-- Reads one star if it is there, and says whether it was. Of two stars the first is read. -/
def star (expected : Expectation) : Parser Bool :=
  onNext expected fun
    | .symbol "*" => .take (pure true)
    | .symbol "**" => .leave do firstStar expected; pure true
    | _ => .leave (pure false)

def isName (text : String) : Bool := !reserved.contains text

def name (expected : Expectation := {}) : Parser String :=
  onNext expected fun
    | .word text => if isName text then .take (pure text) else .leave fail
    | _ => .leave fail

/-- What stands behind an opening bracket, or nothing where no bracket stands next. -/
def behindOpening {α : Type} (bracket : String) (inside : Parser (List α)) : Parser (List α) :=
  onNext {} fun lexeme => if lexeme = .symbol bracket then .take inside else .leave (pure [])

/-- What a parser would read here; nothing is read. -/
def foresee {α : Type} (parser : Parser α) : Parser (Option α) where
  run cursor := some ((parser.run cursor).map Prod.fst, cursor)
  advances result := by
    cases result
    exact Cursor.Reaches.refl _

/-- Says whether a parser would succeed here. -/
def succeeds {α : Type} (parser : Parser α) : Parser Bool := do
  pure (← foresee parser).isSome

/-- The text a parser reads, as it is written. -/
def written {α : Type} (expected : Expectation) (parser : Parser α) : Parser String := do
  let start ← mark expected
  let _ ← parser
  let stop ← here
  pure (start.textTo stop.offset)

/-- What a parser gives, with the text it reads from the next lexeme on. -/
def withText {α : Type} (expected : Expectation) (parser : Parser α) : Parser (α × String) := do
  let start ← mark expected
  let value ← parser
  let stop ← here
  pure (value, start.textTo stop.offset)

/-- What a parser gives, with all the text it takes up. -/
def consumed {α : Type} (parser : Parser α) : Parser (α × String) := do
  let start ← here
  let value ← parser
  let stop ← here
  pure (value, start.textTo stop.offset)

/-- Two readings that end at the same point; the second one counts. -/
def alongside {α β : Type} (first : Parser α) (second : Parser β) : Parser β where
  run cursor :=
    match first.run cursor, second.run cursor with
    | some (_, point), some (value, stop) =>
        if point.offset = stop.offset then some (value, stop) else none
    | _, _ => none
  advances result := by
    split at result
    · next read =>
        split at result
        · cases result
          exact second.advances read
        · contradiction
    · contradiction

end Parser

end CodeAtlas.Syntax
