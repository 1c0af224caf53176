import CodeAtlas.Proofs.Syntax.Literals
import CodeAtlas.Proofs.Syntax.Parsing

/-!
# Parsers in cut texts

A parser is mirrored by another one if that reads the same from a cut text, given that the cut is
not before the point that has to be in sight behind what is read. What has to be in sight in front
of it is asked for in turn. So the judgement is carried through a sequence, a decision by the next
lexeme and every round of a loop.
-/

namespace CodeAtlas.Syntax

open Cursor (Precedes Sees)

/-- The flat expectation has no layout tokens. -/
structure Expectation.Flattens (flat expected : Expectation) : Prop where
  isPlain : flat.IsPlain
  quote : flat.quote = expected.quote

theorem Expectation.IsPlain.flattens {expected : Expectation} (h : expected.IsPlain) :
    expected.Flattens expected := ⟨h, rfl⟩

theorem Expectation.Flattens.withQuote {flat expected : Expectation} (h : flat.Flattens expected) :
    { flat with quote := true }.Flattens { expected with quote := true } :=
  ⟨⟨h.isPlain.newline, h.isPlain.indent, h.isPlain.dedent⟩, rfl⟩

/-- No layout is asked for around the expression. -/
structure Setting.IsPlain (setting : Setting) : Prop where
  opening : setting.opening.IsPlain
  newline : setting.newline = false

namespace Setting.IsPlain

variable {setting : Setting}

theorem behind (h : setting.IsPlain) : setting.behind.IsPlain := ⟨h.newline, rfl, rfl⟩

theorem orEnd (h : setting.IsPlain) : setting.orEnd.IsPlain := ⟨h.newline, rfl, rfl⟩

theorem openedBy (h : setting.IsPlain) {expected : Expectation} (ho : expected.IsPlain) :
    (setting.openedBy expected).IsPlain := ⟨ho, h.newline⟩

theorem later (h : setting.IsPlain) : setting.later.IsPlain := ⟨⟨rfl, rfl, rfl⟩, h.newline⟩

end Setting.IsPlain

/-- The flat setting has no layout tokens and otherwise the same opening. -/
structure Setting.Flattens (flat setting : Setting) : Prop where
  isPlain : flat.IsPlain
  opening : flat.opening.quote = setting.opening.quote

theorem Setting.IsPlain.flattens {setting : Setting} (h : setting.IsPlain) :
    setting.Flattens setting := ⟨h, rfl⟩

theorem Setting.Flattens.behindStars {flat setting : Setting} (h : flat.Flattens setting)
    (stars : Nat) : (flat.behindStars stars).Flattens (setting.behindStars stars) := by
  unfold Setting.behindStars
  split
  · exact ⟨h.isPlain.behind, rfl⟩
  · exact ⟨⟨rfl, rfl, rfl⟩, rfl⟩

theorem Setting.Flattens.later {flat setting : Setting} (h : flat.Flattens setting) :
    flat.later.Flattens setting.later := ⟨h.isPlain.later, rfl⟩

theorem Setting.isPlain_inside : inside.IsPlain := ⟨⟨rfl, rfl, rfl⟩, rfl⟩

theorem Setting.isPlain_bracketed : bracketed.IsPlain := ⟨⟨rfl, rfl, rfl⟩, rfl⟩

/-- What ends an expression is seen where a string could begin one, too, if none does. -/
theorem Cursor.Sees.orEnd {tail : List Char} {setting : Setting} {cursor : Cursor} {lexeme : Lexeme}
    (h : cursor.Sees tail setting.behind) (he : (cursor.ahead setting.orEnd).lexeme = lexeme)
    (hquote : ∀ delimiter, lexeme ≠ .quote delimiter) : cursor.Sees tail setting.orEnd :=
  h.withQuote fun delimiter hquoted => hquote delimiter (he.symm.trans hquoted)

theorem Cursor.Sees.orEnd_of_symbol {tail : List Char} {setting : Setting} {cursor : Cursor}
    {text : String} (h : cursor.Sees tail setting.behind)
    (he : (cursor.ahead setting.behind).lexeme = .symbol text) :
    cursor.Sees tail setting.orEnd :=
  h.of_widens ⟨rfl, rfl, rfl, fun _ => rfl, id⟩ (.inr (.inl ⟨text, he⟩))

namespace Parser

variable {α β σ : Type} {tail : List Char}

/-- If the text is cut off behind what has to be in sight after a run, the mirror reads the same
from the cut text, and what has to be in sight before was. -/
structure Mirrors (tail : List Char) (before : Cursor → Prop) (after : α → Cursor → Prop)
    (parser mirror : Parser α) : Prop where
  asks : ∀ {cursor value stop}, parser.run cursor = some (value, stop) → after value stop →
    before cursor
  mirrors : ∀ {cursor value stop cut}, parser.run cursor = some (value, stop) →
    after value stop → cursor.Cut tail cut →
      ∃ cutStop, mirror.run cut = some (value, cutStop) ∧ stop.Cut tail cutStop

/-- A lexeme has to be in sight in front, and one behind. -/
abbrev MirrorsAmid (tail : List Char) (opening behind : Expectation) (parser mirror : Parser α) :
    Prop :=
  Mirrors tail (Sees tail opening) (fun _ => Sees tail behind) parser mirror

/-- A lexeme has to be in sight in front; the text may be cut off behind. -/
abbrev MirrorsTo (tail : List Char) (opening : Expectation) (parser mirror : Parser α) : Prop :=
  Mirrors tail (Sees tail opening) (fun _ => Precedes tail) parser mirror

section Rules

variable {before asked : Cursor → Prop} {after needed : α → Cursor → Prop}
  {parser mirror : Parser α} {expected flat : Expectation}

theorem Mirrors.asking (h : Mirrors tail before after parser mirror)
    (hasked : ∀ {cursor}, before cursor → asked cursor) :
    Mirrors tail asked after parser mirror :=
  ⟨fun hrun hafter => hasked (h.asks hrun hafter), h.mirrors⟩

/-- Behind another parser. -/
theorem Mirrors.onward (h : Mirrors tail (Sees tail expected) after parser mirror) :
    Mirrors tail (Precedes tail) after parser mirror :=
  h.asking Sees.precedes

theorem Mirrors.given (h : Mirrors tail before after parser mirror)
    (hneeded : ∀ {value stop}, needed value stop → after value stop) :
    Mirrors tail before needed parser mirror :=
  ⟨fun hrun hafter => h.asks hrun (hneeded hafter),
    fun hrun hafter => h.mirrors hrun (hneeded hafter)⟩

theorem mirrors_fail : Mirrors tail before after fail mirror := by
  constructor
  · intro cursor value stop hrun
    cases hrun
  · intro cursor value stop cut hrun
    cases hrun

theorem mirrors_pure {value : α} (h : ∀ {cursor}, after value cursor → before cursor) :
    Mirrors tail before after (pure value) (pure value) := by
  constructor
  · intro cursor read stop hrun hafter
    obtain ⟨rfl, rfl⟩ := run_pure_eq_some.1 hrun
    exact h hafter
  · intro cursor read stop cut hrun hafter hcut
    obtain ⟨rfl, rfl⟩ := run_pure_eq_some.1 hrun
    exact ⟨cut, rfl, hcut⟩

theorem Mirrors.bind {between : β → Cursor → Prop} {first firstMirror : Parser β}
    {next nextMirror : β → Parser α} (hfirst : Mirrors tail before between first firstMirror)
    (hnext : ∀ value, Mirrors tail (between value) after (next value) (nextMirror value)) :
    Mirrors tail before after (first >>= next) (firstMirror >>= nextMirror) := by
  constructor
  · intro cursor value stop hrun hafter
    obtain ⟨read, middle, hread, hrun⟩ := run_bind_eq_some.1 hrun
    exact hfirst.asks hread ((hnext read).asks hrun hafter)
  · intro cursor value stop cut hrun hafter hcut
    obtain ⟨read, middle, hread, hrun⟩ := run_bind_eq_some.1 hrun
    obtain ⟨cutMiddle, hreadCut, hmiddle⟩ :=
      hfirst.mirrors hread ((hnext read).asks hrun hafter) hcut
    obtain ⟨cutStop, hrunCut, hstop⟩ := (hnext read).mirrors hrun hafter hmiddle
    exact ⟨cutStop, run_bind_eq_some.2 ⟨read, cutMiddle, hreadCut, hrunCut⟩, hstop⟩

theorem mirrors_require_of {condition : Bool} {after : Unit → Cursor → Prop}
    (h : ∀ {cursor}, condition = true → after () cursor → before cursor) :
    Mirrors tail before after (require condition) (require condition) := by
  cases condition with
  | true => exact mirrors_pure (h rfl)
  | false => exact mirrors_fail

theorem mirrors_require (condition : Bool) :
    Mirrors tail before (fun _ => before) (require condition) (require condition) :=
  mirrors_require_of fun _ => id

/-! ## Decisions -/

/-- A turn is mirrored: behind a lexeme that is in sight, or in front of one that was looked at. -/
inductive Turn.Mirrors (tail : List Char) (expected : Expectation) (after : α → Cursor → Prop)
    (lexeme : Lexeme) : Turn α → Turn α → Prop
  | take {next nextMirror : Parser α} {before : Cursor → Prop} (hsolid : lexeme.IsSolid)
      (h : Parser.Mirrors tail before after next nextMirror)
      (hbefore : ∀ {cursor}, before cursor → cursor.Precedes tail) :
      Turn.Mirrors tail expected after lexeme (.take next) (.take nextMirror)
  | leave {next nextMirror : Parser α} {before : Cursor → Prop}
      (h : Parser.Mirrors tail before after next nextMirror)
      (hbefore : ∀ {cursor}, (cursor.ahead expected).lexeme = lexeme → before cursor →
        cursor.Sees tail expected) :
      Turn.Mirrors tail expected after lexeme (.leave next) (.leave nextMirror)

theorem mirrors_onNext (hflat : flat.Flattens expected) {turn turnMirror : Lexeme → Turn α}
    (h : ∀ lexeme, Turn.Mirrors tail expected after lexeme (turn lexeme) (turnMirror lexeme)) :
    Mirrors tail (Sees tail expected) after (onNext expected turn) (onNext flat turnMirror) := by
  constructor
  · intro cursor value stop hrun hafter
    rw [run_onNext] at hrun
    have hturn := h (cursor.ahead expected).lexeme
    generalize turn (cursor.ahead expected).lexeme = given at hrun hturn
    generalize turnMirror (cursor.ahead expected).lexeme = givenMirror at hturn
    cases hturn with
    | take hsolid hnext hbefore => exact ⟨hsolid, hbefore (hnext.asks hrun hafter)⟩
    | leave hnext hbefore => exact hbefore rfl (hnext.asks hrun hafter)
  · intro cursor value stop cut hrun hafter hcut
    rw [run_onNext] at hrun
    rw [run_onNext]
    have hturn := h (cursor.ahead expected).lexeme
    have hahead (hsees : cursor.Sees tail expected) :=
      hcut.ahead hflat.quote hflat.isPlain hsees
    generalize turn (cursor.ahead expected).lexeme = given at hrun hturn
    generalize hmirror : turnMirror (cursor.ahead expected).lexeme = givenMirror at hturn
    cases hturn with
    | take hsolid hnext hbefore =>
        have hsame := hahead ⟨hsolid, hbefore (hnext.asks hrun hafter)⟩
        rw [hsame.lexeme, hmirror]
        exact hnext.mirrors hrun hafter hsame.stop
    | leave hnext hbefore =>
        have hsame := hahead (hbefore rfl (hnext.asks hrun hafter))
        rw [hsame.lexeme, hmirror]
        exact hnext.mirrors hrun hafter hcut

/-- In front of a lexeme that has to be in sight anyhow. -/
theorem Turn.Mirrors.stay {lexeme : Lexeme} {next nextMirror : Parser α}
    (h : Parser.Mirrors tail (Sees tail expected) after next nextMirror) :
    Turn.Mirrors tail expected after lexeme (.leave next) (.leave nextMirror) :=
  .leave h fun _ hsees => hsees

/-! ## Loops -/

theorem mirrors_loop (between : σ → Cursor → Prop) {state : σ}
    {step stepMirror : σ → Parser (σ ⊕ α)}
    (h : ∀ state, Mirrors tail (between state) (Sum.elim between after) (step state)
      (stepMirror state)) :
    Mirrors tail (between state) after (loop state step) (loop state stepMirror) := by
  have hasks (rounds : Nat) {state : σ} {cursor stop : Cursor} {value : α}
      (hrun : loopRun step rounds state cursor = some (value, stop))
      (hafter : after value stop) : between state cursor := by
    induction rounds generalizing state cursor with
    | zero => cases hrun
    | succ rounds ih =>
        unfold loopRun at hrun
        split at hrun
        · cases hrun
        · rename_i hstep
          exact (h state).asks hstep (ih hrun)
        · rename_i hstep
          cases hrun
          exact (h state).asks hstep hafter
  have hmirrors (rounds more : Nat) (hle : rounds ≤ more) {state : σ} {cursor stop cut : Cursor}
      {value : α} (hrun : loopRun step rounds state cursor = some (value, stop))
      (hafter : after value stop) (hcut : cursor.Cut tail cut) :
      ∃ cutStop, loopRun stepMirror more state cut = some (value, cutStop) ∧
        stop.Cut tail cutStop := by
    induction rounds generalizing more state cursor cut with
    | zero => cases hrun
    | succ rounds ih =>
        obtain ⟨more, rfl⟩ := Nat.exists_eq_add_of_le' (Nat.le_trans (Nat.le_add_left 1 _) hle)
        unfold loopRun at hrun ⊢
        split at hrun
        · cases hrun
        · rename_i hstep
          obtain ⟨middle, hstepCut, hmiddle⟩ :=
            (h state).mirrors hstep (hasks rounds hrun hafter) hcut
          rw [hstepCut]
          exact ih more (Nat.le_of_succ_le_succ hle) hrun hmiddle
        · rename_i hstep
          cases hrun
          obtain ⟨cutStop, hstepCut, hstop⟩ := (h state).mirrors hstep hafter hcut
          rw [hstepCut]
          exact ⟨cutStop, rfl, hstop⟩
  constructor
  · intro cursor value stop hrun hafter
    exact hasks cursor.fuel hrun hafter
  · intro cursor value stop cut hrun hafter hcut
    have hroom := hcut.room
    exact hmirrors cursor.fuel cut.fuel (by unfold Cursor.fuel; omega) hrun hafter hcut

/-! ## Given lexemes -/

/-- A given lexeme is in sight. -/
structure Meets (tail : List Char) (expected : Expectation) (lexeme : Lexeme) (cursor : Cursor) :
    Prop where
  lexeme : (cursor.ahead expected).lexeme = lexeme
  sees : cursor.Sees tail expected

theorem mirrors_exactly (hplain : expected.IsPlain) {lexeme : Lexeme}
    (hsolid : lexeme.IsSolid) :
    Mirrors tail (Meets tail expected lexeme) (fun _ => Precedes tail) (exactly expected lexeme)
      (exactly expected lexeme) := by
  have hrun : MirrorsTo tail expected (exactly expected lexeme) (exactly expected lexeme) := by
    apply mirrors_onNext hplain.flattens
    intro ahead
    split
    · rename_i he
      exact .take (he ▸ hsolid) (mirrors_pure id) id
    · exact .leave mirrors_fail fun _ => id
  exact ⟨fun hread hafter => ⟨(run_exactly_eq_some.1 hread).1, hrun.asks hread hafter⟩,
    hrun.mirrors⟩

theorem mirrors_symbol (hplain : expected.IsPlain) (text : String) :
    MirrorsTo tail expected (symbol text expected) (symbol text expected) :=
  (mirrors_exactly hplain (by trivial)).asking Meets.sees

theorem mirrors_word (hplain : expected.IsPlain) (text : String) :
    MirrorsTo tail expected (word text expected) (word text expected) :=
  (mirrors_exactly hplain (by trivial)).asking Meets.sees

theorem mirrors_name (hplain : expected.IsPlain) :
    MirrorsTo tail expected (name expected) (name expected) := by
  apply mirrors_onNext hplain.flattens
  intro lexeme
  split
  · split
    · exact .take trivial (mirrors_pure id) id
    · exact .leave mirrors_fail fun _ => id
  · exact .leave mirrors_fail fun _ => id

theorem mirrors_optionally (hplain : expected.IsPlain) {lexeme : Lexeme}
    (hsolid : lexeme.IsSolid) :
    Mirrors tail (Sees tail expected)
      (fun found stop => if found then stop.Precedes tail else stop.Sees tail expected)
      (optionally expected lexeme) (optionally expected lexeme) := by
  apply mirrors_onNext hplain.flattens
  intro ahead
  split
  · rename_i he
    exact .take (he ▸ hsolid) (mirrors_pure id) id
  · exact .stay (mirrors_pure id)

theorem mirrors_optionally_amid (hplain : expected.IsPlain) {lexeme : Lexeme}
    (hsolid : lexeme.IsSolid) :
    MirrorsAmid tail expected expected (optionally expected lexeme) (optionally expected lexeme) :=
  (mirrors_optionally hplain hsolid).given fun {found} _ hsees => by
    cases found with
    | true => exact hsees.precedes
    | false => exact hsees

/-! ## Texts -/

theorem run_withText_eq_some {text : String} {value : α} {cursor stop : Cursor} :
    (withText expected parser).run cursor = some ((value, text), stop) ↔
      parser.run cursor = some (value, stop) ∧
        text = (cursor.ahead expected).start.textTo stop.offset := by
  constructor
  · intro h
    obtain ⟨start, _, hmark, h⟩ := run_bind_eq_some.1 h
    cases hmark
    obtain ⟨read, middle, hread, h⟩ := run_bind_eq_some.1 h
    obtain ⟨last, _, hhere, h⟩ := run_bind_eq_some.1 h
    cases hhere
    obtain ⟨he, rfl⟩ := run_pure_eq_some.1 h
    cases he
    exact ⟨hread, rfl⟩
  · rintro ⟨hread, rfl⟩
    exact run_bind_eq_some.2 ⟨_, _, rfl, run_bind_eq_some.2 ⟨_, _, hread, rfl⟩⟩

theorem run_consumed_eq_some {text : String} {value : α} {cursor stop : Cursor} :
    (consumed parser).run cursor = some ((value, text), stop) ↔
      parser.run cursor = some (value, stop) ∧ text = cursor.textTo stop.offset := by
  constructor
  · intro h
    obtain ⟨start, _, hhere, h⟩ := run_bind_eq_some.1 h
    cases hhere
    obtain ⟨read, middle, hread, h⟩ := run_bind_eq_some.1 h
    obtain ⟨last, _, hhere, h⟩ := run_bind_eq_some.1 h
    cases hhere
    obtain ⟨he, rfl⟩ := run_pure_eq_some.1 h
    cases he
    exact ⟨hread, rfl⟩
  · rintro ⟨hread, rfl⟩
    exact run_bind_eq_some.2 ⟨_, _, rfl, run_bind_eq_some.2 ⟨_, _, hread, rfl⟩⟩

theorem mirrors_withText (hflat : flat.Flattens expected)
    (h : Mirrors tail (Sees tail expected) after parser mirror) :
    Mirrors tail (Sees tail expected) (fun read => after read.1) (withText expected parser)
      (withText flat mirror) := by
  constructor
  · intro cursor value stop hrun hafter
    exact h.asks (run_withText_eq_some.1 hrun).1 hafter
  · intro cursor value stop cut hrun hafter hcut
    obtain ⟨value, text⟩ := value
    obtain ⟨hread, rfl⟩ := run_withText_eq_some.1 hrun
    obtain ⟨cutStop, hreadCut, hstop⟩ := h.mirrors hread hafter hcut
    have hahead := hcut.ahead hflat.quote hflat.isPlain (h.asks hread hafter)
    refine ⟨cutStop, run_withText_eq_some.2 ⟨hreadCut, ?_⟩, hstop⟩
    exact (hahead.start.textTo hstop (cursor.reaches_start expected) (parser.advances hread)
      (cut.reaches_start flat) (mirror.advances hreadCut)).symm

theorem mirrors_consumed (h : Mirrors tail before after parser mirror) :
    Mirrors tail before (fun read => after read.1) (consumed parser) (consumed mirror) := by
  constructor
  · intro cursor value stop hrun hafter
    exact h.asks (run_consumed_eq_some.1 hrun).1 hafter
  · intro cursor value stop cut hrun hafter hcut
    obtain ⟨value, text⟩ := value
    obtain ⟨hread, rfl⟩ := run_consumed_eq_some.1 hrun
    obtain ⟨cutStop, hreadCut, hstop⟩ := h.mirrors hread hafter hcut
    refine ⟨cutStop, run_consumed_eq_some.2 ⟨hreadCut, ?_⟩, hstop⟩
    exact (hcut.textTo hstop (.refl cursor) (parser.advances hread) (.refl cut)
      (mirror.advances hreadCut)).symm

/-! ## Stars -/

theorem length_of_twoStars {chars : List Char} {length : Nat}
    (h : Lexeme.textAt chars = (.symbol "**", length)) : length = 2 := by
  obtain ⟨char, rest, sign, -, -, -, hsymbol, rfl⟩ := Lexeme.textAt_eq_symbol h
  have hall : ∀ entry ∈ Lexeme.symbolTable, entry.2 = "**" → entry.1.length = 2 := by decide
  exact hall _ (List.mem_of_find?_eq_some hsymbol) rfl

theorem run_firstStar {cursor stop : Cursor} {read : Unit}
    (h : (firstStar expected).run cursor = some (read, stop)) :
    (cursor.ahead expected).lexeme = .symbol "**" ∧
      stop = (cursor.ahead expected).start.skip
        (min 1 (cursor.ahead expected).start.rest.length) := by
  unfold firstStar at h
  rw [run_onNext] at h
  split at h
  · rename_i hturn
    split at hturn <;> cases hturn
  · rename_i hturn
    split at hturn <;> cases hturn
    · obtain ⟨skipped, start, hskip, h⟩ := run_bind_eq_some.1 h
      cases hskip
      cases h
      exact ⟨‹_›, rfl⟩
    · cases h

/-- The first of two stars is read if the text is not cut off behind it. -/
theorem mirrors_firstStar (hplain : expected.IsPlain) :
    Mirrors tail (Sees tail expected)
      (fun _ stop => stop.Precedes tail ∧ tail.length < stop.rest.length)
      (firstStar expected) (firstStar expected) := by
  have hasks {cursor stop : Cursor} {read : Unit}
      (h : (firstStar expected).run cursor = some (read, stop)) (hprecedes : stop.Precedes tail)
      (hlt : tail.length < stop.rest.length) : cursor.Sees tail expected := by
    obtain ⟨hlexeme, rfl⟩ := run_firstStar h
    obtain ⟨passed, length, -, hstart, htext, hstop⟩ :=
      Cursor.ahead_text hlexeme (by simp) (by simp) (by simp)
    obtain rfl := length_of_twoStars htext
    refine ⟨hlexeme ▸ trivial, ?_⟩
    rw [Cursor.rest_skip, List.length_drop] at hlt
    unfold Precedes at hprecedes ⊢
    rw [Cursor.rest_skip] at hprecedes
    rw [hstop, ← hstart, Cursor.rest_skip]
    refine List.suffix_of_suffix_length_le (hprecedes.trans (List.drop_suffix ..))
      (List.drop_suffix ..) ?_
    rw [List.length_drop]
    omega
  constructor
  · intro cursor read stop hrun hafter
    exact hasks hrun hafter.1 hafter.2
  · intro cursor read stop cut hrun hafter hcut
    have hahead := hcut.ahead rfl hplain (hasks hrun hafter.1 hafter.2)
    obtain ⟨hlexeme, rfl⟩ := run_firstStar hrun
    obtain ⟨hprecedes, hlt⟩ := hafter
    have hone : min 1 (cut.ahead expected).start.rest.length =
        min 1 (cursor.ahead expected).start.rest.length := by
      rw [Cursor.rest_skip, List.length_drop] at hlt
      have hrest := congrArg List.length hahead.start.rest
      rw [List.length_append] at hrest
      omega
    refine ⟨_, ?_, hahead.start.skip hprecedes⟩
    unfold firstStar
    rw [run_onNext, hahead.lexeme, hlexeme, ← hone]
    rfl

/-! ## Raw text -/

theorem mirrors_raw {read : List Char → Option (α × Nat)}
    (hasks : ∀ {cursor : Cursor} {value length}, read cursor.rest = some (value, length) →
      after value (cursor.skip length) →
        before cursor ∧ (cursor.skip length).Precedes tail)
    (hcut : ∀ {cursor : Cursor} {value length}, read cursor.rest = some (value, length) →
      after value (cursor.skip length) → ∀ {front}, cursor.rest = front ++ tail →
        read front = some (value, length)) :
    Mirrors tail before after (raw read) (raw read) := by
  have hrun {cursor stop : Cursor} {value : α}
      (h : (raw read).run cursor = some (value, stop)) :
      ∃ length, read cursor.rest = some (value, length) ∧ stop = cursor.skip length := by
    unfold raw at h
    dsimp only at h
    split at h <;> cases h
    exact ⟨_, ‹_›, rfl⟩
  constructor
  · intro cursor value stop h hafter
    obtain ⟨length, hread, rfl⟩ := hrun h
    exact (hasks hread hafter).1
  · intro cursor value stop cut h hafter hrest
    obtain ⟨length, hread, rfl⟩ := hrun h
    refine ⟨cut.skip length, ?_, hrest.skip (hasks hread hafter).2⟩
    unfold raw
    dsimp only
    rw [hcut hread hafter hrest.rest]

theorem mirrors_leaveFormat :
    Mirrors tail (Precedes tail) (fun _ => Precedes tail) leaveFormat leaveFormat := by
  constructor
  · intro cursor value stop hrun hafter
    cases hrun
    exact hafter
  · intro cursor value stop cut hrun _ hcut
    cases hrun
    exact ⟨_, rfl, hcut.rest, hcut.outermost, hcut.room⟩

/-! ## Lists -/

theorem mirrors_separated {setting : Setting} (hplain : setting.IsPlain)
    {starts : Option (Lexeme → Bool)} {element elementMirror : Setting → Parser α}
    (helement : ∀ {opening : Expectation}, opening.IsPlain →
      MirrorsAmid tail opening setting.behind (element (setting.openedBy opening))
        (elementMirror (setting.openedBy opening)))
    {behind : Cursor → Prop} (hbehind : ∀ {cursor}, behind cursor → cursor.Sees tail setting.behind)
    (hend : ∀ test, starts = some test → ∀ {cursor : Cursor}, behind cursor →
      test (cursor.ahead setting.orEnd).lexeme = false → cursor.Sees tail setting.orEnd) :
    Mirrors tail (Sees tail setting.opening) (fun _ => behind)
      (separated setting starts element) (separated setting starts elementMirror) := by
  refine (helement hplain.opening).bind fun first => ?_
  refine mirrors_loop (fun _ => Sees tail setting.behind) fun read => ?_
  have hdone {state : List α} : Mirrors tail (Sees tail setting.behind)
      (Sum.elim (fun _ => Sees tail setting.behind) (fun _ => behind))
      (done state : Parser (List α ⊕ List α)) (done state) := mirrors_pure hbehind
  apply mirrors_onNext hplain.behind.flattens
  intro lexeme
  split
  · cases starts with
    | none =>
        exact .take trivial ((helement hplain.later.opening).bind fun _ => mirrors_pure id)
          Sees.precedes
    | some test =>
        refine .take trivial (mirrors_onNext hplain.orEnd.flattens fun lexeme => ?_) Sees.precedes
        split
        · exact .stay ((helement hplain.orEnd).bind fun _ => mirrors_pure id)
        · rename_i hstarts
          refine .leave (mirrors_pure id) fun he hafter => hend test rfl hafter ?_
          rw [he]
          simpa using hstarts
  · exact .stay hdone

/-- Where a string can start an element, a list ends in front of no quote. -/
theorem mirrors_list {setting : Setting} (hplain : setting.IsPlain)
    {starts : Lexeme → Bool} {element elementMirror : Setting → Parser α}
    (helement : ∀ {opening : Expectation}, opening.IsPlain →
      MirrorsAmid tail opening setting.behind (element (setting.openedBy opening))
        (elementMirror (setting.openedBy opening)))
    (hquote : ∀ delimiter, starts (.quote delimiter) = true) :
    MirrorsAmid tail setting.opening setting.behind (separated setting (some starts) element)
      (separated setting (some starts) elementMirror) := by
  refine mirrors_separated hplain helement id fun test he cursor hsees hend => ?_
  cases he
  refine hsees.orEnd rfl fun delimiter hquoted => ?_
  rw [hquoted, hquote] at hend
  cases hend

end Rules

end Parser

end CodeAtlas.Syntax
