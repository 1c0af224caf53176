import CodeAtlas.Proofs.Syntax.CutExpressions

/-!
# Calls read from their texts

A call is read from its text alone, at any depth that is great enough: whatever stands around it,
its callee and the calls inside are those that its text gives. So calls of the same text are the
same. A text that begins with a call's operand is cut off behind the call for this; in front, nothing
of what was expected before matters to the operand.
-/

namespace CodeAtlas.Syntax

open Cursor (Precedes Sees)
open Syntax.Parser (Mirrors MirrorsTo)

namespace Cursor

variable {first second third : Cursor}

theorem Reaches.rest_eq (h : first.Reaches second) :
    first.rest = (first.textTo second.offset).toList ++ second.rest := by
  obtain ⟨count, h⟩ := h
  have hrest := Place.rest_skip count first.toPlace
  have hoffset := Place.offset_skip count first.toPlace
  rw [← h] at hrest hoffset
  rw [textTo, hrest, hoffset, Nat.add_sub_cancel_left, String.toList_ofList]
  rcases Nat.le_total count first.rest.length with hle | hle
  · rw [Nat.min_eq_left hle, List.take_append_drop]
  · rw [Nat.min_eq_right hle, List.take_length, List.drop_eq_nil_of_le hle, List.append_nil]

theorem Reaches.textTo_eq {text : String} (h : first.Reaches second)
    (hrest : first.rest = text.toList ++ second.rest) : first.textTo second.offset = text := by
  rw [h.rest_eq] at hrest
  exact String.toList_inj.1 (List.append_cancel_right hrest)

theorem Reaches.textTo_append (h : first.Reaches second) (hbehind : second.Reaches third) :
    first.textTo second.offset ++ second.textTo third.offset = first.textTo third.offset := by
  refine ((h.trans hbehind).textTo_eq ?_).symm
  rw [String.toList_append, List.append_assoc, ← hbehind.rest_eq, h.rest_eq]

/-- A word or a symbol is what is written between where it starts and stops. -/
theorem textTo_ahead {expected : Expectation} {cursor : Cursor} {text : String}
    (h : (cursor.ahead expected).lexeme = .word text ∨
      (cursor.ahead expected).lexeme = .symbol text) :
    (cursor.ahead expected).start.textTo (cursor.ahead expected).stop.offset = text := by
  have hstarts {chars : List Char} {lexeme : Lexeme} {length : Nat}
      (htext : Lexeme.textAt chars = (lexeme, length))
      (hlexeme : lexeme = .word text ∨ lexeme = .symbol text) :
      text.toList <+: chars ∧ length = text.length := by
    rcases hlexeme with rfl | rfl
    · obtain ⟨-, hstarts, hlength, -⟩ := Lexeme.textAt_eq_word htext
      exact ⟨hstarts, hlength⟩
    · obtain ⟨char, rest, sign, rfl, -, -, hsymbol, rfl⟩ := Lexeme.textAt_eq_symbol htext
      have hall : ∀ entry ∈ Lexeme.symbolTable, entry.1 = entry.2.toList := by decide
      have hsign : sign = text.toList := hall _ (List.mem_of_find?_eq_some hsymbol)
      rw [← String.length_toList, ← hsign]
      exact ⟨Lexeme.prefix_of_symbolAt hsymbol, rfl⟩
  have hne : (cursor.ahead expected).lexeme ≠ .unknown ∧
      (∀ token, (cursor.ahead expected).lexeme ≠ .layout token) ∧
      ∀ delimiter, (cursor.ahead expected).lexeme ≠ .quote delimiter := by
    rcases h with he | he <;> simp [he]
  obtain ⟨passed, length, -, hstart, htext, hstop⟩ :=
    ahead_text rfl hne.1 hne.2.1 hne.2.2
  obtain ⟨⟨rest, hrest⟩, rfl⟩ := hstarts htext h
  refine (cursor.start_reaches_stop expected).textTo_eq ?_
  rw [hstop, hstart, rest_skip _ (cursor.skip passed), ← hrest, ← String.length_toList,
    List.drop_left]

theorem textTo_infix (cursor : Cursor) (stop : Nat) :
    (cursor.textTo stop).toList <:+: cursor.rest := by
  rw [textTo, String.toList_ofList]
  exact (List.take_prefix ..).isInfix

/-- The start of a text in which loops have so much room. -/
def ofRoom (text : String) (room : Nat) : Cursor := { ofText text with extent := room }

theorem cut_ofRoom {text : String} {tail : List Char} {room : Nat}
    (hrest : first.rest = text.toList ++ tail) (hroom : first.extent - first.offset ≤ room) :
    first.Cut tail (ofRoom text room) :=
  ⟨hrest, rfl, hroom⟩

end Cursor

namespace Level

open Syntax.Parser

variable {tail : List Char} {lower mirror : Thunk Level} {setting flat : Setting}
  {cursor stop : Cursor} {chain : Chain}

/-! ## Fronts -/

theorem isSolid_of_atomTurn {stars : Nat} {lexeme : Lexeme} {next : Parser Operand}
    (h : atomTurn lower setting stars lexeme = .take next) : lexeme.IsSolid := by
  unfold atomTurn at h
  split at h <;> trivial

theorem eq_fail_of_atomTurn {stars : Nat} {lexeme : Lexeme} {next : Parser Operand}
    (h : atomTurn lower setting stars lexeme = .leave next) : next = fail := by
  unfold atomTurn at h
  split at h
  case h_8 =>
    split at h
    · cases h
    · split at h <;> cases h
      rfl
  all_goals cases h
  rfl

/-- Behind a word, an operand has ended. -/
theorem stop_of_atomTurn {stars : Nat} {text : String} {next : Parser Operand} {base : Operand}
    (h : atomTurn lower setting stars (.word text) = .take next)
    (hrun : next.run cursor = some (base, stop)) : stop = cursor := by
  unfold atomTurn at h
  split at h
  case h_7 =>
    cases h
    rcases run_onNext_cases hrun with ⟨next, hturn, -⟩ | ⟨next, hturn, hnext⟩
    · split at hturn <;> cases hturn
    · split at hturn <;> cases hturn
      · cases hnext
      · exact (run_pure_eq_some.1 hnext).2.symm
  case h_8 =>
    split at h
    · cases h
      exact (run_pure_eq_some.1 hrun).2.symm
    · split at h <;> cases h
      exact (run_pure_eq_some.1 hrun).2.symm
  all_goals contradiction

/-- An operand is read in the same way from where it starts. -/
theorem run_frontParts_start {parts : Operand × Nat}
    (h : (frontParts lower setting).run cursor = some (parts, stop))
    (hnext : ∀ char ∈ stop.rest.head?, char ∉ Lexeme.quotes) :
    (cursor.ahead setting.opening).start.ahead setting.later.opening =
      cursor.ahead setting.opening ∧
    (frontParts lower setting.later).run (cursor.ahead setting.opening).start =
      some (parts, stop) := by
  have hsymbol {text : String} (hlexeme : (cursor.ahead setting.opening).lexeme = .symbol text) :
      (cursor.ahead setting.opening).start.ahead setting.later.opening =
        cursor.ahead setting.opening := by
    refine Cursor.ahead_start (hlexeme ▸ trivial) fun word hword => ?_
    rw [hlexeme] at hword
    cases hword
  rcases run_onNext_cases h with ⟨next, hturn, hrun⟩ | ⟨next, hturn, hrun⟩
  · split at hturn <;> cases hturn
    all_goals
      rename_i hlexeme
      exact ⟨hsymbol hlexeme, (run_onNext_take (hsymbol hlexeme) (by rw [hlexeme]; rfl)).trans hrun⟩
  · split at hturn
    · cases hturn
    · cases hturn
    · rename_i hone htwo
      cases hturn
      obtain ⟨base, middle, hatom, hpure⟩ := run_bind_eq_some.1 hrun
      obtain ⟨rfl, rfl⟩ := run_pure_eq_some.1 hpure
      rcases run_onNext_cases hatom with ⟨next, hturn, hrun⟩ | ⟨next, hturn, hrun⟩
      · have hahead : (cursor.ahead setting.opening).start.ahead setting.later.opening =
            cursor.ahead setting.opening := by
          refine Cursor.ahead_start (isSolid_of_atomTurn hturn) fun word hword => ?_
          rw [hword] at hturn
          rw [← stop_of_atomTurn hturn hrun]
          exact hnext
        refine ⟨hahead, ?_⟩
        have hleave : (frontParts lower setting.later).run (cursor.ahead setting.opening).start =
            (do pure (← atom lower setting.later 0, 0)).run
              (cursor.ahead setting.opening).start := by
          refine run_onNext_leave ?_
          rw [hahead]
          split
          · exact absurd ‹_› hone
          · exact absurd ‹_› htwo
          · rfl
        rw [hleave]
        exact run_bind_eq_some.2 ⟨base, middle, (run_onNext_take hahead hturn).trans hrun, rfl⟩
      · rw [eq_fail_of_atomTurn hturn] at hrun
        cases hrun

theorem start_reaches_of_frontParts {parts : Operand × Nat}
    (h : (frontParts lower setting).run cursor = some (parts, stop)) :
    (cursor.ahead setting.opening).start.Reaches stop := by
  have hstart := cursor.start_reaches_stop setting.opening
  rcases run_onNext_cases h with ⟨next, hturn, hrun⟩ | ⟨next, hturn, hrun⟩
  · exact hstart.trans (next.advances hrun)
  · split at hturn <;> cases hturn
    obtain ⟨base, middle, hatom, hpure⟩ := run_bind_eq_some.1 hrun
    obtain ⟨rfl, rfl⟩ := run_pure_eq_some.1 hpure
    rcases run_onNext_cases hatom with ⟨next, hturn, hrun⟩ | ⟨next, hturn, hrun⟩
    · exact hstart.trans (next.advances hrun)
    · rw [eq_fail_of_atomTurn hturn] at hrun
      cases hrun

theorem run_front_eq_some {front : Front} :
    (Level.front lower setting).run cursor = some (front, stop) ↔
      (frontParts lower setting).run cursor = some ((front.base, front.stars), stop) ∧
        front.text = (cursor.ahead setting.opening).start.textTo stop.offset := by
  constructor
  · intro h
    obtain ⟨⟨parts, text⟩, middle, hparts, h⟩ := run_bind_eq_some.1 h
    obtain ⟨rfl, rfl⟩ := run_pure_eq_some.1 h
    exact run_withText_eq_some.1 hparts
  · rintro ⟨hparts, htext⟩
    exact run_bind_eq_some.2
      ⟨((front.base, front.stars), front.text), stop, run_withText_eq_some.2 ⟨hparts, htext⟩, rfl⟩

theorem run_front_start {front : Front}
    (h : (Level.front lower setting).run cursor = some (front, stop))
    (hnext : ∀ char ∈ stop.rest.head?, char ∉ Lexeme.quotes) :
    (Level.front lower setting.later).run (cursor.ahead setting.opening).start =
      some (front, stop) := by
  obtain ⟨hparts, htext⟩ := run_front_eq_some.1 h
  obtain ⟨hahead, hstart⟩ := run_frontParts_start hparts hnext
  exact run_front_eq_some.2 ⟨hstart, by rw [hahead, htext]⟩

/-! ## Trailers -/

/-- So many trailers, given what may stand behind so many stars. -/
def extended (lower : Thunk Level) (behind : Nat → Expectation) : Nat → Chain → Parser Chain
  | 0, chain => pure chain
  | rounds + 1, chain => do
      let (trailer?, text) ← consumed (trailer? lower (behind chain.stars))
      match trailer? with
      | some trailer => extended lower behind rounds (chain.extend trailer text)
      | none => fail

variable {behind plain : Nat → Expectation} {rounds : Nat}

theorem run_extended_succ_eq_some {given : Chain} :
    (extended lower behind (rounds + 1) given).run cursor = some (chain, stop) ↔
      ∃ trailer middle, (trailer? lower (behind given.stars)).run cursor =
          some (some trailer, middle) ∧
        (extended lower behind rounds (given.extend trailer
          (cursor.textTo middle.offset))).run middle = some (chain, stop) := by
  constructor
  · intro h
    obtain ⟨⟨trailer?, text⟩, middle, hread, h⟩ := run_bind_eq_some.1 h
    obtain ⟨htrailer, rfl⟩ := run_consumed_eq_some.1 hread
    cases trailer? with
    | none => cases h
    | some trailer => exact ⟨trailer, middle, htrailer, h⟩
  · rintro ⟨trailer, middle, htrailer, h⟩
    exact run_bind_eq_some.2 ⟨_, middle, run_consumed_eq_some.2 ⟨htrailer, rfl⟩, h⟩

/-- One trailer more. -/
theorem run_extended_append {given : Chain} {middle : Cursor} {trailer : Trailer}
    (h : (extended lower behind rounds given).run cursor = some (chain, middle))
    (htrailer : (trailer? lower (behind chain.stars)).run middle = some (some trailer, stop)) :
    (extended lower behind (rounds + 1) given).run cursor =
      some (chain.extend trailer (middle.textTo stop.offset), stop) := by
  induction rounds generalizing given cursor with
  | zero =>
      obtain ⟨rfl, rfl⟩ := run_pure_eq_some.1 h
      exact run_extended_succ_eq_some.2 ⟨trailer, stop, htrailer, rfl⟩
  | succ rounds ih =>
      obtain ⟨first, point, hfirst, h⟩ := run_extended_succ_eq_some.1 h
      exact run_extended_succ_eq_some.2 ⟨first, point, hfirst, ih h⟩

/-- At the end of a text, there is no further trailer. -/
theorem trailer?_of_rest_eq_nil {expected : Expectation} {trailer : Trailer}
    (hrest : cursor.rest = []) :
    (trailer? lower expected).run cursor ≠ some (some trailer, stop) := by
  intro h
  have hsolid : ¬ (cursor.ahead expected).lexeme.IsSolid := by
    intro hsolid
    have hlt := Cursor.lt_of_aheadFuel hsolid
    rw [hrest] at hlt
    simp at hlt
  rcases run_onNext_cases h with ⟨next, hturn, hrun⟩ | ⟨next, hturn, hrun⟩
  · split at hturn
    case h_4 => cases hturn
    all_goals
      rename_i hlexeme
      rw [hlexeme] at hsolid
      exact hsolid trivial
  · split at hturn <;> cases hturn
    cases (run_pure_eq_some.1 hrun).1

theorem extended_eq {given other : Chain} {more : Nat} {last : Cursor} (hle : rounds ≤ more)
    (h : (extended lower behind rounds given).run cursor = some (chain, stop))
    (hrest : stop.rest = [])
    (hother : (extended lower behind more given).run cursor = some (other, last)) :
    chain = other := by
  induction rounds generalizing more given cursor with
  | zero =>
      obtain ⟨rfl, rfl⟩ := run_pure_eq_some.1 h
      cases more with
      | zero => exact (run_pure_eq_some.1 hother).1
      | succ more =>
          obtain ⟨trailer, middle, htrailer, -⟩ := run_extended_succ_eq_some.1 hother
          exact absurd htrailer (trailer?_of_rest_eq_nil hrest)
  | succ rounds ih =>
      obtain ⟨more, rfl⟩ := Nat.exists_eq_add_of_le' (Nat.le_trans (Nat.le_add_left 1 _) hle)
      obtain ⟨trailer, middle, htrailer, h⟩ := run_extended_succ_eq_some.1 h
      obtain ⟨trailer', middle', htrailer', hother⟩ := run_extended_succ_eq_some.1 hother
      rw [htrailer] at htrailer'
      cases htrailer'
      exact ih (Nat.le_of_succ_le_succ hle) h hother

theorem mirrors_extended_succ (h : lower.get.IsMirrored tail mirror.get)
    (hflat : ∀ stars, (plain stars).Flattens (behind stars)) (given : Chain) :
    MirrorsTo tail (behind given.stars) (extended lower behind (rounds + 1) given)
      (extended mirror plain (rounds + 1) given) := by
  induction rounds generalizing given with
  | zero =>
      refine (mirrors_consumed (mirrors_trailer? h (hflat _))).bind fun read => ?_
      obtain ⟨trailer?, text⟩ := read
      cases trailer? with
      | some trailer => exact mirrors_pure id
      | none => exact mirrors_fail
  | succ rounds ih =>
      refine (mirrors_consumed (mirrors_trailer? h (hflat _))).bind fun read => ?_
      obtain ⟨trailer?, text⟩ := read
      cases trailer? with
      | some trailer => exact (ih _).onward
      | none => exact mirrors_fail

/-- An operand with so many trailers. -/
def reading (lower : Thunk Level) (setting : Setting) (rounds : Nat) : Parser Chain := do
  let front ← front lower setting
  extended lower setting.behindStars rounds front.chain

theorem mirrors_reading_succ (h : lower.get.IsMirrored tail mirror.get)
    (hflat : flat.Flattens setting) :
    MirrorsTo tail setting.opening (reading lower setting (rounds + 1))
      (reading mirror flat (rounds + 1)) :=
  (mirrors_front h hflat).bind fun front =>
    mirrors_extended_succ h (fun stars => hflat.behindStars stars) front.chain

def below (depth : Nat) : Thunk Level := ⟨fun _ => ofDepth depth⟩

theorem isMirrored_below {depth deeper : Nat} (hle : depth ≤ deeper) :
    (below depth).get.IsMirrored tail (below deeper).get :=
  isMirrored_ofDepth hle

/-- The chain is what a text gives at every depth that is great enough. -/
def Chain.IsReadFrom (text : String) (chain : Chain) : Prop :=
  ∃ bound rounds, ∀ depth room, bound ≤ depth → bound ≤ room →
    ∃ stop, (reading (below depth) .inside rounds).run (.ofRoom text room) =
      some (chain, stop) ∧ stop.rest = []

theorem Chain.IsReadFrom.eq {text : String} {other : Chain} (h : chain.IsReadFrom text)
    (hother : other.IsReadFrom text) : chain = other := by
  obtain ⟨bound, rounds, h⟩ := h
  obtain ⟨least, more, hother⟩ := hother
  obtain ⟨stop, hrun, hrest⟩ := h (max bound least) (max bound least) (by omega) (by omega)
  obtain ⟨last, hotherRun, hlast⟩ :=
    hother (max bound least) (max bound least) (by omega) (by omega)
  obtain ⟨front, middle, hfront, hrun⟩ := run_bind_eq_some.1 hrun
  obtain ⟨front', middle', hfront', hotherRun⟩ := run_bind_eq_some.1 hotherRun
  rw [hfront] at hfront'
  cases hfront'
  rcases Nat.le_total rounds more with hle | hle
  · exact extended_eq hle hrun hrest hotherRun
  · exact (extended_eq hle hotherRun hlast hrun).symm

/-- What is read as an operand with trailers is read so from its text alone. -/
theorem isReadFrom_of_run {depth : Nat} {front : Front} {middle : Cursor}
    (hfront : (Level.front (below depth) setting).run cursor = some (front, middle))
    (hextended : (extended (below depth) setting.behindStars (rounds + 1)
      front.chain).run middle = some (chain, stop)) :
    chain.IsReadFrom ((cursor.ahead setting.opening).start.textTo stop.offset) := by
  have hflat : Setting.inside.Flattens setting.later := ⟨Setting.isPlain_inside, rfl⟩
  have hsees : middle.Sees stop.rest (setting.behindStars front.chain.stars) :=
    (mirrors_extended_succ (isMirrored_below (Nat.le_refl depth))
      (fun stars => hflat.behindStars stars) front.chain).asks hextended (List.suffix_refl _)
  have hquote : (setting.behindStars front.chain.stars).quote = false := by
    unfold Setting.behindStars
    split <;> rfl
  have hstart := run_front_start hfront (Cursor.head_not_mem_quotes hsees.solid hquote)
  have hreading : (reading (below depth) setting.later (rounds + 1)).run
      (cursor.ahead setting.opening).start = some (chain, stop) :=
    run_bind_eq_some.2 ⟨front, middle, hstart, hextended⟩
  generalize (cursor.ahead setting.opening).start = start at hreading ⊢
  refine ⟨max depth (start.extent - start.offset), rounds + 1, fun deeper room hdepth hroom => ?_⟩
  have hcut : start.Cut stop.rest (.ofRoom (start.textTo stop.offset) room) :=
    Cursor.cut_ofRoom (Parser.advances _ hreading).rest_eq (by omega)
  obtain ⟨cutStop, hrun, hstop⟩ :=
    (mirrors_reading_succ (isMirrored_below (show depth ≤ deeper by omega)) hflat).mirrors
      hreading (List.suffix_refl _) hcut
  exact ⟨cutStop, hrun, List.append_left_eq_self.1 hstop.rest.symm⟩

end Level

end CodeAtlas.Syntax
