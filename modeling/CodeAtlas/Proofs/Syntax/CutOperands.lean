import CodeAtlas.Proofs.Syntax.CutLevels

/-!
# Operands in cut texts

The parsers of operands are mirrored by themselves, given a level below that mirrors theirs. What is
behind a part of an operand has to be in sight, as a further part could stand there.
-/

namespace CodeAtlas.Syntax

open Cursor (Precedes Sees)
open Syntax.Parser (Mirrors MirrorsAmid MirrorsTo)

namespace Level

open Syntax.Parser

variable {tail : List Char} {lower mirror : Thunk Level} {setting flat : Setting}
  (h : lower.get.IsMirrored tail mirror.get)

include h

/-! ## Elements -/

omit h in
theorem mirrors_headed (wanted : Bool) :
    MirrorsAmid tail Setting.bracketed.behind Setting.bracketed.behind (headed wanted)
      (headed wanted) := by
  apply mirrors_onNext Setting.isPlain_bracketed.behind.flattens
  intro lexeme
  split
  · exact .stay (mirrors_pure id)
  · exact .stay mirrors_fail

omit h in
theorem run_headed {wanted : Bool} {cursor stop : Cursor} {read : Unit}
    (h : (headed wanted).run cursor = some (read, stop)) :
    [.word "for", .word "async", .symbol ":"].contains
      (cursor.ahead Setting.bracketed.behind).lexeme = wanted ∧ stop = cursor := by
  unfold headed at h
  rw [run_onNext] at h
  split at h
  · rename_i hturn
    split at hturn <;> cases hturn
  · rename_i hturn
    split at hturn <;> cases hturn
    · cases h
      exact ⟨‹_›, rfl⟩
    · cases h

theorem mirrors_spread :
    MirrorsAmid tail { quote := true } Setting.bracketed.behind (spread lower) (spread mirror) :=
  (h.whole Setting.isPlain_bracketed).bind fun _ =>
    (mirrors_headed false).bind fun _ => mirrors_pure id

theorem mirrors_plainElement (hplain : setting.IsPlain) :
    MirrorsAmid tail setting.opening setting.behind (plainElement lower setting)
      (plainElement mirror setting) :=
  (h.whole hplain).bind fun _ => mirrors_pure id

section Brackets

variable {opening : Expectation} (hopening : opening.IsPlain)

include hopening

/-- A starred expression in the head of a comprehension. -/
def starredHead (level : Thunk Level) (opening : Expectation) : Parser Unit := do
  symbol "*" opening
  let _ ← level.get.whole .bracketed
  headed true

omit h hopening in
/-- In the head of a comprehension, a star is not over the expression behind it. -/
theorem run_spread_eq_none {level : Thunk Level} {cursor stop : Cursor} {read : Unit}
    (h : (starredHead level opening).run cursor = some (read, stop)) :
    (do symbol "*" opening; spread level : Parser Element).run cursor = none := by
  obtain ⟨starred, behind, hstar, h⟩ := run_bind_eq_some.1 h
  obtain ⟨operand, point, hoperand, h⟩ := run_bind_eq_some.1 h
  have hhead := (run_headed h).1
  rw [Option.eq_none_iff_forall_not_mem]
  rintro ⟨element, last⟩ hspread
  obtain ⟨starred', behind', hstar', hspread⟩ := run_bind_eq_some.1 hspread
  obtain ⟨-, rfl⟩ := Prod.mk.inj (Option.some.inj (hstar'.symm.trans hstar))
  obtain ⟨operand', point', hoperand', hspread⟩ := run_bind_eq_some.1 hspread
  obtain ⟨-, rfl⟩ := Prod.mk.inj (Option.some.inj (hoperand'.symm.trans hoperand))
  obtain ⟨read', stop', hhead', -⟩ := run_bind_eq_some.1 hspread
  have hother := (run_headed hhead').1
  rw [hhead] at hother
  cases hother

omit h hopening in
theorem solid_of_headed {lexeme : Lexeme}
    (h : [.word "for", .word "async", .symbol ":"].contains lexeme = true) : lexeme.IsSolid := by
  simp only [List.contains_eq_mem, List.mem_cons, List.not_mem_nil, or_false,
    decide_eq_true_eq] at h
  rcases h with rfl | rfl | rfl <;> trivial

theorem mirrors_starredHead :
    MirrorsAmid tail opening Setting.bracketed.behind (starredHead lower opening)
      (starredHead mirror opening) :=
  (mirrors_symbol hopening _).bind fun _ =>
    (h.whole Setting.isPlain_bracketed).onward.bind fun _ => mirrors_headed true

theorem mirrors_starredElement :
    MirrorsAmid tail opening Setting.bracketed.behind
      (starredElement lower (Setting.bracketed.openedBy opening))
      (starredElement mirror (Setting.bracketed.openedBy opening)) := by
  have hspread : MirrorsAmid tail opening Setting.bracketed.behind
      (do symbol "*" opening; spread lower) (do symbol "*" opening; spread mirror) :=
    (mirrors_symbol hopening _).bind fun _ => (mirrors_spread h).onward
  have hplain := mirrors_plainElement h (Setting.isPlain_bracketed.openedBy hopening)
  constructor
  · intro cursor element stop hrun hafter
    rcases run_orElse_cases hrun with hrun | hrun
    · exact hspread.asks hrun hafter
    · obtain ⟨_, _, -, hrun, -⟩ := run_alongside_eq_some.1 hrun
      exact hplain.asks hrun hafter
  · intro cursor element stop cut hrun hafter hcut
    rcases run_orElse_cases hrun with hrun | hrun
    · obtain ⟨cutStop, hrunCut, hstop⟩ := hspread.mirrors hrun hafter hcut
      refine ⟨cutStop, ?_, hstop⟩
      unfold starredElement
      rw [run_orElse]
      exact Option.or_eq_some_iff.2 (.inl hrunCut)
    · obtain ⟨read, point, hhead, hrun, hoffset⟩ := run_alongside_eq_some.1 hrun
      have hplace : point.toPlace = stop.toPlace :=
        Cursor.place_of_offset (Parser.advances _ hhead) (Parser.advances _ hrun) hoffset
      have hpoint : point.Sees tail Setting.bracketed.behind := by
        obtain ⟨_, _, -, hbehind⟩ := run_bind_eq_some.1 hhead
        obtain ⟨_, _, -, hheaded⟩ := run_bind_eq_some.1 hbehind
        obtain ⟨hlexeme, rfl⟩ := run_headed hheaded
        exact hafter.of_place hplace (solid_of_headed hlexeme)
      obtain ⟨cutPoint, hheadCut, hpointCut⟩ :=
        (mirrors_starredHead h hopening).mirrors hhead hpoint hcut
      obtain ⟨cutStop, hrunCut, hstopCut⟩ := hplain.mirrors hrun hafter hcut
      refine ⟨cutStop, ?_, hstopCut⟩
      unfold starredElement
      rw [run_orElse]
      have hapart := hpointCut.offset_add_offset hstopCut (Parser.advances _ hhead)
        (Parser.advances _ hrun) (Parser.advances _ hheadCut) (Parser.advances _ hrunCut)
      exact Option.or_eq_some_iff.2 (.inr ⟨run_spread_eq_none hheadCut,
        run_alongside_eq_some.2 ⟨read, cutPoint, hheadCut, hrunCut, by omega⟩⟩)

theorem mirrors_element :
    MirrorsAmid tail opening Setting.bracketed.behind
      (element lower (Setting.bracketed.openedBy opening))
      (element mirror (Setting.bracketed.openedBy opening)) := by
  apply mirrors_onNext hopening.flattens
  intro lexeme
  split
  · exact .stay (mirrors_starredElement h hopening)
  · refine .stay ((mirrors_firstStar hopening).bind fun _ => ?_)
    exact (mirrors_spread h).asking fun hsees => ⟨hsees.precedes, hsees.lt⟩
  · exact .take trivial
      ((h.yielded Setting.isPlain_bracketed).bind fun _ => mirrors_pure id) Sees.precedes
  · exact .stay (mirrors_plainElement h (Setting.isPlain_bracketed.openedBy hopening))

theorem mirrors_plainArgument :
    MirrorsAmid tail opening Setting.bracketed.behind
      (plainArgument lower (Setting.bracketed.openedBy opening))
      (plainArgument mirror (Setting.bracketed.openedBy opening)) := by
  refine (h.whole (Setting.isPlain_bracketed.openedBy hopening)).bind fun operand => ?_
  apply mirrors_onNext Setting.isPlain_bracketed.behind.flattens
  intro lexeme
  split
  · rename_i hequals
    simp only [Bool.and_eq_true, decide_eq_true_eq] at hequals
    exact .take (hequals.1 ▸ trivial)
      ((h.callsIn Setting.isPlain_bracketed).bind fun _ => mirrors_pure id)
      Sees.precedes
  · exact .stay (mirrors_pure id)

theorem mirrors_argument :
    MirrorsAmid tail opening Setting.bracketed.behind
      (argument lower (Setting.bracketed.openedBy opening))
      (argument mirror (Setting.bracketed.openedBy opening)) := by
  apply mirrors_onNext hopening.flattens
  intro lexeme
  split
  · exact .stay (mirrors_starredElement h hopening)
  · exact .take trivial ((h.callsIn Setting.isPlain_bracketed).bind fun _ => mirrors_pure id)
      Sees.precedes
  · exact .stay (mirrors_plainArgument h hopening)

end Brackets

omit h in
theorem mirrors_moreElements {starts : Lexeme → Bool} {each eachMirror : Setting → Parser Element}
    (heach : ∀ {opening : Expectation}, opening.IsPlain →
      MirrorsAmid tail opening Setting.bracketed.behind
        (each (Setting.bracketed.openedBy opening))
        (eachMirror (Setting.bracketed.openedBy opening)))
    (hquote : ∀ delimiter, starts (.quote delimiter) = true) :
    MirrorsAmid tail Setting.bracketed.behind Setting.bracketed.behind (moreElements starts each)
      (moreElements starts eachMirror) := by
  apply mirrors_onNext Setting.isPlain_bracketed.behind.flattens
  intro lexeme
  split
  · refine .take trivial
      (mirrors_onNext Setting.isPlain_bracketed.orEnd.flattens fun lexeme => ?_) Sees.precedes
    split
    · exact .stay (mirrors_list (Setting.isPlain_bracketed.openedBy Setting.isPlain_bracketed.orEnd)
        (fun hopening => heach hopening) hquote)
    · rename_i hstarts
      refine .leave (mirrors_pure id) fun he hsees => hsees.orEnd he ?_
      rintro delimiter rfl
      exact hstarts (hquote delimiter)
  · exact .stay (mirrors_pure id)

/-! ## Comprehensions -/

theorem mirrors_iteration :
    MirrorsAmid tail { quote := true } Setting.bracketed.behind (iteration lower)
      (iteration mirror) := by
  refine (mirrors_list Setting.isPlain_inside
    (fun hopening => h.target (Setting.isPlain_inside.openedBy hopening)) fun _ => rfl).bind
      fun targets => ?_
  refine (mirrors_word Setting.isPlain_inside.behind _).bind fun _ => ?_
  exact (mirrors_list Setting.isPlain_bracketed
    (fun hopening => h.expression (Setting.isPlain_bracketed.openedBy hopening))
    fun _ => rfl).onward.bind
      fun sources => mirrors_pure id

theorem mirrors_comprehension :
    MirrorsAmid tail Setting.bracketed.behind Setting.bracketed.behind (comprehension lower)
      (comprehension mirror) := by
  have hiteration := (mirrors_iteration h).onward
  refine (mirrors_optionally_amid Setting.isPlain_bracketed.behind (by trivial)).bind fun _ => ?_
  refine (mirrors_word Setting.isPlain_bracketed.behind _).bind fun _ => ?_
  refine hiteration.bind fun first => ?_
  refine mirrors_loop (fun _ => Sees tail Setting.bracketed.behind) fun calls => ?_
  apply mirrors_onNext Setting.isPlain_bracketed.behind.flattens
  intro lexeme
  split
  · exact .take trivial (hiteration.bind fun _ => mirrors_pure id) id
  · exact .take trivial ((mirrors_word Setting.isPlain_inside.behind _).bind fun _ =>
      hiteration.bind fun _ => mirrors_pure id) Sees.precedes
  · exact .take trivial ((h.expression Setting.isPlain_bracketed).bind fun _ => mirrors_pure id)
      Sees.precedes
  · exact .stay (mirrors_pure id)

/-! ## Trailers -/

theorem mirrors_arguments (generators : Bool) :
    MirrorsTo tail Setting.bracketed.orEnd (arguments lower generators)
      (arguments mirror generators) := by
  have hclose {given : List Operand} :
      MirrorsTo tail Setting.bracketed.behind
        (do symbol ")" Setting.bracketed.behind; pure given)
        (do symbol ")" Setting.bracketed.behind; pure given) :=
    (mirrors_symbol Setting.isPlain_bracketed.behind _).bind fun _ => mirrors_pure id
  unfold arguments
  apply mirrors_onNext Setting.isPlain_bracketed.orEnd.flattens
  intro lexeme
  split
  · exact .take trivial (mirrors_pure id) id
  · exact .take trivial hclose Sees.precedes
  · refine .stay ((mirrors_argument h Setting.isPlain_bracketed.orEnd).bind fun first => ?_)
    refine @Mirrors.bind _ _ _ _ _ (fun _ => Sees tail Setting.bracketed.behind) _ _ _ _ ?_
      fun generator => ?_
    · apply mirrors_onNext Setting.isPlain_bracketed.behind.flattens
      intro lexeme
      split
      · exact .stay ((mirrors_require _).bind fun _ => (mirrors_comprehension h).bind fun _ =>
          mirrors_pure id)
      · exact .stay (mirrors_pure id)
    · cases generator with
      | some calls => exact hclose
      | none =>
          exact (mirrors_moreElements (fun hopening => mirrors_argument h hopening)
            fun _ => rfl).bind fun _ => hclose

theorem mirrors_sliceRest :
    MirrorsAmid tail Setting.bracketed.orEnd Setting.bracketed.behind (sliceRest lower)
      (sliceRest mirror) := by
  have hplain := Setting.isPlain_bracketed.openedBy Setting.isPlain_bracketed.orEnd
  refine (h.expression? hplain rfl).bind fun stop => ?_
  refine (mirrors_optionally hplain.behind (by trivial)).bind fun found => ?_
  cases found with
  | true => exact (h.expression? hplain rfl).onward.bind fun _ => mirrors_pure id
  | false => exact mirrors_pure id

theorem mirrors_subscript {opening : Expectation} (hopening : opening.IsPlain) :
    MirrorsAmid tail opening Setting.bracketed.behind
      (subscript lower (Setting.bracketed.openedBy opening))
      (subscript mirror (Setting.bracketed.openedBy opening)) := by
  apply mirrors_onNext hopening.flattens
  intro lexeme
  split
  · exact .take trivial (mirrors_sliceRest h) Sees.precedes
  · refine .stay ((h.callsIn (Setting.isPlain_bracketed.openedBy hopening)).bind fun start => ?_)
    apply mirrors_onNext Setting.isPlain_bracketed.behind.flattens
    intro lexeme
    split
    · exact .take trivial ((mirrors_sliceRest h).bind fun _ => mirrors_pure id) Sees.precedes
    · exact .stay (mirrors_pure id)

theorem mirrors_subscripts :
    MirrorsTo tail { quote := true } (subscripts lower) (subscripts mirror) :=
  (mirrors_list Setting.isPlain_bracketed (fun hopening => mirrors_subscript h hopening)
    fun _ => rfl).bind fun _ =>
      (mirrors_symbol Setting.isPlain_bracketed.behind _).bind fun _ => mirrors_pure id

theorem mirrors_trailer? {expected plain : Expectation} (hflat : plain.Flattens expected) :
    Mirrors tail (Sees tail expected)
      (fun trailer? stop =>
        if trailer?.isSome then stop.Precedes tail else stop.Sees tail expected)
      (trailer? lower expected) (trailer? mirror plain) := by
  apply mirrors_onNext hflat
  intro lexeme
  split
  · exact .take trivial ((mirrors_name Setting.isPlain_inside.behind).bind fun _ => mirrors_pure id)
      Sees.precedes
  · exact .take trivial ((mirrors_arguments h true).bind fun _ => mirrors_pure id) Sees.precedes
  · exact .take trivial ((mirrors_subscripts h).bind fun _ => mirrors_pure id) Sees.precedes
  · exact .stay (mirrors_pure id)

theorem mirrors_trailers (hflat : flat.Flattens setting) (chain : Chain) :
    Mirrors tail (Sees tail (setting.behindStars chain.stars))
      (fun chain : Chain => Sees tail (setting.behindStars chain.stars))
      (trailers lower setting chain) (trailers mirror flat chain) := by
  refine mirrors_loop (fun chain : Chain => Sees tail (setting.behindStars chain.stars))
    fun chain => ?_
  refine (mirrors_consumed (mirrors_trailer? h (hflat.behindStars chain.stars))).bind fun read => ?_
  obtain ⟨trailer?, text⟩ := read
  cases trailer? with
  | some trailer => exact mirrors_pure Sees.precedes
  | none => exact mirrors_pure id

/-! ## Brackets -/

omit h in
theorem mirrors_sequence (closer : String) (elements : List Element) :
    MirrorsTo tail Setting.bracketed.behind (sequence closer elements)
      (sequence closer elements) :=
  (mirrors_symbol Setting.isPlain_bracketed.behind _).bind fun _ => mirrors_pure id

theorem mirrors_collection (closer : String) :
    MirrorsTo tail Setting.bracketed.orEnd (collection lower closer)
      (collection mirror closer) := by
  apply mirrors_onNext Setting.isPlain_bracketed.orEnd.flattens
  intro lexeme
  split
  · rename_i he
    exact .take (he ▸ trivial) (mirrors_pure id) id
  · refine .stay ((mirrors_element h Setting.isPlain_bracketed.orEnd).bind fun first => ?_)
    apply mirrors_onNext Setting.isPlain_bracketed.behind.flattens
    intro lexeme
    split
    · exact .stay ((mirrors_comprehension h).bind fun _ =>
        (mirrors_symbol Setting.isPlain_bracketed.behind _).bind fun _ => mirrors_pure id)
    · exact .stay ((mirrors_moreElements (fun hopening => mirrors_element h hopening)
        fun _ => rfl).bind fun _ => mirrors_sequence ..)

theorem mirrors_moreEntries :
    MirrorsAmid tail Setting.bracketed.behind Setting.bracketed.behind (moreEntries lower)
      (moreEntries mirror) := by
  refine mirrors_loop (fun _ => Sees tail Setting.bracketed.behind) fun calls => ?_
  apply mirrors_onNext Setting.isPlain_bracketed.behind.flattens
  intro lexeme
  split
  · refine .take trivial (mirrors_onNext Setting.isPlain_bracketed.orEnd.flattens
      fun lexeme => ?_) Sees.precedes
    split
    · exact .take trivial ((h.callsIn Setting.isPlain_bracketed).bind fun _ => mirrors_pure id)
        Sees.precedes
    · split
      · refine .stay ((h.callsIn
          (Setting.isPlain_inside.openedBy Setting.isPlain_bracketed.orEnd)).bind fun key => ?_)
        refine (mirrors_symbol Setting.isPlain_inside.behind _).bind fun _ => ?_
        exact (h.callsIn Setting.isPlain_bracketed).onward.bind fun _ => mirrors_pure id
      · rename_i hstarts
        refine .leave (mirrors_pure id) fun he hsees => hsees.orEnd he ?_
        rintro delimiter rfl
        exact hstarts rfl
  · exact .stay (mirrors_pure id)

theorem mirrors_braces :
    MirrorsTo tail Setting.bracketed.orEnd (braces lower) (braces mirror) := by
  have hclose {given : Operand} :
      MirrorsTo tail Setting.bracketed.behind
        (do symbol "\x7d" Setting.bracketed.behind; pure given)
        (do symbol "\x7d" Setting.bracketed.behind; pure given) :=
    (mirrors_symbol Setting.isPlain_bracketed.behind _).bind fun _ => mirrors_pure id
  unfold braces
  apply mirrors_onNext Setting.isPlain_bracketed.orEnd.flattens
  intro lexeme
  split
  · exact .take trivial (mirrors_pure id) id
  · exact .take trivial hclose Sees.precedes
  · exact .take trivial ((h.callsIn Setting.isPlain_bracketed).bind fun _ =>
      (mirrors_moreEntries h).bind fun _ => hclose) Sees.precedes
  · refine .stay ((mirrors_element h Setting.isPlain_bracketed.orEnd).bind fun first => ?_)
    apply mirrors_onNext Setting.isPlain_bracketed.behind.flattens
    intro lexeme
    split
    · rename_i hcolon
      simp only [Bool.and_eq_true, decide_eq_true_eq] at hcolon
      refine .take (hcolon.1 ▸ trivial) ((h.callsIn Setting.isPlain_bracketed).bind
        fun value => ?_) Sees.precedes
      apply mirrors_onNext Setting.isPlain_bracketed.behind.flattens
      intro lexeme
      split
      · exact .stay ((mirrors_comprehension h).bind fun _ => hclose)
      · exact .stay ((mirrors_moreEntries h).bind fun _ => hclose)
    · split
      · exact .stay ((mirrors_comprehension h).bind fun _ => hclose)
      · exact .stay ((mirrors_moreElements (fun hopening => mirrors_element h hopening)
          fun _ => rfl).bind fun _ => hclose)

/-! ## Operands -/

/-- The stars that are left when a name carries one. -/
def starsBehind (base : Operand) (stars : Nat) : Nat :=
  if base.isName then stars - 1 else stars

omit h in
theorem stars_chain (front : Front) : front.chain.stars = starsBehind front.base front.stars := by
  obtain ⟨base, stars, text⟩ := front
  unfold Front.chain starsBehind
  dsimp only
  split
  · split <;> rfl
  · split <;> rfl
  · rfl

theorem mirrors_atom (hflat : flat.Flattens setting) (stars : Nat) :
    Mirrors tail (Sees tail setting.opening)
      (fun base => Sees tail (setting.behindStars (starsBehind base stars)))
      (atom lower setting stars) (atom mirror flat stars) := by
  apply mirrors_onNext ⟨hflat.isPlain.opening, hflat.opening⟩
  intro lexeme
  unfold atomTurn
  split
  · exact .take trivial (mirrors_pure id) Sees.precedes
  · exact .take trivial (mirrors_pure id) Sees.precedes
  · exact .take trivial ((mirrors_strings h _ (hflat.behindStars stars)).bind fun _ =>
      mirrors_pure id) id
  · exact .take trivial (((mirrors_collection h ")").given Sees.precedes).onward) id
  · exact .take trivial (((mirrors_collection h "]").given Sees.precedes).onward) id
  · exact .take trivial (((mirrors_braces h).given Sees.precedes).onward) id
  · refine .take trivial (mirrors_onNext (hflat.behindStars (stars - 1)).withQuote
      fun lexeme => ?_) Sees.precedes
    split
    · exact .leave mirrors_fail fun _ => id
    · rename_i hawaited
      refine .leave (mirrors_pure id) fun he hsees => ?_
      refine Sees.withQuote hsees fun delimiter hquoted => hawaited ?_
      rw [← he, hquoted]
      rfl
  · split
    · exact .take trivial (mirrors_pure Sees.precedes) id
    · split
      · exact .take trivial (mirrors_pure Sees.precedes) id
      · exact .leave mirrors_fail fun _ => id
  · exact .leave mirrors_fail fun _ => id

omit h in
theorem mirrors_moreStars (count : Nat) :
    MirrorsAmid tail { quote := true } { quote := true } (moreStars count) (moreStars count) := by
  refine mirrors_loop (fun _ => Sees tail { quote := true }) fun count => ?_
  apply mirrors_onNext Setting.isPlain_inside.opening.flattens
  intro lexeme
  split
  · exact .take trivial (mirrors_pure id) Sees.precedes
  · exact .take trivial (mirrors_pure id) Sees.precedes
  · exact .stay (mirrors_pure id)

theorem mirrors_starredAtom (hflat : flat.Flattens setting) (count : Nat) :
    Mirrors tail (Sees tail { quote := true })
      (fun read => Sees tail (setting.behindStars (starsBehind read.1 read.2)))
      (starredAtom lower setting count) (starredAtom mirror flat count) :=
  (mirrors_moreStars count).bind fun count =>
    (mirrors_atom h hflat.later count).bind fun _ => mirrors_pure id

theorem mirrors_frontParts (hflat : flat.Flattens setting) :
    Mirrors tail (Sees tail setting.opening)
      (fun read => Sees tail (setting.behindStars (starsBehind read.1 read.2)))
      (frontParts lower setting) (frontParts mirror flat) := by
  apply mirrors_onNext ⟨hflat.isPlain.opening, hflat.opening⟩
  intro lexeme
  split
  · exact .take trivial (mirrors_starredAtom h hflat 1) Sees.precedes
  · exact .take trivial (mirrors_starredAtom h hflat 2) Sees.precedes
  · exact .stay ((mirrors_atom h hflat 0).bind fun _ => mirrors_pure id)

theorem mirrors_front (hflat : flat.Flattens setting) :
    Mirrors tail (Sees tail setting.opening)
      (fun front => Sees tail (setting.behindStars front.chain.stars)) (front lower setting)
      (front mirror flat) := by
  refine (mirrors_withText ⟨hflat.isPlain.opening, hflat.opening⟩
    (mirrors_frontParts h hflat)).bind fun read => mirrors_pure fun hsees => ?_
  rwa [stars_chain] at hsees

theorem mirrors_operandBehind (hflat : flat.Flattens setting) (chain : Chain) :
    Mirrors tail (Sees tail (setting.behindStars chain.stars)) (fun _ => Sees tail setting.behind)
      (operandBehind lower setting chain) (operandBehind mirror flat chain) := by
  refine (mirrors_trailers h hflat chain).bind fun chain => ?_
  refine (mirrors_require_of fun hstars hsees => ?_).bind fun _ => mirrors_pure id
  rwa [of_decide_eq_true hstars]

theorem mirrors_operand (hplain : setting.IsPlain) :
    MirrorsAmid tail setting.opening setting.behind (operand lower setting)
      (operand mirror setting) :=
  (mirrors_front h hplain.flattens).bind fun front =>
    mirrors_operandBehind h hplain.flattens front.chain

theorem mirrors_targetOperand (hplain : setting.IsPlain) :
    MirrorsAmid tail setting.opening setting.behind (targetOperand lower setting)
      (targetOperand mirror setting) :=
  (mirrors_operand h hplain).bind fun _ => (mirrors_require _).bind fun _ => mirrors_pure id

end Level

end CodeAtlas.Syntax
