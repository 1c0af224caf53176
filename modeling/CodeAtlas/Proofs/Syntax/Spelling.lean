import CodeAtlas.Proofs.Syntax.Alike
import CodeAtlas.Proofs.Syntax.Words
import CodeAtlas.Syntax.Import

/-!
# Spellings of a module

A module that a statement names behind points can be named behind a chain of identifiers as well. The
chain and the module are read as one dotted name, and what follows is read as before, so the two
statements import the same names and stop with the same ahead of them. Only a statement that starts
with `__future__` is read as another one.
-/

namespace CodeAtlas.Syntax

open Text.Identifier (isStart)

/-! ## Reading text alone -/

namespace Parser

variable {α β σ : Type}

/-- The parser passes over text and leaves the open blocks as they are. -/
def Passes (parser : Parser α) : Prop :=
  ∀ ⦃cursor value stop⦄, parser.run cursor = some (value, stop) → ∃ count, stop = cursor.skip count

theorem passes_fail : (fail : Parser α).Passes := by
  intro cursor value stop hrun
  cases hrun

theorem passes_pure (value : α) : (pure value : Parser α).Passes := by
  intro cursor read stop hrun
  obtain ⟨-, rfl⟩ := run_pure_eq_some.1 hrun
  exact ⟨0, rfl⟩

theorem Passes.bind {parser : Parser β} {next : β → Parser α} (h : parser.Passes)
    (hnext : ∀ value, (next value).Passes) : (parser >>= next).Passes := by
  intro cursor value stop hrun
  obtain ⟨read, middle, hread, hrun⟩ := run_bind_eq_some.1 hrun
  obtain ⟨first, rfl⟩ := h hread
  obtain ⟨second, rfl⟩ := hnext read hrun
  exact ⟨first + second, Cursor.skip_skip first second cursor⟩

/-- A turn that takes nothing but words and symbols. -/
def Turn.Passes (turn : Turn α) (lexeme : Lexeme) : Prop :=
  match turn with
  | .take next => (∃ text, lexeme = .word text ∨ lexeme = .symbol text) ∧ next.Passes
  | .leave next => next.Passes

theorem passes_onNext {expected : Expectation} {turn : Lexeme → Turn α}
    (h : ∀ lexeme, (turn lexeme).Passes lexeme) : (onNext expected turn).Passes := by
  intro cursor value stop hrun
  have hturn := h (cursor.ahead expected).lexeme
  rw [run_onNext] at hrun
  split at hrun
  · rename_i next he
    rw [he] at hturn
    obtain ⟨⟨text, htext⟩, hnext⟩ := hturn
    have hahead : ∃ passed, (cursor.ahead expected).stop = cursor.skip passed := by
      rcases htext with htext | htext
      all_goals
        obtain ⟨passed, length, -, -, -, hstop⟩ :=
          Cursor.ahead_text htext (by simp) (by simp) (by simp)
        exact ⟨passed + length, by rw [hstop, Cursor.skip_skip]⟩
    obtain ⟨passed, hahead⟩ := hahead
    obtain ⟨count, rfl⟩ := hnext hrun
    exact ⟨passed + count, by rw [hahead, Cursor.skip_skip]⟩
  · rename_i next he
    rw [he] at hturn
    exact hturn hrun

theorem passes_loop {state : σ} {step : σ → Parser (σ ⊕ α)} (h : ∀ state, (step state).Passes) :
    (loop state step).Passes := by
  intro cursor value stop hrun
  refine loopRun_induct (fun _ reached => ∃ count, reached = cursor.skip count)
    (fun _ reached => ∃ count, reached = cursor.skip count) ?_ ?_ cursor.fuel ⟨0, rfl⟩ hrun
  all_goals
    rintro state _ read stop ⟨before, rfl⟩ hstep
    obtain ⟨count, rfl⟩ := h state hstep
    exact ⟨before + count, Cursor.skip_skip before count cursor⟩

theorem passes_written {expected : Expectation} {parser : Parser α} (h : parser.Passes) :
    (written expected parser).Passes := by
  intro cursor text stop hrun
  obtain ⟨⟨value, hvalue⟩, -⟩ := run_written_eq_some.1 hrun
  exact h hvalue

theorem passes_name (expected : Expectation) : (name expected).Passes := by
  apply passes_onNext
  intro lexeme
  split
  · split
    · exact ⟨⟨_, .inl rfl⟩, passes_pure _⟩
    · exact passes_fail
  · exact passes_fail

end Parser

namespace Import

open Syntax.Parser

variable {cursor stop : Cursor} {level : Nat} {module : String} {names : List ImportedName}
  {forest : Forest}

/-! ## Dotted names -/

def nameBehindPoint (_ : Unit) : Parser (Unit ⊕ Unit) :=
  onNext {} fun
    | .symbol "." => .take do
        let _ ← name
        again ()
    | _ => .leave (done ())

theorem run_dottedName_eq_some {text : String} :
    (dottedName (Setting.inside.openedBy {})).run cursor = some (text, stop) ↔
      (∃ first middle, (name {}).run cursor = some (first, middle) ∧
        loopRun nameBehindPoint middle.fuel () middle = some ((), stop)) ∧
      text = (cursor.ahead {}).start.textTo stop.offset := by
  rw [dottedName, run_written_eq_some]
  refine and_congr_left fun _ => ?_
  constructor
  · rintro ⟨_, h⟩
    exact run_bind_eq_some.1 h
  · intro h
    exact ⟨(), run_bind_eq_some.2 h⟩

theorem isUniform_nameBehindPoint (state : Unit) : (nameBehindPoint state).IsUniform := by
  apply isUniform_onNext
  intro lexeme
  split
  · exact (isUniform_name _).bind fun _ => isUniform_pure _
  · exact isUniform_pure _

theorem passes_nameBehindPoint (state : Unit) : (nameBehindPoint state).Passes := by
  apply passes_onNext
  intro lexeme
  split
  · exact ⟨⟨_, .inr rfl⟩, (passes_name _).bind fun _ => passes_pure _⟩
  · exact passes_pure _

theorem passes_points : points.Passes := by
  apply passes_written
  apply passes_loop
  intro state
  apply passes_onNext
  intro lexeme
  split
  · exact ⟨⟨_, .inr rfl⟩, passes_pure _⟩
  · exact ⟨⟨_, .inr rfl⟩, passes_pure _⟩
  · exact passes_pure _

/-! ## Chains -/

/-- The names of a chain, each with a point behind it. -/
def dotted (chain : List String) : List Char := chain.flatMap fun name => name.toList ++ ['.']

theorem toList_intercalate (chain : List String) (module : String) :
    (".".intercalate (chain ++ [module])).toList = dotted chain ++ module.toList := by
  induction chain with
  | nil => simp [dotted, String.intercalate_singleton]
  | cons name rest ih =>
      rw [List.cons_append, String.intercalate_cons_of_ne_nil (by simp), String.toList_append,
        String.toList_append, ih]
      simp [dotted]

theorem dotted_cons_append (name : String) (names : List String) (tail : List Char) :
    dotted (name :: names) ++ tail = name.toList ++ '.' :: (dotted names ++ tail) := by
  simp [dotted]

theorem length_dotted_cons (name : String) (names : List String) :
    (dotted (name :: names)).length = name.length + 1 + (dotted names).length := by
  rw [dotted, dotted, List.flatMap_cons, List.length_append, List.length_append,
    String.length_toList]
  rfl

section Chain

variable {chain : List String} {gap length : Nat} {char : Char} {rest : List Char} {word : String}

theorem exists_dotted_append (hchain : ∀ name ∈ chain, IsIdentifier name)
    (h : isStart char = true) (rest : List Char) :
    ∃ first others, dotted chain ++ char :: rest = first :: others ∧ isStart first = true := by
  cases chain with
  | nil => exact ⟨char, rest, rfl, h⟩
  | cons name names =>
      have hstart := (hchain name List.mem_cons_self).start
      rw [dotted_cons_append]
      cases hname : name.toList with
      | nil => simp [hname] at hstart
      | cons first others => exact ⟨first, _, rfl, by simpa [hname] using hstart⟩

theorem run_name_of_blanks {chars : List Char}
    (hrest : cursor.rest = List.replicate gap ' ' ++ chars)
    (htext : Lexeme.textAt chars = (.word word, length)) (hword : isName word = true) :
    (name {}).run cursor = some (word, (cursor.skip gap).skip length) := by
  obtain ⟨char, rest, rfl, hstart⟩ := Lexeme.isStart_of_textAt_eq_word htext
  rw [run_name_eq_some, Cursor.ahead_of_isStart hrest hstart, htext]
  exact ⟨rfl, hword, rfl⟩

theorem rest_skip_blanks {chars : List Char}
    (hrest : cursor.rest = List.replicate gap ' ' ++ chars) : (cursor.skip gap).rest = chars := by
  rw [Cursor.rest_skip, hrest, List.drop_left' (List.length_replicate ..)]

theorem run_nameBehindPoint {first : String} {middle : Cursor}
    (hrest : cursor.rest = '.' :: char :: rest) (hstart : isStart char = true)
    (hname : (name {}).run (cursor.skip 1) = some (first, middle)) :
    (nameBehindPoint ()).run cursor = some (.inl (), middle) := by
  have hahead : cursor.ahead {} = ⟨.symbol ".", cursor, cursor.skip 1⟩ := by
    have h := @Cursor.ahead_of_blanks cursor 0 _ _ hrest (by decide) (by decide) (by decide)
    rw [Lexeme.textAt_point hstart] at h
    exact h
  rw [nameBehindPoint, run_onNext, hahead]
  exact run_bind_eq_some.2 ⟨first, middle, hname, rfl⟩

/-- A chain in front of a word that starts a dotted name is read name by name, and then the loop goes
on as it would behind the word. -/
theorem run_chain (hchain : ∀ name ∈ chain, IsIdentifier name)
    (htext : Lexeme.textAt (char :: rest) = (.word word, length)) (hword : isName word = true)
    (hrest : cursor.rest = List.replicate gap ' ' ++ (dotted chain ++ char :: rest)) :
    ∃ first middle, (name {}).run cursor = some (first, middle) ∧
      (char :: rest).length - length + chain.length ≤ middle.rest.length ∧
      ∀ {rounds stop}, loopRun nameBehindPoint rounds ()
          ((cursor.skip (gap + (dotted chain).length)).skip length) = some ((), stop) →
        loopRun nameBehindPoint (rounds + chain.length) () middle = some ((), stop) := by
  obtain ⟨_, _, he, hstart⟩ := Lexeme.isStart_of_textAt_eq_word htext
  cases he
  induction chain generalizing cursor gap with
  | nil =>
      refine ⟨word, _, run_name_of_blanks hrest htext hword, ?_, fun h => h⟩
      apply Nat.le_of_eq
      rw [Cursor.rest_skip, rest_skip_blanks hrest, List.length_drop]
      rfl
  | cons name names ih =>
      rw [dotted_cons_append] at hrest
      have hname := hchain name List.mem_cons_self
      have hnames : ∀ other ∈ names, IsIdentifier other :=
        fun other hm => hchain other (List.mem_cons_of_mem name hm)
      have hrun := run_name_of_blanks hrest (hname.textAt_append _) hname.isName
      have hpoint : ((cursor.skip gap).skip name.length).rest =
          '.' :: (dotted names ++ char :: rest) := by
        rw [Cursor.rest_skip, rest_skip_blanks hrest, ← String.length_toList, List.drop_left]
      have hbehind : (((cursor.skip gap).skip name.length).skip 1).rest =
          List.replicate 0 ' ' ++ (dotted names ++ char :: rest) := by
        rw [Cursor.rest_skip, hpoint]
        rfl
      obtain ⟨first, middle, hnext, hroom, hloop⟩ := ih hnames hbehind
      obtain ⟨next, others, hnextChars, hnextStart⟩ := exists_dotted_append hnames hstart rest
      refine ⟨name, _, hrun, ?_, ?_⟩
      · obtain ⟨count, rfl⟩ := passes_name _ hnext
        rw [Cursor.rest_skip, hbehind, List.length_drop] at hroom
        rw [hpoint]
        simp only [List.replicate_zero, List.nil_append, List.length_cons] at hroom ⊢
        omega
      · intro rounds stop hloops
        have hcursor : (((cursor.skip gap).skip name.length).skip 1).skip
            (0 + (dotted names).length) = cursor.skip (gap + (dotted (name :: names)).length) := by
          rw [length_dotted_cons]
          simp only [Cursor.skip_skip]
          congr 1
          omega
        rw [← hcursor] at hloops
        rw [hnextChars] at hpoint
        have hstep := run_nameBehindPoint hpoint hnextStart hnext
        rw [List.length_cons, ← Nat.add_assoc, loopRun, hstep]
        exact hloop hloops

/-- The names of a chain and those behind them are read in one loop, which has enough rounds. -/
theorem run_loop_chain (hchain : ∀ name ∈ chain, IsIdentifier name) (hsound : cursor.IsSound)
    (htext : Lexeme.textAt (char :: rest) = (.word word, length)) (hword : isName word = true)
    (hrest : cursor.rest = List.replicate gap ' ' ++ (dotted chain ++ char :: rest))
    {rounds : Nat} (hrounds : rounds ≤ (char :: rest).length - length + 2)
    (hloop : loopRun nameBehindPoint rounds ()
      ((cursor.skip (gap + (dotted chain).length)).skip length) = some ((), stop)) :
    ∃ first middle, (name {}).run cursor = some (first, middle) ∧
      loopRun nameBehindPoint middle.fuel () middle = some ((), stop) := by
  obtain ⟨first, middle, hname, hroom, hloops⟩ := run_chain hchain htext hword hrest
  refine ⟨first, middle, hname, ?_⟩
  have hmiddle : middle.IsSound := by
    obtain ⟨count, rfl⟩ := passes_name _ hname
    exact hsound.skip count
  have hfuel : rounds + chain.length ≤ middle.fuel := by
    rw [hmiddle.fuel_eq]
    omega
  obtain ⟨more, hmore⟩ := Nat.exists_eq_add_of_le hfuel
  rw [hmore]
  exact loopRun_add (hloops hloop) more

theorem textTo_chain {after : List Char} {last : Cursor}
    (hrest : cursor.rest = List.replicate gap ' ' ++ (dotted chain ++ (module.toList ++ after)))
    (hlast : last.offset = (cursor.skip (gap + (dotted chain).length)).offset + module.length) :
    (cursor.skip gap).textTo last.offset = ".".intercalate (chain ++ [module]) := by
  have hdropped := rest_skip_blanks hrest
  have hlength : last.offset - (cursor.skip gap).offset =
      (dotted chain ++ module.toList).length := by
    rw [hlast, ← Cursor.skip_skip, Cursor.offset_skip (dotted chain).length, hdropped]
    simp only [List.length_append, String.length_toList]
    omega
  rw [← String.toList_inj, toList_intercalate, Cursor.textTo, String.toList_ofList, hlength,
    hdropped, ← List.append_assoc, List.take_left]

/-- The word in front is that of the chain, if there is one, whatever follows the first word. -/
theorem textAt_chain (hchain : ∀ name ∈ chain, IsIdentifier name) {chars others : List Char}
    (hchars : Lexeme.textAt chars = (.word word, length))
    (hothers : Lexeme.textAt others = (.word word, length)) :
    ∃ first width, Lexeme.textAt (dotted chain ++ chars) = (.word first, width) ∧
      Lexeme.textAt (dotted chain ++ others) = (.word first, width) := by
  cases chain with
  | nil => exact ⟨word, length, hchars, hothers⟩
  | cons name names =>
      have hname := hchain name List.mem_cons_self
      rw [dotted_cons_append, dotted_cons_append]
      exact ⟨name, name.length, hname.textAt_append _, hname.textAt_append _⟩

end Chain

/-! ## Dotted names behind chains -/

section Respelled

variable {front behind : Cursor}

theorem exists_word_of_run_dottedName
    (hrun : (dottedName (Setting.inside.openedBy {})).run front = some (module, behind)) :
    ∃ passed word length, (front.ahead {}).start = front.skip passed ∧
      (front.skip passed).rest = module.toList ++ behind.rest ∧
      behind.offset = (front.skip passed).offset + module.length ∧
      Lexeme.textAt (front.skip passed).rest = (.word word, length) ∧
      Lexeme.textAt module.toList = (.word word, length) ∧ isName word = true ∧
      loopRun nameBehindPoint ((front.skip passed).skip length).fuel ()
        ((front.skip passed).skip length) = some ((), behind) := by
  obtain ⟨⟨word, middle, hname, hloop⟩, hmodule⟩ := run_dottedName_eq_some.1 hrun
  obtain ⟨hlexeme, hword, rfl⟩ := run_name_eq_some.1 hname
  obtain ⟨passed, length, -, hstart, htext, hstop⟩ :=
    Cursor.ahead_text hlexeme (by simp) (by simp) (by simp)
  rw [hstop] at hloop
  have hpasses : (loop () nameBehindPoint).Passes := passes_loop passes_nameBehindPoint
  obtain ⟨count, hcount⟩ := hpasses hloop
  have hread : module.toList = (front.skip passed).rest.take (length + count) := by
    rw [hmodule, hstart, hcount, Cursor.skip_skip, Cursor.textTo, String.toList_ofList,
      Cursor.offset_skip, Nat.add_sub_cancel_left, ← List.take_eq_take_min]
  refine ⟨passed, word, length, hstart, ?_, ?_, htext, ?_, hword, hloop⟩
  · rw [hread, hcount, Cursor.skip_skip length, Cursor.rest_skip (length + count),
      List.take_append_drop]
  · rw [← String.length_toList, hread, List.length_take, hcount, Cursor.skip_skip length,
      Cursor.offset_skip]
  · rw [hread]
    exact Lexeme.textAt_take htext (Nat.le_add_right length count)

/-- Where a dotted name was read, it can be read behind a chain of identifiers too, and nothing
changes behind it. -/
theorem run_dottedName_chain {chain : List String} (hchain : ∀ name ∈ chain, IsIdentifier name)
    (hsound : front.IsSound)
    (hrun : (dottedName (Setting.inside.openedBy {})).run front = some (module, behind)) :
    (front.ahead {}).start.rest = module.toList ++ behind.rest ∧
    ∀ {gap : Nat} {other : Cursor}, other.IsSound →
      other.rest = List.replicate gap ' ' ++
        ((".".intercalate (chain ++ [module])).toList ++ behind.rest) →
      other.indents = front.indents → other.inFormat = front.inFormat →
      ∃ shift last, (dottedName (Setting.inside.openedBy {})).run other =
          some (".".intercalate (chain ++ [module]), last) ∧
        Cursor.Alike shift behind last ∧
        ∃ first, (other.ahead {}).lexeme = .word first ∧
          firstWord? (".".intercalate (chain ++ [module])) = some first := by
  obtain ⟨passed, word, length, hplace, hcut, hbehind, htext, hmodule, hword, hloop⟩ :=
    exists_word_of_run_dottedName hrun
  refine ⟨?_, ?_⟩
  · rw [hplace, hcut]
  · intro gap other hother hrest hindents hformat
    rw [toList_intercalate, List.append_assoc] at hrest
    have hsource := hsound.skip passed
    have halike := hsource.alike (hother.skip (gap + (dotted chain).length)) (by
      rw [hcut, ← Cursor.skip_skip, Cursor.rest_skip, rest_skip_blanks hrest, List.drop_left])
      hindents hformat
    obtain ⟨last, hlast, hstop⟩ :=
      isUniform_loopRun isUniform_nameBehindPoint (halike.skip length) hloop
    obtain ⟨first, width, hfirst, hcutFirst⟩ := textAt_chain hchain htext hmodule
    obtain ⟨char, rest, hchars, -⟩ := Lexeme.isStart_of_textAt_eq_word htext
    obtain ⟨_, _, hhead, hstart⟩ := Lexeme.isStart_of_textAt_eq_word hfirst
    have hfuel : ((front.skip passed).skip length).fuel ≤ (char :: rest).length - length + 2 := by
      apply Nat.le_of_eq
      rw [(hsource.skip length).fuel_eq, Cursor.rest_skip, hchars, List.length_drop]
    have hspelled : (other.skip gap).textTo last.offset = ".".intercalate (chain ++ [module]) := by
      apply textTo_chain hrest
      have hshift := hstop.offset
      omega
    rw [← hcut, hchars] at hrest
    rw [hchars] at htext hhead hfirst
    obtain ⟨start, middle, hname, hread⟩ :=
      run_loop_chain hchain hother htext hword hrest hfuel hlast
    have hahead := Cursor.ahead_of_isStart (hhead ▸ hrest) hstart
    refine ⟨_, last, run_dottedName_eq_some.2 ⟨⟨start, middle, hname, hread⟩, ?_⟩, hstop, first,
      ?_, ?_⟩
    · rw [hahead, hspelled]
    · rw [hahead, ← hhead, hfirst]
    · rw [firstWord?, toList_intercalate, hcutFirst]

end Respelled

/-! ## Statements -/

/-- The names a statement lists behind `import`; none for all names. -/
def listed : Parser (List ImportedName) :=
  onNext {} fun lexeme => if lexeme = .symbol "*" then .take (pure []) else .leave nameList

theorem membersOf_eq (level : Nat) (module : Option String) :
    membersOf level module = onNext {} fun lexeme =>
      if lexeme = .symbol "*" then .take (pure [.imports (.members level module [])])
      else .leave (do pure [.imports (.members level module (← nameList))]) := by
  refine congrArg (onNext {}) (funext fun lexeme => ?_)
  split
  · rfl
  · rename_i hstar
    rw [if_neg hstar]

theorem run_membersOf_eq_some {module : Option String} :
    (membersOf level module).run cursor = some (forest, stop) ↔
      ∃ names, listed.run cursor = some (names, stop) ∧
        forest = [.imports (.members level module names)] := by
  rw [membersOf_eq, listed, run_onNext, run_onNext]
  by_cases hstar : (cursor.ahead {}).lexeme = .symbol "*"
  · rw [if_pos hstar, if_pos hstar]
    simp only [run_pure_eq_some]
    constructor
    · rintro ⟨rfl, rfl⟩
      exact ⟨[], ⟨rfl, rfl⟩, rfl⟩
    · rintro ⟨names, ⟨rfl, rfl⟩, rfl⟩
      exact ⟨rfl, rfl⟩
  · rw [if_neg hstar, if_neg hstar]
    simp only [run_bind_eq_some, run_pure_eq_some]
    constructor
    · rintro ⟨names, middle, hnames, rfl, rfl⟩
      exact ⟨names, hnames, rfl⟩
    · rintro ⟨names, hnames, rfl⟩
      exact ⟨names, stop, hnames, rfl, rfl⟩

theorem isUniform_importedNames (setting : Setting) : (importedNames setting).IsUniform := by
  apply isUniform_separated
  intro setting
  have hdotted : (dottedName setting).IsUniform := by
    apply isUniform_written
    apply (isUniform_name _).bind
    intro first
    apply isUniform_loop
    intro state
    apply isUniform_onNext
    intro lexeme
    split
    · exact (isUniform_name _).bind fun _ => isUniform_pure _
    · exact isUniform_pure _
  apply hdotted.bind
  intro text
  apply isUniform_onNext
  intro lexeme
  split
  · exact (isUniform_name _).bind fun _ => isUniform_pure _
  · exact isUniform_pure _

theorem isUniform_listed : listed.IsUniform := by
  apply isUniform_onNext
  intro lexeme
  split
  · exact isUniform_pure _
  · apply isUniform_onNext
    intro lexeme
    split
    · apply (isUniform_importedNames _).bind
      intro names
      exact (isUniform_exactly _ _).bind fun _ => isUniform_pure _
    · exact isUniform_importedNames _

theorem run_of_relative (hlevel : level ≠ 0)
    (h : membersStatement.run cursor =
      some ([.imports (.members level (some module) names)], stop)) :
    ∃ dots front behind, points.run cursor = some (dots, front) ∧
      (dottedName (Setting.inside.openedBy {})).run front = some (module, behind) ∧
      ∃ listing, (word "import").run behind = some ((), listing) ∧
      listed.run listing = some (names, stop) := by
  unfold membersStatement at h
  rw [run_onNext] at h
  split at h
  · rename_i next hturn
    split at hturn <;> cases hturn
    obtain ⟨_, _, _, h⟩ := run_bind_eq_some.1 h
    obtain ⟨_, _, _, h⟩ := run_bind_eq_some.1 h
    cases (run_pure_eq_some.1 h).1
  · rename_i next hturn
    split at hturn
    · cases hturn
    · cases hturn
      obtain ⟨_, _, _, h⟩ := run_bind_eq_some.1 h
      obtain ⟨_, _, _, h⟩ := run_bind_eq_some.1 h
      obtain ⟨_, _, he⟩ := run_membersOf_eq_some.1 h
      simp at he
      exact absurd he.1 hlevel
    · cases hturn
      obtain ⟨dots, front, hdots, h⟩ := run_bind_eq_some.1 h
      obtain ⟨_, middle, hrequire, h⟩ := run_bind_eq_some.1 h
      obtain ⟨module?, behind, hmodule, h⟩ := run_bind_eq_some.1 h
      obtain ⟨_, listing, hword, h⟩ := run_bind_eq_some.1 h
      obtain ⟨_, hlisted, he⟩ := run_membersOf_eq_some.1 h
      simp at he
      obtain ⟨rfl, rfl, rfl⟩ := he
      obtain rfl := eq_of_run_require hrequire
      refine ⟨dots, front, behind, hdots, ?_, listing, hword, hlisted⟩
      rw [run_onNext] at hmodule
      split at hmodule
      · rename_i hturn
        split at hturn <;> cases hturn
      · rename_i hturn
        split at hturn <;> cases hturn
        · obtain ⟨_, _, hdotted, h⟩ := run_bind_eq_some.1 hmodule
          obtain ⟨he, rfl⟩ := run_pure_eq_some.1 h
          cases he
          exact hdotted
        · cases (run_pure_eq_some.1 hmodule).1

/-- The module of a statement that names it behind points: where it starts, and what is behind it. -/
def modulePlace? (cursor : Cursor) : Option (Cursor × Cursor) :=
  let place : Parser (Cursor × Cursor) := do
    let _ ← points
    let start ← mark {}
    let _ ← dottedName (Setting.inside.openedBy {})
    let behind ← here
    pure (start, behind)
  (place.run cursor).map Prod.fst

theorem modulePlace?_eq_some {dots : String} {front behind : Cursor}
    (hpoints : points.run cursor = some (dots, front))
    (hdotted : (dottedName (Setting.inside.openedBy {})).run front = some (module, behind)) :
    modulePlace? cursor = some ((front.ahead {}).start, behind) := by
  refine Option.map_eq_some_iff.2 ⟨(_, behind), ?_, rfl⟩
  refine run_bind_eq_some.2 ⟨dots, front, hpoints, run_bind_eq_some.2 ⟨_, front, rfl, ?_⟩⟩
  exact run_bind_eq_some.2 ⟨module, behind, hdotted, run_bind_eq_some.2 ⟨_, behind, rfl, rfl⟩⟩

/-- Wherever a statement, behind its word `from`, names a module at a level, it can be read with a
spelling of the module at level zero in place of the points and the module: it lists the same names,
and stops with the same ahead of it. -/
def CanBeSpelled (level : Nat) (module spelling : String) : Prop :=
  ∀ ⦃cursor stop : Cursor⦄ ⦃names : List ImportedName⦄, cursor.IsSound →
    membersStatement.run cursor = some ([.imports (.members level (some module) names)], stop) →
    ∃ start behind, modulePlace? cursor = some (start, behind) ∧ cursor.Reaches start ∧
      start.rest = module.toList ++ behind.rest ∧
      ∀ ⦃gap : Nat⦄ ⦃other : Cursor⦄, other.IsSound →
        other.rest = List.replicate gap ' ' ++ (spelling.toList ++ behind.rest) →
        other.indents = cursor.indents → other.inFormat = cursor.inFormat →
        ∃ shift last, membersStatement.run other =
            some ([.imports (.members 0 (some spelling) names)], last) ∧
          Cursor.Alike shift stop last

/-- A module that is named behind points can be spelled with a chain of identifiers, unless that
starts with the word of another statement. -/
theorem canBeSpelled_chain {chain : List String} (hchain : ∀ name ∈ chain, IsIdentifier name)
    (hlevel : level ≠ 0)
    (hfirst : firstWord? (".".intercalate (chain ++ [module])) ≠ some "__future__") :
    CanBeSpelled level module (".".intercalate (chain ++ [module])) := by
  intro cursor stop names hsound hrun
  obtain ⟨dots, front, behind, hpoints, hdotted, listing, hword, hlisted⟩ :=
    run_of_relative hlevel hrun
  have hplace := modulePlace?_eq_some hpoints hdotted
  have hreaches := (points.advances hpoints).trans (front.reaches_start {})
  obtain ⟨passed, rfl⟩ := passes_points hpoints
  obtain ⟨hmodule, hrespelled⟩ := run_dottedName_chain hchain (hsound.skip passed) hdotted
  refine ⟨_, behind, hplace, hreaches, hmodule, ?_⟩
  intro gap other hother hrest hindents hformat
  obtain ⟨shift, after, hafter, halike, first, hlexeme, hfirstWord⟩ :=
    hrespelled hother hrest hindents hformat
  obtain ⟨between, hbetween, hlisting⟩ := isUniform_exactly _ _ halike hword
  obtain ⟨last, hlast, hstop⟩ := isUniform_listed hlisting hlisted
  refine ⟨shift, last, ?_, hstop⟩
  have hfuture : first ≠ "__future__" := by
    rintro rfl
    exact hfirst hfirstWord
  rw [membersStatement, run_onNext, hlexeme]
  split
  · rename_i hturn
    split at hturn <;> cases hturn
    rename_i hword
    exact absurd (Lexeme.word.inj hword) hfuture
  · rename_i hturn
    split at hturn
    · cases hturn
    · cases hturn
      refine run_bind_eq_some.2 ⟨_, after, hafter, run_bind_eq_some.2 ⟨(), between, hbetween, ?_⟩⟩
      exact run_membersOf_eq_some.2 ⟨names, hlast, rfl⟩
    · rename_i hword
      exact absurd rfl (hword first)

end Import

end CodeAtlas.Syntax
