import CodeAtlas.Extraction.References
import CodeAtlas.Proofs.Syntax.Readings
import CodeAtlas.Syntax.Statement

/-!
# Headings read from their texts

The heading of a class is read from its text alone, as a call is: its name, its type parameters and
what it is derived from. So what a call or a class refers to is known by the text that was read for
it. In sequence, the same texts give the same references.
-/

namespace CodeAtlas.Syntax

open Cursor (Precedes Sees)
open Syntax.Parser (Mirrors MirrorsTo MirrorsAmid)

namespace Parser

variable {α : Type} {tail : List Char} {cursor stop cut : Cursor} {bracket : String}
  {inside mirror : Parser (List α)} {opening : Expectation}

theorem run_behindOpening_cases {values : List α}
    (h : (behindOpening bracket inside).run cursor = some (values, stop)) :
    (cursor.ahead {}).lexeme = .symbol bracket ∧
      inside.run (cursor.ahead {}).stop = some (values, stop) ∨ values = [] ∧ stop = cursor := by
  rcases run_onNext_cases h with ⟨next, hturn, hrun⟩ | ⟨next, hturn, hrun⟩
  · split at hturn <;> cases hturn
    exact .inl ⟨‹_›, hrun⟩
  · split at hturn <;> cases hturn
    obtain ⟨rfl, rfl⟩ := run_pure_eq_some.1 hrun
    exact .inr ⟨rfl, rfl⟩

theorem mirrors_behindOpening (h : MirrorsTo tail opening inside mirror) :
    MirrorsAmid tail {} {} (behindOpening bracket inside) (behindOpening bracket mirror) := by
  apply mirrors_onNext Setting.isPlain_inside.behind.flattens
  intro lexeme
  split
  · rename_i he
    exact .take (he ▸ trivial) (h.given Sees.precedes) Sees.precedes
  · exact .stay (mirrors_pure id)

/-- Where the text ends, no bracket opens. -/
theorem run_behindOpening_nil (hrest : cursor.rest = []) :
    (behindOpening bracket inside).run cursor = some ([], cursor) := by
  have hne : (cursor.ahead {}).lexeme ≠ .symbol bracket := by
    intro he
    have hlt := Cursor.lt_of_aheadFuel (show (cursor.ahead {}).lexeme.IsSolid from he ▸ trivial)
    rw [hrest] at hlt
    simp at hlt
  unfold behindOpening
  rw [run_onNext_leave (if_neg hne)]
  rfl

/-- At the end of a cut text, what is left out in the whole text is left out as well. -/
theorem run_behindOpening_cut {values : List α} (hinside : MirrorsTo tail opening inside mirror)
    (h : (behindOpening bracket inside).run cursor = some (values, stop))
    (htail : stop.rest = tail) (hcut : cursor.Cut tail cut) :
    ∃ cutStop, (behindOpening bracket mirror).run cut = some (values, cutStop) ∧
      stop.Cut tail cutStop := by
  rcases run_behindOpening_cases h with ⟨hlexeme, hrun⟩ | ⟨rfl, rfl⟩
  · have hprecedes : stop.Precedes tail := htail ▸ List.suffix_refl _
    have hahead := hcut.ahead rfl Setting.isPlain_inside.behind
      ⟨hlexeme ▸ trivial, (hinside.asks hrun hprecedes).precedes⟩
    obtain ⟨cutStop, hrunCut, hstop⟩ := hinside.mirrors hrun hprecedes hahead.stop
    refine ⟨cutStop, ?_, hstop⟩
    rw [behindOpening, run_onNext_take rfl (if_pos (hahead.lexeme.trans hlexeme))]
    exact hrunCut
  · have hrest := hcut.rest
    rw [htail] at hrest
    exact ⟨cut, run_behindOpening_nil (List.append_left_eq_self.1 hrest.symm), hcut⟩

end Parser

namespace Level

open Syntax.Parser

variable {cursor stop cut : Cursor} {text : String} {lower mirror : Thunk Level}

/-! ## Classes -/

theorem run_headingRest_cut (hmirror : lower.get.IsMirrored stop.rest mirror.get)
    {read : String × List Call × List Operand}
    (h : (headingRest lower).run cursor = some (read, stop)) (hcut : cursor.Cut stop.rest cut) :
    ∃ cutStop, (headingRest mirror).run cut = some (read, cutStop) ∧
      stop.Cut stop.rest cutStop := by
  obtain ⟨className, middle, hname, h⟩ := run_bind_eq_some.1 h
  obtain ⟨types, point, htypes, h⟩ := run_bind_eq_some.1 h
  obtain ⟨bases, last, hbases, h⟩ := run_bind_eq_some.1 h
  obtain ⟨rfl, rfl⟩ := run_pure_eq_some.1 h
  have hbehind : middle.Precedes last.rest :=
    Cursor.suffix_of_reaches ((Parser.advances _ htypes).trans (Parser.advances _ hbases))
  obtain ⟨cutMiddle, hnameCut, hmiddle⟩ :=
    (mirrors_name Setting.isPlain_inside.behind).mirrors hname hbehind hcut
  have hinside := mirrors_typeArguments hmirror
  have harguments := mirrors_arguments hmirror false
  obtain ⟨cutPoint, htypesCut, hpoint⟩ : ∃ cutPoint,
      (typeParameters mirror).run cutMiddle = some (types, cutPoint) ∧
        point.Cut last.rest cutPoint := by
    rcases run_behindOpening_cases hbases with ⟨hlexeme, hrun⟩ | ⟨-, rfl⟩
    · have hsees : point.Sees last.rest {} :=
        ⟨hlexeme ▸ trivial, (harguments.asks hrun (List.suffix_refl _)).precedes⟩
      exact (mirrors_behindOpening hinside).mirrors htypes hsees hmiddle
    · exact run_behindOpening_cut hinside htypes rfl hmiddle
  obtain ⟨cutStop, hbasesCut, hstop⟩ := run_behindOpening_cut harguments hbases rfl hpoint
  exact ⟨cutStop, run_bind_eq_some.2 ⟨className, cutMiddle, hnameCut, run_bind_eq_some.2
    ⟨types, cutPoint, htypesCut, run_bind_eq_some.2 ⟨bases, cutStop, hbasesCut, rfl⟩⟩⟩, hstop⟩

/-- The heading of a class. -/
def heading (lower : Thunk Level) : Parser (String × List Call × List Operand) := do
  word "class" { quote := true }
  headingRest lower

/-- A name, types and bases are what the text of a heading gives at every depth that is great
enough. -/
def IsHeading (text : String) (read : String × List Call × List Operand) : Prop :=
  ∃ bound, ∀ depth room, bound ≤ depth → bound ≤ room →
    ∃ stop, (heading (below depth)).run (.ofRoom text room) = some (read, stop) ∧ stop.rest = []

theorem IsHeading.eq {read other : String × List Call × List Operand} (h : IsHeading text read)
    (hother : IsHeading text other) : read = other := by
  obtain ⟨bound, h⟩ := h
  obtain ⟨least, hother⟩ := hother
  obtain ⟨stop, hrun, -⟩ := h (max bound least) (max bound least) (by omega) (by omega)
  obtain ⟨last, hotherRun, -⟩ := hother (max bound least) (max bound least) (by omega) (by omega)
  rw [hrun] at hotherRun
  cases hotherRun
  rfl

/-- What is read as the heading of a class is read so from its text alone. -/
theorem isHeading_of_run {depth : Nat} {opening : Expectation}
    {read : String × List Call × List Operand}
    (hclass : (cursor.ahead opening).lexeme = .word "class")
    (h : (headingRest (below depth)).run (cursor.ahead opening).stop = some (read, stop)) :
    IsHeading ((cursor.ahead opening).start.textTo stop.offset) read := by
  have hname : ((cursor.ahead opening).stop.ahead {}).lexeme.IsSolid := by
    obtain ⟨className, middle, hname, -⟩ := run_bind_eq_some.1 h
    rw [(run_name_eq_some.1 hname).1]
    trivial
  have hstart := Cursor.ahead_start (hclass ▸ trivial)
    fun _ _ => Cursor.head_not_mem_quotes hname rfl
  have hstop := cursor.start_reaches_stop opening
  generalize cursor.ahead opening = ahead at *
  obtain ⟨lexeme, start, behind⟩ := ahead
  dsimp only at *
  have hreaches := hstop.trans (Parser.advances _ h)
  refine ⟨max depth (start.extent - start.offset), fun deeper room hdepth hroom => ?_⟩
  have hcut : start.Cut stop.rest (.ofRoom (start.textTo stop.offset) room) :=
    Cursor.cut_ofRoom hreaches.rest_eq (by omega)
  have hsees : start.Sees stop.rest { quote := true } := by
    refine ⟨?_, ?_⟩
    · rw [hstart]
      exact hclass ▸ trivial
    · rw [hstart]
      exact Cursor.suffix_of_reaches (Parser.advances _ h)
  have hahead : Ahead.Cut stop.rest (start.ahead { quote := true }) _ :=
    hcut.ahead rfl Setting.isPlain_inside.opening hsees
  rw [hstart] at hahead
  obtain ⟨cutStop, hrun, hlast⟩ := run_headingRest_cut
    (isMirrored_below (show depth ≤ deeper by omega)) h hahead.stop
  refine ⟨cutStop, run_bind_eq_some.2 ⟨(), _, ?_, hrun⟩, List.append_left_eq_self.1 hlast.rest.symm⟩
  exact run_exactly_eq_some.2 ⟨hahead.lexeme.trans hclass, rfl⟩

theorem ne_class_of_run_frontParts {setting : Setting} {parts : Operand × Nat}
    (h : (frontParts lower setting).run cursor = some (parts, stop)) :
    (cursor.ahead setting.opening).lexeme ≠ .word "class" := by
  intro hclass
  rcases run_onNext_cases h with ⟨next, hturn, -⟩ | ⟨next, hturn, hrun⟩
  · rw [hclass] at hturn
    cases hturn
  · rw [hclass] at hturn
    cases hturn
    obtain ⟨base, middle, hatom, -⟩ := run_bind_eq_some.1 hrun
    have hleave : atomTurn lower setting 0 (.word "class") = .leave fail := rfl
    rw [atom, run_onNext_leave (by rw [hclass, hleave])] at hatom
    cases hatom

/-- No call begins with the word of a class. -/
theorem Chain.IsReadFrom.not_isHeading {chain : Chain} (h : chain.IsReadFrom text)
    {read : String × List Call × List Operand} : ¬ IsHeading text read := by
  rintro ⟨least, hheading⟩
  obtain ⟨bound, rounds, h⟩ := h
  obtain ⟨stop, hrun, -⟩ := h (max bound least) (max bound least) (by omega) (by omega)
  obtain ⟨last, hclass, -⟩ := hheading (max bound least) (max bound least) (by omega) (by omega)
  obtain ⟨_, _, hword, -⟩ := run_bind_eq_some.1 hclass
  obtain ⟨front, middle, hfront, -⟩ := run_bind_eq_some.1 hrun
  exact ne_class_of_run_frontParts (run_front_eq_some.1 hfront).1 (run_exactly_eq_some.1 hword).1

end Level

/-! ## Nodes -/

namespace Node

/-- The text of a call, or of the heading of a class. -/
def text? : Node → Option String
  | .call text _ => some text
  | .definition _ heading => heading.map Heading.text
  | .imports _ => none

/-- What is kept of a call or of a class is what its text gives, which stands in the source. -/
def IsRead (source : List Char) : Node → Prop
  | .call text callee =>
      text.toList <:+: source ∧ ∃ chain inner, Level.Chain.IsReadFrom text chain ∧
        chain.operand.calls = [.of text callee inner]
  | .definition value (some heading) =>
      heading.text.toList <:+: source ∧
        ∃ types bases, Level.IsHeading heading.text (value.name, types, bases) ∧
          heading.bases = bases.map Operand.referent
  | .definition _ none => True
  | .imports _ => True

open Extraction (referencesOf)

theorem referencesOf_eq {node other : Node} {text : String} {source target : List Char}
    (h : node.IsRead source) (hother : other.IsRead target) (htext : node.text? = some text)
    (hsame : other.text? = some text) :
    referencesOf node = referencesOf other := by
  match node, other with
  | .call _ callee, .call _ _ =>
      cases htext
      cases hsame
      obtain ⟨-, chain, inner, hread, hcalls⟩ := h
      obtain ⟨-, _, _, hreadOther, hcallsOther⟩ := hother
      rw [← hread.eq hreadOther, hcalls] at hcallsOther
      cases hcallsOther
      rfl
  | .definition value (some heading), .definition other (some further) =>
      cases htext
      have hsame : further.text = heading.text := Option.some.inj hsame
      obtain ⟨-, types, bases, hread, hbases⟩ := h
      obtain ⟨-, _, _, hreadOther, hbasesOther⟩ := hother
      rw [hsame] at hreadOther
      obtain ⟨hname, htypes⟩ := Prod.mk.inj (hread.eq hreadOther)
      obtain ⟨-, rfl⟩ := Prod.mk.inj htypes
      simp only [referencesOf, hbases, hbasesOther, hname]
  | .call _ _, .definition _ (some further) =>
      cases htext
      have hsame : further.text = text := Option.some.inj hsame
      obtain ⟨-, chain, inner, hread, -⟩ := h
      obtain ⟨-, types, bases, hheading, -⟩ := hother
      exact absurd (hsame ▸ hheading) hread.not_isHeading
  | .definition _ (some heading), .call _ _ =>
      cases hsame
      have htext : heading.text = text := Option.some.inj htext
      obtain ⟨-, chain, inner, hread, -⟩ := hother
      obtain ⟨-, types, bases, hheading, -⟩ := h
      exact absurd (htext ▸ hheading) hread.not_isHeading
  | .imports _, _ | .definition _ none, _ => cases htext
  | .call _ _, .imports _ | .call _ _, .definition _ none => cases hsame
  | .definition _ (some _), .imports _ | .definition _ (some _), .definition _ none => cases hsame

theorem referencesOf_of_text?_eq_none {node : Node} (h : node.text? = none) :
    referencesOf node = [] := by
  match node with
  | .imports _ => rfl
  | .definition _ none => rfl
  | .definition _ (some _) | .call _ _ => cases h

end Node

namespace Outline

/-- The texts of the calls and of the headings of classes, in order. -/
def texts (outline : Outline) : List String := outline.filterMap Node.text?

theorem references_of_texts_eq_nil {outline : Outline} (h : outline.texts = []) :
    outline.references = [] :=
  List.flatMap_eq_nil_iff.2 fun node hm =>
    Node.referencesOf_of_text?_eq_none (List.filterMap_eq_nil_iff.1 h node hm)

/-- Where nodes keep what their texts give, the same texts have the same references. -/
theorem references_eq_of_texts {outline moved : Outline} {source target : List Char}
    (h : ∀ node ∈ outline, node.IsRead source) (hmoved : ∀ node ∈ moved, node.IsRead target)
    (htexts : outline.texts = moved.texts) :
    outline.references = moved.references := by
  induction outline generalizing moved with
  | nil => exact (references_of_texts_eq_nil htexts.symm).symm
  | cons node rest ih =>
      obtain ⟨hnode, hrest⟩ := List.forall_mem_cons.1 h
      cases htext : node.text? with
      | none =>
          have hskip : texts (node :: rest) = texts rest := List.filterMap_cons_none htext
          rw [hskip] at htexts
          rw [← ih hrest hmoved htexts]
          show Extraction.referencesOf node ++ references rest = _
          rw [Node.referencesOf_of_text?_eq_none htext, List.nil_append]
      | some text =>
          have hcons : texts (node :: rest) = text :: texts rest := List.filterMap_cons_some htext
          rw [hcons] at htexts
          obtain ⟨front, other, others, rfl, hfront, hsame, hothers⟩ :=
            List.filterMap_eq_cons_iff.1 htexts.symm
          obtain ⟨-, hbehind⟩ := List.forall_mem_append.1 hmoved
          obtain ⟨hother, hmore⟩ := List.forall_mem_cons.1 hbehind
          have hnone : references front = [] :=
            references_of_texts_eq_nil (List.filterMap_eq_nil_iff.2 hfront)
          unfold references at hnone ⊢
          rw [List.flatMap_append, hnone, List.nil_append, List.flatMap_cons, List.flatMap_cons,
            Node.referencesOf_eq hnode hother htext hsame]
          exact congrArg _ (ih hrest hmore hothers.symm)

end Outline

end CodeAtlas.Syntax
