import CodeAtlas.Proofs.Syntax.Headings
import CodeAtlas.Proofs.Syntax.Values

/-!
# Calls that are handed on

Most parsers make no calls but hand on those of the parsers they are made of. Where the calls that a
level gives are read from their texts, so are those in strings, parameters, brackets and trailers.
-/

namespace CodeAtlas.Syntax

/-! ## Calls -/

/-- The calls, and those inside them, are read from their texts, which stand in the source. -/
def AreRead (source : List Char) (calls : List Call) : Prop :=
  ∀ node ∈ callsPreorder calls, node.IsRead source

theorem callsPreorder_append (calls others : List Call) :
    callsPreorder (calls ++ others) = callsPreorder calls ++ callsPreorder others := by
  induction calls with
  | nil => rfl
  | cons call rest ih => rw [List.cons_append, callsPreorder, callsPreorder, ih, List.append_assoc]

variable {source : List Char}

@[simp] theorem areRead_nil : AreRead source [] := by simp [AreRead, callsPreorder]

@[simp] theorem areRead_append {calls others : List Call} :
    AreRead source (calls ++ others) ↔ AreRead source calls ∧ AreRead source others := by
  unfold AreRead
  rw [callsPreorder_append, List.forall_mem_append]

theorem areRead_flatten {parts : List (List Call)} (h : ∀ calls ∈ parts, AreRead source calls) :
    AreRead source parts.flatten := by
  induction parts with
  | nil => exact areRead_nil
  | cons calls rest ih =>
      obtain ⟨hcalls, hrest⟩ := List.forall_mem_cons.1 h
      exact areRead_append.2 ⟨hcalls, ih hrest⟩

namespace Operand

/-- The calls in an operand are read from their texts. -/
def IsRead (source : List Char) (operand : Operand) : Prop := AreRead source operand.calls

@[simp] theorem isRead_ofCalls {calls : List Call} :
    (ofCalls calls).IsRead source ↔ AreRead source calls :=
  Iff.rfl

@[simp] theorem isRead_inner {operand : Operand} :
    operand.inner.IsRead source ↔ operand.IsRead source :=
  Iff.rfl

theorem isRead_ofName (text : String) : (ofName text).IsRead source := areRead_nil

theorem areRead_flatMap {operands : List Operand}
    (h : ∀ operand ∈ operands, operand.IsRead source) :
    AreRead source (operands.flatMap calls) := by
  rw [List.flatMap_def]
  exact areRead_flatten (List.forall_mem_map.2 h)

theorem isRead_combine {first second : Operand} (h : first.IsRead source)
    (hsecond : second.IsRead source) : (combine [first, second]).IsRead source :=
  areRead_flatMap (by simp [h, hsecond])

end Operand

/-- All calls that the parsers of a level give are read from their texts. -/
structure Level.ReadsCalls (source : List Char) (level : Level) : Prop where
  expression : ∀ {strength : Strength} {inHead : Bool} {setting : Setting},
    (level.expression strength inHead setting).Gives source (Operand.IsRead source)
  target : ∀ {setting : Setting}, (level.target setting).Gives source (Operand.IsRead source)
  replacement : level.replacement.Gives source (AreRead source)
  annotation : ∀ {constrained : Bool} {setting : Setting},
    (level.annotation constrained setting).Gives source (AreRead source)
  casePattern : ∀ {naming : Bool} {setting : Setting},
    (level.casePattern naming setting).Gives source (AreRead source)

namespace Level

open Syntax.Parser

variable {lower : Thunk Level} {setting : Setting}

/-! ## Expressions of the level below -/

namespace ReadsCalls

variable {level : Level} (h : level.ReadsCalls source)

include h

theorem callsIn : (level.callsIn setting).Gives source (AreRead source) :=
  h.expression.bind fun _ hoperand => gives_pure hoperand

theorem expressions :
    (level.expressions setting).Gives source fun operands =>
      ∀ operand ∈ operands, operand.IsRead source :=
  gives_separated fun _ => h.expression

theorem expression? : (level.expression? setting).Gives source (AreRead source) := by
  apply gives_onNext
  intro lexeme
  split
  · exact h.callsIn
  · exact gives_pure areRead_nil

theorem yielded : (level.yielded setting).Gives source (AreRead source) := by
  apply gives_onNext
  intro lexeme
  split
  · exact h.callsIn
  · split
    · exact h.expressions.bind fun _ hoperands => gives_pure (Operand.areRead_flatMap hoperands)
    · exact gives_pure areRead_nil

end ReadsCalls

section Parts

variable (h : lower.get.ReadsCalls source)

include h

/-! ## Strings -/

theorem gives_stringRest (delimiter : Delimiter) :
    (stringRest lower delimiter).Gives source (AreRead source) := by
  refine gives_loop (AreRead source) areRead_nil fun calls hcalls => ?_
  refine gives_behind _ fun piece => ?_
  cases piece with
  | text => exact gives_pure hcalls
  | replacement =>
      exact h.replacement.bind fun more hmore => gives_pure (areRead_append.2 ⟨hcalls, hmore⟩)
  | close => exact gives_behind _ fun _ => gives_pure hcalls

theorem gives_strings (delimiter : Delimiter) (behind : Expectation) :
    (strings lower delimiter behind).Gives source (AreRead source) := by
  refine (gives_stringRest h delimiter).bind fun first hfirst => ?_
  refine gives_loop (AreRead source) hfirst fun calls hcalls => ?_
  apply gives_onNext
  intro lexeme
  split
  · exact (gives_stringRest h _).bind fun more hmore =>
      gives_pure (areRead_append.2 ⟨hcalls, hmore⟩)
  · exact gives_pure hcalls

theorem gives_format : (format lower).Gives source (AreRead source) := by
  refine gives_loop (AreRead source) areRead_nil fun calls hcalls => ?_
  refine gives_behind _ fun isOpen => ?_
  cases isOpen with
  | true =>
      exact h.replacement.bind fun more hmore => gives_pure (areRead_append.2 ⟨hcalls, hmore⟩)
  | false => exact gives_pure hcalls

theorem gives_shown : (shown lower).Gives source (AreRead source) := by
  apply gives_onNext
  intro lexeme
  split
  · exact h.yielded
  · exact h.expressions.bind fun _ hoperands => gives_pure (Operand.areRead_flatMap hoperands)

theorem gives_format? : (format? lower).Gives source (AreRead source) := by
  apply gives_onNext
  intro lexeme
  split
  · exact gives_format h
  · exact gives_format h
  · exact gives_pure areRead_nil

theorem gives_replacementRest : (replacementRest lower).Gives source (AreRead source) := by
  refine (gives_shown h).bind fun shown hshown => ?_
  refine gives_behind _ fun _ => gives_behind _ fun _ => ?_
  refine (gives_format? h).bind fun format hformat => ?_
  exact gives_behind _ fun _ => gives_pure (areRead_append.2 ⟨hshown, hformat⟩)

/-! ## Parameters -/

theorem gives_default? : (default? lower setting).Gives source (AreRead source) := by
  apply gives_onNext
  intro lexeme
  split
  · exact h.callsIn
  · exact gives_pure areRead_nil

theorem gives_type? (typed : Bool) : (type? lower typed setting).Gives source (AreRead source) := by
  apply gives_onNext
  intro lexeme
  split
  · exact h.annotation
  · exact gives_pure areRead_nil

theorem gives_starred : (starred lower setting).Gives source (AreRead source) :=
  h.expression.bind fun _ hoperand => gives_behind _ fun _ => gives_pure hoperand

theorem gives_parameter (typed : Bool) :
    (parameter lower typed setting).Gives source (AreRead source) := by
  have htyped (setting : Setting) :
      (do let target ← starred lower setting; let type ← type? lower typed setting
          pure (target ++ type) : Parser (List Call)).Gives source (AreRead source) :=
    (gives_starred h).bind fun _ htarget => (gives_type? h typed).bind fun _ htype =>
      gives_pure (areRead_append.2 ⟨htarget, htype⟩)
  apply gives_onNext
  intro lexeme
  split
  · exact gives_pure areRead_nil
  · apply gives_onNext
    intro lexeme
    split
    · exact htyped _
    · exact gives_pure areRead_nil
  · exact htyped _
  · exact h.expression.bind fun _ hoperand => gives_behind _ fun _ =>
      (gives_default? h).bind fun _ hdefault => gives_pure (areRead_append.2 ⟨hoperand, hdefault⟩)
  · exact gives_behind _ fun _ => (gives_type? h typed).bind fun _ htype =>
      (gives_default? h).bind fun _ hdefault => gives_pure (areRead_append.2 ⟨htype, hdefault⟩)

theorem gives_parameters (typed : Bool) :
    (parameters lower typed setting).Gives source (AreRead source) := by
  apply gives_onNext
  intro lexeme
  split
  · exact (gives_separated fun _ => gives_parameter h typed).bind
      fun _ hcalls => gives_pure (areRead_flatten hcalls)
  · exact gives_pure areRead_nil

/-! ## Elements -/

omit h in
theorem areRead_callsOf {elements : List Element}
    (h : ∀ element ∈ elements, element.operand.IsRead source) :
    AreRead source (callsOf elements) := by
  rw [callsOf, List.flatMap_def]
  exact areRead_flatten (List.forall_mem_map.2 h)

theorem gives_spread : (spread lower).Gives source fun element => element.operand.IsRead source :=
  h.expression.bind fun _ hoperand => gives_behind _ fun _ => gives_pure hoperand

theorem gives_plainElement :
    (plainElement lower setting).Gives source fun element => element.operand.IsRead source :=
  h.expression.bind fun _ hoperand => gives_pure hoperand

theorem gives_starredElement :
    (starredElement lower setting).Gives source fun element => element.operand.IsRead source :=
  (gives_behind _ fun _ => gives_spread h).orElse (gives_alongside _ (gives_plainElement h))

theorem gives_element :
    (element lower setting).Gives source fun element => element.operand.IsRead source := by
  apply gives_onNext
  intro lexeme
  split
  · exact gives_starredElement h
  · exact gives_behind _ fun _ => gives_spread h
  · exact h.yielded.bind fun _ hcalls => gives_pure hcalls
  · exact gives_plainElement h

theorem gives_plainArgument :
    (plainArgument lower setting).Gives source fun element => element.operand.IsRead source := by
  refine h.expression.bind fun operand hoperand => ?_
  apply gives_onNext
  intro lexeme
  split
  · exact h.callsIn.bind fun _ hcalls => gives_pure hcalls
  · exact gives_pure hoperand

theorem gives_argument :
    (argument lower setting).Gives source fun element => element.operand.IsRead source := by
  apply gives_onNext
  intro lexeme
  split
  · exact gives_starredElement h
  · exact h.callsIn.bind fun _ hcalls => gives_pure hcalls
  · exact gives_plainArgument h

omit h in
theorem gives_moreElements {starts : Lexeme → Bool} {each : Setting → Parser Element}
    (heach : ∀ setting, (each setting).Gives source fun element => element.operand.IsRead source) :
    (moreElements starts each).Gives source fun elements =>
      ∀ element ∈ elements, element.operand.IsRead source := by
  apply gives_onNext
  intro lexeme
  split
  · apply gives_onNext
    intro lexeme
    split
    · exact gives_separated heach
    · exact gives_pure (by simp)
  · exact gives_pure (by simp)

/-! ## Comprehensions -/

theorem gives_iteration : (iteration lower).Gives source (AreRead source) := by
  refine (gives_separated fun _ => h.target).bind fun targets htargets => ?_
  refine gives_behind _ fun _ => ?_
  refine (gives_separated fun _ => h.expression).bind fun sources hsources => ?_
  exact gives_pure (Operand.areRead_flatMap (List.forall_mem_append.2 ⟨htargets, hsources⟩))

theorem gives_comprehension : (comprehension lower).Gives source (AreRead source) := by
  refine gives_behind _ fun _ => gives_behind _ fun _ => ?_
  refine (gives_iteration h).bind fun first hfirst => ?_
  refine gives_loop (AreRead source) hfirst fun calls hcalls => ?_
  have hmore (more : List Call) (hmore : AreRead source more) : AreRead source (calls ++ more) :=
    areRead_append.2 ⟨hcalls, hmore⟩
  apply gives_onNext
  intro lexeme
  split
  · exact (gives_iteration h).bind fun more hread => gives_pure (hmore more hread)
  · exact gives_behind _ fun _ => (gives_iteration h).bind
      fun more hread => gives_pure (hmore more hread)
  · exact h.expression.bind fun condition hread => gives_pure (hmore condition.calls hread)
  · exact gives_pure hcalls

/-! ## Trailers -/

theorem gives_arguments (generators : Bool) :
    (arguments lower generators).Gives source fun operands =>
      ∀ operand ∈ operands, operand.IsRead source := by
  unfold arguments
  apply gives_onNext
  intro lexeme
  split
  · exact gives_pure (by simp)
  · exact gives_behind _ fun _ => gives_pure (by simp)
  · refine (gives_argument h).bind fun first hfirst => ?_
    refine @Gives.bind _ _ _ _
      (fun generator => ∀ calls, generator = some calls → AreRead source calls) _ _
      ?_ fun generator hgenerator => ?_
    · apply gives_onNext
      intro lexeme
      split
      · exact gives_behind _ fun _ => (gives_comprehension h).bind
          fun calls hcalls => gives_pure (by simpa using hcalls)
      · exact gives_pure (by simp)
    · cases generator with
      | some calls =>
          exact gives_behind _ fun _ => gives_pure (by simp [hfirst, hgenerator calls rfl])
      | none =>
          refine (gives_moreElements fun _ => gives_argument h).bind fun rest hrest => ?_
          exact gives_behind _ fun _ =>
            gives_pure (List.forall_mem_map.2 (List.forall_mem_cons.2 ⟨hfirst, hrest⟩))

theorem gives_sliceRest : (sliceRest lower).Gives source (AreRead source) := by
  refine h.expression?.bind fun stop hstop => ?_
  refine gives_behind _ fun found => ?_
  cases found with
  | true => exact h.expression?.bind fun _ hstep => gives_pure (areRead_append.2 ⟨hstop, hstep⟩)
  | false => exact gives_pure hstop

theorem gives_subscript : (subscript lower setting).Gives source (AreRead source) := by
  apply gives_onNext
  intro lexeme
  split
  · exact gives_sliceRest h
  · refine h.callsIn.bind fun start hstart => ?_
    apply gives_onNext
    intro lexeme
    split
    · exact (gives_sliceRest h).bind fun _ hrest => gives_pure (areRead_append.2 ⟨hstart, hrest⟩)
    · exact gives_pure hstart

theorem gives_subscripts : (subscripts lower).Gives source (AreRead source) :=
  (gives_separated fun _ => gives_subscript h).bind fun _ hcalls =>
    gives_behind _ fun _ => gives_pure (areRead_flatten hcalls)

/-- The calls in a trailer. -/
def Trailer.calls : Trailer → List Call
  | .attribute _ => []
  | .arguments calls => calls
  | .subscripts calls => calls

theorem gives_trailer? (expected : Expectation) : (trailer? lower expected).Gives source
    fun trailer? => ∀ trailer, trailer? = some trailer → AreRead source trailer.calls := by
  apply gives_onNext
  intro lexeme
  split
  · exact gives_behind _ fun _ => gives_pure (by simp [Trailer.calls])
  · exact (gives_arguments h true).bind fun _ hoperands =>
      gives_pure (by simpa [Trailer.calls] using Operand.areRead_flatMap hoperands)
  · exact (gives_subscripts h).bind fun _ hcalls =>
      gives_pure (by simpa [Trailer.calls] using hcalls)
  · exact gives_pure (by simp)

end Parts

end Level

end CodeAtlas.Syntax
