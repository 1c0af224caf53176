import CodeAtlas.FileTree
import CodeAtlas.Json.Reader
import Mathlib.Data.Option.Basic

/-!
# Bytes that belong to no character

Where bytes are a text, the reader is given its characters; elsewhere it is given a stray byte among
them. A value that is read whole is read over characters only, so a stray byte keeps a document from
being read: it spoils a string, it is no part of anything else, and behind the value it is left
over.
-/

namespace CodeAtlas

namespace Json.Input

/-! ## Bytes and their text -/

theorem decodeFrom_cases (bytes : Bytes) (offset pending : Nat) (read : List Char) :
    (∃ chars, Text.Utf8.decodeFrom offset pending read bytes = .ok (read.reverse ++ chars) ∧
        ofBytesFrom pending bytes = chars.map some) ∨
      (∃ fault, Text.Utf8.decodeFrom offset pending read bytes = .error fault) ∧
        none ∈ ofBytesFrom pending bytes := by
  induction bytes generalizing offset pending read with
  | nil => exact .inl ⟨[], by simp [Text.Utf8.decodeFrom], rfl⟩
  | cons byte rest ih =>
      cases pending with
      | succ pending => exact ih (offset + 1) pending read
      | zero =>
          rw [Text.Utf8.decodeFrom, ofBytesFrom]
          cases Text.Utf8.step (byte :: rest) with
          | error length => exact .inr ⟨⟨_, rfl⟩, List.mem_cons_self⟩
          | ok found =>
              obtain ⟨char, length⟩ := found
              dsimp only
              obtain ⟨chars, hread, hinput⟩ | ⟨hfault, hstray⟩ :=
                ih (offset + 1) (length - 1) (char :: read)
              · refine .inl ⟨char :: chars, ?_, ?_⟩
                · rw [hread, List.reverse_cons, List.append_assoc, List.singleton_append]
                · rw [hinput, List.map_cons]
              · exact .inr ⟨hfault, List.mem_cons_of_mem _ hstray⟩

end Json.Input

namespace Content

variable {content : Content}

theorem input_of_decode {text : String} (h : content.decode = .ok text) :
    content.input = Json.Input.ofText text := by
  cases content with
  | text value =>
      cases h
      rfl
  | graph number =>
      cases h
      rfl
  | bytes value =>
      rw [decode, Text.Utf8.decode] at h
      rw [input, Json.Input.ofBytes]
      obtain ⟨chars, hread, hinput⟩ | ⟨⟨fault, hfault⟩, -⟩ :=
        Json.Input.decodeFrom_cases value 0 0 []
      · rw [hread] at h
        cases h
        rw [hinput, Json.Input.ofText]
        simp
      · rw [hfault] at h
        cases h

theorem mem_input_of_decode {fault : Text.Utf8.Fault} (h : content.decode = .error fault) :
    none ∈ content.input := by
  cases content with
  | text value => cases h
  | graph number => cases h
  | bytes value =>
      rw [decode, Text.Utf8.decode] at h
      rw [input, Json.Input.ofBytes]
      obtain ⟨chars, hread, -⟩ | ⟨-, hstray⟩ := Json.Input.decodeFrom_cases value 0 0 []
      · rw [hread] at h
        cases h
      · exact hstray

end Content

namespace Json

namespace Input

/-- What lies between two places of an input are characters. -/
def Passes (input after : Input) : Prop := ∃ chars : List Char, input = chars.map some ++ after

theorem Passes.refl (input : Input) : input.Passes input := ⟨[], rfl⟩

theorem Passes.trans {input middle after : Input} (h : input.Passes middle)
    (hrest : middle.Passes after) : input.Passes after := by
  obtain ⟨front, rfl⟩ := h
  obtain ⟨back, rfl⟩ := hrest
  exact ⟨front ++ back, by rw [List.map_append, List.append_assoc]⟩

theorem Passes.cons {input after : Input} (h : input.Passes after) (char : Char) :
    Passes (some char :: input) after := by
  obtain ⟨chars, rfl⟩ := h
  exact ⟨char :: chars, rfl⟩

theorem Passes.mem {input after : Input} (h : input.Passes after) (hstray : none ∈ input) :
    none ∈ after := by
  obtain ⟨chars, rfl⟩ := h
  simpa using hstray

theorem passes_dropWhile {keep : Option Char → Bool} (h : keep none = false) (input : Input) :
    input.Passes (input.dropWhile keep) := by
  induction input with
  | nil => exact .refl []
  | cons place rest ih =>
      cases hkeep : keep place with
      | false =>
          rw [List.dropWhile_cons_of_neg (by simp [hkeep])]
          exact .refl _
      | true =>
          rw [List.dropWhile_cons_of_pos hkeep]
          cases place with
          | none => exact absurd hkeep (by simp [h])
          | some char => exact ih.cons char

theorem passes_skipBlanks (input : Input) : input.Passes (skipBlanks input) :=
  passes_dropWhile rfl input

theorem passes_of_skipBlanks {input rest after : Input} {char : Char}
    (h : skipBlanks input = some char :: rest) (hrest : rest.Passes after) :
    input.Passes after :=
  (passes_skipBlanks input).trans (h ▸ hrest.cons char)

end Input

namespace Reader

open Input (Passes)

/-! ## Strings -/

theorem passes_hexEscape {input rest : Input} {unit : Nat}
    (h : hexEscape input = .ok (unit, rest)) : input.Passes rest := by
  unfold hexEscape at h
  split at h
  · next first second third fourth htake =>
      split at h
      · next hfirst hsecond hthird hfourth =>
          cases h
          have hchar {place : Option Char} {value : Nat} (hp : hexValue place = some value) :
              ∃ char, place = some char := by
            cases place with
            | none => cases hp
            | some char => exact ⟨char, rfl⟩
          obtain ⟨first, rfl⟩ := hchar hfirst
          obtain ⟨second, rfl⟩ := hchar hsecond
          obtain ⟨third, rfl⟩ := hchar hthird
          obtain ⟨fourth, rfl⟩ := hchar hfourth
          refine ⟨[first, second, third, fourth], ?_⟩
          rw [← List.take_append_drop 4 input, htake]
          simp
      · cases h
  · dsimp only at h
    split at h <;> cases h

theorem passes_unitEscape {state next : StringState} {input rest : Input}
    (h : unitEscape state input = .ok (next, rest)) :
    input.Passes rest ∧ next.badByte = state.badByte := by
  unfold unitEscape at h
  split at h
  · cases h
  next unit inner hunit =>
  have hpasses := passes_hexEscape hunit
  split at h
  · cases h
    exact ⟨hpasses, rfl⟩
  split at h
  · split at h
    · next behind =>
        split at h
        · cases h
        next second rest' hsecond =>
        have hbehind := hpasses.trans (((passes_hexEscape hsecond).cons 'u').cons '\\')
        split at h <;> cases h
        · exact ⟨hbehind, rfl⟩
        · exact ⟨hbehind, rfl⟩
    all_goals
      cases h
      exact ⟨hpasses, rfl⟩
  · cases h
    exact ⟨hpasses, rfl⟩

theorem passes_escape {state next : StringState} {input rest : Input}
    (h : escape state input = .ok (next, rest)) :
    input.Passes rest ∧ next.badByte = state.badByte := by
  unfold escape at h
  split at h
  · cases h
  · obtain ⟨hpasses, hbad⟩ := passes_unitEscape h
    exact ⟨hpasses.cons 'u', hbad⟩
  · next char rest' _ =>
      split at h <;> cases h
      exact ⟨(Passes.refl _).cons char, rfl⟩
  · cases h

theorem passes_stringFuel {fuel : Nat} {state : StringState} {input rest : Input} {text : String}
    (h : stringFuel fuel state input = .ok (.ok text, rest)) :
    input.Passes rest ∧ state.badByte = false := by
  fun_induction stringFuel fuel state input with
  | case1 => cases h
  | case2 => cases h
  | case3 fuel state after =>
      injection h with h
      injection h with hfinish hrest
      refine ⟨hrest ▸ (Passes.refl _).cons '"', ?_⟩
      unfold StringState.finish at hfinish
      split at hfinish
      · cases hfinish
      split at hfinish
      · cases hfinish
      · next hbad => exact Bool.eq_false_iff.2 hbad
  | case4 => cases h
  | case5 fuel state after next behind hescape ih =>
      obtain ⟨hpasses, hbad⟩ := passes_escape hescape
      obtain ⟨hrest, hclean⟩ := ih h
      exact ⟨(hpasses.trans hrest).cons '\\', hbad ▸ hclean⟩
  | case6 fuel state after ih =>
      obtain ⟨-, hclean⟩ := ih h
      cases hclean
  | case7 => cases h
  | case8 fuel state char after _ _ _ ih =>
      obtain ⟨hrest, hclean⟩ := ih h
      exact ⟨hrest.cons char, hclean⟩

theorem passes_string {fuel : Nat} {input rest : Input} {text : String}
    (h : string fuel input = .ok (.ok text, rest)) : input.Passes rest :=
  (passes_stringFuel h).1

/-! ## Numbers -/

theorem passes_drop_digitsOf (input : Input) :
    input.Passes (input.drop (digitsOf input).length) := by
  induction input with
  | nil => exact .refl []
  | cons place rest ih =>
      cases hdigit : place.any Char.isDigit with
      | false =>
          have hnone : digitsOf (place :: rest) = [] := by simp [digitsOf, hdigit]
          rw [hnone]
          exact .refl _
      | true =>
          obtain ⟨char, rfl, -⟩ := (Option.any_eq_true ..).1 hdigit
          have hsome : digitsOf (some char :: rest) =
              (char.toNat - '0'.toNat) :: digitsOf rest := by
            simp [digitsOf, hdigit]
          rw [hsome]
          exact ih.cons char

theorem passes_exponent {input rest : Input} {parts : Option (Bool × List Nat)}
    (h : exponent input = .ok (parts, rest)) : input.Passes rest := by
  unfold exponent at h
  split at h
  · next mark after =>
      split at h
      · have hdigits {before digits : Input} (hbefore : before.Passes digits) (negative : Bool)
            (h : (if (digitsOf digits).isEmpty then .error (digitFault digits)
              else .ok (some (negative, digitsOf digits), digits.drop (digitsOf digits).length)) =
                Except.ok (parts, rest)) : Passes (some mark :: before) rest := by
          split at h <;> cases h
          exact (hbefore.trans (passes_drop_digitsOf digits)).cons mark
        dsimp only at h
        split at h
        · exact hdigits ((Passes.refl _).cons '+') _ h
        · exact hdigits ((Passes.refl _).cons '-') _ h
        · exact hdigits (.refl _) _ h
      · cases h
        exact .refl _
  · cases h
    exact .refl _

theorem passes_fraction {negative : Bool} {whole : List Nat} {input rest : Input}
    {numeral : Numeral} (h : fraction negative whole input = .ok (numeral, rest)) :
    input.Passes rest := by
  unfold fraction at h
  split at h
  · next after =>
      dsimp only at h
      split at h
      · cases h
      · cases hexponent : exponent (after.drop (digitsOf after).length) with
        | error fault => simp [hexponent, bind, Except.bind] at h
        | ok parts =>
            simp only [hexponent, bind, Except.bind, pure, Except.pure] at h
            cases h
            exact ((passes_drop_digitsOf after).trans (passes_exponent hexponent)).cons '.'
  · cases hexponent : exponent input with
    | error fault => simp [hexponent, bind, Except.bind] at h
    | ok parts =>
        simp only [hexponent, bind, Except.bind, pure, Except.pure] at h
        cases h
        exact passes_exponent hexponent

theorem passes_unsigned {negative : Bool} {input rest : Input} {numeral : Numeral}
    (h : unsigned negative input = .ok (numeral, rest)) : input.Passes rest := by
  have hdigits := passes_drop_digitsOf input
  unfold unsigned at h
  split at h
  · cases h
  · next hzero =>
      rw [hzero] at hdigits
      exact hdigits.trans (passes_fraction h)
  · cases h
  · exact hdigits.trans (passes_fraction h)

/-! ## Results -/

/-- A result that is no fault comes of characters only, there is something behind it, and what was
read before is no fault either. -/
def ReadsOver (before : Nat → Prop) (input : Input) (result : Result) : Prop :=
  ∀ depth, result.1.readFault depth = none →
    before (depth - 1) ∧ ∃ after, result.2 = some after ∧ input.Passes after

def AtFirst (_depth : Nat) : Prop := True

def AfterItems (read : List Draft) (depth : Nat) : Prop :=
  ∀ item ∈ read, item.readFault depth = none

def AfterEntries (read : List (DraftString × Draft)) (depth : Nat) : Prop :=
  ∀ entry ∈ read, Draft.stringError entry.1 = none ∧ entry.2.readFault depth = none

theorem readItems_eq_none_iff {depth : Nat} {items : List Draft} :
    Draft.readItems depth items = none ↔ AfterItems items depth := by
  induction items with
  | nil => simp [Draft.readItems, AfterItems]
  | cons item rest ih =>
      rw [Draft.readItems, Option.orElse_eq_none, ih, AfterItems, AfterItems, List.forall_mem_cons]

theorem readEntries_eq_none_iff {depth : Nat} {entries : List (DraftString × Draft)} :
    Draft.readEntries depth entries = none ↔ AfterEntries entries depth := by
  induction entries with
  | nil => simp [Draft.readEntries, AfterEntries]
  | cons entry rest ih =>
      obtain ⟨key, item⟩ := entry
      rw [Draft.readEntries, Option.orElse_eq_none, Option.orElse_eq_none, ih, AfterEntries,
        AfterEntries, List.forall_mem_cons, and_assoc]

theorem afterItems_of_array {depth : Nat} {read : List Draft}
    (h : (Draft.array read.reverse none).readFault depth = none) : AfterItems read (depth - 1) := by
  rw [Draft.readFault] at h
  split at h
  · cases h
  · rw [Option.map_none, Option.orElse_eq_none, readItems_eq_none_iff] at h
    exact fun item hm => h.1 item (List.mem_reverse.2 hm)

theorem afterEntries_of_object {depth : Nat} {read : List (DraftString × Draft)}
    (h : (Draft.object read.reverse none).readFault depth = none) :
    AfterEntries read (depth - 1) := by
  rw [Draft.readFault] at h
  split at h
  · cases h
  · rw [Option.map_none, Option.orElse_eq_none, readEntries_eq_none_iff] at h
    exact fun entry hm => h.1 entry (List.mem_reverse.2 hm)

section

variable {before : Nat → Prop} {input : Input}

theorem ReadsOver.of_passes {middle : Input} {result : Result} (h : input.Passes middle)
    (hresult : ReadsOver before middle result) : ReadsOver before input result := by
  intro depth hdepth
  obtain ⟨hbefore, after, hafter, hpasses⟩ := hresult depth hdepth
  exact ⟨hbefore, after, hafter, h.trans hpasses⟩

theorem ReadsOver.atFirst {result : Result} (h : ReadsOver before input result) :
    ReadsOver AtFirst input result := fun depth hdepth => ⟨trivial, (h depth hdepth).2⟩

theorem readsOver_brokenBy (fault : Fault) : ReadsOver before input (brokenBy fault) := by
  intro depth hdepth
  cases hdepth

theorem readsOver_array_fault (items : List Draft) (fault : Fault) :
    ReadsOver before input (.array items (some fault), none) := by
  intro depth hdepth
  dsimp only at hdepth
  rw [Draft.readFault] at hdepth
  split at hdepth <;> simp at hdepth

theorem readsOver_object_fault (entries : List (DraftString × Draft)) (fault : Fault) :
    ReadsOver before input (.object entries (some fault), none) := by
  intro depth hdepth
  dsimp only at hdepth
  rw [Draft.readFault] at hdepth
  split at hdepth <;> simp at hdepth

variable {after : Input}

theorem readsOver_of_passes (h : input.Passes after) (draft : Draft) :
    ReadsOver AtFirst input (draft, some after) := fun _ _ => ⟨trivial, after, rfl, h⟩

theorem readsOver_array (h : input.Passes after) (read : List Draft) :
    ReadsOver (AfterItems read) input (.array read.reverse none, some after) :=
  fun _ hdepth => ⟨afterItems_of_array hdepth, after, rfl, h⟩

theorem readsOver_object (h : input.Passes after) (read : List (DraftString × Draft)) :
    ReadsOver (AfterEntries read) input (.object read.reverse none, some after) :=
  fun _ hdepth => ⟨afterEntries_of_object hdepth, after, rfl, h⟩

end

/-! ## Values -/

theorem readsOver_wordRest (draft : Draft) (letters : List Char) (input : Input) :
    ReadsOver AtFirst input (wordRest draft letters input) := by
  fun_induction wordRest draft letters input with
  | case1 input => exact readsOver_of_passes (.refl input) draft
  | case2 => exact readsOver_brokenBy _
  | case3 char letters input ih => exact ih.of_passes ((Passes.refl input).cons char)
  | case4 => exact readsOver_brokenBy _

theorem readsOver_number (negative : Bool) (input : Input) :
    ReadsOver AtFirst input (number negative input) := by
  unfold number
  split
  · exact readsOver_brokenBy _
  · next numeral rest hread => exact readsOver_of_passes (passes_unsigned hread) _

theorem readsOver_valueFuel {fuel : Nat}
    (hitems : ∀ input, ReadsOver (AfterItems []) input (itemsFuel fuel [] input))
    (hentries : ∀ input, ReadsOver (AfterEntries []) input (entriesFuel fuel [] input))
    (input : Input) : ReadsOver AtFirst input (valueFuel (fuel + 1) input) := by
  have hbehind {char : Char} {rest : Input} (hrest : Input.skipBlanks input = some char :: rest) :
      input.Passes rest := Input.passes_of_skipBlanks hrest (.refl rest)
  rw [valueFuel]
  split
  · exact readsOver_brokenBy _
  · next hrest => exact (readsOver_wordRest _ _ _).of_passes (hbehind hrest)
  · next hrest => exact (readsOver_wordRest _ _ _).of_passes (hbehind hrest)
  · next hrest => exact (readsOver_wordRest _ _ _).of_passes (hbehind hrest)
  · next rest hrest =>
      split
      · exact readsOver_brokenBy _
      · next text after htext =>
          intro depth hdepth
          cases text with
          | error error => cases hdepth
          | ok text => exact ⟨trivial, after, rfl, (hbehind hrest).trans (passes_string htext)⟩
  · next rest hrest =>
      split
      · exact readsOver_array_fault _ _
      · next after hafter =>
          exact readsOver_of_passes
            ((hbehind hrest).trans (Input.passes_of_skipBlanks hafter (.refl after))) _
      · exact (hitems _).atFirst.of_passes ((hbehind hrest).trans (Input.passes_skipBlanks rest))
  · next rest hrest =>
      split
      · exact readsOver_object_fault _ _
      · next after hafter =>
          exact readsOver_of_passes
            ((hbehind hrest).trans (Input.passes_of_skipBlanks hafter (.refl after))) _
      · next after hafter =>
          exact (hentries _).atFirst.of_passes
            ((hbehind hrest).trans (Input.passes_of_skipBlanks hafter (.refl after)))
      · exact readsOver_object_fault _ _
  · next hrest => exact (readsOver_number true _).of_passes (hbehind hrest)
  · next hrest =>
      split
      · exact (readsOver_number false _).of_passes (hrest ▸ Input.passes_skipBlanks input)
      · exact readsOver_brokenBy _
  · exact readsOver_brokenBy _

theorem readsOver_item {read : List Draft} {input rest : Input} {item : Draft} {result : Result}
    (hitem : ReadsOver AtFirst input (item, some rest))
    (h : ReadsOver (AfterItems (item :: read)) rest result) :
    ReadsOver (AfterItems read) input result := by
  intro depth hdepth
  obtain ⟨hall, after, hafter, hpasses⟩ := h depth hdepth
  obtain ⟨hnone, hread⟩ := List.forall_mem_cons.1 hall
  obtain ⟨-, rest, ⟨⟩, hrest⟩ := hitem (depth - 1) hnone
  exact ⟨hread, after, hafter, hrest.trans hpasses⟩

theorem readsOver_itemsFuel {fuel : Nat}
    (hvalue : ∀ input, ReadsOver AtFirst input (valueFuel fuel input))
    (hitems : ∀ read input, ReadsOver (AfterItems read) input (itemsFuel fuel read input))
    (read : List Draft) (input : Input) :
    ReadsOver (AfterItems read) input (itemsFuel (fuel + 1) read input) := by
  have hinput := hvalue input
  rw [itemsFuel]
  dsimp only
  split
  · next item hitem =>
      rw [hitem] at hinput
      intro depth hdepth
      have hnone := afterItems_of_array hdepth item List.mem_cons_self
      obtain ⟨-, after, ⟨⟩, -⟩ := hinput (depth - 1) hnone
  · next item rest hitem =>
      rw [hitem] at hinput
      refine readsOver_item hinput ?_
      split
      · exact readsOver_array_fault _ _
      · next after hafter =>
          exact readsOver_array (Input.passes_of_skipBlanks hafter (.refl after)) _
      · next after hafter =>
          split
          · exact readsOver_array_fault _ _
          · exact readsOver_array_fault _ _
          · exact (hitems _ _).of_passes
              (Input.passes_of_skipBlanks hafter (Input.passes_skipBlanks after))
      · exact readsOver_array_fault _ _

/-- Behind an entry whose key and value are no fault the object goes on, and the entry counts as
read before. -/
theorem readsOver_entry {fuel : Nat} {read : List (DraftString × Draft)}
    {input behind start rest : Input} {key : DraftString} {item : Draft} {result : Result}
    (hkey : string fuel input = .ok (key, behind))
    (hcolon : Input.skipBlanks behind = some ':' :: start)
    (hitem : ReadsOver AtFirst start (item, some rest))
    (h : ReadsOver (AfterEntries ((key, item) :: read)) rest result) :
    ReadsOver (AfterEntries read) input result := by
  intro depth hdepth
  obtain ⟨hall, after, hafter, hpasses⟩ := h depth hdepth
  obtain ⟨⟨hstring, hnone⟩, hread⟩ := List.forall_mem_cons.1 hall
  obtain ⟨-, rest, ⟨⟩, hrest⟩ := hitem (depth - 1) hnone
  cases key with
  | error error => cases hstring
  | ok text =>
      have hstart := (passes_string hkey).trans (Input.passes_of_skipBlanks hcolon (.refl start))
      exact ⟨hread, after, hafter, (hstart.trans hrest).trans hpasses⟩

theorem readsOver_entriesFuel {fuel : Nat}
    (hvalue : ∀ input, ReadsOver AtFirst input (valueFuel fuel input))
    (hentries : ∀ read input, ReadsOver (AfterEntries read) input (entriesFuel fuel read input))
    (read : List (DraftString × Draft)) (input : Input) :
    ReadsOver (AfterEntries read) input (entriesFuel (fuel + 1) read input) := by
  rw [entriesFuel]
  dsimp only
  split
  · exact readsOver_object_fault _ _
  next key behind hkey =>
  split
  · exact readsOver_object_fault _ _
  · next start hcolon =>
      have hstart := hvalue start
      split
      · next item hitem =>
          rw [hitem] at hstart
          intro depth hdepth
          have hnone := (afterEntries_of_object hdepth (key, item) List.mem_cons_self).2
          obtain ⟨-, after, ⟨⟩, -⟩ := hstart (depth - 1) hnone
      · next item rest hitem =>
          rw [hitem] at hstart
          refine readsOver_entry hkey hcolon hstart ?_
          split
          · exact readsOver_object_fault _ _
          · next after hafter =>
              exact readsOver_object (Input.passes_of_skipBlanks hafter (.refl after)) _
          · next after hafter =>
              split
              · exact readsOver_object_fault _ _
              · next inner hinner =>
                  exact (hentries _ _).of_passes (Input.passes_of_skipBlanks hafter
                    (Input.passes_of_skipBlanks hinner (.refl inner)))
              · exact readsOver_object_fault _ _
              · exact readsOver_object_fault _ _
          · exact readsOver_object_fault _ _
  · exact readsOver_object_fault _ _

theorem readsOver_fuel (fuel : Nat) :
    (∀ input, ReadsOver AtFirst input (valueFuel fuel input)) ∧
      (∀ read input, ReadsOver (AfterItems read) input (itemsFuel fuel read input)) ∧
        ∀ read input, ReadsOver (AfterEntries read) input (entriesFuel fuel read input) := by
  induction fuel with
  | zero =>
      refine ⟨fun input => ?_, fun read input => ?_, fun read input => ?_⟩
      · exact readsOver_brokenBy _
      · exact readsOver_array_fault _ _
      · exact readsOver_object_fault _ _
  | succ fuel ih =>
      obtain ⟨hvalue, hitems, hentries⟩ := ih
      exact ⟨readsOver_valueFuel (hitems []) (hentries []), readsOver_itemsFuel hvalue hitems,
        readsOver_entriesFuel hvalue hentries⟩

end Reader

theorem Document.trailing_of_mem {input : Input} (h : none ∈ input) {depth : Nat}
    (hroot : (read input).root.readFault depth = none) : (read input).trailing = true := by
  have hvalue := (Reader.readsOver_fuel (2 * input.length + 3)).1 input depth
  revert hroot
  rw [read]
  split
  · next root hread =>
      intro hroot
      rw [hread] at hvalue
      obtain ⟨-, after, ⟨⟩, -⟩ := hvalue hroot
  · next root rest hread =>
      intro hroot
      rw [hread] at hvalue
      obtain ⟨-, after, ⟨⟩, hpasses⟩ := hvalue hroot
      have hstray := (Input.passes_skipBlanks rest).mem (hpasses.mem h)
      show (!(Input.skipBlanks rest).isEmpty) = true
      cases hblanks : Input.skipBlanks rest with
      | nil => simp [hblanks] at hstray
      | cons place rest => rfl

end Json

end CodeAtlas
