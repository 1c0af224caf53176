import CodeAtlas.Proofs.Json.Rereading

/-!
# Values that can be read

Of the texts that are written of values, the reader refuses those that nest too deep and those with
a whole number out of range, and no others. One who passes over a value minds neither.
-/

namespace CodeAtlas.Json

namespace Number

/-- The reader makes something of the text of a number. -/
def IsInRange (number : Number) : Prop := ∀ error, number.draft ≠ .number (.error error)

theorem isInRange_natural {number : Nat} (h : number < Nat.pow 2 64) :
    (Number.whole number).IsInRange := by
  intro error he
  rw [draft_whole h] at he
  cases he

theorem isInRange_real (number : Float) : (Number.real number).IsInRange := by
  intro error he
  cases hclass : Decimal.Value.ofFloat number with
  | finite binary =>
      obtain ⟨result, hscaled, -⟩ :=
        exists_scaled_ofBinary (Decimal.Binary.isDouble_of_ofBits hclass)
      have hvalue := Literal.value_ofBinary (Decimal.Binary.isDouble_of_ofBits hclass)
      rw [Reader.Numeral.finish, hscaled] at hvalue
      rw [draft, hclass] at he
      dsimp only at he
      rw [hvalue] at he
      cases he
  | undefined =>
      rw [draft, hclass] at he
      cases he
  | infinite negative =>
      rw [draft, hclass] at he
      cases he

theorem readFault_draft (number : Number) (depth : Nat) :
    number.draft.readFault depth = none ↔ number.IsInRange := by
  rcases number.text_cases with ⟨literal, -, -, hdraft⟩ | ⟨-, hdraft⟩
  · rw [IsInRange, hdraft]
    cases literal.numeral.value with
    | ok value => simp [Draft.readFault]
    | error error => simp [Draft.readFault]
  · rw [IsInRange, hdraft]
    simp [Draft.readFault]

end Number

namespace Value

mutual

/-- How many collections stand in one another. -/
def nesting : Value → Nat
  | .array items => nestingOfItems items + 1
  | .object entries => nestingOfEntries entries + 1
  | _ => 0

def nestingOfItems : List Value → Nat
  | [] => 0
  | item :: rest => max item.nesting (nestingOfItems rest)

def nestingOfEntries : List (String × Value) → Nat
  | [] => 0
  | (_, item) :: rest => max item.nesting (nestingOfEntries rest)

end

mutual

def numbers : Value → List Number
  | .number written => [written]
  | .array items => numbersOfItems items
  | .object entries => numbersOfEntries entries
  | _ => []

def numbersOfItems : List Value → List Number
  | [] => []
  | item :: rest => item.numbers ++ numbersOfItems rest

def numbersOfEntries : List (String × Value) → List Number
  | [] => []
  | (_, item) :: rest => item.numbers ++ numbersOfEntries rest

end

theorem nesting_add_one_le_iff {nesting depth : Nat} (h : ¬depth ≤ 1) :
    nesting + 1 ≤ depth - 1 ↔ nesting ≤ depth - 1 - 1 := by
  omega

mutual

theorem readFault_draft : (value : Value) → ∀ depth : Nat,
    value.draft.readFault depth = none ↔
      value.nesting ≤ depth - 1 ∧ ∀ number ∈ value.numbers, number.IsInRange
  | .null, depth => by simp [draft, Draft.readFault, nesting, numbers]
  | .bool _, depth => by simp [draft, Draft.readFault, nesting, numbers]
  | .number written, depth => by simp [draft, written.readFault_draft, nesting, numbers]
  | .string _, depth => by simp [draft, Draft.readFault, Draft.stringError, nesting, numbers]
  | .array items, depth => by
      rw [draft, Draft.readFault, nesting, numbers]
      split
      · next hdeep =>
          have hnot : ¬nestingOfItems items + 1 ≤ depth - 1 := by omega
          simp [hnot]
      · next hdepth =>
          rw [Option.map_none, Option.orElse_eq_orElse, Option.orElse_eq_or, Option.or_none,
            readItems_drafts items (depth - 1), nesting_add_one_le_iff hdepth]
  | .object entries, depth => by
      rw [draft, Draft.readFault, nesting, numbers]
      split
      · next hdeep =>
          have hnot : ¬nestingOfEntries entries + 1 ≤ depth - 1 := by omega
          simp [hnot]
      · next hdepth =>
          rw [Option.map_none, Option.orElse_eq_orElse, Option.orElse_eq_or, Option.or_none,
            readEntries_drafts entries (depth - 1), nesting_add_one_le_iff hdepth]

theorem readItems_drafts : (items : List Value) → ∀ depth : Nat,
    Draft.readItems depth (draftsOf items) = none ↔
      nestingOfItems items ≤ depth - 1 ∧ ∀ number ∈ numbersOfItems items, number.IsInRange
  | [], depth => by simp [draftsOf, Draft.readItems, nestingOfItems, numbersOfItems]
  | item :: rest, depth => by
      have hitem := readFault_draft item depth
      have hrest := readItems_drafts rest depth
      simp only [draftsOf, Draft.readItems, nestingOfItems, numbersOfItems, Option.orElse_eq_none,
        hitem, hrest, List.forall_mem_append, Nat.max_le]
      tauto

theorem readEntries_drafts : (entries : List (String × Value)) → ∀ depth : Nat,
    Draft.readEntries depth (draftEntriesOf entries) = none ↔
      nestingOfEntries entries ≤ depth - 1 ∧
        ∀ number ∈ numbersOfEntries entries, number.IsInRange
  | [], depth => by simp [draftEntriesOf, Draft.readEntries, nestingOfEntries, numbersOfEntries]
  | (_, item) :: rest, depth => by
      have hitem := readFault_draft item depth
      have hrest := readEntries_drafts rest depth
      simp only [draftEntriesOf, Draft.readEntries, Draft.stringError, nestingOfEntries,
        numbersOfEntries, Option.orElse_eq_none, hitem, hrest, List.forall_mem_append, Nat.max_le]
      tauto

end

/-- A value nests so many levels at most, and its numbers are in range. -/
structure IsReadable (levels : Nat) (value : Value) : Prop where
  nesting_le : value.nesting ≤ levels
  isInRange : ∀ number ∈ value.numbers, number.IsInRange

section

variable {levels : Nat}

theorem isReadable_string (text : String) : (Value.string text).IsReadable levels where
  nesting_le := Nat.zero_le levels
  isInRange := by simp [numbers]

theorem isReadable_natural {number : Nat} (h : number < Nat.pow 2 64) :
    (Value.natural number).IsReadable levels where
  nesting_le := Nat.zero_le levels
  isInRange := by simpa [natural, numbers] using Number.isInRange_natural h

theorem isReadable_real (number : Float) : (Value.real number).IsReadable levels where
  nesting_le := Nat.zero_le levels
  isInRange := by simpa [real, numbers] using Number.isInRange_real number

theorem isReadable_array {items : List Value} (h : ∀ item ∈ items, item.IsReadable levels) :
    (Value.array items).IsReadable (levels + 1) := by
  have hparts : nestingOfItems items ≤ levels ∧
      ∀ number ∈ numbersOfItems items, number.IsInRange := by
    induction items with
    | nil => simp [nestingOfItems, numbersOfItems]
    | cons item rest ih =>
        obtain ⟨hitem, hrest⟩ := List.forall_mem_cons.1 h
        obtain ⟨hnesting, hnumbers⟩ := ih hrest
        exact ⟨Nat.max_le.2 ⟨hitem.nesting_le, hnesting⟩,
          List.forall_mem_append.2 ⟨hitem.isInRange, hnumbers⟩⟩
  exact ⟨Nat.succ_le_succ hparts.1, hparts.2⟩

theorem isReadable_object {entries : List (String × Value)}
    (h : ∀ entry ∈ entries, entry.2.IsReadable levels) :
    (Value.object entries).IsReadable (levels + 1) := by
  have hparts : nestingOfEntries entries ≤ levels ∧
      ∀ number ∈ numbersOfEntries entries, number.IsInRange := by
    induction entries with
    | nil => simp [nestingOfEntries, numbersOfEntries]
    | cons entry rest ih =>
        obtain ⟨hentry, hrest⟩ := List.forall_mem_cons.1 h
        obtain ⟨hnesting, hnumbers⟩ := ih hrest
        exact ⟨Nat.max_le.2 ⟨hentry.nesting_le, hnesting⟩,
          List.forall_mem_append.2 ⟨hentry.isInRange, hnumbers⟩⟩
  exact ⟨Nat.succ_le_succ hparts.1, hparts.2⟩

end

theorem readFault_depthLimit_iff (value : Value) :
    value.draft.readFault Document.depthLimit = none ↔
      value.IsReadable (Document.depthLimit - 1) := by
  rw [readFault_draft]
  exact ⟨fun h => ⟨h.1, h.2⟩, fun h => ⟨h.nesting_le, h.isInRange⟩⟩

mutual

theorem skipFault_draft : (value : Value) → value.draft.skipFault = none
  | .null => rfl
  | .bool _ => rfl
  | .number written => by
      rcases written.text_cases with ⟨literal, -, -, hdraft⟩ | ⟨-, hdraft⟩ <;>
        rw [draft, hdraft, Draft.skipFault] <;> simp
  | .string _ => rfl
  | .array items => by
      rw [draft, Draft.skipFault, skipItems_drafts items]
      rfl
  | .object entries => by
      rw [draft, Draft.skipFault, skipEntries_drafts entries]
      rfl

theorem skipItems_drafts : (items : List Value) → Draft.skipItems (draftsOf items) = none
  | [] => rfl
  | item :: rest => by
      rw [draftsOf, Draft.skipItems, skipFault_draft item, skipItems_drafts rest]
      rfl

theorem skipEntries_drafts : (entries : List (String × Value)) →
    Draft.skipEntries (draftEntriesOf entries) = none
  | [] => rfl
  | (_, item) :: rest => by
      rw [draftEntriesOf, Draft.skipEntries, skipFault_draft item, skipEntries_drafts rest]
      rfl

end

end Value

end CodeAtlas.Json
