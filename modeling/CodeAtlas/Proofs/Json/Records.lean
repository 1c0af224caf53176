import CodeAtlas.Proofs.Json.Nesting

/-!
# Records, entry by entry

The entries of an object come in any order, each under any of the names of its field, and entries
under other names are passed over. What a record is after all of them depends on the one entry under
the names of each field. What every field keeps to is kept to by whatever is read.
-/

namespace CodeAtlas.Json

/-- The entries under one of several names. -/
def entriesUnder (names : List String) (entries : List (String × Value)) :
    List (String × Value) :=
  entries.filter fun entry => names.contains entry.1

/-- What stands under one of several names. -/
def draftsUnder (names : List String) : List (DraftString × Draft) → List Draft
  | [] => []
  | (.ok key, item) :: rest =>
      if names.contains key then item :: draftsUnder names rest else draftsUnder names rest
  | (.error _, _) :: rest => draftsUnder names rest

section

variable {names : List String} {key : String}

theorem draftsUnder_cons_of_mem (h : key ∈ names) (item : Draft)
    (rest : List (DraftString × Draft)) :
    draftsUnder names ((.ok key, item) :: rest) = item :: draftsUnder names rest :=
  if_pos (by simpa using h)

theorem draftsUnder_cons_of_not_mem (h : key ∉ names) (item : Draft)
    (rest : List (DraftString × Draft)) :
    draftsUnder names ((.ok key, item) :: rest) = draftsUnder names rest :=
  if_neg (by simpa using h)

theorem draftsUnder_map (names : List String) (entries : List (String × Value)) :
    draftsUnder names (entries.map fun entry => (.ok entry.1, entry.2.draft)) =
      (entriesUnder names entries).map fun entry => entry.2.draft := by
  induction entries with
  | nil => rfl
  | cons entry rest ih =>
      obtain ⟨key, item⟩ := entry
      by_cases hkey : key ∈ names
      · have hunder : entriesUnder names ((key, item) :: rest) =
            (key, item) :: entriesUnder names rest := List.filter_cons_of_pos (by simpa using hkey)
        rw [List.map_cons, draftsUnder_cons_of_mem hkey, hunder, List.map_cons, ih]
      · have hunder : entriesUnder names ((key, item) :: rest) = entriesUnder names rest :=
          List.filter_cons_of_neg (by simpa using hkey)
        rw [List.map_cons, draftsUnder_cons_of_not_mem hkey, hunder, ih]

end

namespace Decoder

variable {σ α : Type} {fields : List (Field σ)} {state : σ}

/-! ## Entries in any order -/

/-- What becomes of a field by the entries under its names: it stays as it was without any, and one
entry is read into it if it is not set. -/
inductive Filled (decoder : Decoder α) : Option α → List (String × Value) → Option α → Prop
  | kept (value : Option α) : Filled decoder value [] value
  | read {key : String} {item : Value} {value : α} (h : decoder .value item.draft = .ok value) :
      Filled decoder none [(key, item)] (some value)

/-- What becomes of a field by the items under its names: it stays as it was without any, and one
item is read into it if it is not set. -/
inductive Takes (decoder : Decoder α) (origin : Origin) : Option α → List Draft → Option α → Prop
  | kept (value : Option α) : Takes decoder origin value [] value
  | read {item : Draft} {value : α} (h : decoder origin item = .ok value) :
      Takes decoder origin none [item] (some value)

theorem Filled.takes {decoder : Decoder α} {present final : Option α}
    {under : List (String × Value)} (h : Filled decoder present under final) :
    Takes decoder .value present (under.map fun entry => entry.2.draft) final := by
  cases h with
  | kept => exact .kept _
  | read hvalue => exact .read hvalue

theorem recordEntries_of_takes {names : List String} {hasDefault : Bool} {decoder : Decoder α}
    {get : σ → Option α} {set : σ → α → σ} {origin : Origin} {key : String} {item : Draft}
    {under : List Draft} {final : Option α}
    (hfield : (fields.find? fun field => field.names.contains key) =
      some (Field.make names hasDefault decoder get set))
    (h : Takes decoder origin (get state) (item :: under) final)
    (rest : List (DraftString × Draft)) :
    ∃ value, under = [] ∧ final = some value ∧
      recordEntries fields origin state ((.ok key, item) :: rest) =
        recordEntries fields origin (set state value) rest := by
  generalize hget : get state = present at h
  cases h with
  | read hvalue => exact ⟨_, rfl, rfl, recordEntries_cons hfield hget hvalue rest⟩

theorem recordEntries_skip {origin : Origin} {key : String}
    (hfield : (fields.find? fun field => field.names.contains key) = none) {item : Draft}
    (hitem : item.skipFault = none) (rest : List (DraftString × Draft)) :
    recordEntries fields origin state ((.ok key, item) :: rest) =
      recordEntries fields origin state rest := by
  rw [recordEntries, keyOf]
  simp only [hfield, hitem]

end Decoder

/-- A field of a record with what it is made of. -/
structure Slot (σ : Type) where
  α : Type
  names : List String
  hasDefault : Bool
  decoder : Decoder α
  get : σ → Option α
  set : σ → α → σ

namespace Slot

variable {σ : Type} {slots : List (Slot σ)} {state final : σ}

def field (slot : Slot σ) : Field σ :=
  Field.make slot.names slot.hasDefault slot.decoder slot.get slot.set

/-- Neither of two fields has a name of the other or touches what is read into it. -/
structure AreApart (first second : Slot σ) : Prop where
  names : ∀ name ∈ first.names, name ∉ second.names
  get_set : ∀ state value, second.get (first.set state value) = second.get state
  set_get : ∀ state value, first.get (second.set state value) = first.get state

instance : Std.Symm (@AreApart σ) where
  symm _ _ h := ⟨fun name hsecond hfirst => h.names name hfirst hsecond, h.set_get, h.get_set⟩

/-- Fields that make up a state, each a part of its own. -/
structure MakeUp (slots : List (Slot σ)) : Prop where
  get_set : ∀ slot ∈ slots, ∀ state value, slot.get (slot.set state value) = some value
  pairwise : slots.Pairwise AreApart
  ext : ∀ state other, (∀ slot ∈ slots, slot.get state = slot.get other) → state = other

theorem MakeUp.areApart (h : MakeUp slots) {first second : Slot σ} (hfirst : first ∈ slots)
    (hsecond : second ∈ slots) (hne : first ≠ second) : first.AreApart second :=
  h.pairwise.forall hfirst hsecond hne

theorem MakeUp.find?_field (h : MakeUp slots) {slot : Slot σ} (hm : slot ∈ slots) {key : String}
    (hkey : key ∈ slot.names) :
    ((slots.map field).find? fun other => other.names.contains key) = some slot.field := by
  rw [List.find?_map]
  cases hfound : slots.find? ((fun other => other.names.contains key) ∘ field) with
  | none =>
      have hnone := List.find?_eq_none.1 hfound slot hm
      exact absurd hkey (by simpa [field, Field.make] using hnone)
  | some other =>
      have hother : key ∈ other.names := by
        simpa [field, Field.make] using List.find?_some hfound
      by_cases heq : other = slot
      · rw [heq]
        rfl
      · have hapart := h.areApart (List.mem_of_find?_eq_some hfound) hm heq
        exact absurd hkey (hapart.names key hother)

/-- Every key can be read, and what stands under a key of no field can be passed over. -/
def ArePassable (slots : List (Slot σ)) (entries : List (DraftString × Draft)) : Prop :=
  ∀ entry ∈ entries, ∃ key, entry.1 = .ok key ∧
    ((∃ slot ∈ slots, key ∈ slot.names) ∨ entry.2.skipFault = none)

theorem MakeUp.recordEntries_of_takes (h : MakeUp slots) {origin : Origin}
    {entries : List (DraftString × Draft)} (hpass : ArePassable slots entries)
    (htakes : ∀ slot ∈ slots, Decoder.Takes slot.decoder origin (slot.get state)
      (draftsUnder slot.names entries) (slot.get final)) :
    Decoder.recordEntries (slots.map field) origin state entries = .ok final := by
  induction entries generalizing state with
  | nil =>
      have hsame : state = final := h.ext state final fun slot hm => by
        have hslot := htakes slot hm
        rw [draftsUnder] at hslot
        generalize slot.get state = present at hslot
        generalize slot.get final = read at hslot
        cases hslot
        rfl
      rw [hsame]
      rfl
  | cons entry rest ih =>
      obtain ⟨found, item⟩ := entry
      obtain ⟨⟨key, rfl, hkey⟩, hrest⟩ := List.forall_mem_cons.1 hpass
      by_cases hslot : ∃ slot ∈ slots, key ∈ slot.names
      · obtain ⟨slot, hm, hkey⟩ := hslot
        have hslot := htakes slot hm
        rw [draftsUnder_cons_of_mem hkey] at hslot
        obtain ⟨value, hunder, hfinal, hstep⟩ :=
          Decoder.recordEntries_of_takes (h.find?_field hm hkey) hslot rest
        rw [hstep]
        refine ih hrest fun other hother => ?_
        by_cases heq : other = slot
        · rw [heq, hunder, h.get_set slot hm, hfinal]
          exact .kept _
        · have hapart := h.areApart hother hm heq
          have hothers := htakes other hother
          rwa [draftsUnder_cons_of_not_mem fun hin => hapart.names key hin hkey,
            ← hapart.set_get state value] at hothers
      · have hnone : ((slots.map field).find? fun other => other.names.contains key) = none := by
          rw [List.find?_map, Option.map_eq_none_iff, List.find?_eq_none]
          intro slot hm
          simpa [field, Field.make] using fun hin => hslot ⟨slot, hm, hin⟩
        rw [Decoder.recordEntries_skip hnone (hkey.resolve_left hslot)]
        refine ih hrest fun slot hm => ?_
        have hothers := htakes slot hm
        rwa [draftsUnder_cons_of_not_mem fun hin => hslot ⟨slot, hm, hin⟩] at hothers

theorem arePassable_draftEntriesOf (slots : List (Slot σ)) (entries : List (String × Value)) :
    ArePassable slots (Value.draftEntriesOf entries) := by
  rw [Value.draftEntriesOf_eq_map]
  intro entry hm
  obtain ⟨⟨key, item⟩, -, rfl⟩ := List.mem_map.1 hm
  exact ⟨key, rfl, .inr item.skipFault_draft⟩

/-- The entries of an object give these parts of a record, and there is nothing else among them that
cannot be passed over. -/
structure Gives (slots : List (Slot σ)) (origin : Origin) (entries : List (DraftString × Draft))
    (given : σ) : Prop where
  passable : ArePassable slots entries
  takes : ∀ slot ∈ slots,
    slot.decoder.Takes origin none (draftsUnder slot.names entries) (slot.get given)

theorem MakeUp.record_of_gives {α : Type} (h : MakeUp slots) {name : String} {empty given : σ}
    {finish : σ → Except Error α} {origin inner : Origin} {entries : List (DraftString × Draft)}
    (hempty : ∀ slot ∈ slots, slot.get empty = none) (hinner : origin.enter = .ok inner)
    (hgives : Gives slots inner entries given) :
    Decoder.record name (slots.map field) empty finish origin (.object entries none) =
      finish given := by
  have hentries : Decoder.recordEntries (slots.map field) inner empty entries = .ok given :=
    h.recordEntries_of_takes hgives.passable fun slot hm =>
      (hempty slot hm).symm ▸ hgives.takes slot hm
  simp only [Decoder.record, hinner, hentries, bind, Except.bind]
  rfl

/-- Each field is filled from the entries under its names, whatever else stands among them. -/
theorem MakeUp.recordEntries_eq (h : MakeUp slots) {entries : List (String × Value)}
    (hfilled : ∀ slot ∈ slots,
      Decoder.Filled slot.decoder (slot.get state) (entriesUnder slot.names entries)
        (slot.get final)) :
    Decoder.recordEntries (slots.map field) .value state
      (entries.map fun entry => (.ok entry.1, entry.2.draft)) = .ok final := by
  rw [← Value.draftEntriesOf_eq_map]
  refine h.recordEntries_of_takes (arePassable_draftEntriesOf slots entries) fun slot hm => ?_
  rw [Value.draftEntriesOf_eq_map, draftsUnder_map]
  exact (hfilled slot hm).takes

end Slot

namespace Decoder

variable {σ α : Type} {fields : List (Field σ)} {state : σ}

theorem list_of_forall₂ {decoder : Decoder α} {items : List Value} {values : List α}
    (h : List.Forall₂ (fun item value => decoder .value item.draft = .ok value) items values) :
    Decoder.list decoder .value (Value.array items).draft = .ok values := by
  have hitems (read : List α) : listItems decoder .value read (items.map Value.draft) =
      .ok (read.reverse ++ values) := by
    induction h generalizing read with
    | nil => simp [listItems]
    | cons hitem _ ih =>
        rw [List.map_cons, listItems, hitem]
        dsimp only
        rw [ih, List.reverse_cons, List.append_assoc, List.singleton_append]
  rw [Value.draft, Value.draftsOf_eq_map]
  simp only [Decoder.list, Origin.enter, bind, Except.bind, hitems]
  rfl

/-! ## What every field keeps to -/

theorem exists_of_bind {ε β : Type} {first : Except ε α} {rest : α → Except ε β} {result : β}
    (h : first >>= rest = .ok result) : ∃ value, first = .ok value ∧ rest value = .ok result := by
  cases first with
  | error error => cases h
  | ok value => exact ⟨value, rfl, h⟩

theorem mismatch_ne_ok (expected : String) (draft : Draft) (value : α) :
    mismatch expected draft ≠ .ok value := by
  intro h
  cases hfound : found draft <;> simp [mismatch, hfound, bind, Except.bind] at h

theorem natural_le {expected : String} {limit : Nat} {origin : Origin} {draft : Draft}
    {number : Nat} (h : natural expected limit origin draft = .ok number) : number ≤ limit := by
  unfold natural at h
  split at h
  · split at h
    · next hrange =>
        cases h
        simp only [Bool.and_eq_true, decide_eq_true_eq] at hrange
        omega
    · cases h
  · exact absurd h (mismatch_ne_ok _ _ _)

theorem exists_of_mem_list {decoder : Decoder α} {origin : Origin} {draft : Draft} {values : List α}
    (h : Decoder.list decoder origin draft = .ok values) :
    ∀ value ∈ values, ∃ inner item, decoder inner item = .ok value := by
  have hitems {inner : Origin} {items : List Draft} {read : List α}
      (hread : ∀ value ∈ read, ∃ inner item, decoder inner item = .ok value)
      (h : listItems decoder inner read items = .ok values) :
      ∀ value ∈ values, ∃ inner item, decoder inner item = .ok value := by
    induction items generalizing read with
    | nil =>
        cases h
        exact fun value hm => hread value (List.mem_reverse.1 hm)
    | cons item rest ih =>
        rw [listItems] at h
        split at h
        · cases h
        · next value hvalue =>
            exact ih (List.forall_mem_cons.2 ⟨⟨inner, item, hvalue⟩, hread⟩) h
  unfold Decoder.list at h
  split at h
  · obtain ⟨inner, -, h⟩ := exists_of_bind h
    obtain ⟨read, hread, h⟩ := exists_of_bind h
    obtain ⟨-, -, h⟩ := exists_of_bind h
    cases h
    exact hitems (fun _ hm => absurd hm List.not_mem_nil) hread
  · exact absurd h (mismatch_ne_ok _ _ _)

theorem exists_of_make {names : List String} {hasDefault : Bool} {decoder : Decoder α}
    {get : σ → Option α} {set : σ → α → σ} {origin : Origin} {draft : Draft} {next : σ}
    (h : (Field.make names hasDefault decoder get set).read origin draft state = .ok next) :
    ∃ value, decoder origin draft = .ok value ∧ set state value = next := by
  obtain ⟨value, hvalue, hnext⟩ := exists_of_bind h
  exact ⟨value, hvalue, Except.ok.inj hnext⟩

section Invariant

variable {holds : σ → Prop} {origin : Origin} {next : σ}

/-- Every field of a record keeps a property of its state, whatever is read into it. -/
def Keeps (fields : List (Field σ)) (holds : σ → Prop) : Prop :=
  ∀ field ∈ fields, ∀ origin draft state next, holds state →
    field.read origin draft state = .ok next → holds next

theorem recordEntries_keeps (hkeeps : Keeps fields holds) (hstate : holds state)
    {entries : List (DraftString × Draft)}
    (h : recordEntries fields origin state entries = .ok next) : holds next := by
  induction entries generalizing state with
  | nil =>
      cases h
      exact hstate
  | cons entry rest ih =>
      obtain ⟨key, item⟩ := entry
      rw [recordEntries] at h
      split at h
      · cases h
      split at h
      · split at h
        · cases h
        · exact ih hstate h
      · next field hfield =>
          split at h
          · cases h
          split at h
          · cases h
          · next read hread =>
              exact ih (hkeeps field (List.mem_of_find?_eq_some hfield) _ _ _ _ hstate hread) h

theorem recordItems_keeps (hkeeps : Keeps fields holds) (hstate : holds state)
    {expected : String} {fault : Option Fault} {index : Nat} {items rest : List Draft}
    (h : recordItems expected origin fault index state fields items = .ok (next, rest)) :
    holds next := by
  induction fields generalizing state index items with
  | nil =>
      cases h
      exact hstate
  | cons field fields ih =>
      have hrest : Keeps fields holds := fun other hm => hkeeps other (List.mem_cons_of_mem _ hm)
      cases items with
      | nil =>
          rw [recordItems] at h
          obtain ⟨-, -, h⟩ := exists_of_bind h
          split at h
          · exact ih hrest hstate h
          · cases h
      | cons item items =>
          rw [recordItems] at h
          split at h
          · cases h
          · next read hread =>
              exact ih hrest (hkeeps field List.mem_cons_self _ _ _ _ hstate hread) h

theorem exists_of_record (holds : σ → Prop) (hkeeps : Keeps fields holds) {name : String}
    {empty : σ} (hempty : holds empty) {finish : σ → Except Error α} {draft : Draft} {value : α}
    (h : Decoder.record name fields empty finish origin draft = .ok value) :
    ∃ state, holds state ∧ finish state = .ok value := by
  cases draft with
  | object entries fault =>
      rw [record] at h
      obtain ⟨inner, -, h⟩ := exists_of_bind h
      obtain ⟨state, hread, h⟩ := exists_of_bind h
      obtain ⟨-, -, h⟩ := exists_of_bind h
      exact ⟨state, recordEntries_keeps hkeeps hempty hread, h⟩
  | array items fault =>
      rw [record] at h
      obtain ⟨inner, -, h⟩ := exists_of_bind h
      obtain ⟨⟨state, rest⟩, hread, h⟩ := exists_of_bind h
      refine ⟨state, recordItems_keeps hkeeps hempty hread, ?_⟩
      dsimp only at h
      -- Items that are left and a fault behind them are errors.
      split at h
      · split at h <;> cases h
      · split at h
        · exact h
        all_goals cases h
  | null => exact absurd h (mismatch_ne_ok _ _ _)
  | bool present => exact absurd h (mismatch_ne_ok _ _ _)
  | number present => exact absurd h (mismatch_ne_ok _ _ _)
  | string present => exact absurd h (mismatch_ne_ok _ _ _)
  | broken fault => exact absurd h (mismatch_ne_ok _ _ _)

end Invariant

end Decoder

end CodeAtlas.Json
