import CodeAtlas.Json.Decode
import CodeAtlas.Proofs.Json.RoundTrip
import Mathlib.Data.List.Induction
import Mathlib.Data.String.Basic

/-!
# Decoding what was written

Decoders on the drafts of values, before and after the entries of objects have been sorted. Lists
and maps are read back where their parts are, records field by field. A real number becomes what the
reader makes of its text.
-/

namespace CodeAtlas.Json

/-- What the reader makes of the text of a number. -/
def reread (number : Float) : Except Error Float :=
  Decoder.real.ofText (Document.read (Input.ofText (Value.real number).compact))

namespace Value

theorem draftsOf_eq_map (items : List Value) : draftsOf items = items.map draft := by
  induction items with
  | nil => rfl
  | cons item rest ih => rw [draftsOf, ih, List.map_cons]

theorem draftEntriesOf_eq_map (entries : List (String × Value)) :
    draftEntriesOf entries = entries.map fun entry => (.ok entry.1, entry.2.draft) := by
  induction entries with
  | nil => rfl
  | cons entry rest ih => rw [draftEntriesOf, ih, List.map_cons]

end Value

namespace Draft

theorem sortedItems_eq_map (items : List Draft) : sortedItems items = items.map sorted := by
  induction items with
  | nil => rfl
  | cons item rest ih => rw [sortedItems, ih, List.map_cons]

theorem sortedEntries_eq_map (entries : List (DraftString × Draft)) :
    sortedEntries entries = entries.map fun entry => (entry.1, entry.2.sorted) := by
  induction entries with
  | nil => rfl
  | cons entry rest ih => rw [sortedEntries, ih, List.map_cons]

theorem sorted_draft (number : Number) : number.draft.sorted = number.draft := by
  cases number with
  | whole value => rfl
  | real value =>
      rw [Number.draft]
      split <;> rfl

theorem sorted_array {α : Type} (toJson : α → Value) (items : List α) :
    (Value.array (items.map toJson)).draft.sorted =
      .array (items.map fun item => (toJson item).draft.sorted) none := by
  rw [Value.draft, Value.draftsOf_eq_map, sorted, sortedItems_eq_map, List.map_map, List.map_map]
  rfl

theorem sorted_object (entries : List (String × Value)) :
    (Value.object entries).draft.sorted =
      .object (sortEntries (entries.map fun entry => (.ok entry.1, entry.2.draft.sorted)))
        none := by
  rw [Value.draft, Value.draftEntriesOf_eq_map, sorted, sortedEntries_eq_map, List.map_map]
  rfl

theorem insertEntry_append {key : String} {front : List (String × Draft)}
    (h : ∀ entry ∈ front, entry.1 < key) (item : Draft) :
    insertEntry key item (front.map fun entry => (.ok entry.1, entry.2)) =
      (front ++ [(key, item)]).map fun entry => (.ok entry.1, entry.2) := by
  induction front with
  | nil => rfl
  | cons entry rest ih =>
      have hlt := h entry List.mem_cons_self
      rw [List.map_cons, insertEntry, if_neg hlt.asymm, if_neg hlt.ne',
        ih fun other hm => h other (List.mem_cons_of_mem entry hm)]
      rfl

theorem sortEntries_of_pairwise {entries : List (String × Draft)}
    (h : entries.Pairwise fun first second => first.1 < second.1) :
    sortEntries (entries.map fun entry => (.ok entry.1, entry.2)) =
      entries.map fun entry => (.ok entry.1, entry.2) := by
  induction entries using List.reverseRecOn with
  | nil => rfl
  | append_singleton front last ih =>
      obtain ⟨hfront, -, hlast⟩ := List.pairwise_append.1 h
      have hlt : ∀ entry ∈ front, entry.1 < last.1 := fun entry hm => hlast entry hm last (by simp)
      have hstep : sortEntries ((front ++ [last]).map fun entry => (.ok entry.1, entry.2)) =
          insertEntry last.1 last.2
            (sortEntries (front.map fun entry => (.ok entry.1, entry.2))) := by
        rw [sortEntries, List.map_append, List.foldl_append]
        rfl
      rw [hstep, ih hfront, insertEntry_append hlt]

end Draft

/-! ## Nesting -/

namespace Draft

variable {depth : Nat}

theorem readFault_array {items : List Value}
    (h : ∀ item ∈ items, item.draft.readFault (depth + 1) = none) :
    (Value.array items).draft.readFault (depth + 2) = none := by
  have hitems : readItems (depth + 1) (items.map Value.draft) = none := by
    induction items with
    | nil => rfl
    | cons item rest ih =>
        rw [List.map_cons, readItems, h item List.mem_cons_self,
          ih fun other hm => h other (List.mem_cons_of_mem item hm)]
        rfl
  rw [Value.draft, Value.draftsOf_eq_map, readFault, if_neg (by omega), Nat.add_succ_sub_one,
    hitems]
  rfl

theorem readFault_object {entries : List (String × Value)}
    (h : ∀ entry ∈ entries, entry.2.draft.readFault (depth + 1) = none) :
    (Value.object entries).draft.readFault (depth + 2) = none := by
  have hentries : readEntries (depth + 1)
      (entries.map fun entry => (.ok entry.1, entry.2.draft)) = none := by
    induction entries with
    | nil => rfl
    | cons entry rest ih =>
        rw [List.map_cons, readEntries, h entry List.mem_cons_self,
          ih fun other hm => h other (List.mem_cons_of_mem entry hm)]
        rfl
  rw [Value.draft, Value.draftEntriesOf_eq_map, readFault, if_neg (by omega), Nat.add_succ_sub_one,
    hentries]
  rfl

theorem readFault_natural {number : Nat} (h : number < Nat.pow 2 64) :
    (Value.natural number).draft.readFault depth = none := by
  rw [Value.natural, Value.draft, Number.draft_whole h]
  rfl

end Draft

namespace Decoder

variable {α : Type}

/-! ## Numbers -/

theorem real_congr (first second : Origin) (draft : Draft) :
    real first draft = real second draft := by
  cases draft with
  | number value =>
      cases value with
      | ok value => cases value <;> rfl
      | error error => rfl
  | _ => rfl

theorem real_draft (origin : Origin) (number : Float) :
    Decoder.real origin (Number.real number).draft = reread number := by
  have hread := (Value.real number).read_print .compact
  rw [reread, Value.compact, hread, ofText, Value.real, Value.draft,
    real_congr origin (.text Document.depthLimit)]
  cases Decoder.real (.text Document.depthLimit) (Number.real number).draft <;> rfl

theorem readFault_real {number read : Float} (h : reread number = .ok read) (depth : Nat) :
    (Value.real number).draft.readFault depth = none := by
  rw [← real_draft .value, Number.draft] at h
  rw [Value.real, Value.draft, Number.draft]
  cases hclass : Decimal.Value.ofFloat number with
  | finite binary =>
      rw [hclass] at h
      dsimp only at h ⊢
      cases hvalue : (Literal.ofBinary binary).numeral.value with
      | ok value => rfl
      | error error =>
          rw [hvalue] at h
          cases h
  | undefined => rfl
  | infinite negative => rfl

theorem natural_draft (expected : String) (origin : Origin) {number limit : Nat}
    (h : number < Nat.pow 2 64) (hl : number ≤ limit) :
    natural expected limit origin (Value.natural number).draft = .ok number := by
  have hdraft : (Value.natural number).draft = .number (.ok (.whole number)) :=
    Number.draft_whole h
  have hlimit : (0 ≤ (number : Int) && (number : Int) ≤ (limit : Int)) = true := by
    simp only [Bool.and_eq_true, decide_eq_true_eq]
    omega
  rw [hdraft, natural, if_pos hlimit, Int.toNat_natCast]

theorem word32_draft (origin : Origin) (number : UInt32) :
    word32 origin (Value.natural number.toNat).draft = .ok number := by
  have hlt : number.toNat < Nat.pow 2 32 := number.toNat_lt
  have hread := natural_draft "u32" origin (hlt.trans (by decide)) (Nat.le_sub_one_of_lt hlt)
  simp [word32, hread, bind, Except.bind, pure, Except.pure]

theorem word64_draft (origin : Origin) {number : Nat} (h : number < Nat.pow 2 64) :
    word64 origin (Value.natural number).draft = .ok number :=
  natural_draft "u64" origin h (Nat.le_sub_one_of_lt h)

theorem size_draft (origin : Origin) {number : Nat} (h : number < Nat.pow 2 64) :
    size origin (Value.natural number).draft = .ok number :=
  natural_draft "usize" origin h (Nat.le_sub_one_of_lt h)

/-! ## Lists and maps -/

theorem listItems_map {decoder : Decoder α} {origin : Origin} {draft : α → Draft} {items : List α}
    (h : ∀ item ∈ items, decoder origin (draft item) = .ok item) (read : List α) :
    listItems decoder origin read (items.map draft) = .ok (read.reverse ++ items) := by
  induction items generalizing read with
  | nil => simp [listItems]
  | cons item rest ih =>
      rw [List.map_cons, listItems, h item List.mem_cons_self]
      dsimp only
      rw [ih (fun other hm => h other (List.mem_cons_of_mem item hm)), List.reverse_cons,
        List.append_assoc, List.singleton_append]

theorem mapEntries_map {decoder : Decoder α} {origin : Origin} {draft : α → Draft}
    {entries : List (String × α)}
    (h : ∀ entry ∈ entries, decoder origin (draft entry.2) = .ok entry.2)
    (read : List (String × α)) :
    mapEntries decoder origin read (entries.map fun entry => (.ok entry.1, draft entry.2)) =
      .ok (read.reverse ++ entries) := by
  induction entries generalizing read with
  | nil => simp [mapEntries]
  | cons entry rest ih =>
      rw [List.map_cons, mapEntries, keyOf]
      dsimp only
      rw [h entry List.mem_cons_self]
      dsimp only
      rw [ih (fun other hm => h other (List.mem_cons_of_mem entry hm)), List.reverse_cons,
        List.append_assoc, List.singleton_append]

theorem list_map {decoder : Decoder α} {draft : α → Draft} {items : List α}
    (h : ∀ item ∈ items, decoder .value (draft item) = .ok item) :
    Decoder.list decoder .value (.array (items.map draft) none) = .ok items := by
  have hitems := listItems_map h []
  simp only [Decoder.list, Origin.enter, bind, Except.bind, hitems]
  rfl

theorem map_map {decoder : Decoder α} {draft : α → Draft} {entries : List (String × α)}
    (h : ∀ entry ∈ entries, decoder .value (draft entry.2) = .ok entry.2) :
    Decoder.map decoder .value
      (.object (entries.map fun entry => (.ok entry.1, draft entry.2)) none) = .ok entries := by
  have hentries := mapEntries_map h []
  simp only [Decoder.map, Origin.enter, bind, Except.bind, hentries]
  rfl

theorem ofText_list {decoder : Decoder α} {toJson : α → Value} {items : List α}
    (h : ∀ item ∈ items,
      decoder (.text (Document.depthLimit - 1)) (toJson item).draft = .ok item) :
    (Decoder.list decoder).ofText ⟨(Value.array (items.map toJson)).draft, false⟩ = .ok items := by
  have hitems := listItems_map h []
  have henter : (Origin.text Document.depthLimit).enter =
      .ok (.text (Document.depthLimit - 1)) := rfl
  have hdraft : (Value.array (items.map toJson)).draft =
      .array (items.map fun item => (toJson item).draft) none := by
    rw [Value.draft, Value.draftsOf_eq_map, List.map_map]
    rfl
  have hlist : Decoder.list decoder (.text Document.depthLimit)
      (.array (items.map fun item => (toJson item).draft) none) = .ok items := by
    simp only [Decoder.list, henter, bind, Except.bind, hitems]
    rfl
  simp only [Decoder.ofText, hdraft, hlist]
  rfl

/-! ## Records -/

section Records

variable {σ : Type} {fields : List (Field σ)} {state : σ}

theorem recordEntries_cons {names : List String} {hasDefault : Bool} {decoder : Decoder α}
    {get : σ → Option α} {set : σ → α → σ} {origin : Origin} {key : String} {item : Draft}
    {value : α}
    (hfield : (fields.find? fun field => field.names.contains key) =
      some (Field.make names hasDefault decoder get set))
    (hunset : get state = none) (hvalue : decoder origin item = .ok value)
    (rest : List (DraftString × Draft)) :
    recordEntries fields origin state ((.ok key, item) :: rest) =
      recordEntries fields origin (set state value) rest := by
  have hread : (Field.make names hasDefault decoder get set).read origin item state =
      .ok (set state value) := by
    simp only [Field.make, hvalue, bind, Except.bind, pure, Except.pure]
  have hopen : (Field.make names hasDefault decoder get set).isSet state = false := by
    simp only [Field.make, hunset, Option.isSome_none]
  rw [recordEntries, keyOf]
  simp only [hfield, hopen, hread, Bool.false_eq_true, if_false]

theorem record_object (name : String) (fields : List (Field σ)) (empty : σ)
    (finish : σ → Except Error α) (entries : List (DraftString × Draft)) :
    Decoder.record name fields empty finish .value (.object entries none) =
      (recordEntries fields .value empty entries).bind finish := by
  simp only [Decoder.record, Origin.enter, faultOf, bind, Except.bind]

end Records

end Decoder

end CodeAtlas.Json
