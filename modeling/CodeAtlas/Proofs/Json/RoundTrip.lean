import CodeAtlas.Proofs.Json.NumberRoundTrip
import CodeAtlas.Proofs.Json.StringRoundTrip

/-!
# Values that are written and read back

A value that is written in either layout is read back as it was, but for its numbers, which are what
their texts are read as. The reader stops right behind it. The fuel a value takes is no more than
the characters written of it.
-/

namespace CodeAtlas.Json

/-! ## Blanks -/

namespace Input

theorem skipBlanks_append {blanks : List Char} (h : ∀ char ∈ blanks, isBlank (some char) = true)
    (input : Input) : skipBlanks (blanks.map some ++ input) = skipBlanks input := by
  apply List.dropWhile_append_of_pos
  simpa using h

theorem skipBlanks_cons {place : Option Char} (h : isBlank place = false) (input : Input) :
    skipBlanks (place :: input) = place :: input :=
  List.dropWhile_cons_of_neg (by simp [h])

theorem endsNumber_nil : EndsNumber [] := fun _ h => by cases h

theorem endsNumber_cons {char : Char}
    (h : char.isDigit = false ∧ char ≠ '.' ∧ char ≠ 'e' ∧ char ≠ 'E') (rest : Input) :
    EndsNumber (some char :: rest) := by
  rintro _ ⟨⟩
  exact h

theorem endsNumber_append {blanks : List Char}
    (h : ∀ char ∈ blanks, isBlank (some char) = true) {rest : Input} (hrest : rest.EndsNumber) :
    EndsNumber (blanks.map some ++ rest) := by
  cases blanks with
  | nil => exact hrest
  | cons char blanks =>
      have hblank := h char List.mem_cons_self
      refine endsNumber_cons ?_ _
      simp only [isBlank, Bool.or_eq_true, decide_eq_true_eq] at hblank
      rcases hblank with ((rfl | rfl) | rfl) | rfl <;> decide

end Input

theorem Print.Layout.isBlank_of_mem_lineBreak {layout : Layout} {char : Char}
    (h : char ∈ layout.lineBreak) : Input.isBlank (some char) = true := by
  cases layout with
  | compact => cases h
  | pretty depth =>
      rcases List.mem_cons.1 h with rfl | h
      · rfl
      · rw [List.eq_of_mem_replicate h]
        rfl

/-! ## Drafts of values -/

mutual

def Value.draft : Value → Draft
  | .null => .null
  | .bool value => .bool value
  | .number value => value.draft
  | .string value => .string (.ok value)
  | .array items => .array (draftsOf items) none
  | .object entries => .object (draftEntriesOf entries) none

def Value.draftsOf : List Value → List Draft
  | [] => []
  | item :: rest => item.draft :: draftsOf rest

def Value.draftEntriesOf : List (String × Value) → List (DraftString × Draft)
  | [] => []
  | (key, item) :: rest => (.ok key, item.draft) :: draftEntriesOf rest

end

/-- A value is read back from what is written of it, whatever follows that cannot belong to a number.
-/
def Value.ReadsBack (value : Value) : Prop :=
  ∀ (layout : Print.Layout) (fuel : Nat) (rest : Input), rest.EndsNumber →
    (Print.value layout value).length ≤ fuel →
      Reader.valueFuel fuel ((Print.value layout value).map some ++ rest) = (value.draft, some rest)

theorem Literal.IsWellFormed.head {literal : Literal} (h : literal.IsWellFormed) :
    ∃ char rest, literal.text = char :: rest ∧ (char = '-' ∨ char.isDigit = true) := by
  obtain ⟨first, digits, hwhole⟩ := List.exists_cons_of_ne_nil h.whole.ne_nil
  have hfirst := h.whole.isDigit first (by simp [hwhole])
  rw [text, hwhole]
  cases literal.negative with
  | true => exact ⟨'-', _, rfl, .inl rfl⟩
  | false => exact ⟨first, _, rfl, .inr hfirst⟩

theorem Value.head (value : Value) (layout : Print.Layout) :
    ∃ char rest, Print.value layout value = char :: rest ∧ Input.isBlank (some char) = false ∧
      char ≠ ']' := by
  cases value with
  | null => exact ⟨_, _, rfl, rfl, by decide⟩
  | bool value => cases value <;> exact ⟨_, _, rfl, rfl, by decide⟩
  | number number =>
      rcases number.text_cases with ⟨literal, hliteral, htext, -⟩ | ⟨htext, -⟩
      · obtain ⟨char, rest, hhead, hchar⟩ := hliteral.head
        refine ⟨char, rest, ?_, ?_⟩
        · rw [Print.value, Print.number, htext, hhead]
        · rcases hchar with rfl | hdigit
          · exact ⟨rfl, by decide⟩
          · refine ⟨Bool.eq_false_iff.2 fun hblank => ?_, ?_⟩
            · simp only [Input.isBlank, Bool.or_eq_true, decide_eq_true_eq] at hblank
              rcases hblank with ((rfl | rfl) | rfl) | rfl <;> revert hdigit <;> decide
            · rintro rfl
              revert hdigit
              decide
      · refine ⟨'n', ['u', 'l', 'l'], ?_, rfl, by decide⟩
        rw [Print.value, Print.number, htext]
        rfl
  | string value => exact ⟨_, _, rfl, rfl, by decide⟩
  | array items => cases items <;> exact ⟨_, _, rfl, rfl, by decide⟩
  | object entries => cases entries <;> exact ⟨_, _, rfl, rfl, by decide⟩

namespace Reader

/-! ## One step of the reader -/

theorem valueFuel_array {char : Char} {inner rest : Input}
    (hs : Input.skipBlanks inner = some char :: rest) (hc : char ≠ ']') (fuel : Nat) :
    valueFuel (fuel + 1) (some '[' :: inner) = itemsFuel fuel [] (some char :: rest) := by
  rw [valueFuel, Input.skipBlanks_cons rfl]
  simp only [hs]
  split
  · simp_all
  · simp_all
  · rfl

theorem valueFuel_object {inner rest : Input}
    (hs : Input.skipBlanks inner = some '"' :: rest) (fuel : Nat) :
    valueFuel (fuel + 1) (some '\x7b' :: inner) = entriesFuel fuel [] rest := by
  rw [valueFuel, Input.skipBlanks_cons rfl]
  simp only [hs]

theorem valueFuel_congr {left right : Input} (h : Input.skipBlanks left = Input.skipBlanks right)
    (fuel : Nat) : valueFuel fuel left = valueFuel fuel right := by
  cases fuel with
  | zero => rfl
  | succ fuel => rw [valueFuel, valueFuel, h]

section

variable {fuel : Nat} {input after behind next rest : Input} {item : Draft} {char : Char}

theorem itemsFuel_last (hv : valueFuel fuel input = (item, some after))
    (hs : Input.skipBlanks after = some ']' :: rest) (read : List Draft) :
    itemsFuel (fuel + 1) read input = (.array (item :: read).reverse none, some rest) := by
  rw [itemsFuel, hv]
  simp only [hs]

theorem itemsFuel_next (hv : valueFuel fuel input = (item, some after))
    (hs : Input.skipBlanks after = some ',' :: next)
    (hn : Input.skipBlanks next = some char :: rest) (hc : char ≠ ']') (read : List Draft) :
    itemsFuel (fuel + 1) read input = itemsFuel fuel (item :: read) (some char :: rest) := by
  rw [itemsFuel, hv]
  simp only [hs, hn]
  split
  · simp_all
  · simp_all
  · rfl

theorem entriesFuel_last {key : String} (hk : string fuel input = .ok (.ok key, after))
    (hs : Input.skipBlanks after = some ':' :: behind)
    (hv : valueFuel fuel behind = (item, some next))
    (hn : Input.skipBlanks next = some '\x7d' :: rest) (read : List (DraftString × Draft)) :
    entriesFuel (fuel + 1) read input =
      (.object ((.ok key, item) :: read).reverse none, some rest) := by
  rw [entriesFuel, hk]
  simp only [hs, hv, hn]

theorem entriesFuel_next {key : String} {more : Input}
    (hk : string fuel input = .ok (.ok key, after))
    (hs : Input.skipBlanks after = some ':' :: behind)
    (hv : valueFuel fuel behind = (item, some next))
    (hn : Input.skipBlanks next = some ',' :: rest)
    (hr : Input.skipBlanks rest = some '"' :: more) (read : List (DraftString × Draft)) :
    entriesFuel (fuel + 1) read input = entriesFuel fuel ((.ok key, item) :: read) more := by
  rw [entriesFuel, hk]
  simp only [hs, hv, hn, hr]

end

/-! ## Collections -/

theorem itemsFuel_print {layout : Print.Layout} {close : List Char}
    (hclose : ∀ char ∈ close, Input.isBlank (some char) = true) {first : Value} {items : List Value}
    (hb : ∀ item ∈ first :: items, item.ReadsBack)
    {fuel : Nat} (hf : (Print.value layout first ++ Print.items layout items).length < fuel)
    (read : List Draft) (rest : Input) :
    itemsFuel fuel read ((Print.value layout first ++ Print.items layout items ++ close).map some ++
      some ']' :: rest) =
        (.array (read.reverse ++ Value.draftsOf (first :: items)) none, some rest) := by
  induction items generalizing first fuel read with
  | nil =>
      obtain ⟨fuel, rfl⟩ := Nat.exists_eq_add_one_of_ne_zero (Nat.ne_of_gt (Nat.zero_lt_of_lt hf))
      have hv := hb first (by simp) layout fuel (close.map some ++ some ']' :: rest)
        (Input.endsNumber_append hclose (Input.endsNumber_cons (by decide) _)) (by
          simp [Print.items] at hf
          omega)
      simp only [Print.items, List.append_nil, List.map_append, List.append_assoc]
      rw [itemsFuel_last hv
        ((Input.skipBlanks_append hclose _).trans (Input.skipBlanks_cons rfl _))]
      simp [Value.draftsOf]
  | cons second items ih =>
      obtain ⟨fuel, rfl⟩ := Nat.exists_eq_add_one_of_ne_zero (Nat.ne_of_gt (Nat.zero_lt_of_lt hf))
      simp only [Print.items, List.length_append, List.length_cons] at hf
      let tail := (Print.value layout second ++ Print.items layout items ++ close).map some ++
        some ']' :: rest
      have hinput : (Print.value layout first ++ Print.items layout (second :: items) ++ close).map
          some ++ some ']' :: rest = (Print.value layout first).map some ++
            some ',' :: (layout.lineBreak.map some ++ tail) := by
        simp [Print.items, tail]
      have hv := hb first (by simp) layout fuel (some ',' :: (layout.lineBreak.map some ++ tail))
        (Input.endsNumber_cons (by decide) _) (by omega)
      obtain ⟨char, more, hsecond, hblank, hne⟩ := second.head layout
      obtain ⟨behind, htail⟩ : ∃ behind, tail = some char :: behind := by simp [tail, hsecond]
      have hnext : Input.skipBlanks (layout.lineBreak.map some ++ tail) = some char :: behind := by
        rw [Input.skipBlanks_append fun _ => Print.Layout.isBlank_of_mem_lineBreak, htail,
          Input.skipBlanks_cons hblank]
      rw [hinput, itemsFuel_next hv (Input.skipBlanks_cons rfl _) hnext hne, ← htail,
        ih (fun item hm => hb item (by simp [hm])) (by simp only [List.length_append]; omega)]
      simp [Value.draftsOf]

theorem entry_print (layout : Print.Layout) (key : String) {value : Value} (hb : value.ReadsBack)
    {fuel : Nat} (hk : (Print.string key).length ≤ fuel)
    (hv : (Print.value layout value).length ≤ fuel) {after : Input} (hafter : after.EndsNumber) :
    ∃ colon behind,
      string fuel ((key.toList.flatMap Print.escape ++ '"' :: layout.colon ++
        Print.value layout value).map some ++ after) = .ok (.ok key, colon) ∧
      Input.skipBlanks colon = some ':' :: behind ∧
      valueFuel fuel behind = (value.draft, some after) := by
  have hstring := string_of_print key (Nat.le_succ_of_le hk)
    (layout.colon.map some ++ ((Print.value layout value).map some ++ after))
  have hvalue := hb layout fuel after hafter hv
  have hinput : (key.toList.flatMap Print.escape ++ '"' :: layout.colon ++
      Print.value layout value).map some ++ after = (key.toList.flatMap Print.escape).map some ++
        some '"' :: (layout.colon.map some ++ ((Print.value layout value).map some ++ after)) := by
    simp
  rw [hinput, hstring]
  cases layout with
  | compact => exact ⟨_, _, rfl, Input.skipBlanks_cons rfl _, hvalue⟩
  | pretty depth =>
      refine ⟨_, _, rfl, Input.skipBlanks_cons rfl _, ?_⟩
      rw [← hvalue]
      refine valueFuel_congr (@Input.skipBlanks_append [' '] ?_ _) fuel
      intro char hm
      obtain rfl := List.mem_singleton.1 hm
      rfl

theorem entriesFuel_print {layout : Print.Layout} {close : List Char}
    (hclose : ∀ char ∈ close, Input.isBlank (some char) = true) {key : String} {first : Value}
    {entries : List (String × Value)} (hb : first.ReadsBack)
    (hbs : ∀ entry ∈ entries, entry.2.ReadsBack) {fuel : Nat}
    (hf : (Print.string key ++ Print.value layout first ++ Print.entries layout entries).length <
      fuel) (read : List (DraftString × Draft)) (rest : Input) :
    entriesFuel fuel read ((key.toList.flatMap Print.escape ++ '"' :: layout.colon ++
        Print.value layout first ++ Print.entries layout entries ++ close).map some ++
          some '\x7d' :: rest) =
        (.object (read.reverse ++ Value.draftEntriesOf ((key, first) :: entries)) none,
          some rest) := by
  induction entries generalizing key first fuel read with
  | nil =>
      obtain ⟨fuel, rfl⟩ := Nat.exists_eq_add_one_of_ne_zero (Nat.ne_of_gt (Nat.zero_lt_of_lt hf))
      simp only [Print.entries, List.append_nil, List.length_append] at hf
      obtain ⟨colon, behind, hkey, hcolon, hvalue⟩ := entry_print layout key hb
        (show (Print.string key).length ≤ fuel by omega) (by omega)
        (Input.endsNumber_append hclose (Input.endsNumber_cons
          (show _ from by decide : '\x7d'.isDigit = false ∧ _) rest))
      rw [Print.entries, List.append_nil, List.map_append, List.append_assoc,
        entriesFuel_last hkey hcolon hvalue
          ((Input.skipBlanks_append hclose _).trans (Input.skipBlanks_cons rfl _))]
      simp [Value.draftEntriesOf]
  | cons second entries ih =>
      obtain ⟨fuel, rfl⟩ := Nat.exists_eq_add_one_of_ne_zero (Nat.ne_of_gt (Nat.zero_lt_of_lt hf))
      obtain ⟨next, item⟩ := second
      simp only [Print.entries, List.length_append, List.length_cons] at hf
      let tail := (next.toList.flatMap Print.escape ++ '"' :: layout.colon ++
        Print.value layout item ++ Print.entries layout entries ++ close).map some ++
          some '\x7d' :: rest
      obtain ⟨colon, behind, hkey, hcolon, hvalue⟩ := entry_print layout key hb
        (show (Print.string key).length ≤ fuel by omega) (by omega)
        (Input.endsNumber_cons (show _ from by decide : ','.isDigit = false ∧ _)
          (layout.lineBreak.map some ++ some '"' :: tail))
      have hinput : (key.toList.flatMap Print.escape ++ '"' :: layout.colon ++
          Print.value layout first ++ Print.entries layout ((next, item) :: entries) ++ close).map
            some ++ some '\x7d' :: rest =
          (key.toList.flatMap Print.escape ++ '"' :: layout.colon ++
            Print.value layout first).map some ++
              some ',' :: (layout.lineBreak.map some ++ some '"' :: tail) := by
        simp [Print.entries, Print.string, tail]
      have hnext : Input.skipBlanks (layout.lineBreak.map some ++ some '"' :: tail) =
          some '"' :: tail := by
        rw [Input.skipBlanks_append fun _ => Print.Layout.isBlank_of_mem_lineBreak,
          Input.skipBlanks_cons rfl]
      rw [hinput, entriesFuel_next hkey hcolon hvalue (Input.skipBlanks_cons rfl _) hnext,
        ih (hbs (next, item) (by simp)) (fun entry hm => hbs entry (by simp [hm]))
          (by simp only [List.length_append]; omega)]
      simp [Value.draftEntriesOf]

end Reader

/-! ## Values -/

theorem Value.readsBack_string (text : String) : (Value.string text).ReadsBack := by
  intro layout fuel rest hrest hf
  cases fuel with
  | zero => cases hf
  | succ fuel =>
      have hinput : (Print.value layout (.string text)).map some ++ rest =
          some '"' :: ((text.toList.flatMap Print.escape).map some ++ some '"' :: rest) := by
        simp [Print.value, Print.string]
      have hs := Reader.string_of_print text hf rest
      rw [hinput, Reader.valueFuel, Input.skipBlanks_cons rfl]
      simp only [hs]
      rfl

theorem Value.readsBack_array {items : List Value} (hb : ∀ item ∈ items, item.ReadsBack) :
    (Value.array items).ReadsBack := by
  intro layout fuel rest hrest hf
  cases items with
  | nil =>
      cases fuel with
      | zero => cases hf
      | succ fuel => rfl
  | cons first items =>
      cases fuel with
      | zero => cases hf
      | succ fuel =>
          let tail := (Print.value layout.deeper first ++ Print.items layout.deeper items ++
            layout.lineBreak).map some ++ some ']' :: rest
          have hinput : (Print.value layout (.array (first :: items))).map some ++ rest =
              some '[' :: (layout.deeper.lineBreak.map some ++ tail) := by
            simp [Print.value, tail]
          obtain ⟨char, more, hfirst, hblank, hne⟩ := first.head layout.deeper
          obtain ⟨behind, htail⟩ : ∃ behind, tail = some char :: behind := by simp [tail, hfirst]
          have hs : Input.skipBlanks (layout.deeper.lineBreak.map some ++ tail) =
              some char :: behind := by
            rw [Input.skipBlanks_append fun _ => Print.Layout.isBlank_of_mem_lineBreak, htail,
              Input.skipBlanks_cons hblank]
          simp only [Print.value, List.length_append, List.length_cons] at hf
          rw [hinput, Reader.valueFuel_array hs hne, ← htail, Reader.itemsFuel_print
            (fun _ => Print.Layout.isBlank_of_mem_lineBreak) hb
            (by simp only [List.length_append]; omega)]
          rfl

theorem Value.readsBack_object {entries : List (String × Value)}
    (hb : ∀ entry ∈ entries, entry.2.ReadsBack) : (Value.object entries).ReadsBack := by
  intro layout fuel rest hrest hf
  cases entries with
  | nil =>
      cases fuel with
      | zero => cases hf
      | succ fuel => rfl
  | cons entry entries =>
      cases fuel with
      | zero => cases hf
      | succ fuel =>
          obtain ⟨key, first⟩ := entry
          let tail := (key.toList.flatMap Print.escape ++ '"' :: layout.deeper.colon ++
            Print.value layout.deeper first ++ Print.entries layout.deeper entries ++
              layout.lineBreak).map some ++ some '\x7d' :: rest
          have hinput : (Print.value layout (.object ((key, first) :: entries))).map some ++ rest =
              some '\x7b' :: (layout.deeper.lineBreak.map some ++ some '"' :: tail) := by
            cases layout <;> simp [Print.value, Print.string, Print.Layout.colon, tail,
              Print.Layout.deeper]
          have hs : Input.skipBlanks (layout.deeper.lineBreak.map some ++ some '"' :: tail) =
              some '"' :: tail := by
            rw [Input.skipBlanks_append fun _ => Print.Layout.isBlank_of_mem_lineBreak,
              Input.skipBlanks_cons rfl]
          simp only [Print.value, List.length_append, List.length_cons] at hf
          rw [hinput, Reader.valueFuel_object hs, Reader.entriesFuel_print
            (fun _ => Print.Layout.isBlank_of_mem_lineBreak) (hb (key, first) (by simp))
            (fun entry hm => hb entry (by simp [hm])) (by simp only [List.length_append]; omega)]
          rfl

theorem Reader.valueFuel_digit {char : Char} (h : char.isDigit = true) (fuel : Nat) (rest : Input) :
    valueFuel (fuel + 1) (some char :: rest) = number false (some char :: rest) := by
  have hblank : Input.isBlank (some char) = false := by
    refine Bool.eq_false_iff.2 fun hblank => ?_
    simp only [Input.isBlank, Bool.or_eq_true, decide_eq_true_eq] at hblank
    rcases hblank with ((rfl | rfl) | rfl) | rfl <;> revert h <;> decide
  rw [valueFuel, Input.skipBlanks_cons hblank]
  split <;> rename_i heq <;> cases heq <;> first | exact absurd h (by decide) | exact if_pos h

theorem Reader.valueFuel_literal {literal : Literal} (h : literal.IsWellFormed) {rest : Input}
    (hrest : rest.EndsNumber) (fuel : Nat) :
    valueFuel (fuel + 1) (literal.text.map some ++ rest) =
      (.number literal.numeral.value, some rest) := by
  have hread := number_text h hrest
  cases hsign : literal.negative with
  | true =>
      rw [hsign] at hread
      rw [Literal.text, hsign, ← hread, List.append_assoc, List.append_assoc, List.append_assoc]
      rw [valueFuel, Literal.signText, if_pos rfl, List.singleton_append, List.map_cons,
        List.cons_append, Input.skipBlanks_cons rfl]
      rfl
  | false =>
      obtain ⟨first, digits, hwhole⟩ := List.exists_cons_of_ne_nil h.whole.ne_nil
      rw [hsign, hwhole] at hread
      rw [Literal.text, hsign, hwhole, ← hread]
      exact valueFuel_digit (h.whole.isDigit first (by simp [hwhole])) fuel _

theorem Value.readsBack_number (number : Number) : (Value.number number).ReadsBack := by
  intro layout fuel rest hrest hf
  obtain ⟨char, more, hhead, -⟩ := (Value.number number).head layout
  cases fuel with
  | zero => simp [hhead] at hf
  | succ fuel =>
      rw [Print.value, Print.number, Value.draft]
      rcases number.text_cases with ⟨literal, hliteral, htext, hdraft⟩ | ⟨htext, hdraft⟩
      · rw [htext, hdraft]
        exact Reader.valueFuel_literal hliteral hrest fuel
      · rw [htext, hdraft]
        rfl

mutual

theorem Value.readsBack : (value : Value) → value.ReadsBack
  | .null => by
      intro layout fuel rest hrest hf
      cases fuel with
      | zero => cases hf
      | succ fuel => rfl
  | .bool value => by
      intro layout fuel rest hrest hf
      cases fuel with
      | zero => cases value <;> cases hf
      | succ fuel => cases value <;> rfl
  | .number written => readsBack_number written
  | .string text => readsBack_string text
  | .array items => readsBack_array (readsBack_items items)
  | .object entries => readsBack_object (readsBack_entries entries)

theorem Value.readsBack_items : (items : List Value) → ∀ item ∈ items, item.ReadsBack
  | [] => fun _ hm => absurd hm List.not_mem_nil
  | first :: rest => fun item hm => by
      rcases List.mem_cons.1 hm with heq | hm
      · exact heq ▸ readsBack first
      · exact readsBack_items rest item hm

theorem Value.readsBack_entries :
    (entries : List (String × Value)) → ∀ entry ∈ entries, entry.2.ReadsBack
  | [] => fun _ hm => absurd hm List.not_mem_nil
  | (key, first) :: rest => fun entry hm => by
      rcases List.mem_cons.1 hm with heq | hm
      · exact heq ▸ readsBack first
      · exact readsBack_entries rest entry hm

end

theorem Value.read_print (value : Value) (layout : Print.Layout) :
    Document.read (Input.ofText (String.ofList (Print.value layout value))) =
      ⟨value.draft, false⟩ := by
  have hv := value.readsBack layout (2 * (Print.value layout value).length + 3) []
    Input.endsNumber_nil (by omega)
  rw [List.append_nil] at hv
  rw [Input.ofText, String.toList_ofList, Document.read, List.length_map, hv]
  rfl

end CodeAtlas.Json
