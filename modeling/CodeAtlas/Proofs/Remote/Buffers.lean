import CodeAtlas.Proofs.Remote.Grammar
import CodeAtlas.Remote.Buffer

/-!
# The buffers of a reply

A buffer is reserved just for the strings whose headers are reached, at the front of a reply or
behind items that are there in full, and its size is told by that header alone. So a header may ask
for more than a buffer can have or memory has room for. Any other one that asks for more than the
stream has fails as a stream that is too short.
-/

namespace CodeAtlas.Remote.Reply

/-! ## Announced lengths -/

/-- A header that is reached announces a string of this length, and these bytes are behind it. -/
inductive Announces : Bytes → Nat → Bytes → Prop where
  | string {digits : String} {line rest : Bytes} {length : Nat} :
      IsHeader '$' digits line → Text.Numeral.signed64 digits = .ok (length : Int) →
        Announces (line ++ rest) length rest
  | item {digits : String} {line taken stream rest : Bytes} {count length : Nat}
      {items : List Reply} :
      IsHeader '*' digits line → Text.Numeral.signed64 digits = .ok (count : Int) →
        AreWritten items taken → items.length < count → Announces stream length rest →
          Announces (line ++ (taken ++ stream)) length rest

variable {stream rest : Bytes} {length : Nat}

theorem Announces.lt (h : Announces stream length rest) : length < Nat.pow 2 63 := by
  induction h with
  | string _ hn => exact Int.ofNat_lt.1 (Text.Numeral.lt_of_signed64 hn)
  | item _ _ _ _ _ ih => exact ih

theorem Announces.length_pos (h : Announces stream length rest) : 0 < stream.length := by
  cases h with
  | string hl _ =>
      rw [List.length_append]
      exact Nat.lt_add_right _ hl.length_pos
  | item hl _ _ _ _ =>
      rw [List.length_append]
      exact Nat.lt_add_right _ hl.length_pos

/-! ## What is reserved was announced -/

/-- Whatever is reserved with this fuel was announced. -/
def AnnouncesBuffers (fuel : Nat) : Prop :=
  ∀ {stream : Bytes} {size : Nat}, size ∈ buffersFuel fuel stream →
    ∃ length rest, Announces stream length rest ∧ size = bulkSize length

/-- Whatever is reserved for items with this fuel was announced behind some of them. -/
def AnnouncesItemBuffers (fuel : Nat) : Prop :=
  ∀ {count : Nat} {stream : Bytes} {size : Nat}, size ∈ itemBuffersFuel fuel count stream →
    ∃ items taken tail length rest, AreWritten items taken ∧ items.length < count ∧
      stream = taken ++ tail ∧ Announces tail length rest ∧ size = bulkSize length

theorem announcesBuffers_succ {fuel : Nat} (hitems : AnnouncesItemBuffers fuel) :
    AnnouncesBuffers (fuel + 1) := by
  intro stream size h
  rw [buffersFuel] at h
  rcases hline : readLine stream with ⟨error | header, after⟩ <;> simp only [hline] at h
  · cases h
  · split at h
    · rename_i body hm
      obtain ⟨line, hh, rfl⟩ := exists_isHeader_of_readLine hline hm
      split at h
      · rename_i length hn
        exact ⟨length, after, .string hh (lineNumber_eq_ok_iff.1 hn), List.mem_singleton.1 h⟩
      · cases h
    · rename_i body hm
      obtain ⟨line, hh, rfl⟩ := exists_isHeader_of_readLine hline hm
      split at h
      · rename_i count hn
        obtain ⟨items, taken, tail, length, rest, hw, hc, rfl, ha, hsize⟩ := hitems h
        exact ⟨length, rest, .item hh (lineNumber_eq_ok_iff.1 hn) hw hc ha, hsize⟩
      · cases h
    · cases h

theorem announcesItemBuffers_succ {fuel : Nat} (hreplies : AnnouncesBuffers fuel)
    (hitems : AnnouncesItemBuffers fuel) : AnnouncesItemBuffers (fuel + 1) := by
  intro count stream size h
  cases count with
  | zero => simp [itemBuffersFuel] at h
  | succ count =>
      rw [itemBuffersFuel, List.mem_append] at h
      rcases h with h | h
      · obtain ⟨length, rest, ha, hsize⟩ := hreplies h
        exact ⟨[], [], stream, length, rest, .nil, Nat.succ_pos count, rfl, ha, hsize⟩
      · rcases hitem : readFuel fuel stream with ⟨error | item, after⟩ <;> simp only [hitem] at h
        · cases h
        · obtain ⟨first, hfirst, rfl⟩ := (readsReplies_and_items fuel).1 hitem
          obtain ⟨items, taken, tail, length, rest, hw, hc, rfl, ha, hsize⟩ := hitems h
          exact ⟨item :: items, first ++ taken, tail, length, rest, .cons hfirst hw,
            Nat.succ_lt_succ hc, (List.append_assoc _ _ _).symm, ha, hsize⟩

theorem announcesBuffers_and_items (fuel : Nat) :
    AnnouncesBuffers fuel ∧ AnnouncesItemBuffers fuel := by
  induction fuel with
  | zero =>
      constructor
      · intro stream size h
        cases h
      · intro count stream size h
        cases count <;> simp [itemBuffersFuel] at h
  | succ fuel ih => exact ⟨announcesBuffers_succ ih.2, announcesItemBuffers_succ ih.1 ih.2⟩

/-! ## What is announced is reserved -/

/-- Items that are there in full are passed by, and what follows is left to the rest of the list. -/
theorem AreWritten.exists_pass {items : List Reply} {taken : Bytes} (h : AreWritten items taken)
    (count fuel : Nat) (read : List Reply) (stream : Bytes)
    (hf : 2 * (taken ++ stream).length ≤ fuel) :
    ∃ less, 2 * stream.length ≤ less ∧
      readItemsFuel fuel (items.length + count) read (taken ++ stream) =
        readItemsFuel less count (items.reverse ++ read) stream ∧
      itemBuffersFuel less count stream ⊆
        itemBuffersFuel fuel (items.length + count) (taken ++ stream) := by
  induction items generalizing taken fuel read with
  | nil =>
      cases h
      rw [List.length_nil, Nat.zero_add]
      exact ⟨fuel, hf, rfl, List.Subset.refl _⟩
  | cons item items ih =>
      cases h with
      | @cons _ _ first others hfirst hothers =>
          have hpos := hfirst.length_pos
          rw [List.append_assoc, List.length_append] at hf
          obtain ⟨fuel, rfl⟩ : ∃ less, fuel = less + 1 := Nat.exists_eq_add_one.2 (by omega)
          have hread := (completesReplies_and_items fuel).1 hfirst (by omega) (others ++ stream)
          obtain ⟨less, hl, hitems, hbuffers⟩ := ih hothers fuel (item :: read) (by omega)
          refine ⟨less, hl, ?_, fun size hs => ?_⟩
          · rw [List.length_cons, Nat.succ_add, readItemsFuel, List.append_assoc, hread]
            dsimp only
            rw [hitems, List.reverse_cons, List.append_assoc, List.singleton_append]
          · rw [List.length_cons, Nat.succ_add, itemBuffersFuel, List.append_assoc, hread]
            exact List.mem_append_right _ (hbuffers hs)

theorem Announces.mem_buffersFuel (h : Announces stream length rest) :
    ∀ fuel, 2 * stream.length ≤ fuel + 1 → bulkSize length ∈ buffersFuel fuel stream := by
  induction h with
  | @string digits line rest length hl hn =>
      intro fuel hf
      have hline := hl.length_pos
      rw [List.length_append] at hf
      obtain ⟨fuel, rfl⟩ : ∃ less, fuel = less + 1 := Nat.exists_eq_add_one.2 (by omega)
      rw [buffersFuel, readLine_header_append hl]
      simp only [String.toList_ofList, String.ofList_toList, lineNumber_eq_ok_iff.2 hn]
      exact List.mem_singleton_self _
  | @item digits line taken stream rest count length items hl hn hw hc ha ih =>
      intro fuel hf
      have hline := hl.length_pos
      rw [List.length_append] at hf
      obtain ⟨fuel, rfl⟩ : ∃ less, fuel = less + 1 := Nat.exists_eq_add_one.2 (by omega)
      rw [buffersFuel, readLine_header_append hl]
      simp only [String.toList_ofList, String.ofList_toList, lineNumber_eq_ok_iff.2 hn]
      obtain ⟨more, rfl⟩ := Nat.exists_eq_add_of_lt hc
      obtain ⟨less, hless, -, hbuffers⟩ := hw.exists_pass (more + 1) fuel [] stream (by omega)
      have hstream := ha.length_pos
      obtain ⟨less, rfl⟩ : ∃ fewer, less = fewer + 1 := Nat.exists_eq_add_one.2 (by omega)
      refine hbuffers ?_
      rw [itemBuffersFuel]
      exact List.mem_append_left _ (ih less (by omega))

theorem mem_buffers_iff {size : Nat} :
    size ∈ buffers stream ↔
      ∃ length rest, Announces stream length rest ∧ size = bulkSize length := by
  constructor
  · exact (announcesBuffers_and_items _).1
  · rintro ⟨length, rest, h, rfl⟩
    exact h.mem_buffersFuel _ (by omega)

/-! ## Lengths that are not kept -/

theorem Announces.read_of_error {left : Bytes} {error : ReplyError}
    (h : Announces stream length rest) (he : readBulk length rest = (.error error, left)) :
    read stream = (.error error, left) := by
  suffices hread : ∀ fuel, 2 * stream.length ≤ fuel + 1 →
      readFuel fuel stream = (.error error, left) from hread _ (by omega)
  induction h with
  | @string digits line rest length hl hn =>
      intro fuel hf
      have hline := hl.length_pos
      rw [List.length_append] at hf
      obtain ⟨fuel, rfl⟩ : ∃ less, fuel = less + 1 := Nat.exists_eq_add_one.2 (by omega)
      rw [readFuel, readLine_header_append hl]
      simp only [String.toList_ofList, String.ofList_toList, lineNumber_eq_ok_iff.2 hn]
      exact he
  | @item digits line taken stream rest count length items hl hn hw hc ha ih =>
      intro fuel hf
      have hline := hl.length_pos
      rw [List.length_append] at hf
      obtain ⟨fuel, rfl⟩ : ∃ less, fuel = less + 1 := Nat.exists_eq_add_one.2 (by omega)
      rw [readFuel, readLine_header_append hl]
      simp only [String.toList_ofList, String.ofList_toList, lineNumber_eq_ok_iff.2 hn]
      obtain ⟨more, rfl⟩ := Nat.exists_eq_add_of_lt hc
      obtain ⟨less, hless, hitems, -⟩ := hw.exists_pass (more + 1) fuel [] stream (by omega)
      have hstream := ha.length_pos
      obtain ⟨less, rfl⟩ : ∃ fewer, less = fewer + 1 := Nat.exists_eq_add_one.2 (by omega)
      rw [Nat.add_assoc, hitems, readItemsFuel, ih he less (by omega)]

theorem readBulk_of_short (h : rest.length < bulkSize length) :
    readBulk length rest = (.error (.stream .shortRead), []) := by
  unfold readBulk
  exact if_pos (by rwa [List.take_of_length_le (Nat.le_of_lt h)])

theorem readBulk_of_unterminated (hl : bulkSize length ≤ rest.length)
    (he : ¬lineEnd <:+ rest.take (bulkSize length)) :
    readBulk length rest =
      (.error (.malformed "bulk string not terminated by CRLF"), rest.drop (bulkSize length)) := by
  unfold readBulk
  dsimp only
  rw [if_neg (by rw [List.length_take_of_le hl]; exact Nat.lt_irrefl _),
    if_neg fun hs => he (List.isSuffixOf_iff_suffix.1 hs)]

/-! ## Answers -/

theorem answer?_eq_some_iff {memory : Nat} {answer : Read Reply} :
    answer? memory stream = some answer ↔
      (∀ size ∈ buffers stream, size ≤ memory ∧ size ≤ largestBuffer) ∧ answer = read stream := by
  rw [answer?, Option.ite_none_right_eq_some, Option.some.injEq, List.all_eq_true]
  simp only [canReserve, Bool.and_eq_true, decide_eq_true_eq, @eq_comm _ answer]

theorem answer?_eq_none_iff {memory : Nat} :
    answer? memory stream = none ↔
      ∃ size ∈ buffers stream, memory < size ∨ largestBuffer < size := by
  rw [← Option.not_isSome_iff_eq_none, Option.isSome_iff_exists]
  simp only [answer?_eq_some_iff, exists_and_left, exists_eq, and_true, not_forall, exists_prop]
  refine exists_congr fun size => and_congr_right fun _ => ?_
  omega

theorem endsProgram_iff {memory count : Nat} :
    endsProgram memory count stream = true ↔
      ∃ index < count, answer? memory (afterMany index stream) = none := by
  induction count generalizing stream with
  | zero => simp [endsProgram]
  | succ count ih =>
      rw [endsProgram]
      cases ha : answer? memory stream with
      | none => exact iff_of_true rfl ⟨0, Nat.succ_pos count, ha⟩
      | some answer =>
          obtain ⟨first, after⟩ := answer
          have hafter : after = (read stream).2 := congrArg Prod.snd (answer?_eq_some_iff.1 ha).2
          rw [Nat.exists_lt_succ_left]
          simp [afterMany, ha, ih, hafter]

theorem endsProgram_eq_false_iff {memory count : Nat} :
    endsProgram memory count stream = false ↔
      ∀ index < count, answer? memory (afterMany index stream) =
        some (read (afterMany index stream)) := by
  rw [← Bool.not_eq_true, endsProgram_iff]
  push Not
  refine forall₂_congr fun index _ => ⟨fun hne => ?_, fun hsome => hsome ▸ Option.some_ne_none _⟩
  obtain ⟨answer, ha⟩ := Option.ne_none_iff_exists'.1 hne
  rw [ha, (answer?_eq_some_iff.1 ha).2]

/-- The sizes of the buffers are the announced lengths with the end of a line, and one of them cannot
be reserved just where one of the two largest lengths is announced, or one that memory has no room
for. Otherwise a length that is not kept is an error of the stream or of the question, however deep in
the reply it stands. -/
theorem answer?_of_announcements (memory : Nat) (stream : Bytes) :
    (∀ size, size ∈ buffers stream ↔
      ∃ length rest, Announces stream length rest ∧ size = length + 2) ∧
    (answer? memory stream = none ↔ ∃ length rest, Announces stream length rest ∧
      (memory < length + 2 ∨ length = Nat.pow 2 63 - 2 ∨ length = Nat.pow 2 63 - 1)) ∧
    ∀ answer, answer? memory stream = some answer →
      answer = read stream ∧ (∀ size ∈ buffers stream, size ≤ Nat.pow 2 63 - 1) ∧
      (∀ error, answer.1 = .error error →
        (∃ cause, error.toError = .system cause) ∨ ∃ reason, error.toError = .query reason) ∧
      ∀ length rest, Announces stream length rest →
        (rest.length < length + 2 → answer = (.error (.stream .shortRead), [])) ∧
        (length + 2 ≤ rest.length → ¬lineEnd <:+ rest.take (length + 2) →
          answer = (.error (.malformed "bulk string not terminated by CRLF"),
            rest.drop (length + 2))) := by
  refine ⟨fun size => mem_buffers_iff, ?_, fun answer ha => ?_⟩
  · rw [answer?_eq_none_iff]
    constructor
    · rintro ⟨size, hm, hs⟩
      obtain ⟨length, rest, h, rfl⟩ := mem_buffers_iff.1 hm
      have hlt := h.lt
      refine ⟨length, rest, h, hs.imp_right fun hlarge => ?_⟩
      simp only [largestBuffer, bulkSize, lineEnd, List.length_cons, List.length_nil] at hlarge
      omega
    · rintro ⟨length, rest, h, hl⟩
      refine ⟨bulkSize length, mem_buffers_iff.2 ⟨length, rest, h, rfl⟩, hl.imp_right ?_⟩
      rintro (rfl | rfl) <;> decide
  · obtain ⟨hsizes, rfl⟩ := answer?_eq_some_iff.1 ha
    refine ⟨rfl, fun size hm => (hsizes size hm).2, ?_,
      fun length rest h => ⟨fun hshort => ?_, fun hl he => ?_⟩⟩
    · rintro (cause | reason) -
      · exact .inl ⟨cause, rfl⟩
      · exact .inr ⟨_, rfl⟩
    · exact h.read_of_error (readBulk_of_short hshort)
    · exact h.read_of_error (readBulk_of_unterminated hl he)

/-- A list of three whose second item is a list with a string that is shorter than its header says.
-/
def lyingStream : Bytes := Text.Utf8.encode "*3\r\n:7\r\n*1\r\n$4294967296\r\nred\r\n"

theorem announces_lyingStream :
    Announces lyingStream 4294967296 (Text.Utf8.encode "red\r\n") := by
  have hseven : IsWritten (.number 7) (header ':' "7") :=
    .number (isHeader_header (by decide) (by decide)) (by rfl)
  have hstring : Announces (header '$' "4294967296" ++ Text.Utf8.encode "red\r\n")
      4294967296 (Text.Utf8.encode "red\r\n") :=
    .string (isHeader_header (by decide) (by decide)) (by rfl)
  have hinner : Announces (header '*' "1" ++ ([] ++ _)) 4294967296 _ :=
    .item (isHeader_header (by decide) (by decide)) (by rfl) .nil
      (by decide : 0 < 1) hstring
  have houter : Announces (header '*' "3" ++ ((header ':' "7" ++ []) ++ _)) 4294967296 _ :=
    .item (isHeader_header (by decide) (by decide)) (by rfl)
      (.cons hseven .nil) (by decide : 1 < 3) hinner
  exact cast (congrArg (Announces · _ _) (by decide +kernel)) houter

/-- There is room for such a buffer, so the program goes on and finds the string cut short. -/
theorem answer?_of_lyingStream :
    ∃ answer, answer? (Nat.pow 2 40) lyingStream = some answer ∧
      (∀ size ∈ buffers lyingStream, size ≤ Nat.pow 2 63 - 1) ∧
      answer = (.error (.stream .shortRead), []) := by
  have hsome : (answer? (Nat.pow 2 40) lyingStream).isSome = true := by decide +kernel
  obtain ⟨answer, ha⟩ := Option.isSome_iff_exists.1 hsome
  obtain ⟨-, -, hanswers⟩ := answer?_of_announcements (Nat.pow 2 40) lyingStream
  obtain ⟨-, hsizes, -, hlies⟩ := hanswers answer ha
  exact ⟨answer, ha, hsizes, (hlies _ _ announces_lyingStream).1 (by decide +kernel)⟩

/-- A header with the largest number that can be written in one. -/
def oversizedStream : Bytes := Text.Utf8.encode "$9223372036854775807\r\n"

/-- Not every buffer that is asked for can be reserved, however much memory there is. -/
theorem ends_on_oversizedStream :
    buffers oversizedStream = [Nat.pow 2 63 + 1] ∧
      (∀ memory, answer? memory oversizedStream = none) ∧
      ¬∀ stream, ∀ size ∈ buffers stream, size ≤ Nat.pow 2 63 - 1 := by
  have hbuffers : buffers oversizedStream = [Nat.pow 2 63 + 1] := by decide +kernel
  refine ⟨hbuffers, fun memory => answer?_eq_none_iff.2
    ⟨_, hbuffers ▸ List.mem_singleton_self _, .inr (by decide)⟩, fun hall => ?_⟩
  exact absurd (hall oversizedStream _ (hbuffers ▸ List.mem_singleton_self _)) (by decide)

end CodeAtlas.Remote.Reply
