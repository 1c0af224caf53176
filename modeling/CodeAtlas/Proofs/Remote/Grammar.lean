import CodeAtlas.Proofs.Remote.Frames

/-!
# The grammar of replies

What a server may write: a header line, and behind it the bytes of a string or the items of a list.
A stream is read as a reply just where it begins with one that is written so. The grammar does not
look at what follows a reply, and neither does reading, so a reply that is cut short is none.
-/

namespace CodeAtlas.Remote.Reply

/-! ## Headers -/

/-- The bytes are a line that holds a mark with a text behind it, and they have no line feed but the
last one. -/
def IsHeader (mark : Char) (text : String) (line : Bytes) : Prop :=
  ∃ content, line = content ++ lineEnd ∧ lineFeed ∉ content ∧
    Text.Utf8.decode content = .ok (String.ofList (mark :: text.toList))

mutual

/-- The bytes are a reply as it may be written. Numbers may be spelled in any way in which they are
read, and a length below zero stands for nothing. -/
inductive IsWritten : Reply → Bytes → Prop where
  | status {text : String} {line : Bytes} :
      IsHeader '+' text line → IsWritten (.status text) line
  | failure {text : String} {line : Bytes} :
      IsHeader '-' text line → IsWritten (.failure text) line
  | number {digits : String} {line : Bytes} {value : Int} :
      IsHeader ':' digits line → Text.Numeral.signed64 digits = .ok value →
        IsWritten (.number value) line
  | bytes {digits : String} {line value : Bytes} :
      IsHeader '$' digits line → Text.Numeral.signed64 digits = .ok value.length →
        IsWritten (.bytes value) (line ++ (value ++ lineEnd))
  | list {digits : String} {line rest : Bytes} {items : List Reply} :
      IsHeader '*' digits line → Text.Numeral.signed64 digits = .ok items.length →
        AreWritten items rest → IsWritten (.list items) (line ++ rest)
  | nothing {mark : Char} {digits : String} {line : Bytes} {value : Int} :
      mark = '$' ∨ mark = '*' → IsHeader mark digits line →
        Text.Numeral.signed64 digits = .ok value → value < 0 → IsWritten .nothing line

/-- The bytes are replies, one after the other. -/
inductive AreWritten : List Reply → Bytes → Prop where
  | nil : AreWritten [] []
  | cons {item : Reply} {items : List Reply} {bytes rest : Bytes} :
      IsWritten item bytes → AreWritten items rest → AreWritten (item :: items) (bytes ++ rest)

end

theorem IsHeader.length_pos {mark : Char} {text : String} {line : Bytes}
    (h : IsHeader mark text line) : 0 < line.length := by
  obtain ⟨content, rfl, -, -⟩ := h
  rw [List.length_append]
  exact Nat.lt_add_left _ (by decide)

theorem IsWritten.length_pos {reply : Reply} {bytes : Bytes} (h : IsWritten reply bytes) :
    0 < bytes.length := by
  cases h with
  | status hl => exact hl.length_pos
  | failure hl => exact hl.length_pos
  | number hl _ => exact hl.length_pos
  | bytes hl _ =>
      rw [List.length_append]
      exact Nat.lt_add_right _ hl.length_pos
  | list hl _ _ =>
      rw [List.length_append]
      exact Nat.lt_add_right _ hl.length_pos
  | nothing _ hl _ _ => exact hl.length_pos

/-! ## A written form -/

/-- The header line of a mark with a text of one line. -/
def header (mark : Char) (text : String) : Bytes :=
  Text.Utf8.encode (String.ofList (mark :: text.toList)) ++ lineEnd

theorem isHeader_header {mark : Char} {text : String} (hm : '\n' ≠ mark)
    (ht : '\n' ∉ text.toList) : IsHeader mark text (header mark text) := by
  refine ⟨_, rfl, lineFeed_notMem_encode ?_, Text.Utf8.decode_encode _⟩
  rw [String.toList_ofList, List.mem_cons, not_or]
  exact ⟨hm, ht⟩

theorem isHeader_toString {mark : Char} (hm : '\n' ≠ mark) (value : Int) :
    IsHeader mark (toString value) (header mark (toString value)) := by
  refine isHeader_header hm fun hc => ?_
  rw [Text.Numeral.toList_toString_int] at hc
  cases value with
  | ofNat number => exact absurd (Text.Numeral.isDigit_of_mem_toString hc) (by decide)
  | negSucc below =>
      rcases List.mem_cons.1 hc with hc | hc
      · exact absurd hc (by decide)
      · exact absurd (Text.Numeral.isDigit_of_mem_toString hc) (by decide)

mutual

def frame : Reply → Bytes
  | status text => header '+' text
  | failure text => header '-' text
  | number value => header ':' (toString value)
  | bytes value => header '$' (toString (value.length : Int)) ++ (value ++ lineEnd)
  | list items => header '*' (toString (items.length : Int)) ++ frames items
  | nothing => header '$' (toString (-1 : Int))

def frames : List Reply → Bytes
  | [] => []
  | item :: rest => frame item ++ frames rest

end

mutual

/-- Texts of one line, and numbers and lengths of 64 bits, the first of them for the sign. -/
def Fits : Reply → Prop
  | status text => '\n' ∉ text.toList
  | failure text => '\n' ∉ text.toList
  | number value => -(Nat.pow 2 63 : Int) ≤ value ∧ value < Nat.pow 2 63
  | bytes value => value.length < Nat.pow 2 63
  | list items => items.length < Nat.pow 2 63 ∧ AllFit items
  | nothing => True

def AllFit : List Reply → Prop
  | [] => True
  | item :: rest => Fits item ∧ AllFit rest

end

mutual

def decidableFits : ∀ reply : Reply, Decidable reply.Fits
  | status text => inferInstanceAs (Decidable ('\n' ∉ text.toList))
  | failure text => inferInstanceAs (Decidable ('\n' ∉ text.toList))
  | number value => inferInstanceAs (Decidable (_ ≤ value ∧ value < _))
  | bytes value => inferInstanceAs (Decidable (value.length < _))
  | list items =>
      have := decidableAllFit items
      inferInstanceAs (Decidable (items.length < _ ∧ AllFit items))
  | nothing => inferInstanceAs (Decidable True)

def decidableAllFit : ∀ items : List Reply, Decidable (AllFit items)
  | [] => inferInstanceAs (Decidable True)
  | item :: rest =>
      have := decidableFits item
      have := decidableAllFit rest
      inferInstanceAs (Decidable (item.Fits ∧ AllFit rest))

end

instance : DecidablePred Fits := decidableFits

theorem signed64_toString_length {length : Nat} (h : length < Nat.pow 2 63) :
    Text.Numeral.signed64 (toString (length : Int)) = .ok (length : Int) :=
  Text.Numeral.signed64_toString_int (by omega) (Int.ofNat_lt.2 h)

mutual

theorem isWritten_frame : ∀ {reply : Reply}, reply.Fits → IsWritten reply reply.frame
  | status _, h => .status (isHeader_header (by decide) h)
  | failure _, h => .failure (isHeader_header (by decide) h)
  | number value, h =>
      .number (isHeader_toString (by decide) value) (Text.Numeral.signed64_toString_int h.1 h.2)
  | bytes value, h =>
      .bytes (isHeader_toString (by decide) value.length) (signed64_toString_length h)
  | list items, h =>
      .list (isHeader_toString (by decide) items.length) (signed64_toString_length h.1)
        (areWritten_frames h.2)
  | nothing, _ =>
      .nothing (.inl rfl) (isHeader_toString (by decide) (-1))
        (Text.Numeral.signed64_toString_int (by decide) (by decide)) (by decide)

theorem areWritten_frames : ∀ {items : List Reply}, AllFit items → AreWritten items (frames items)
  | [], _ => .nil
  | _ :: _, h => .cons (isWritten_frame h.1) (areWritten_frames h.2)

end

/-! ## Lines that are read -/

theorem takeLine_append_eq (stream : Bytes) :
    (takeLine stream).1 ++ (takeLine stream).2 = stream := by
  induction stream with
  | nil => rfl
  | cons byte rest ih =>
      by_cases hb : byte = lineFeed
      · simp [takeLine, hb]
      · simp [takeLine, hb, ih]

theorem lineFeed_notMem_of_takeLine {stream content : Bytes} (last : UInt8)
    (h : (takeLine stream).1 = content ++ [last]) : lineFeed ∉ content := by
  induction stream generalizing content with
  | nil => simp [takeLine] at h
  | cons byte rest ih =>
      by_cases hb : byte = lineFeed
      · simp [takeLine, hb, List.cons_eq_append_iff] at h
        simp [h]
      · cases content with
        | nil => exact List.not_mem_nil
        | cons other content =>
            simp only [takeLine, hb, if_false, List.cons_append, List.cons.injEq] at h
            obtain ⟨rfl, h⟩ := h
            rw [List.mem_cons, not_or]
            exact ⟨fun he => hb he.symm, ih h⟩

theorem readLine_eq_ok {stream rest : Bytes} {text : String}
    (h : readLine stream = (.ok text, rest)) :
    ∃ content, stream = content ++ lineEnd ++ rest ∧ lineFeed ∉ content ∧
      Text.Utf8.decode content = .ok text := by
  unfold readLine at h
  split at h
  · simp at h
  · dsimp only at h
    split at h
    · rename_i hsuffix
      obtain ⟨content, hline⟩ := List.isSuffixOf_iff_suffix.1 hsuffix
      have hcontent : (takeLine stream).1.take ((takeLine stream).1.length - 2) = content := by
        rw [← hline, List.length_append]
        exact List.take_left' rfl
      have hfeed : lineFeed ∉ content ++ [carriageReturn] :=
        lineFeed_notMem_of_takeLine lineFeed (by rw [← hline]; simp [lineEnd])
      rw [hcontent] at h
      split at h
      · rename_i hd
        simp only [Prod.mk.injEq, Except.ok.injEq] at h
        obtain ⟨rfl, rfl⟩ := h
        refine ⟨content, ?_, fun hm => hfeed (List.mem_append_left _ hm), hd⟩
        rw [hline, takeLine_append_eq]
      · simp at h
    · simp at h

theorem readLine_header_append {mark : Char} {text : String} {line : Bytes}
    (h : IsHeader mark text line) (rest : Bytes) :
    readLine (line ++ rest) = (.ok (String.ofList (mark :: text.toList)), rest) := by
  obtain ⟨content, rfl, hf, hd⟩ := h
  exact readLine_append hf hd rest

theorem exists_isHeader_of_readLine {stream rest : Bytes} {mark : Char} {body : List Char}
    {header : String} (h : readLine stream = (.ok header, rest)) (hm : header.toList = mark :: body) :
    ∃ line, IsHeader mark (String.ofList body) line ∧ stream = line ++ rest := by
  obtain ⟨content, hs, hf, hd⟩ := readLine_eq_ok h
  have hheader : header = String.ofList (mark :: (String.ofList body).toList) := by
    rw [String.toList_ofList, ← hm, String.ofList_toList]
  exact ⟨content ++ lineEnd, ⟨content, rfl, hf, hheader ▸ hd⟩, hs⟩

theorem lineNumber_eq_ok_iff {digits : String} {value : Int} :
    lineNumber digits = .ok value ↔ Text.Numeral.signed64 digits = .ok value := by
  unfold lineNumber
  cases Text.Numeral.signed64 digits <;> simp

theorem readBulk_eq_ok {length : Nat} {stream rest : Bytes} {reply : Reply}
    (h : readBulk length stream = (.ok reply, rest)) :
    ∃ value : Bytes, value.length = length ∧ reply = .bytes value ∧
      stream = value ++ lineEnd ++ rest := by
  unfold readBulk at h
  dsimp only at h
  split at h
  · simp at h
  · rename_i hlength
    split at h
    · rename_i hsuffix
      obtain ⟨value, hvalue⟩ := List.isSuffixOf_iff_suffix.1 hsuffix
      have hsize : (stream.take (bulkSize length)).length = bulkSize length :=
        Nat.le_antisymm (List.length_take_le _ _) (Nat.not_lt.1 hlength)
      have hlen : value.length = length := by
        rw [← hvalue, List.length_append] at hsize
        exact Nat.add_right_cancel hsize
      simp only [Prod.mk.injEq, Except.ok.injEq] at h
      obtain ⟨rfl, rfl⟩ := h
      refine ⟨value, hlen, ?_, ?_⟩
      · rw [← hvalue, ← hlen, List.take_left]
      · rw [hvalue, List.take_append_drop]
    · simp at h

/-! ## What is read is written so -/

/-- Whatever is read with this fuel has been written. -/
def ReadsReplies (fuel : Nat) : Prop :=
  ∀ {stream rest : Bytes} {reply : Reply}, readFuel fuel stream = (.ok reply, rest) →
    ∃ bytes, IsWritten reply bytes ∧ stream = bytes ++ rest

/-- Whatever items are read with this fuel have been written. -/
def ReadsItems (fuel : Nat) : Prop :=
  ∀ {count : Nat} {read : List Reply} {stream rest : Bytes} {reply : Reply},
    readItemsFuel fuel count read stream = (.ok reply, rest) →
      ∃ items bytes, AreWritten items bytes ∧ items.length = count ∧
        reply = .list (read.reverse ++ items) ∧ stream = bytes ++ rest

theorem readsReplies_succ {fuel : Nat} (hitems : ReadsItems fuel) : ReadsReplies (fuel + 1) := by
  intro stream rest reply h
  rw [readFuel] at h
  rcases hline : readLine stream with ⟨error | header, after⟩ <;> simp only [hline] at h
  · simp at h
  · split at h
    · rename_i body hm
      obtain ⟨line, hh, hs⟩ := exists_isHeader_of_readLine hline hm
      simp only [Prod.mk.injEq, Except.ok.injEq] at h
      exact ⟨line, h.1 ▸ .status hh, h.2 ▸ hs⟩
    · rename_i body hm
      obtain ⟨line, hh, hs⟩ := exists_isHeader_of_readLine hline hm
      simp only [Prod.mk.injEq, Except.ok.injEq] at h
      exact ⟨line, h.1 ▸ .failure hh, h.2 ▸ hs⟩
    · rename_i body hm
      obtain ⟨line, hh, hs⟩ := exists_isHeader_of_readLine hline hm
      split at h
      · simp at h
      · rename_i value hn
        simp only [Prod.mk.injEq, Except.ok.injEq] at h
        exact ⟨line, h.1 ▸ .number hh (lineNumber_eq_ok_iff.1 hn), h.2 ▸ hs⟩
    · rename_i body hm
      obtain ⟨line, hh, hs⟩ := exists_isHeader_of_readLine hline hm
      split at h
      · simp at h
      · rename_i below hn
        simp only [Prod.mk.injEq, Except.ok.injEq] at h
        exact ⟨line, h.1 ▸ .nothing (.inl rfl) hh (lineNumber_eq_ok_iff.1 hn)
          (Int.negSucc_lt_zero below), h.2 ▸ hs⟩
      · rename_i length hn
        obtain ⟨value, rfl, rfl, hafter⟩ := readBulk_eq_ok h
        refine ⟨line ++ (value ++ lineEnd), .bytes hh (lineNumber_eq_ok_iff.1 hn), ?_⟩
        rw [hs, hafter, List.append_assoc line]
    · rename_i body hm
      obtain ⟨line, hh, hs⟩ := exists_isHeader_of_readLine hline hm
      split at h
      · simp at h
      · rename_i below hn
        simp only [Prod.mk.injEq, Except.ok.injEq] at h
        exact ⟨line, h.1 ▸ .nothing (.inr rfl) hh (lineNumber_eq_ok_iff.1 hn)
          (Int.negSucc_lt_zero below), h.2 ▸ hs⟩
      · rename_i count hn
        obtain ⟨items, bytes, hw, rfl, rfl, hafter⟩ := hitems h
        refine ⟨line ++ bytes, .list hh (lineNumber_eq_ok_iff.1 hn) hw, ?_⟩
        rw [hs, hafter, List.append_assoc]
    · simp at h

theorem readsItems_succ {fuel : Nat} (hreplies : ReadsReplies fuel) (hitems : ReadsItems fuel) :
    ReadsItems (fuel + 1) := by
  intro count read stream rest reply h
  cases count with
  | zero =>
      simp only [readItemsFuel, Prod.mk.injEq, Except.ok.injEq] at h
      exact ⟨[], [], .nil, rfl, by simp [h.1], h.2⟩
  | succ count =>
      rw [readItemsFuel] at h
      rcases hitem : readFuel fuel stream with ⟨error | item, after⟩ <;> simp only [hitem] at h
      · simp at h
      · obtain ⟨first, hfirst, rfl⟩ := hreplies hitem
        obtain ⟨items, bytes, hw, rfl, rfl, rfl⟩ := hitems h
        exact ⟨item :: items, first ++ bytes, .cons hfirst hw, rfl, by simp, by simp⟩

theorem readsReplies_and_items (fuel : Nat) : ReadsReplies fuel ∧ ReadsItems fuel := by
  induction fuel with
  | zero =>
      constructor
      · intro stream rest reply h
        simp [readFuel] at h
      · intro count read stream rest reply h
        cases count with
        | zero =>
            simp only [readItemsFuel, Prod.mk.injEq, Except.ok.injEq] at h
            exact ⟨[], [], .nil, rfl, by simp [h.1], h.2⟩
        | succ count => simp [readItemsFuel] at h
  | succ fuel ih => exact ⟨readsReplies_succ ih.2, readsItems_succ ih.1 ih.2⟩

/-! ## What is written is read -/

/-- With this fuel every reply is read that is not too long for it. -/
def CompletesReplies (fuel : Nat) : Prop :=
  ∀ {reply : Reply} {bytes : Bytes}, IsWritten reply bytes → 2 * bytes.length ≤ fuel + 1 →
    ∀ rest, readFuel fuel (bytes ++ rest) = (.ok reply, rest)

/-- With this fuel all items are read that are not too long for it. -/
def CompletesItems (fuel : Nat) : Prop :=
  ∀ {items : List Reply} {bytes : Bytes}, AreWritten items bytes → 2 * bytes.length ≤ fuel →
    ∀ read rest, readItemsFuel fuel items.length read (bytes ++ rest) =
      (.ok (.list (read.reverse ++ items)), rest)

theorem readItemsFuel_zero (fuel : Nat) (read : List Reply) (stream : Bytes) :
    readItemsFuel fuel 0 read stream = (.ok (.list read.reverse), stream) := by
  cases fuel <;> rfl

theorem completesReplies_succ {fuel : Nat} (hitems : CompletesItems fuel) :
    CompletesReplies (fuel + 1) := by
  intro reply bytes h hf rest
  cases h with
  | status hl =>
      rw [readFuel, readLine_header_append hl]
      simp only [String.toList_ofList, String.ofList_toList]
  | failure hl =>
      rw [readFuel, readLine_header_append hl]
      simp only [String.toList_ofList, String.ofList_toList]
  | number hl hn =>
      rw [readFuel, readLine_header_append hl]
      simp only [String.toList_ofList, String.ofList_toList, lineNumber_eq_ok_iff.2 hn]
  | @bytes digits line value hl hn =>
      rw [List.append_assoc, readFuel, readLine_header_append hl]
      simp only [String.toList_ofList, String.ofList_toList, lineNumber_eq_ok_iff.2 hn]
      exact readBulk_append value rest
  | @list digits line tail items hl hn hw =>
      have hline := hl.length_pos
      rw [List.length_append] at hf
      rw [List.append_assoc, readFuel, readLine_header_append hl]
      simp only [String.toList_ofList, String.ofList_toList, lineNumber_eq_ok_iff.2 hn]
      exact hitems hw (by omega) [] rest
  | nothing hm hl hn hneg =>
      obtain ⟨below, rfl⟩ := Int.eq_negSucc_of_lt_zero hneg
      rcases hm with rfl | rfl <;> rw [readFuel, readLine_header_append hl] <;>
        simp only [String.toList_ofList, String.ofList_toList, lineNumber_eq_ok_iff.2 hn]

theorem completesItems_succ {fuel : Nat} (hreplies : CompletesReplies fuel)
    (hitems : CompletesItems fuel) : CompletesItems (fuel + 1) := by
  intro items bytes h hf read rest
  cases h with
  | nil =>
      rw [List.append_nil]
      exact readItemsFuel_zero _ _ _
  | @cons item items first others hfirst hothers =>
      have hpos := hfirst.length_pos
      rw [List.length_append] at hf
      rw [List.length_cons, readItemsFuel, List.append_assoc, hreplies hfirst (by omega)]
      dsimp only
      rw [hitems hothers (by omega), List.reverse_cons, List.append_assoc, List.singleton_append]

theorem completesReplies_and_items (fuel : Nat) : CompletesReplies fuel ∧ CompletesItems fuel := by
  induction fuel with
  | zero =>
      constructor
      · intro reply bytes h hf
        have hpos := h.length_pos
        omega
      · intro items bytes h hf read rest
        cases h with
        | nil =>
            rw [List.append_nil]
            exact readItemsFuel_zero _ _ _
        | cons hfirst _ =>
            have hpos := hfirst.length_pos
            rw [List.length_append] at hf
            omega
  | succ fuel ih => exact ⟨completesReplies_succ ih.2, completesItems_succ ih.1 ih.2⟩

/-! ## Reading -/

/-- A reply is read from a stream just where the stream begins with one that is written so. -/
theorem read_eq_ok_iff {stream rest : Bytes} {reply : Reply} :
    read stream = (.ok reply, rest) ↔ ∃ bytes, IsWritten reply bytes ∧ stream = bytes ++ rest := by
  constructor
  · exact (readsReplies_and_items _).1
  · rintro ⟨bytes, h, rfl⟩
    refine (completesReplies_and_items _).1 h ?_ rest
    rw [List.length_append]
    omega

theorem IsWritten.read_append {reply : Reply} {bytes : Bytes} (h : IsWritten reply bytes)
    (rest : Bytes) : read (bytes ++ rest) = (.ok reply, rest) :=
  read_eq_ok_iff.2 ⟨bytes, h, rfl⟩

theorem IsWritten.eq_nil_of_append {left right : Reply} {bytes more : Bytes}
    (h : IsWritten left bytes) (hm : IsWritten right (bytes ++ more)) : more = [] := by
  have hshort := h.read_append more
  have hlong := hm.read_append []
  rw [List.append_nil, hshort] at hlong
  exact (Prod.mk.inj hlong).2

/-- From a reply that is cut short nothing is read, as what is read of it would be a reply that the
whole one begins with. -/
theorem IsWritten.exists_error_of_prefix {reply : Reply} {bytes part : Bytes}
    (h : IsWritten reply bytes) (hp : part <+: bytes) (hne : part ≠ bytes) :
    ∃ error, (read part).1 = .error error := by
  obtain ⟨missing, rfl⟩ := hp
  rcases hr : read part with ⟨error | other, left⟩
  · exact ⟨error, rfl⟩
  · obtain ⟨taken, ht, rfl⟩ := read_eq_ok_iff.1 hr
    rw [List.append_assoc] at h
    have hnil := ht.eq_nil_of_append h
    obtain ⟨-, rfl⟩ := List.append_eq_nil_iff.1 hnil
    exact absurd (List.append_nil _).symm hne

/-- A reply that was read takes up the same bytes whatever follows them, and none of them can be
missing at the end: from a part of them nothing is read, and the error is one of the stream or of the
question. -/
theorem read_selfDelimiting {stream rest : Bytes} {reply : Reply}
    (h : read stream = (.ok reply, rest)) :
    ∃ taken, stream = taken ++ rest ∧
      (∀ other, read (taken ++ other) = (.ok reply, other)) ∧
      ∀ part, part <+: taken → part ≠ taken → ∃ error, (read part).1 = .error error ∧
        ((∃ cause, error.toError = .system cause) ∨
          ∃ reason, error.toError = .query reason) := by
  obtain ⟨taken, hw, hs⟩ := read_eq_ok_iff.1 h
  refine ⟨taken, hs, hw.read_append, fun part hp hne => ?_⟩
  obtain ⟨error, he⟩ := hw.exists_error_of_prefix hp hne
  refine ⟨error, he, ?_⟩
  cases error with
  | stream cause => exact .inl ⟨cause, rfl⟩
  | malformed reason => exact .inr ⟨_, rfl⟩

/-- A list in a list, with a string that holds the end of a line. -/
def nestedReply : Reply :=
  .list [.list [.bytes [0x61, 0x0D, 0x0A, 0x2B], .number (-7)], .nothing, .status "OK"]

theorem read_selfDelimiting_nestedReply :
    read (nestedReply.frame ++ [0x2D]) = (.ok nestedReply, [0x2D]) ∧
      ∃ taken, nestedReply.frame ++ [0x2D] = taken ++ [0x2D] ∧
        (∀ other, read (taken ++ other) = (.ok nestedReply, other)) ∧
        ∀ part, part <+: taken → part ≠ taken → ∃ error, (read part).1 = .error error ∧
          ((∃ cause, error.toError = .system cause) ∨
            ∃ reason, error.toError = .query reason) := by
  have hfits : nestedReply.Fits := by decide
  have hread := (isWritten_frame hfits).read_append [0x2D]
  exact ⟨hread, read_selfDelimiting hread⟩

end CodeAtlas.Remote.Reply
