import CodeAtlas.Proofs.Remote.Exchange
import CodeAtlas.Proofs.Text.Decoding
import CodeAtlas.Proofs.Text.Numeral
import CodeAtlas.Remote.Command

/-!
# Frames that are read back

A frame is written as a server's list of strings is. Whoever reads a stream of frames one reply
after the other gets the words of each command and stops at the first byte that is behind them: how
many bytes a word has stands in front of it, so the bytes that end a line may be among them.
-/

namespace CodeAtlas.Remote

/-! ## Lines -/

namespace Reply

theorem takeLine_append {line : Bytes} (h : lineFeed ∉ line) (rest : Bytes) :
    takeLine (line ++ lineFeed :: rest) = (line ++ [lineFeed], rest) := by
  induction line with
  | nil => exact if_pos rfl
  | cons byte line ih =>
      have hbyte : ¬byte = lineFeed := fun he => h (he ▸ List.mem_cons_self)
      have hline := ih fun hm => h (List.mem_cons_of_mem byte hm)
      rw [List.cons_append, takeLine, if_neg hbyte, hline]
      rfl

theorem lineFeed_notMem_encode {text : String} (h : '\n' ∉ text.toList) :
    lineFeed ∉ Text.Utf8.encode text := by
  intro hm
  obtain ⟨char, hc, he⟩ := Text.Utf8.exists_mem_of_mem_encode hm (by decide)
  have hchar : char = '\n' := Char.toNat_inj.1 he
  exact h (hchar ▸ hc)

theorem readLine_append {content : Bytes} {text : String} (hf : lineFeed ∉ content)
    (hd : Text.Utf8.decode content = .ok text) (rest : Bytes) :
    readLine (content ++ lineEnd ++ rest) = (.ok text, rest) := by
  have hline : takeLine (content ++ lineEnd ++ rest) = (content ++ lineEnd, rest) := by
    have hfeed : lineFeed ∉ content ++ [carriageReturn] := by
      rw [List.mem_append, not_or]
      exact ⟨hf, by decide⟩
    have htake := takeLine_append hfeed rest
    rw [List.append_assoc, List.append_assoc] at htake
    rw [List.append_assoc]
    exact htake
  have hend : lineEnd.isSuffixOf (content ++ lineEnd) = true :=
    List.isSuffixOf_iff_suffix.2 (List.suffix_append _ _)
  have htext : (content ++ lineEnd).take ((content ++ lineEnd).length - 2) = content := by
    rw [List.length_append]
    exact List.take_left' rfl
  unfold readLine
  rw [if_neg (by simp [lineEnd]), hline]
  dsimp only
  rw [if_pos hend, htext, hd]

theorem readLine_encode_append {text : String} (h : '\n' ∉ text.toList) (rest : Bytes) :
    readLine (Text.Utf8.encode text ++ lineEnd ++ rest) = (.ok text, rest) :=
  readLine_append (lineFeed_notMem_encode h) (Text.Utf8.decode_encode text) rest

theorem lineNumber_toString {number : Nat} (h : number < Nat.pow 2 63) :
    lineNumber (toString number) = .ok (number : Int) := by
  rw [lineNumber, Text.Numeral.signed64_toString h]

theorem readBulk_append (bytes rest : Bytes) :
    readBulk bytes.length (bytes ++ lineEnd ++ rest) = (.ok (.bytes bytes), rest) := by
  have hsize : bulkSize bytes.length = (bytes ++ lineEnd).length := List.length_append.symm
  have hend : lineEnd.isSuffixOf (bytes ++ lineEnd) = true :=
    List.isSuffixOf_iff_suffix.2 (List.suffix_append _ _)
  unfold readBulk
  rw [hsize, List.take_left, List.drop_left]
  dsimp only
  rw [if_neg (Nat.lt_irrefl _), if_pos hend, List.take_left]

end Reply

namespace Command

/-- The text of a line in front of its end. -/
def header (mark : Char) (number : Nat) : String :=
  String.ofList (mark :: (toString number).toList)

theorem line_eq (mark : Char) (number : Nat) :
    line mark number = Text.Utf8.encode (header mark number) ++ Reply.lineEnd := by
  have hend : Text.Utf8.encode (String.ofList ['\r', '\n']) = Reply.lineEnd := by
    rw [Text.Utf8.encode_eq_flatMap, String.toList_ofList]
    rfl
  rw [line, header, Text.Utf8.encode_ofList_append, hend]

/-- A line is read up to its end, as its kind is no line feed and its number has digits only. -/
theorem readLine_line_append {mark : Char} (hm : '\n' ≠ mark) (number : Nat) (rest : Bytes) :
    Reply.readLine (line mark number ++ rest) = (.ok (header mark number), rest) := by
  have hheader : '\n' ∉ (header mark number).toList := by
    rw [header, String.toList_ofList, List.mem_cons, not_or]
    refine ⟨hm, fun hc => ?_⟩
    exact absurd (Text.Numeral.isDigit_of_mem_toString hc) (by decide)
  rw [line_eq]
  exact Reply.readLine_encode_append hheader rest

end Command

namespace Reply

/-! ## Strings and their lists -/

theorem readFuel_bulkLine_append {length : Nat} (h : length < Nat.pow 2 63) (fuel : Nat)
    (rest : Bytes) :
    readFuel (fuel + 1) (Command.line '$' length ++ rest) = readBulk length rest := by
  have hheader : (Command.header '$' length).toList = '$' :: (toString length).toList :=
    String.toList_ofList
  rw [readFuel, Command.readLine_line_append (by decide)]
  simp only [hheader, String.ofList_toList, lineNumber_toString h]

theorem readFuel_listLine_append {count : Nat} (h : count < Nat.pow 2 63) (fuel : Nat)
    (rest : Bytes) :
    readFuel (fuel + 1) (Command.line '*' count ++ rest) = readItemsFuel fuel count [] rest := by
  have hheader : (Command.header '*' count).toList = '*' :: (toString count).toList :=
    String.toList_ofList
  rw [readFuel, Command.readLine_line_append (by decide)]
  simp only [hheader, String.ofList_toList, lineNumber_toString h]

theorem readFuel_wordFrame_append {word : String}
    (h : (Text.Utf8.encode word).length < Nat.pow 2 63) (fuel : Nat) (rest : Bytes) :
    readFuel (fuel + 1) (Command.wordFrame word ++ rest) =
      (.ok (.bytes (Text.Utf8.encode word)), rest) := by
  have hframe : Command.wordFrame word =
      Command.line '$' (Text.Utf8.encode word).length ++ (Text.Utf8.encode word ++ lineEnd) :=
    List.append_assoc _ _ _
  rw [hframe, List.append_assoc, readFuel_bulkLine_append h, readBulk_append]

theorem readItemsFuel_words_append {words : List String}
    (h : ∀ word ∈ words, (Text.Utf8.encode word).length < Nat.pow 2 63) {fuel : Nat}
    (hf : words.length < fuel) (read : List Reply) (rest : Bytes) :
    readItemsFuel fuel words.length read (words.flatMap Command.wordFrame ++ rest) =
      (.ok (.list (read.reverse ++ words.map fun word => .bytes (Text.Utf8.encode word))),
        rest) := by
  induction words generalizing fuel read with
  | nil =>
      show readItemsFuel fuel 0 read rest = (.ok (.list (read.reverse ++ [])), rest)
      rw [readItemsFuel, List.append_nil]
  | cons word words ih =>
      obtain ⟨left, rfl⟩ : ∃ left, fuel = left + 2 :=
        Nat.exists_eq_add_of_le' (Nat.le_trans (by simp) hf)
      have hword : (Text.Utf8.encode word).length < Nat.pow 2 63 := h word List.mem_cons_self
      have hleft : words.length < left + 1 := Nat.lt_of_succ_lt_succ hf
      have hitem := readFuel_wordFrame_append hword left
        (words.flatMap Command.wordFrame ++ rest)
      have hitems := ih (fun other ho => h other (List.mem_cons_of_mem word ho)) hleft
        (.bytes (Text.Utf8.encode word) :: read)
      rw [List.length_cons, List.flatMap_cons, List.append_assoc, readItemsFuel, hitem]
      dsimp only
      rw [hitems, List.reverse_cons, List.append_assoc, List.singleton_append]
      rfl

end Reply

namespace Command

/-- A command as it is read: its words in order, each as its bytes. -/
def asReply (command : Command) : Reply :=
  .list (command.map fun word => .bytes (Text.Utf8.encode word))

/-- The numbers of a frame fit 64 bits, the first of them for the sign. A text or a list of texts
that is held in memory is never longer. -/
structure IsSized (command : Command) : Prop where
  words : command.length < Nat.pow 2 63
  bytes : ∀ word ∈ command, (Text.Utf8.encode word).length < Nat.pow 2 63

instance (command : Command) : Decidable command.IsSized :=
  decidable_of_iff
    (command.length < Nat.pow 2 63 ∧
      ∀ word ∈ command, (Text.Utf8.encode word).length < Nat.pow 2 63)
    ⟨fun h => ⟨h.1, h.2⟩, fun h => ⟨h.words, h.bytes⟩⟩

theorem length_le_flatMap_wordFrame (command : Command) :
    command.length ≤ (command.flatMap wordFrame).length := by
  induction command with
  | nil => exact Nat.le_refl 0
  | cons word command ih =>
      have hword : 0 < (wordFrame word).length := by
        rw [wordFrame, List.length_append]
        exact Nat.lt_add_left _ (by decide)
      rw [List.length_cons, List.flatMap_cons, List.length_append]
      omega

theorem read_frame_append {command : Command} (h : command.IsSized) (rest : Bytes) :
    Reply.read (command.frame ++ rest) = (.ok command.asReply, rest) := by
  have hfuel : command.length < 2 * (command.frame ++ rest).length + 1 := by
    have hwords := length_le_flatMap_wordFrame command
    rw [frame, List.length_append, List.length_append]
    omega
  have hframe : command.frame ++ rest =
      line '*' command.length ++ (command.flatMap wordFrame ++ rest) :=
    List.append_assoc _ _ _
  calc
    Reply.read (command.frame ++ rest)
        = Reply.readItemsFuel (2 * (command.frame ++ rest).length + 1) command.length []
            (command.flatMap wordFrame ++ rest) := by
      rw [Reply.read]
      nth_rewrite 2 [hframe]
      exact Reply.readFuel_listLine_append h.words _ _
    _ = (.ok command.asReply, rest) := Reply.readItemsFuel_words_append h.bytes hfuel [] rest

/-- Frames that follow each other are read as their commands, one reply each, and what follows the
last of them is left as it is. -/
theorem readMany_frames {commands : List Command} (h : ∀ command ∈ commands, command.IsSized)
    (rest : Bytes) :
    Reply.readMany commands.length (commands.flatMap frame ++ rest) =
        commands.map (fun command => .ok command.asReply) ∧
      Reply.afterMany commands.length (commands.flatMap frame ++ rest) = rest := by
  induction commands with
  | nil => exact ⟨rfl, rfl⟩
  | cons command commands ih =>
      have hread := read_frame_append (h command List.mem_cons_self)
        (commands.flatMap frame ++ rest)
      obtain ⟨hreplies, hleft⟩ := ih fun other ho => h other (List.mem_cons_of_mem command ho)
      rw [List.flatMap_cons, List.append_assoc, List.length_cons, Reply.readMany,
        Reply.afterMany, hread]
      exact ⟨congrArg (_ :: ·) hreplies, hleft⟩

/-- Words that hold the bytes of a frame themselves. -/
def sampleCommands : List Command :=
  [["GRAPH.QUERY", "a\r\n$1\r\nb", "\x00", "ж"], [], [""]]

theorem readMany_frames_of_sampleCommands :
    (∀ command ∈ sampleCommands, command.IsSized) ∧
      Reply.readMany 3 (sampleCommands.flatMap frame ++ [0x2B]) =
        sampleCommands.map (fun command => .ok command.asReply) ∧
      Reply.afterMany 3 (sampleCommands.flatMap frame ++ [0x2B]) = [0x2B] := by
  have hsized : ∀ command ∈ sampleCommands, command.IsSized := by decide +kernel
  exact ⟨hsized, readMany_frames hsized [0x2B]⟩

end Command

end CodeAtlas.Remote
