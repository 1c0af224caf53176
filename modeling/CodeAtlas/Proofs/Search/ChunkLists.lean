import CodeAtlas.Proofs.FileTree
import CodeAtlas.Proofs.Json.Records
import CodeAtlas.Proofs.Json.Strays
import CodeAtlas.Proofs.Text.Classes
import CodeAtlas.Search.Legacy

/-!
# What chunk lists say

A list says of each chunk what it is by one key out of several for each part, with other keys among
them, and the list stands alone or in an object. A file whose JSON holds a list is read as the
chunks of the list in their order and the root it names, unless the reader cannot read so deep or
such a number.
-/

namespace CodeAtlas.Search.Legacy

open Json

/-! ## Parts of an object -/

/-- Under the names of a part stands one entry, with this value. -/
def Gives (names : List String) (entries : List (String × Value)) (value : Value) : Prop :=
  ∃ key, entriesUnder names entries = [(key, value)]

/-- Under the names of a part stands nothing, or one entry that is null. -/
def Lacks (names : List String) (entries : List (String × Value)) : Prop :=
  entriesUnder names entries = [] ∨ Gives names entries .null

def fileNames : List String := ["file_path", "file"]

def sourceNames : List String := ["source", "text", "content"]

def kindNames : List String := ["chunk_type", "type", "kind"]

def nameNames : List String := ["name"]

def rootNames : List String := ["root", "repo_root"]

/-! ## Kinds -/

/-- A word in small letters, with some of them as capitals. -/
def IsSpelling (word base : String) : Prop :=
  List.Forall₂ (fun letter small => letter = small ∨ letter = small.toUpper) word.toList base.toList

instance (word base : String) : Decidable (IsSpelling word base) :=
  inferInstanceAs (Decidable (List.Forall₂ _ _ _))

def kindWords : List (String × Chunk.Kind) :=
  [("function", .function), ("method", .function), ("async_function", .function), ("class", .type)]

/-- What a word means as a kind; any other word means a module. -/
inductive Means (word : String) : Chunk.Kind → Prop
  | known {base : String} {kind : Chunk.Kind} (hbase : (base, kind) ∈ kindWords)
      (h : IsSpelling word base) : Means word kind
  | other (h : ∀ entry ∈ kindWords, ¬IsSpelling word entry.1) : Means word .module

/-! ## Lists -/

/-- The entries of an object say this of a chunk. -/
structure Describes (entries : List (String × Value)) (chunk : Chunk) : Prop where
  file : Gives fileNames entries (.string chunk.file)
  source : Gives sourceNames entries (.string chunk.source)
  kind : (∃ word, Gives kindNames entries (.string word) ∧ Means word chunk.kind) ∨
    Lacks kindNames entries ∧ chunk.kind = .module
  name : Gives nameNames entries (.string chunk.name) ∨
    Lacks nameNames entries ∧ chunk.name = (Path.stem? chunk.file).getD ""

def Lists (items : List Value) (chunks : List Chunk) : Prop :=
  List.Forall₂ (fun item chunk => ∃ entries, item = .object entries ∧ Describes entries chunk)
    items chunks

/-- What a file holds: a list alone, or in an object that may name a root. -/
inductive Holds : Value → Option String → List Chunk → Prop
  | bare {items : List Value} {chunks : List Chunk} (h : Lists items chunks) :
      Holds (.array items) none chunks
  | rooted {entries : List (String × Value)} {items : List Value} {chunks : List Chunk}
      {root : String} (hchunks : Gives ["chunks"] entries (.array items)) (h : Lists items chunks)
      (hroot : Gives rootNames entries (.string root)) : Holds (.object entries) (some root) chunks
  | rootless {entries : List (String × Value)} {items : List Value} {chunks : List Chunk}
      (hchunks : Gives ["chunks"] entries (.array items)) (h : Lists items chunks)
      (hroot : Lacks rootNames entries) : Holds (.object entries) none chunks

/-- A content is a text of a value: as one writes it in either layout, or spelled otherwise so that
nothing else is found in it. -/
inductive Writes (content : Content) (value : Value) : Prop
  | printed (layout : Print.Layout)
      (h : content.decode = .ok (String.ofList (Print.value layout value)))
  | read (h : Document.read content.input = ⟨value.draft, false⟩)

theorem Writes.read_input {content : Content} {value : Value} (h : Writes content value) :
    Document.read content.input = ⟨value.draft, false⟩ := by
  cases h with
  | printed layout htext => rw [Content.input_of_decode htext, value.read_print layout]
  | read hread => exact hread

/-! ## The words of kinds -/

theorem lowercase_eq_iff {word base : String} (h : ∀ char ∈ base.toList, char.isUpper = false) :
    Text.lowercase word = base ↔ IsSpelling word base := by
  have hchars (letters smalls : List Char) (hsmall : ∀ char ∈ smalls, char.isUpper = false) :
      letters.map Char.toLower = smalls ↔
        List.Forall₂ (fun letter small => letter = small ∨ letter = small.toUpper) letters
          smalls := by
    induction smalls generalizing letters with
    | nil => cases letters <;> simp
    | cons small smalls ih =>
        cases letters with
        | nil => simp
        | cons letter letters =>
            have hrest := ih letters fun char hc => hsmall char (List.mem_cons_of_mem _ hc)
            rw [List.map_cons, List.cons.injEq, List.forall₂_cons, hrest,
              Text.toLower_eq_iff (hsmall small List.mem_cons_self)]
  rw [Text.lowercase, IsSpelling, ← hchars _ _ h, ← String.toList_inj, String.toList_ofList]

theorem lowercase_eq_iff_of_mem {word base : String} {kind : Chunk.Kind}
    (h : (base, kind) ∈ kindWords) : Text.lowercase word = base ↔ IsSpelling word base := by
  have hsmall : ∀ entry ∈ kindWords, ∀ char ∈ entry.1.toList, char.isUpper = false := by
    simp [kindWords]
  exact lowercase_eq_iff (hsmall _ h)

theorem kindOf_of_means {word : String} {kind : Chunk.Kind} (h : Means word kind) :
    kindOf (some word) = kind := by
  cases h with
  | known hbase hspelling =>
      have hword := (lowercase_eq_iff_of_mem hbase).2 hspelling
      rw [kindOf, Option.map_some, hword]
      simp only [kindWords, List.mem_cons, List.not_mem_nil, Prod.mk.injEq, or_false] at hbase
      obtain ⟨rfl, rfl⟩ | ⟨rfl, rfl⟩ | ⟨rfl, rfl⟩ | ⟨rfl, rfl⟩ := hbase <;> rfl
  | other hother =>
      have hne : ∀ entry ∈ kindWords, some (Text.lowercase word) ≠ some entry.1 :=
        fun entry hbase heq =>
          hother entry hbase ((lowercase_eq_iff_of_mem hbase).1 (Option.some.inj heq))
      rw [kindOf, Option.map_some]
      split
      · next heq => exact absurd heq (hne ("function", .function) (by decide))
      · next heq => exact absurd heq (hne ("method", .function) (by decide))
      · next heq => exact absurd heq (hne ("async_function", .function) (by decide))
      · next heq => exact absurd heq (hne ("class", .type) (by decide))
      · rfl

/-! ## Records -/

variable {entries : List (String × Value)}

theorem Gives.filled {α : Type} {names : List String} {value : Value} {decoder : Decoder α}
    {read : α} (h : Gives names entries value) (hread : decoder .value value.draft = .ok read) :
    Decoder.Filled decoder none (entriesUnder names entries) (some read) := by
  obtain ⟨key, hkey⟩ := h
  rw [hkey]
  exact .read hread

theorem Lacks.exists_filled {α : Type} {names : List String} (h : Lacks names entries)
    (decoder : Decoder α) :
    ∃ read, Decoder.Filled (Decoder.optional decoder) none (entriesUnder names entries) read ∧
      read.getD none = none := by
  cases h with
  | inl hnone =>
      rw [hnone]
      exact ⟨none, .kept none, rfl⟩
  | inr hnull => exact ⟨some none, hnull.filled rfl, rfl⟩

def recordSlots : List (Slot Partial) :=
  [⟨String, fileNames, false, Decoder.string, Partial.file,
      fun state value => { state with file := some value }⟩,
    ⟨String, sourceNames, false, Decoder.string, Partial.source,
      fun state value => { state with source := some value }⟩,
    ⟨Option String, kindNames, true, Decoder.optional Decoder.string, Partial.kind,
      fun state value => { state with kind := some value }⟩,
    ⟨Option String, nameNames, true, Decoder.optional Decoder.string, Partial.name,
      fun state value => { state with name := some value }⟩]

theorem makeUp_recordSlots : Slot.MakeUp recordSlots where
  get_set := by simp [recordSlots]
  pairwise := by
    simp only [recordSlots, List.pairwise_cons, List.forall_mem_cons, List.Pairwise.nil, and_true,
      List.not_mem_nil, false_implies, implies_true]
    refine ⟨⟨?_, ?_, ?_⟩, ⟨?_, ?_⟩, ?_⟩ <;> exact ⟨by decide, fun _ _ => rfl, fun _ _ => rfl⟩
  ext := by
    rintro ⟨file, source, kind, name⟩ ⟨file', source', kind', name'⟩ h
    simpa [recordSlots] using h

theorem optional_string (text : String) : Decoder.optional Decoder.string .value
    (Value.string text).draft = .ok (some text) := rfl

section

variable {chunk : Chunk}

theorem Describes.exists_kind (h : Describes entries chunk) : ∃ kind,
    Decoder.Filled (Decoder.optional Decoder.string) none (entriesUnder kindNames entries) kind ∧
      kindOf (kind.getD none) = chunk.kind := by
  obtain ⟨word, hword, hmeans⟩ | ⟨hlacks, hmodule⟩ := h.kind
  · exact ⟨_, hword.filled (optional_string word), kindOf_of_means hmeans⟩
  · obtain ⟨read, hread, hnone⟩ := hlacks.exists_filled Decoder.string
    exact ⟨read, hread, by rw [hnone, hmodule]; rfl⟩

theorem Describes.exists_name (h : Describes entries chunk) : ∃ name,
    Decoder.Filled (Decoder.optional Decoder.string) none (entriesUnder nameNames entries) name ∧
      (name.getD none).getD ((Path.stem? chunk.file).getD "") = chunk.name := by
  obtain hgives | ⟨hlacks, hstem⟩ := h.name
  · exact ⟨_, hgives.filled (optional_string chunk.name), rfl⟩
  · obtain ⟨read, hread, hnone⟩ := hlacks.exists_filled Decoder.string
    exact ⟨read, hread, by rw [hnone, hstem]; rfl⟩

theorem exists_recordDecoder (h : Describes entries chunk) :
    ∃ record, recordDecoder .value (Value.object entries).draft = .ok record ∧
      record.toChunk = chunk := by
  have hstring (text : String) : (Decoder.string : Decoder String) .value
      (Value.string text).draft = .ok text := rfl
  obtain ⟨kind, hkind, hkind'⟩ := h.exists_kind
  obtain ⟨name, hname, hname'⟩ := h.exists_name
  have hentries : Decoder.recordEntries (recordSlots.map Slot.field) .value {}
      (entries.map fun entry => (.ok entry.1, entry.2.draft)) =
        .ok ⟨some chunk.file, some chunk.source, kind, name⟩ := by
    refine makeUp_recordSlots.recordEntries_eq ?_
    simp only [recordSlots, List.forall_mem_cons, List.not_mem_nil, false_implies, implies_true,
      and_true]
    exact ⟨h.file.filled (hstring _), h.source.filled (hstring _), hkind, hname⟩
  have hdecode : recordDecoder .value (Value.object entries).draft =
      .ok ⟨chunk.file, chunk.source, kind.getD none, name.getD none⟩ := by
    rw [recordDecoder, Value.draft, Value.draftEntriesOf_eq_map, Decoder.record_object]
    exact (congrArg (Except.bind · _) hentries).trans rfl
  refine ⟨_, hdecode, ?_⟩
  rw [Record.toChunk, hkind', hname']

end

/-! ## Files -/

variable {items : List Value} {chunks : List Chunk}

theorem exists_listDecoder (h : Lists items chunks) :
    ∃ records, Decoder.list recordDecoder .value (Value.array items).draft = .ok records ∧
      records.map Record.toChunk = chunks := by
  obtain ⟨records, hitems, hrecords⟩ : ∃ records,
      List.Forall₂ (fun item record => recordDecoder .value item.draft = .ok record) items records ∧
        records.map Record.toChunk = chunks := by
    induction h with
    | nil => exact ⟨[], .nil, rfl⟩
    | cons hitem _ ih =>
        obtain ⟨entries, rfl, hentries⟩ := hitem
        obtain ⟨record, hrecord, rfl⟩ := exists_recordDecoder hentries
        obtain ⟨records, hrecords, rfl⟩ := ih
        exact ⟨record :: records, .cons hrecord hrecords, rfl⟩
  exact ⟨records, Decoder.list_of_forall₂ hitems, hrecords⟩

def wrapperSlots : List (Slot Wrapper) :=
  [⟨List Record, ["chunks"], false, Decoder.list recordDecoder, Wrapper.chunks,
      fun state value => { state with chunks := some value }⟩,
    ⟨Option String, rootNames, true, Decoder.optional Decoder.string, Wrapper.root,
      fun state value => { state with root := some value }⟩]

theorem makeUp_wrapperSlots : Slot.MakeUp wrapperSlots where
  get_set := by simp [wrapperSlots]
  pairwise := List.pairwise_pair.2 ⟨by decide, fun _ _ => rfl, fun _ _ => rfl⟩
  ext := by
    rintro ⟨chunks, root⟩ ⟨chunks', root'⟩ h
    simpa [wrapperSlots] using h

theorem wrapperDecoder_object {records : List Record} {root : Option (Option String)}
    (hchunks : Decoder.Filled (Decoder.list recordDecoder) none (entriesUnder ["chunks"] entries)
      (some records))
    (hroot : Decoder.Filled (Decoder.optional Decoder.string) none (entriesUnder rootNames entries)
      root) :
    wrapperDecoder .value (Value.object entries).draft = .ok (root.getD none, records) := by
  have hentries : Decoder.recordEntries (wrapperSlots.map Slot.field) .value {}
      (entries.map fun entry => (.ok entry.1, entry.2.draft)) = .ok ⟨some records, root⟩ := by
    refine makeUp_wrapperSlots.recordEntries_eq ?_
    simp only [wrapperSlots, List.forall_mem_cons, List.not_mem_nil, false_implies, implies_true,
      and_true]
    exact ⟨hchunks, hroot⟩
  rw [Value.draft, Value.draftEntriesOf_eq_map, wrapperDecoder, Decoder.record_object]
  exact (congrArg (Except.bind · _) hentries).trans rfl

theorem decoder_object {found : Option String × List Record}
    (h : wrapperDecoder .value (Value.object entries).draft = .ok found) :
    decoder .value (Value.object entries).draft = .ok found := by
  have hlist : Decoder.list recordDecoder .value (Value.object entries).draft =
      .error (.wrongType .map "a sequence") := rfl
  rw [decoder, hlist]
  dsimp only
  rw [h]

theorem exists_decoder {file : Value} {root : Option String} (h : Holds file root chunks) :
    ∃ records, decoder .value file.draft = .ok (root, records) ∧
      records.map Record.toChunk = chunks := by
  cases h with
  | bare hlists =>
      obtain ⟨records, hrecords, hchunks⟩ := exists_listDecoder hlists
      exact ⟨records, by rw [decoder, hrecords], hchunks⟩
  | rooted hgives hlists hroot =>
      obtain ⟨records, hrecords, hchunks⟩ := exists_listDecoder hlists
      exact ⟨records, decoder_object (wrapperDecoder_object (hgives.filled hrecords)
        (hroot.filled rfl)), hchunks⟩
  | rootless hgives hlists hlacks =>
      obtain ⟨records, hrecords, hchunks⟩ := exists_listDecoder hlists
      obtain ⟨read, hread, hnone⟩ := hlacks.exists_filled Decoder.string
      have hwrapper := wrapperDecoder_object (hgives.filled hrecords) hread
      rw [hnone] at hwrapper
      exact ⟨records, decoder_object hwrapper, hchunks⟩

theorem ofDocument_of_holds {file : Value} {root : Option String} (h : Holds file root chunks)
    (hreadable : file.IsReadable (Document.depthLimit - 1)) :
    ofDocument ⟨file.draft, false⟩ = .ok (root, chunks) := by
  obtain ⟨records, hdecoded, rfl⟩ := exists_decoder h
  rw [ofDocument, file.readFault_depthLimit_iff.2 hreadable]
  simp only [hdecoded, Except.mapError, bind, Except.bind]
  rfl

theorem load_of_read {tree : FileTree} {path : String} {content : Content}
    (hread : tree.read path = .ok content) :
    load tree path =
      (ofDocument (Document.read content.input)).mapError (.indexMalformed path) := by
  have hfile := FileTree.isFile_of_read hread
  simp only [load, hfile, hread, Bool.not_true, Bool.false_eq_true, if_false, Except.mapError, bind,
    Except.bind]

/-- A file that holds a list is read as its chunks in their order and its root, whatever the keys,
the case of the kinds and the other entries, unless it nests too deep or holds a whole number out of
range: then it is refused with the path. -/
theorem load_of_holds {tree : FileTree} {path : String} {content : Content} {file : Value}
    {root : Option String} {chunks : List Chunk} (hread : tree.read path = .ok content)
    (htext : Writes content file) (hfile : Holds file root chunks) :
    (file.IsReadable (Document.depthLimit - 1) → load tree path = .ok (root, chunks)) ∧
      (¬file.IsReadable (Document.depthLimit - 1) →
        ∃ error : SyntaxError, load tree path = .error (.indexMalformed path error.message)) := by
  rw [load_of_read hread, htext.read_input]
  refine ⟨fun h => ?_, fun h => ?_⟩
  · rw [ofDocument_of_holds hfile h]
    rfl
  · rw [← file.readFault_depthLimit_iff] at h
    obtain ⟨error, herror⟩ := Option.ne_none_iff_exists'.1 h
    refine ⟨error, ?_⟩
    rw [ofDocument, herror]
    rfl

/-- A list in an object, with a name for each part that another record does not use. -/
def mixedFile : Value :=
  .object [("repo_root", .string "/repo"), ("version", .natural 3),
    ("chunks", .array [
      .object [("file", .string "src/a.py"), ("text", .string "x1"), ("type", .string "MeTHod")],
      .object [("content", .string "x2"), ("tags", .array [.string "old"]), ("name", .null),
        ("file_path", .string "lib/b.rs"), ("kind", .string "enum")],
      .object [("name", .string "C"), ("source", .string "x3"), ("chunk_type", .string "CLASS"),
        ("file", .string "c.py")]])]

def mixedChunks : List Chunk :=
  [⟨"src/a.py", .function, "a", "x1"⟩, ⟨"lib/b.rs", .module, "b", "x2"⟩, ⟨"c.py", .type, "C", "x3"⟩]

theorem holds_mixedFile : Holds mixedFile (some "/repo") mixedChunks := by
  refine .rooted ⟨"chunks", rfl⟩ (.cons ?_ (.cons ?_ (.cons ?_ .nil))) ⟨"repo_root", rfl⟩
  · have hmeans : Means "MeTHod" .function :=
      .known (show ("method", .function) ∈ kindWords by decide) (by decide +kernel)
    exact ⟨_, rfl, ⟨⟨"file", rfl⟩, ⟨"text", rfl⟩, .inl ⟨_, ⟨"type", rfl⟩, hmeans⟩,
      .inr ⟨.inl rfl, by decide +kernel⟩⟩⟩
  · exact ⟨_, rfl, ⟨⟨"file_path", rfl⟩, ⟨"content", rfl⟩,
      .inl ⟨"enum", ⟨"kind", rfl⟩, .other (by decide +kernel)⟩,
      .inr ⟨.inr ⟨"name", rfl⟩, by decide +kernel⟩⟩⟩
  · have hmeans : Means "CLASS" .type :=
      .known (show ("class", .type) ∈ kindWords by decide) (by decide +kernel)
    exact ⟨_, rfl, ⟨⟨"file", rfl⟩, ⟨"source", rfl⟩, .inl ⟨_, ⟨"chunk_type", rfl⟩, hmeans⟩,
      .inl ⟨"name", rfl⟩⟩⟩

theorem isReadable_mixedFile : mixedFile.IsReadable (Document.depthLimit - 1) where
  nesting_le := by decide
  isInRange number hm := by
    have hthree : number = .whole 3 := List.mem_singleton.1 hm
    exact hthree ▸ Number.isInRange_natural (by decide)

def mixedTree : FileTree := ⟨[(["chunks.json"], .file (.text mixedFile.pretty))]⟩

theorem load_mixedTree :
    Holds mixedFile (some "/repo") mixedChunks ∧
      mixedFile.IsReadable (Document.depthLimit - 1) ∧
      load mixedTree "chunks.json" = .ok (some "/repo", mixedChunks) := by
  have hread : mixedTree.read "chunks.json" = .ok (.text mixedFile.pretty) := rfl
  exact ⟨holds_mixedFile, isReadable_mixedFile,
    (load_of_holds hread (.printed (.pretty 0) rfl) holds_mixedFile).1 isReadable_mixedFile⟩

def nestedLists : Nat → Value
  | 0 => .array []
  | count + 1 => .array [nestedLists count]

/-- One record with all it needs, and with lists that nest too deep under another key. -/
def deepFile : Value :=
  .array [.object [("file", .string "a.py"), ("text", .string "x"), ("extra", nestedLists 125)]]

def deepTree : FileTree := ⟨[(["chunks.json"], .file (.text deepFile.compact))]⟩

theorem load_deepTree :
    Holds deepFile none [⟨"a.py", .module, "a", "x"⟩] ∧
      (∃ content, deepTree.read "chunks.json" = .ok content ∧ Writes content deepFile) ∧
      load deepTree "chunks.json" =
        .error (.indexMalformed "chunks.json" "recursion limit exceeded") := by
  have hread : deepTree.read "chunks.json" = .ok (.text deepFile.compact) := rfl
  have hwrites : Writes (.text deepFile.compact) deepFile := .printed .compact rfl
  have hfault : deepFile.draft.readFault Document.depthLimit = some .tooDeep := by decide +kernel
  refine ⟨.bare (.cons ⟨_, rfl, ⟨⟨"file", rfl⟩, ⟨"text", rfl⟩, .inr ⟨.inl rfl, rfl⟩,
    .inr ⟨.inl rfl, by decide +kernel⟩⟩⟩ .nil), ⟨_, hread, hwrites⟩, ?_⟩
  rw [load_of_read hread, hwrites.read_input, ofDocument, hfault]
  rfl

end CodeAtlas.Search.Legacy
