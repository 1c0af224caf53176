import CodeAtlas.Proofs.Ignore
import CodeAtlas.Proofs.Sorting
import CodeAtlas.Proofs.Text.ByteOrder
import CodeAtlas.Proofs.WellFormed
import CodeAtlas.Scan

/-!
# What a scan lists

A scan goes by the names of files alone, and writes them with slashes instead of backslashes. So it
lists the sources below a root if no step of the root is a control directory and no name has a
backslash, and otherwise it does not: a path with a backslash leads elsewhere when it is rewritten.
-/

namespace CodeAtlas

namespace Scan

open FileTree

/-! ## The sources below a root -/

/-- A source below a root that is not to be left out, by its path from there. -/
structure Counts (tree : FileTree) (language : Language) (root path : String) : Prop where
  descends : Path.Descends path
  isFile : tree.isFile (Path.join root path) = true
  isSource : language.isSource path = true
  noControl : controlDirectory ∉ Path.split '/' path
  keeps : ∃ place, tree.locate root = .ok place ∧
    Ignore.isLeftOut tree place (place ++ Path.split '/' path) = false

/-- Paths in the order of their bytes, each of them once: those of the sources below a root. -/
structure Lists (tree : FileTree) (language : Language) (root : String) (paths : List String) :
    Prop where
  increasing : paths.Pairwise fun left right => Text.Utf8.encode left < Text.Utf8.encode right
  mem_iff : ∀ path, path ∈ paths ↔ Counts tree language root path

variable {tree : FileTree} {language : Language} {root path : String} {place : Trail}

theorem descends_and_isFile_iff (ht : tree.WellFormed) (hl : tree.locate root = .ok place) :
    Path.Descends path ∧ tree.isFile (Path.join root path) = true ↔
      ∃ content, tree.get? (place ++ Path.split '/' path) = some (.file content) := by
  have hroot : tree.placeOf root = .ok place := by
    rw [placeOf, if_neg (locate_eq_ok_iff.1 hl).2.1, hl]
  constructor
  · rintro ⟨hpath, hfile⟩
    obtain ⟨content, hr⟩ := isFile_iff_exists_read.1 hfile
    obtain ⟨trail, hjoin, hg⟩ := read_eq_ok_iff.1 hr
    obtain ⟨top, htop, rfl⟩ := FileTree.locate_join hpath hjoin
    obtain rfl := Except.ok.inj (htop.symm.trans hroot)
    exact ⟨content, hg⟩
  · rintro ⟨content, hg⟩
    have hlegal := ht.isLegal_of_get? hg
    refine ⟨fun name hm => (hlegal name (List.mem_append_right _ hm)).1, ?_⟩
    exact (isFile_iff_of_locate (ht.locate_join hl hg)).2 ⟨content, hg⟩

/-- The names that lead to the sources below a place. -/
def sources (tree : FileTree) (language : Language) (place : Trail) : List Trail :=
  (tree.filesBelow place).filterMap fun (names, _) =>
    if language.isSource ("/".intercalate names) && !names.contains controlDirectory &&
        !Ignore.isLeftOut tree place (place ++ names) then
      some names
    else none

theorem below_eq_map (tree : FileTree) (language : Language) (place : Trail) :
    below tree language place = (sources tree language place).map display := by
  rw [below, sources, List.map_filterMap]
  refine List.filterMap_congr fun found _ => ?_
  obtain ⟨names, content⟩ := found
  dsimp only
  split <;> rfl

/-- A file below a place, by the names that lead on from there. -/
def fileBelow? (place : Trail) : Trail × Entry → Option (Trail × Content)
  | (trail, .file content) =>
      if place.isPrefixOf trail then some (trail.drop place.length, content) else none
  | (_, .directory) => none

theorem filesBelow_eq (tree : FileTree) (place : Trail) :
    tree.filesBelow place = tree.entries.filterMap (fileBelow? place) := rfl

theorem fileBelow?_eq_some_iff {entry : Trail × Entry} {found : Trail × Content} :
    fileBelow? place entry = some found ↔ entry = (place ++ found.1, .file found.2) := by
  obtain ⟨trail, _ | content⟩ := entry
  · simp [fileBelow?]
  · obtain ⟨names, held⟩ := found
    simp only [fileBelow?, Option.ite_none_right_eq_some, List.isPrefixOf_iff_prefix,
      Option.some.injEq, Prod.mk.injEq, Entry.file.injEq]
    constructor
    · rintro ⟨⟨rest, rfl⟩, rfl, rfl⟩
      simp
    · rintro ⟨rfl, rfl⟩
      simp

theorem mem_sources_iff (ht : tree.WellFormed) {names : Trail} :
    names ∈ sources tree language place ↔
      (∃ content, tree.get? (place ++ names) = some (.file content)) ∧
        language.isSource ("/".intercalate names) = true ∧ controlDirectory ∉ names ∧
          Ignore.isLeftOut tree place (place ++ names) = false := by
  have hfile (content : Content) : tree.get? (place ++ names) = some (.file content) ↔
      (names, content) ∈ tree.filesBelow place := by
    simp [ht.get?_eq_some_iff, filesBelow_eq, fileBelow?_eq_some_iff]
  simp only [hfile, sources, List.mem_filterMap, Prod.exists, Option.ite_none_right_eq_some,
    Option.some.injEq, Bool.and_eq_true, Bool.not_eq_true']
  constructor
  · rintro ⟨found, content, hm, ⟨⟨hsource, hcontrol⟩, hkeeps⟩, rfl⟩
    exact ⟨⟨content, hm⟩, hsource, by simpa using hcontrol, hkeeps⟩
  · rintro ⟨⟨content, hm⟩, hsource, hcontrol, hkeeps⟩
    exact ⟨names, content, hm, ⟨⟨hsource, by simpa using hcontrol⟩, hkeeps⟩, rfl⟩

theorem nodup_sources (ht : tree.WellFormed) : (sources tree language place).Nodup := by
  have hentries : tree.entries.Pairwise fun left right => left.1 ≠ right.1 :=
    List.pairwise_map.1 ht.nodup
  have hfound : (tree.filesBelow place).Pairwise fun left right => left.1 ≠ right.1 := by
    rw [filesBelow_eq, List.pairwise_filterMap]
    refine hentries.imp fun hne first hfirst second hsecond he => hne ?_
    rw [fileBelow?_eq_some_iff.1 hfirst, fileBelow?_eq_some_iff.1 hsecond, he]
  rw [sources, List.Nodup, List.pairwise_filterMap]
  refine hfound.imp fun {left right} hne first hfirst second hsecond => ?_
  simp only [Option.ite_none_right_eq_some, Option.some.injEq] at hfirst hsecond
  rwa [← hfirst.2, ← hsecond.2]

theorem counts_iff_mem_sources (ht : tree.WellFormed) (hl : tree.locate root = .ok place) :
    Counts tree language root path ↔ Path.split '/' path ∈ sources tree language place := by
  rw [mem_sources_iff ht, Path.intercalate_split, ← descends_and_isFile_iff ht hl]
  constructor
  · rintro ⟨hpath, hfile, hsource, hcontrol, other, hother, hkeeps⟩
    obtain rfl := Except.ok.inj (hl.symm.trans hother)
    exact ⟨⟨hpath, hfile⟩, hsource, hcontrol, hkeeps⟩
  · rintro ⟨⟨hpath, hfile⟩, hsource, hcontrol, hkeeps⟩
    exact ⟨hpath, hfile, hsource, hcontrol, place, hl, hkeeps⟩

theorem split_of_mem_sources (ht : tree.WellFormed) (hd : tree.isDirectoryAt place = true)
    {names : Trail} (hm : names ∈ sources tree language place) :
    Path.split '/' ("/".intercalate names) = names := by
  obtain ⟨⟨content, hg⟩, -⟩ := (mem_sources_iff ht).1 hm
  refine Path.split_intercalate ?_ fun name hn =>
    (ht.isLegal_of_get? hg name (List.mem_append_right _ hn)).2.1
  rintro rfl
  rw [List.append_nil, isDirectoryAt_iff.1 hd] at hg
  cases hg

/-! ## Names as they are shown -/

theorem not_mem_display (names : Trail) : '\\' ∉ (display names).toList := by
  rw [display, String.toList_map]
  intro hm
  obtain ⟨char, -, hchar⟩ := List.mem_map.1 hm
  split at hchar
  · cases hchar
  · rename_i hne
    exact hne hchar

theorem display_eq {names : Trail} (h : '\\' ∉ ("/".intercalate names).toList) :
    display names = "/".intercalate names := by
  rw [display, ← String.toList_inj, String.toList_map]
  refine (List.map_congr_left fun char hm => if_neg ?_).trans (List.map_id' _)
  rintro rfl
  exact h hm

/-! ## The list -/

theorem scan_of_directory (hc : controlDirectory ∉ Path.steps root)
    (hl : tree.locate root = .ok place) (hd : tree.isDirectoryAt place = true) :
    tree.scan language root =
      ((sources tree language place).map display).mergeSort
        fun left right => (compare left right).isLE := by
  rw [FileTree.scan, if_neg (by simpa using hc), hl]
  simp only [isDirectoryAt_iff.1 hd, below_eq_map]

/-- Where a root is no directory, or has a step to a control directory, nothing is listed but a root
that is a source itself. -/
theorem scan_eq_nil (h : controlDirectory ∉ Path.steps root →
      ∀ place, tree.locate root = .ok place → tree.isDirectoryAt place = false)
    (hroot : tree.isFile root = true → language.isSource root = true →
      controlDirectory ∈ Path.steps root) : tree.scan language root = [] := by
  rw [FileTree.scan]
  split
  · rfl
  · rename_i hc
    have hc : controlDirectory ∉ Path.steps root := by simpa using hc
    cases hl : tree.locate root with
    | error cause => rfl
    | ok place =>
        have hd := h hc place hl
        dsimp only
        split
        · rfl
        · rename_i hg
          exact if_neg fun hsource =>
            hc (hroot ((isFile_iff_of_locate hl).2 ⟨_, hg⟩) hsource)
        · rename_i hg
          rw [isDirectoryAt_iff.2 hg] at hd
          cases hd

theorem isDirectoryAt_of_counts (ht : tree.WellFormed) (hl : tree.locate root = .ok place)
    (h : Counts tree language root path) : tree.isDirectoryAt place = true := by
  obtain ⟨content, hg⟩ := (descends_and_isFile_iff ht hl).1 ⟨h.descends, h.isFile⟩
  refine ht.isDirectoryAt_of_prefix hg (List.prefix_append _ _) fun he => ?_
  exact Path.split_ne_nil '/' path (List.self_eq_append_right.1 he)

theorem lists_of_directory (ht : tree.WellFormed) (hc : controlDirectory ∉ Path.steps root)
    (hl : tree.locate root = .ok place) (hd : tree.isDirectoryAt place = true)
    (h : ∀ path, Counts tree language root path → '\\' ∉ path.toList) :
    Lists tree language root (tree.scan language root) := by
  have hsplit {names : Trail} (hm : names ∈ sources tree language place) :
      Path.split '/' ("/".intercalate names) = names := split_of_mem_sources ht hd hm
  have hdisplay {names : Trail} (hm : names ∈ sources tree language place) :
      display names = "/".intercalate names := by
    refine display_eq (h _ ((counts_iff_mem_sources ht hl).2 ?_))
    rwa [hsplit hm]
  rw [scan_of_directory hc hl hd]
  constructor
  · have hne : ((sources tree language place).map display).Pairwise
        fun left right => compare left right ≠ .eq := by
      rw [List.pairwise_map]
      refine (nodup_sources ht).imp_of_mem fun hleft hright hne he => hne ?_
      rw [← hsplit hleft, ← hsplit hright, ← hdisplay hleft, ← hdisplay hright,
        Std.LawfulEqCmp.eq_of_compare he]
    exact (pairwise_lt_mergeSort hne).imp Text.Utf8.compare_eq_lt_iff.1
  · intro path
    rw [List.mem_mergeSort, List.mem_map, counts_iff_mem_sources ht hl]
    constructor
    · rintro ⟨names, hm, rfl⟩
      rwa [hdisplay hm, hsplit hm]
    · intro hm
      exact ⟨_, hm, by rw [hdisplay hm, Path.intercalate_split]⟩

theorem scan_of_file (hc : controlDirectory ∉ Path.steps root) (hfile : tree.isFile root = true)
    (hsource : language.isSource root = true) : tree.scan language root = [""] := by
  obtain ⟨content, hr⟩ := isFile_iff_exists_read.1 hfile
  obtain ⟨place, hl, hg⟩ := read_eq_ok_iff.1 hr
  rw [FileTree.scan, if_neg (by simpa using hc), hl]
  simp only [hg, hsource, if_true]

theorem lists_iff (ht : tree.WellFormed) (language : Language) (root : String) :
    Lists tree language root (tree.scan language root) ↔
      (tree.isFile root = true → language.isSource root = true →
        controlDirectory ∈ Path.steps root) ∧
      ∀ path, Counts tree language root path →
        controlDirectory ∉ Path.steps root ∧ '\\' ∉ path.toList := by
  constructor
  · intro h
    refine ⟨fun hfile hsource => ?_, fun path hcount => ?_⟩
    · by_contra hc
      have hm : "" ∈ tree.scan language root := by
        rw [scan_of_file hc hfile hsource]
        exact List.mem_cons_self
      exact ((h.mem_iff "").1 hm).descends.ne_empty rfl
    · have hm := (h.mem_iff path).2 hcount
      have hc : controlDirectory ∉ Path.steps root := by
        intro hc
        rw [scan_eq_nil (fun hn => absurd hc hn) fun _ _ => hc] at hm
        cases hm
      obtain ⟨place, hl, -⟩ := hcount.keeps
      rw [scan_of_directory hc hl (isDirectoryAt_of_counts ht hl hcount), List.mem_mergeSort] at hm
      obtain ⟨names, -, rfl⟩ := List.mem_map.1 hm
      exact ⟨hc, not_mem_display names⟩
  · rintro ⟨hroot, hall⟩
    by_cases hdir : controlDirectory ∉ Path.steps root ∧
        ∃ place, tree.locate root = .ok place ∧ tree.isDirectoryAt place = true
    · obtain ⟨hc, place, hl, hd⟩ := hdir
      exact lists_of_directory ht hc hl hd fun path hcount => (hall path hcount).2
    · have hnone : controlDirectory ∉ Path.steps root →
          ∀ place, tree.locate root = .ok place → tree.isDirectoryAt place = false :=
        fun hc place hl => Bool.eq_false_iff.2 fun hd => hdir ⟨hc, place, hl, hd⟩
      rw [scan_eq_nil hnone hroot]
      refine ⟨.nil, fun path => iff_of_false List.not_mem_nil fun hcount => ?_⟩
      obtain ⟨place, hl, -⟩ := hcount.keeps
      exact hdir ⟨(hall path hcount).1, place, hl, isDirectoryAt_of_counts ht hl hcount⟩

/-! ## Other places -/

/-- Two roots with the same entries below them, of which the rules leave out the same. -/
structure SameBelow (tree : FileTree) (root : String) (other : FileTree) (base : String) : Prop where
  control : controlDirectory ∈ Path.steps base ↔ controlDirectory ∈ Path.steps root
  places : ∃ place site, tree.locate root = .ok place ∧ other.locate base = .ok site ∧
    tree.isDirectoryAt place = true ∧ other.isDirectoryAt site = true ∧
    Ignore.SameEntries tree place other site ∧
    ∀ names, Ignore.isLeftOut other site (site ++ names) = Ignore.isLeftOut tree place (place ++ names)

variable {other : FileTree} {base : String}

theorem scan_eq_of_sameBelow (ht : tree.WellFormed) (ho : other.WellFormed)
    (h : SameBelow tree root other base) : other.scan language base = tree.scan language root := by
  obtain ⟨hcontrol, place, site, hl, hs, hd, hd', hsame, hrules⟩ := h
  by_cases hc : controlDirectory ∈ Path.steps root
  · rw [scan_eq_nil (fun hn => absurd hc hn) fun _ _ => hc,
      scan_eq_nil (fun hn => absurd (hcontrol.2 hc) hn) fun _ _ => hcontrol.2 hc]
  · rw [scan_of_directory hc hl hd, scan_of_directory (fun hb => hc (hcontrol.1 hb)) hs hd']
    refine mergeSort_eq_of_perm (List.Perm.map _ ?_) fun _ _ _ _ he =>
      Std.LawfulEqOrd.eq_of_compare he
    refine (List.perm_ext_iff_of_nodup (nodup_sources ho) (nodup_sources ht)).2 fun names => ?_
    rw [mem_sources_iff ho, mem_sources_iff ht, hrules]
    by_cases hn : names = []
    · subst hn
      simp [isDirectoryAt_iff.1 hd, isDirectoryAt_iff.1 hd']
    · rw [hsame names hn]

theorem sameBelow_of_sameEntries {place site : Trail} (hl : tree.locate root = .ok place)
    (hs : other.locate base = .ok site) (hd : tree.isDirectoryAt place = true)
    (hd' : other.isDirectoryAt site = true) (hsame : Ignore.SameEntries tree place other site)
    (htree : Ignore.IsUnruled tree place) (hother : Ignore.IsUnruled other site)
    (hc : controlDirectory ∈ Path.steps base ↔ controlDirectory ∈ Path.steps root) :
    SameBelow tree root other base :=
  ⟨hc, place, site, hl, hs, hd, hd', hsame, Ignore.isLeftOut_eq hsame htree hother⟩

/-- A scan lists the sources below a root unless a step of the root is a control directory, a name
has a backslash, or the root is a source itself. What it lists can be read, and it lists the same
wherever the root lies. -/
theorem lists_scan_iff (ht : tree.WellFormed) (language : Language) (root : String) :
    (Lists tree language root (tree.scan language root) ↔
      (tree.isFile root = true → language.isSource root = true →
        controlDirectory ∈ Path.steps root) ∧
      ∀ path, Counts tree language root path →
        controlDirectory ∉ Path.steps root ∧ '\\' ∉ path.toList) ∧
    (Lists tree language root (tree.scan language root) →
      ∀ path ∈ tree.scan language root,
        ∃ content, tree.read (Path.join root path) = .ok content) ∧
    ∀ (other : FileTree) (base : String), other.WellFormed → SameBelow tree root other base →
      other.scan language base = tree.scan language root := by
  refine ⟨lists_iff ht language root, fun h path hm => ?_, fun other base ho h =>
    scan_eq_of_sameBelow ht ho h⟩
  exact isFile_iff_exists_read.1 ((h.mem_iff path).1 hm).isFile

def sampleTree : FileTree where
  entries :=
    [(["z.py"], .file (.text "")), (["pkg"], .directory), (["pkg", "a.py"], .file (.text "")),
      (["pkg", "notes.md"], .file (.text "")), ([".hidden"], .directory),
      ([".hidden", "b.py"], .file (.text ""))]

theorem wellFormed_sampleTree : sampleTree.WellFormed :=
  ⟨by decide, by decide, by decide, by decide⟩

/-- The same entries below a directory of another tree. -/
def deepTree : FileTree where
  entries := (["deep"], .directory) ::
    sampleTree.entries.map fun present => ("deep" :: present.1, present.2)

theorem wellFormed_deepTree : deepTree.WellFormed :=
  ⟨by decide, by decide, by decide, by decide⟩

theorem sameBelow_deepTree : SameBelow sampleTree "." deepTree "deep" := by
  have hroot : sampleTree.locate "." = .ok [] := rfl
  have hbase : deepTree.locate "deep" = .ok ["deep"] := rfl
  refine sameBelow_of_sameEntries hroot hbase (by decide) (by decide) (fun names hn => ?_)
    (by decide) (by decide) (by decide)
  have hne : names.isEmpty = false := by simpa using hn
  simp [deepTree, sampleTree, FileTree.get?, List.lookup_cons, hn, hne]

theorem lists_scan_sampleTree : sampleTree.WellFormed ∧
    Lists sampleTree .python "." (sampleTree.scan .python ".") ∧
    deepTree.WellFormed ∧ SameBelow sampleTree "." deepTree "deep" ∧
    deepTree.scan .python "deep" = sampleTree.scan .python "." := by
  have hnames : ∀ names ∈ sources sampleTree .python [], ∀ name ∈ names, '\\' ∉ name.toList := by
    decide
  obtain ⟨hlists, -, hmoved⟩ := lists_scan_iff wellFormed_sampleTree .python "."
  refine ⟨wellFormed_sampleTree, hlists.2 ?_, wellFormed_deepTree, sameBelow_deepTree,
    hmoved deepTree "deep" wellFormed_deepTree sameBelow_deepTree⟩
  refine ⟨fun hfile => absurd hfile (by decide), fun path hcount => ⟨by decide, fun hm => ?_⟩⟩
  have hmark : '\\' ≠ '/' := by decide
  obtain ⟨name, hname, hc⟩ := (Path.exists_mem_split_iff hmark path).2 hm
  exact hnames _ ((counts_iff_mem_sources wellFormed_sampleTree rfl).1 hcount) name hname hc

/-- A file with a backslash in its name, beside one in a directory. -/
def backslashTree : FileTree where
  entries :=
    [(["a"], .directory), (["a", "b.py"], .file (.text "")), (["a\\b.py"], .file (.text ""))]

def controlTree : FileTree where
  entries :=
    [(["x"], .directory), (["x", ".git"], .directory), (["x", ".git", "y"], .directory),
      (["x", ".git", "y", "a.py"], .file (.text ""))]

/-- One path is listed twice for two files, and nothing is listed below a root inside a control
directory. -/
theorem not_lists_scan : backslashTree.WellFormed ∧
    ¬ Lists backslashTree .python "." (backslashTree.scan .python ".") ∧
    controlTree.WellFormed ∧
      ¬ Lists controlTree .python "x/.git/y" (controlTree.scan .python "x/.git/y") := by
  refine ⟨⟨by decide, by decide, by decide, by decide⟩, fun h => ?_,
    ⟨by decide, by decide, by decide, by decide⟩, fun h => ?_⟩
  · have hsources : sources backslashTree .python [] = [["a", "b.py"], ["a\\b.py"]] := by decide
    have hsame : display ["a", "b.py"] = display ["a\\b.py"] := by
      rw [display, display, ← String.toList_inj, String.toList_map, String.toList_map]
      decide
    have hnodup : (backslashTree.scan .python ".").Nodup := by
      refine List.Pairwise.imp (fun {left right} hlt => ?_) h.increasing
      rintro rfl
      exact List.lt_irrefl _ hlt
    rw [scan_of_directory (by decide) rfl (by decide), hsources, List.map_cons, hsame,
      (List.mergeSort_perm _ _).nodup_iff] at hnodup
    exact (List.nodup_cons.1 hnodup).1 List.mem_cons_self
  · have hscan : controlTree.scan .python "x/.git/y" = [] := by decide
    have hcount : Counts controlTree .python "x/.git/y" "a.py" :=
      ⟨by decide, by decide, by decide, by decide, _, rfl, by decide⟩
    have hm := (h.mem_iff "a.py").2 hcount
    rw [hscan] at hm
    cases hm

end Scan

end CodeAtlas
