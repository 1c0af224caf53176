import CodeAtlas.FileTree
import CodeAtlas.Proofs.Path

/-!
# Changes of file trees

What a change of one entry leaves of the others, and that a path leads to the same place as long as
the directories on the way stay directories. A path that descends from another one leads to a place
below it. Where paths lead and what kind of entry is there does not depend on what files hold. A
file that is written or renamed is read back, and whether it can be does not depend on what it holds
either.
-/

namespace CodeAtlas

theorem lookup_filter {α β : Type} [BEq α] [LawfulBEq α] (keep : α → Bool) (key : α)
    (entries : List (α × β)) :
    (entries.filter fun entry => keep entry.1).lookup key =
      if keep key then entries.lookup key else none := by
  induction entries with
  | nil => simp
  | cons entry rest ih =>
      obtain ⟨present, value⟩ := entry
      by_cases hk : key = present
      · subst hk
        cases hp : keep key <;> simp [hp, ih]
      · have hne : (key == present) = false := by simpa using hk
        cases hp : keep present <;> simp [List.lookup_cons, hp, hne, ih]

namespace Entry

def isFile : Entry → Bool
  | directory => false
  | file _ => true

theorem eq_or_files {left right : Option Entry} (h : right.map isFile = left.map isFile) :
    right = left ∨ ∃ held kept, left = some (.file held) ∧ right = some (.file kept) := by
  rcases left with _ | _ | held <;> rcases right with _ | _ | kept
  all_goals first | exact .inl rfl | exact .inr ⟨held, kept, rfl, rfl⟩ | cases h

end Entry

namespace FileTree

variable {tree other new : FileTree} {trail place : Trail} {path : String} {content : Content}

/-! ## Entries -/

theorem get?_put_self (hne : trail ≠ []) (tree : FileTree) (entry : Entry) :
    (tree.put trail entry).get? trail = some entry := by
  rw [get?, if_neg hne, put, List.lookup_append, lookup_filter (· ≠ trail)]
  simp

theorem get?_put_of_ne (h : place ≠ trail) (tree : FileTree) (entry : Entry) :
    (tree.put trail entry).get? place = tree.get? place := by
  have hne : (place == trail) = false := by simpa using h
  have hlast : List.lookup place [(trail, entry)] = none := by simp [List.lookup_cons, hne]
  rw [get?, get?, put, List.lookup_append, lookup_filter (· ≠ trail), hlast, Option.or_none]
  simp [h]

theorem get?_erase (h : trail.isPrefixOf place = false) (tree : FileTree) :
    (tree.erase trail).get? place = tree.get? place := by
  rw [get?, get?, erase, lookup_filter fun present => !trail.isPrefixOf present]
  simp [h]

theorem isDirectoryAt_iff :
    tree.isDirectoryAt trail = true ↔ tree.get? trail = some .directory := by
  simp [isDirectoryAt]

/-! ## The way to a place -/

/-- Every place on the way to a trail is a directory, and so is the trail. -/
def Opens (tree : FileTree) (trail : Trail) : Prop :=
  ∀ front, front <+: trail → tree.isDirectoryAt front = true

theorem checkDirectory_eq_ok_iff : tree.checkDirectory trail = .ok () ↔
    tree.isDirectoryAt trail = true := by
  rw [checkDirectory, isDirectoryAt_iff]
  split <;> simp_all

/-- A walk that succeeds does so in every tree in which the directories it goes through are
directories, and ends at the same place. -/
theorem walk_congr (h : ∀ trail, tree.Opens trail → other.isDirectoryAt trail = true)
    {names : List String} {here : Trail}
    (hhere : ∀ front, front <+: here → front ≠ here → tree.isDirectoryAt front = true)
    (hw : tree.walk here names = .ok place) : other.walk here names = .ok place := by
  induction names generalizing here with
  | nil => exact hw
  | cons name rest ih =>
      rw [walk] at hw ⊢
      cases hc : tree.checkDirectory here with
      | error cause => simp [hc, bind, Except.bind] at hw
      | ok _ =>
          have hopens : tree.Opens here := by
            intro front hf
            by_cases he : front = here
            · exact he ▸ checkDirectory_eq_ok_iff.1 hc
            · exact hhere front hf he
          have hother : other.checkDirectory here = .ok () :=
            checkDirectory_eq_ok_iff.2 (h here hopens)
          simp only [hc, hother, bind, Except.bind] at hw ⊢
          by_cases hdot : name = "."
          · rw [if_pos hdot] at hw ⊢
            exact ih hhere hw
          rw [if_neg hdot] at hw ⊢
          by_cases hup : name = ".."
          · rw [if_pos hup] at hw ⊢
            by_cases htop : here = []
            · simp [htop, throw, throwThe, MonadExceptOf.throw] at hw
            rw [if_neg htop] at hw ⊢
            exact ih (fun front hf _ => hopens front (hf.trans (List.dropLast_prefix here))) hw
          rw [if_neg hup] at hw ⊢
          by_cases hlong : nameLimit < name.utf8ByteSize
          · simp [hlong, throw, throwThe, MonadExceptOf.throw] at hw
          rw [if_neg hlong] at hw ⊢
          refine ih (fun front hf hne => hopens front ?_) hw
          exact (List.prefix_concat_iff.1 hf).resolve_left hne

theorem locate_congr (h : ∀ trail, tree.Opens trail → other.isDirectoryAt trail = true)
    (hl : tree.locate path = .ok place) : other.locate path = .ok place := by
  unfold locate at hl ⊢
  by_cases hnul : path.toList.contains '\x00' = true
  · simp only [if_pos hnul] at hl
    cases hl
  rw [if_neg hnul] at hl ⊢
  by_cases habsolute : (decide (path = "") || Path.isAbsolute path) = true
  · simp only [if_pos habsolute] at hl
    cases hl
  rw [if_neg habsolute] at hl ⊢
  refine walk_congr h (fun front hf hne => ?_) hl
  exact absurd (List.prefix_nil.1 hf) hne

/-! ## Places below others -/

theorem walk_append (tree : FileTree) (here : Trail) (front back : List String) :
    tree.walk here (front ++ back) =
      (tree.walk here front).bind fun place => tree.walk place back := by
  induction front generalizing here with
  | nil => rfl
  | cons name rest ih =>
      rw [List.cons_append, walk, walk]
      cases tree.checkDirectory here with
      | error cause => rfl
      | ok _ =>
          simp only [bind, Except.bind]
          split
          · exact ih here
          split
          · split
            · rfl
            · exact ih _
          split
          · rfl
          · exact ih _

theorem checkDirectory_of_walk {here : Trail} {names : List String} (hne : names ≠ [])
    (h : tree.walk here names = .ok place) : tree.checkDirectory here = .ok () := by
  obtain ⟨name, rest, rfl⟩ := List.exists_cons_of_ne_nil hne
  rw [walk] at h
  cases hc : tree.checkDirectory here with
  | error cause => simp [hc, bind, Except.bind] at h
  | ok _ => rfl

theorem eq_append_of_walk {here : Trail} {names : List String}
    (hnames : ∀ name ∈ names, Path.IsName name) (h : tree.walk here names = .ok place) :
    place = here ++ names := by
  induction names generalizing here with
  | nil =>
      cases h
      simp
  | cons name rest ih =>
      obtain ⟨-, hdot, hup⟩ := hnames name List.mem_cons_self
      rw [walk, if_neg hdot, if_neg hup] at h
      cases hc : tree.checkDirectory here with
      | error cause => simp [hc, bind, Except.bind] at h
      | ok _ =>
          simp only [hc, bind, Except.bind] at h
          split at h
          · cases h
          · rw [ih (fun other hm => hnames other (List.mem_cons_of_mem name hm)) h]
            simp

theorem locate_eq_ok_iff : tree.locate path = .ok place ↔
    '\x00' ∉ path.toList ∧ path ≠ "" ∧ Path.isAbsolute path = false ∧
      tree.walk [] (namesOf path) = .ok place := by
  unfold locate
  by_cases hnul : '\x00' ∈ path.toList
  · simp [hnul]
  · rw [if_neg (by simpa using hnul)]
    by_cases hempty : path = ""
    · simp [hempty]
    · cases habsolute : Path.isAbsolute path <;> simp [hnul, hempty]

/-- The place of a base that paths are joined to; an empty one stands for the top. -/
def placeOf (tree : FileTree) (base : String) : Except SystemError Trail :=
  if base = "" then .ok [] else tree.locate base

theorem locate_join {base : String} (h : Path.Descends path)
    (hl : tree.locate (Path.join base path) = .ok place) :
    ∃ top, tree.placeOf base = .ok top ∧ place = top ++ Path.split '/' path := by
  obtain ⟨hnul, -, habsolute, hwalk⟩ := locate_eq_ok_iff.1 hl
  rw [namesOf, h.getLast?_join, if_neg h.getLast?_ne, h.filter_split_join, walk_append] at hwalk
  cases htop : tree.walk [] ((Path.split '/' base).filter (· ≠ "")) with
  | error cause =>
      rw [htop] at hwalk
      cases hwalk
  | ok top =>
      rw [htop] at hwalk
      refine ⟨top, ?_, eq_append_of_walk h hwalk⟩
      by_cases hbase : base = ""
      · subst hbase
        exact htop
      rw [placeOf, if_neg hbase]
      obtain ⟨rest, hrest⟩ := h.exists_join_eq_append hbase
      rw [hrest, Path.isAbsolute_append hbase] at habsolute
      rw [hrest] at hnul
      refine locate_eq_ok_iff.2 ⟨fun hm => hnul (by simp [hm]), hbase, habsolute, ?_⟩
      rw [namesOf]
      split
      · -- The slash at the end of the base asks for a directory, as do the names that follow.
        have hopen := checkDirectory_of_walk (Path.split_ne_nil '/' path) hwalk
        rw [walk_append, htop]
        change tree.walk top ["."] = _
        simp [walk, hopen, bind, Except.bind]
      · exact htop

/-! ## Writing -/

theorem eq_of_write (h : tree.write path content = .ok new) :
    ∃ trail, tree.locate path = .ok trail ∧ tree.isDirectoryAt trail = false ∧
      new = tree.put trail (.file content) := by
  unfold write at h
  cases hl : tree.locate path with
  | error cause => simp [hl, bind, Except.bind] at h
  | ok trail =>
      cases hd : tree.isDirectoryAt trail with
      | true => simp [hl, hd, bind, Except.bind, throw, throwThe, MonadExceptOf.throw] at h
      | false =>
          refine ⟨trail, rfl, hd, ?_⟩
          simpa [hl, hd, bind, Except.bind, pure, Except.pure, eq_comm] using h

theorem write_eq (hl : tree.locate path = .ok trail) (hd : tree.isDirectoryAt trail = false)
    (content : Content) : tree.write path content = .ok (tree.put trail (.file content)) := by
  simp [write, hl, hd, bind, Except.bind, pure, Except.pure]

theorem isDirectoryAt_put (hd : tree.isDirectoryAt trail = false)
    (hp : tree.isDirectoryAt place = true) (entry : Entry) :
    (tree.put trail entry).isDirectoryAt place = true := by
  have hne : place ≠ trail := by
    rintro rfl
    simp [hd] at hp
  rw [isDirectoryAt_iff, get?_put_of_ne hne]
  exact isDirectoryAt_iff.1 hp

theorem locate_put (hl : tree.locate path = .ok trail) (hd : tree.isDirectoryAt trail = false)
    (entry : Entry) : (tree.put trail entry).locate path = .ok trail :=
  locate_congr (fun place ho => isDirectoryAt_put hd (ho place List.prefix_rfl) entry) hl

theorem ne_nil_of_isDirectoryAt_eq_false (hd : tree.isDirectoryAt trail = false) : trail ≠ [] := by
  rintro rfl
  simp [isDirectoryAt, get?] at hd

theorem locate_put_file_iff (hd : tree.isDirectoryAt trail = false) (content : Content) :
    (tree.put trail (.file content)).locate path = .ok place ↔ tree.locate path = .ok place := by
  constructor
  · refine locate_congr fun front ho => ?_
    have hfront := isDirectoryAt_iff.1 (ho front List.prefix_rfl)
    have hne : front ≠ trail := by
      rintro rfl
      have hput := get?_put_self (ne_nil_of_isDirectoryAt_eq_false hd) tree (.file content)
      simp [hfront] at hput
    rw [get?_put_of_ne hne] at hfront
    exact isDirectoryAt_iff.2 hfront
  · exact locate_congr fun front ho => isDirectoryAt_put hd (ho front List.prefix_rfl) _

theorem find?_put_file_self (hl : tree.locate path = .ok trail)
    (hd : tree.isDirectoryAt trail = false) (content : Content) :
    (tree.put trail (.file content)).find? path = some (.file content) := by
  rw [find?, locate_put hl hd]
  exact get?_put_self (ne_nil_of_isDirectoryAt_eq_false hd) tree _

theorem find?_put_file_of_ne (hl : tree.locate path ≠ .ok trail)
    (hd : tree.isDirectoryAt trail = false) (content : Content) :
    (tree.put trail (.file content)).find? path = tree.find? path := by
  have hiff (place : Trail) : (tree.put trail (.file content)).locate path = .ok place ↔
      tree.locate path = .ok place := locate_put_file_iff hd content
  unfold find?
  cases hold : tree.locate path with
  | error cause =>
      cases hnew : (tree.put trail (.file content)).locate path with
      | error other => rfl
      | ok place => cases hold.symm.trans ((hiff place).1 hnew)
  | ok place =>
      rw [(hiff place).2 hold]
      have hne : place ≠ trail := by
        rintro rfl
        exact hl hold
      exact get?_put_of_ne hne tree _

theorem read_write (h : tree.write path content = .ok new) : new.read path = .ok content := by
  obtain ⟨trail, hl, hd, rfl⟩ := eq_of_write h
  have hne := ne_nil_of_isDirectoryAt_eq_false hd
  simp [read, locate_put hl hd, get?_put_self hne, bind, Except.bind, pure, Except.pure]

/-! ## Renaming -/

theorem read_eq_ok_iff : tree.read path = .ok content ↔
    ∃ trail, tree.locate path = .ok trail ∧ tree.get? trail = some (.file content) := by
  unfold read
  cases hl : tree.locate path with
  | error cause => simp [bind, Except.bind]
  | ok trail =>
      simp only [bind, Except.bind, Except.ok.injEq, exists_eq_left']
      split <;> simp_all [pure, Except.pure, throw, throwThe, MonadExceptOf.throw]

theorem read_eq_ok_iff_find? :
    tree.read path = .ok content ↔ tree.find? path = some (.file content) := by
  rw [read_eq_ok_iff, find?]
  cases tree.locate path <;> simp

theorem read_of_find? {entry : Entry} (h : tree.find? path = some entry) : tree.read path =
    match entry with
    | .file content => .ok content
    | .directory => .error .isDirectory := by
  rw [find?] at h
  cases hl : tree.locate path with
  | error cause =>
      rw [hl] at h
      cases h
  | ok trail =>
      rw [hl] at h
      dsimp only at h
      simp only [read, hl, bind, Except.bind, h]
      cases entry <;> rfl

theorem isFile_of_read (h : tree.read path = .ok content) : tree.isFile path = true := by
  simp [isFile, read_eq_ok_iff_find?.1 h]

theorem isFile_iff_exists_read : tree.isFile path = true ↔
    ∃ content, tree.read path = .ok content := by
  refine ⟨fun h => ?_, fun ⟨_, h⟩ => isFile_of_read h⟩
  rw [isFile] at h
  split at h
  · rename_i content hf
    exact ⟨content, read_eq_ok_iff_find?.2 hf⟩
  · cases h

theorem isFile_iff_of_locate (hl : tree.locate path = .ok place) : tree.isFile path = true ↔
    ∃ content, tree.get? place = some (.file content) := by
  simp [isFile_iff_exists_read, read_eq_ok_iff, hl]

theorem contains_of_read (h : tree.read path = .ok content) : tree.contains path = true := by
  simp [contains, read_eq_ok_iff_find?.1 h]

theorem exists_read_of_rename {target : String} (h : tree.rename path target = .ok new) :
    ∃ content, tree.read path = .ok content := by
  unfold rename at h
  cases hl : tree.locate path with
  | error cause => simp [hl, bind, Except.bind] at h
  | ok source =>
      cases hr : tree.read path with
      | error cause => simp [hl, hr, bind, Except.bind] at h
      | ok content => exact ⟨content, rfl⟩

theorem eq_of_rename {target : String} (h : tree.rename path target = .ok new)
    (hr : tree.read path = .ok content) :
    ∃ source place, tree.locate path = .ok source ∧ tree.get? source = some (.file content) ∧
      tree.locate target = .ok place ∧ tree.isDirectoryAt place = false ∧
      (source = place ∧ new = tree ∨
        source ≠ place ∧ new = (tree.erase source).put place (.file content)) := by
  obtain ⟨source, hl, hg⟩ := read_eq_ok_iff.1 hr
  unfold rename at h
  simp only [hl, hr, bind, Except.bind] at h
  by_cases hslash : target.toList.getLast? = some '/'
  · simp [hslash, throw, throwThe, MonadExceptOf.throw] at h
  simp only [if_neg hslash] at h
  cases ht : tree.locate target with
  | error cause => simp [ht] at h
  | ok place =>
      cases hd : tree.isDirectoryAt place with
      | true => simp [ht, hd, throw, throwThe, MonadExceptOf.throw] at h
      | false =>
          refine ⟨source, place, hl, hg, rfl, hd, ?_⟩
          by_cases hsame : source = place
          · exact .inl ⟨hsame, by simpa [ht, hd, hsame, pure, Except.pure, eq_comm] using h⟩
          · exact .inr ⟨hsame, by simpa [ht, hd, hsame, pure, Except.pure, eq_comm] using h⟩

theorem read_rename {target : String} (h : tree.rename path target = .ok new)
    (hr : tree.read path = .ok content) : new.read target = .ok content := by
  obtain ⟨source, place, -, hg, hl, hd, ⟨rfl, rfl⟩ | ⟨hne, rfl⟩⟩ := eq_of_rename h hr
  · exact read_eq_ok_iff.2 ⟨source, hl, hg⟩
  · have htop := ne_nil_of_isDirectoryAt_eq_false hd
    refine read_eq_ok_iff.2 ⟨place, locate_congr (fun trail ho => ?_) hl, get?_put_self htop _ _⟩
    -- The old name is that of a file, so no directory that is walked through lies below it.
    have hsource : source.isPrefixOf trail = false := by
      refine Bool.eq_false_iff.2 fun hp => ?_
      have hdir := isDirectoryAt_iff.1 (ho source (List.isPrefixOf_iff_prefix.1 hp))
      rw [hg] at hdir
      cases hdir
    have htrail : (tree.erase source).isDirectoryAt trail = true := by
      rw [isDirectoryAt_iff, get?_erase hsource]
      exact isDirectoryAt_iff.1 (ho trail List.prefix_rfl)
    have hne : trail ≠ place := by
      rintro rfl
      simp [ho trail List.prefix_rfl] at hd
    rw [isDirectoryAt_iff, get?_put_of_ne hne]
    exact isDirectoryAt_iff.1 htrail

/-! ## Files with other contents -/

/-- Directories and files are at the same places in two trees, whatever the files hold. -/
def SamePlaces (tree other : FileTree) : Prop :=
  ∀ trail, (other.get? trail).map Entry.isFile = (tree.get? trail).map Entry.isFile

theorem samePlaces_put {old : Content} (hg : tree.get? trail = some (.file old))
    (content : Content) : tree.SamePlaces (tree.put trail (.file content)) := by
  have htop : trail ≠ [] := by
    rintro rfl
    cases hg
  intro place
  by_cases hp : place = trail
  · subst hp
    rw [get?_put_self htop, hg]
    rfl
  · rw [get?_put_of_ne hp]

theorem samePlaces_put_file (tree : FileTree) (trail : Trail) (content other : Content) :
    (tree.put trail (.file content)).SamePlaces (tree.put trail (.file other)) := by
  intro place
  by_cases htop : place = []
  · simp [get?, htop]
  by_cases hp : place = trail
  · subst hp
    rw [get?_put_self htop, get?_put_self htop]
    rfl
  · rw [get?_put_of_ne hp, get?_put_of_ne hp]

namespace SamePlaces

theorem checkDirectory_eq (h : tree.SamePlaces other) (trail : Trail) :
    other.checkDirectory trail = tree.checkDirectory trail := by
  unfold checkDirectory
  rcases Entry.eq_or_files (h trail) with he | ⟨held, kept, ht, ho⟩
  · rw [he]
  · rw [ht, ho]

theorem walk_eq (h : tree.SamePlaces other) (here : Trail) (names : List String) :
    other.walk here names = tree.walk here names := by
  induction names generalizing here with
  | nil => rfl
  | cons name rest ih => simp only [walk, h.checkDirectory_eq, ih]

theorem locate_eq (h : tree.SamePlaces other) (path : String) :
    other.locate path = tree.locate path := by
  simp only [locate, h.walk_eq]

theorem isDirectoryAt_eq (h : tree.SamePlaces other) (trail : Trail) :
    other.isDirectoryAt trail = tree.isDirectoryAt trail := by
  unfold isDirectoryAt
  rcases Entry.eq_or_files (h trail) with he | ⟨held, kept, ht, ho⟩
  · rw [he]
  · simp [ht, ho]

theorem find?_eq_or_files (h : tree.SamePlaces other) (path : String) :
    other.find? path = tree.find? path ∨
      ∃ held kept, tree.find? path = some (.file held) ∧ other.find? path = some (.file kept) := by
  unfold find?
  rw [h.locate_eq]
  cases tree.locate path with
  | error cause => exact .inl rfl
  | ok trail => exact Entry.eq_or_files (h trail)

theorem isFile_eq (h : tree.SamePlaces other) (path : String) :
    other.isFile path = tree.isFile path := by
  unfold isFile
  rcases h.find?_eq_or_files path with he | ⟨held, kept, ht, ho⟩
  · rw [he]
  · rw [ht, ho]

theorem isDirectory_eq (h : tree.SamePlaces other) (path : String) :
    other.isDirectory path = tree.isDirectory path := by
  unfold isDirectory
  rcases h.find?_eq_or_files path with he | ⟨held, kept, ht, ho⟩
  · rw [he]
  · simp [ht, ho]

theorem read_eq (h : tree.SamePlaces other)
    (hp : ∀ place, tree.locate path = .ok place → other.get? place = tree.get? place) :
    other.read path = tree.read path := by
  unfold read
  rw [h.locate_eq]
  cases hl : tree.locate path with
  | error cause => rfl
  | ok place => simp only [bind, Except.bind, hp place hl]

end SamePlaces

/-- Whether a file that has just been written can be renamed does not depend on what it holds. -/
theorem exists_rename_put_file {target : String} (hl : tree.locate path = .ok trail)
    (hd : tree.isDirectoryAt trail = false)
    (h : (tree.put trail (.file content)).rename path target = .ok new) (other : Content) :
    ∃ renamed, (tree.put trail (.file other)).rename path target = .ok renamed := by
  have hread (held : Content) : (tree.put trail (.file held)).read path = .ok held :=
    read_eq_ok_iff.2
      ⟨trail, locate_put hl hd _, get?_put_self (ne_nil_of_isDirectoryAt_eq_false hd) _ _⟩
  have hplaces := samePlaces_put_file tree trail content other
  unfold rename at h ⊢
  simp only [locate_put hl hd, hread, bind, Except.bind] at h ⊢
  by_cases hslash : target.toList.getLast? = some '/'
  · simp [hslash, throw, throwThe, MonadExceptOf.throw] at h
  simp only [if_neg hslash] at h ⊢
  cases ht : (tree.put trail (.file content)).locate target with
  | error cause => simp [ht] at h
  | ok place =>
      simp only [hplaces.locate_eq, ht] at h ⊢
      rw [← hplaces.isDirectoryAt_eq] at h
      cases hp : (tree.put trail (.file other)).isDirectoryAt place with
      | true => simp [hp, throw, throwThe, MonadExceptOf.throw] at h
      | false => by_cases hsame : trail = place <;> simp [hsame, pure, Except.pure]

end FileTree

end CodeAtlas
