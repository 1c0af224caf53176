import CodeAtlas.Proofs.FileTree

/-!
# Trees as a system keeps them

In the tree of a file system every entry has one place, every name is one that the system takes, and
whatever is above an entry is a directory. The changes that a program can ask for keep it so.
-/

namespace CodeAtlas

namespace FileTree

variable {tree new : FileTree} {trail place : Trail} {path : String}

def IsLegal (name : String) : Prop :=
  Path.IsName name ∧ '/' ∉ name.toList ∧ '\x00' ∉ name.toList ∧ name.utf8ByteSize ≤ nameLimit

instance (name : String) : Decidable (IsLegal name) :=
  inferInstanceAs (Decidable (_ ∧ _ ∧ _ ∧ _))

structure WellFormed (tree : FileTree) : Prop where
  nodup : (tree.entries.map Prod.fst).Nodup
  isLegal : ∀ entry ∈ tree.entries, ∀ name ∈ entry.1, IsLegal name
  ne_nil : ∀ entry ∈ tree.entries, entry.1 ≠ []
  parent : ∀ entry ∈ tree.entries, tree.isDirectoryAt entry.1.dropLast = true

/-! ## What is at a place -/

theorem get?_erase_of_isPrefix (h : trail <+: place) (hne : place ≠ [])
    (tree : FileTree) : (tree.erase trail).get? place = none := by
  rw [get?, if_neg hne, erase, lookup_filter fun present => !trail.isPrefixOf present]
  simp [List.isPrefixOf_iff_prefix.2 h]

theorem eq_of_createDirectory (h : tree.createDirectory path = .ok new) :
    ∃ place, tree.locate path = .ok place ∧ (tree.isDirectoryAt place = true ∧ new = tree ∨
      tree.get? place = none ∧ new = tree.put place .directory) := by
  unfold createDirectory at h
  cases hl : tree.locate path with
  | error cause => simp [hl, bind, Except.bind] at h
  | ok place =>
      simp only [hl, bind, Except.bind] at h
      split at h
      · next hg =>
          cases h
          exact ⟨place, rfl, .inl ⟨isDirectoryAt_iff.2 hg, rfl⟩⟩
      · cases h
      · next hg =>
          cases h
          exact ⟨place, rfl, .inr ⟨hg, rfl⟩⟩

theorem lookup_eq_some_iff {α β : Type} [BEq α] [LawfulBEq α] {entries : List (α × β)}
    (h : (entries.map Prod.fst).Nodup) {key : α} {value : β} :
    entries.lookup key = some value ↔ (key, value) ∈ entries := by
  induction entries with
  | nil => simp
  | cons entry rest ih =>
      obtain ⟨first, held⟩ := entry
      obtain ⟨hfirst, hrest⟩ := List.nodup_cons.1 (List.map_cons ▸ h)
      rw [List.lookup_cons]
      cases hk : key == first with
      | true =>
          obtain rfl := eq_of_beq hk
          have hnot : (key, value) ∉ rest := fun hm =>
            hfirst (List.mem_map.2 ⟨_, hm, rfl⟩)
          simp [hnot, eq_comm]
      | false =>
          have hne : key ≠ first := by simpa using hk
          simp [ih hrest, hne]

namespace WellFormed

variable (ht : tree.WellFormed)

include ht

theorem get?_eq_some_iff {entry : Entry} : tree.get? trail = some entry ↔
    trail = [] ∧ entry = .directory ∨ (trail, entry) ∈ tree.entries := by
  rw [get?]
  split
  · rename_i htop
    subst htop
    have hnot : ([], entry) ∉ tree.entries := fun hm => ht.ne_nil _ hm rfl
    simp [hnot, eq_comm]
  · rename_i htop
    rw [lookup_eq_some_iff ht.nodup]
    simp [htop]

theorem isDirectoryAt_of_prefix {entry : Entry} {front : Trail} (hg : tree.get? trail = some entry)
    (hf : front <+: trail) (hne : front ≠ trail) : tree.isDirectoryAt front = true := by
  induction hn : trail.length generalizing trail entry with
  | zero =>
      rw [List.length_eq_zero_iff.1 hn] at hf hne
      exact absurd (List.prefix_nil.1 hf) hne
  | succ length ih =>
      have htop : trail ≠ [] := by
        rintro rfl
        cases hn
      have hm := (ht.get?_eq_some_iff.1 hg).resolve_left fun h => htop h.1
      have hparent := ht.parent _ hm
      have hfront : front <+: trail.dropLast := by
        rw [← List.dropLast_concat_getLast htop] at hf hne
        exact (List.prefix_concat_iff.1 hf).resolve_left hne
      by_cases he : front = trail.dropLast
      · exact he ▸ hparent
      · exact ih (isDirectoryAt_iff.1 hparent) hfront he (by simp [hn])

theorem get?_erase_file {content : Content}
    (hg : tree.get? trail = some (.file content)) (hne : place ≠ trail) :
    (tree.erase trail).get? place = tree.get? place := by
  by_cases hprefix : trail <+: place
  · have hbelow : place ≠ [] := by
      rintro rfl
      exact hne (List.prefix_nil.1 hprefix).symm
    rw [get?_erase_of_isPrefix hprefix hbelow]
    cases he : tree.get? place with
    | none => rfl
    | some entry =>
        have hdirectory := ht.isDirectoryAt_of_prefix he hprefix (Ne.symm hne)
        rw [isDirectoryAt_iff, hg] at hdirectory
        cases hdirectory
  · exact get?_erase (Bool.eq_false_iff.2 fun hp => hprefix (List.isPrefixOf_iff_prefix.1 hp)) tree

theorem isLegal_of_get? {entry : Entry} (hg : tree.get? trail = some entry) :
    ∀ name ∈ trail, IsLegal name := by
  rcases ht.get?_eq_some_iff.1 hg with ⟨rfl, -⟩ | hm
  · exact fun name hn => absurd hn List.not_mem_nil
  · exact ht.isLegal _ hm

/-! ## Walking to a place -/

theorem walk_eq_append {entry : Entry} {names : List String} {here : Trail}
    (hg : tree.get? (here ++ names) = some entry) : tree.walk here names = .ok (here ++ names) := by
  induction names generalizing here with
  | nil => rw [walk, List.append_nil]
  | cons name rest ih =>
      obtain ⟨⟨-, hdot, hup⟩, -, -, hsize⟩ := ht.isLegal_of_get? hg name (by simp)
      have hopen := ht.isDirectoryAt_of_prefix hg (List.prefix_append _ _) (by simp)
      rw [List.append_cons] at hg ⊢
      rw [walk, checkDirectory_eq_ok_iff.2 hopen, if_neg hdot, if_neg hup,
        if_neg (Nat.not_lt.2 hsize)]
      exact ih hg

theorem isFree_of_walk {names : List String} {here : Trail}
    (hnames : ∀ name ∈ names, '/' ∉ name.toList ∧ '\x00' ∉ name.toList ∧ name ≠ "")
    (hlegal : ∀ name ∈ here, IsLegal name) (hparent : tree.isDirectoryAt here.dropLast = true)
    (hw : tree.walk here names = .ok place) :
    (∀ name ∈ place, IsLegal name) ∧ tree.isDirectoryAt place.dropLast = true := by
  induction names generalizing here with
  | nil =>
      cases hw
      exact ⟨hlegal, hparent⟩
  | cons name rest ih =>
      obtain ⟨⟨hslash, hnul, hempty⟩, hrest⟩ := List.forall_mem_cons.1 hnames
      have hopen := checkDirectory_of_walk (List.cons_ne_nil _ _) hw
      have hhere := checkDirectory_eq_ok_iff.1 hopen
      rw [walk, hopen] at hw
      by_cases hdot : name = "."
      · rw [if_pos hdot] at hw
        exact ih hrest hlegal hparent hw
      rw [if_neg hdot] at hw
      by_cases hup : name = ".."
      · rw [if_pos hup] at hw
        by_cases htop : here = []
        · rw [if_pos htop] at hw
          cases hw
        · rw [if_neg htop] at hw
          refine ih hrest (fun other hm => hlegal other ((List.dropLast_sublist _).subset hm)) ?_ hw
          refine ht.isDirectoryAt_of_prefix (isDirectoryAt_iff.1 hhere)
            ((List.dropLast_prefix _).trans (List.dropLast_prefix _)) fun he => ?_
          have hlength := congrArg List.length he
          have hpos := List.length_pos_iff.2 htop
          simp only [List.length_dropLast] at hlength
          omega
      · rw [if_neg hup] at hw
        by_cases hsize : nameLimit < name.utf8ByteSize
        · rw [if_pos hsize] at hw
          cases hw
        · rw [if_neg hsize] at hw
          refine ih hrest (fun other hm => ?_) (by simpa using hhere) hw
          rcases List.mem_append.1 hm with hm | hm
          · exact hlegal other hm
          · rw [List.mem_singleton.1 hm]
            exact ⟨⟨hempty, hdot, hup⟩, hslash, hnul, Nat.not_lt.1 hsize⟩

theorem isFree_of_locate (hl : tree.locate path = .ok place) :
    (∀ name ∈ place, IsLegal name) ∧ tree.isDirectoryAt place.dropLast = true := by
  obtain ⟨hnul, -, -, hwalk⟩ := locate_eq_ok_iff.1 hl
  refine ht.isFree_of_walk (fun name hm => ?_) (fun _ hm => absurd hm List.not_mem_nil) rfl hwalk
  have hpiece : name ∈ (Path.split '/' path).filter (· ≠ "") ∨ name = "." := by
    rw [namesOf] at hm
    split at hm
    · simpa using hm
    · exact .inl hm
  rcases hpiece with hpiece | rfl
  · obtain ⟨hsplit, hne⟩ := List.mem_filter.1 hpiece
    refine ⟨Path.not_mem_of_mem_split hsplit, fun hc => hnul ?_, of_decide_eq_true hne⟩
    exact (Path.exists_mem_split_iff (by decide) path).1 ⟨name, hsplit, hc⟩
  · decide

omit ht in
theorem walk_of_locate (hl : tree.locate path = .ok place) :
    tree.walk [] ((Path.split '/' path).filter (· ≠ "")) = .ok place := by
  obtain ⟨-, -, -, hwalk⟩ := locate_eq_ok_iff.1 hl
  rw [namesOf] at hwalk
  split at hwalk
  · rw [walk_append] at hwalk
    cases htop : tree.walk [] ((Path.split '/' path).filter (· ≠ "")) with
    | error cause =>
        rw [htop] at hwalk
        cases hwalk
    | ok top =>
        rw [htop] at hwalk
        have hwalk : tree.walk top ["."] = .ok place := hwalk
        rw [walk, checkDirectory_of_walk (List.cons_ne_nil _ _) hwalk] at hwalk
        exact hwalk
  · exact hwalk

/-- Joined to a path that leads to a place, the names from there to an entry lead on to it. -/
theorem locate_join {entry : Entry} {base : String} (hl : tree.locate base = .ok place)
    (hg : tree.get? (place ++ Path.split '/' path) = some entry) :
    tree.locate (Path.join base path) = .ok (place ++ Path.split '/' path) := by
  have hlegal (name : String) (hm : name ∈ Path.split '/' path) : IsLegal name :=
    ht.isLegal_of_get? hg name (List.mem_append_right _ hm)
  have hpath : Path.Descends path := fun name hm => (hlegal name hm).1
  obtain ⟨hnul, hne, habsolute, -⟩ := locate_eq_ok_iff.1 hl
  have hnames := hpath.filter_split_join base
  obtain ⟨rest, hrest⟩ := hpath.exists_join_eq_append hne
  refine locate_eq_ok_iff.2 ⟨fun hm => ?_, ?_, ?_, ?_⟩
  · have hmark : '\x00' ≠ '/' := by decide
    obtain ⟨name, hname, hc⟩ := (Path.exists_mem_split_iff hmark _).2 hm
    have hempty : name ≠ "" := by
      rintro rfl
      simp at hc
    have hpiece : name ∈ (Path.split '/' (Path.join base path)).filter (· ≠ "") :=
      List.mem_filter.2 ⟨hname, decide_eq_true hempty⟩
    rw [hnames] at hpiece
    rcases List.mem_append.1 hpiece with hpiece | hpiece
    · exact hnul ((Path.exists_mem_split_iff hmark _).1
        ⟨name, (List.mem_filter.1 hpiece).1, hc⟩)
    · exact (hlegal name hpiece).2.2.1 hc
  · rw [hrest]
    simp [hne]
  · rw [hrest, Path.isAbsolute_append hne, habsolute]
  · rw [namesOf, hpath.getLast?_join, if_neg hpath.getLast?_ne, hnames, walk_append,
      walk_of_locate hl]
    exact ht.walk_eq_append hg

/-! ## Changes -/

theorem put {entry : Entry} (hne : trail ≠ [])
    (hfree : (∀ name ∈ trail, IsLegal name) ∧ tree.isDirectoryAt trail.dropLast = true)
    (hd : entry = .directory ∨ tree.isDirectoryAt trail = false) :
    (tree.put trail entry).WellFormed where
  nodup := by
    rw [FileTree.put, List.map_append, List.nodup_append]
    refine ⟨ht.nodup.sublist (List.filter_sublist.map _), by simp, ?_⟩
    intro key hkey other hother he
    obtain ⟨present, hm, rfl⟩ := List.mem_map.1 hkey
    rw [List.map_singleton, List.mem_singleton] at hother
    exact of_decide_eq_true (List.mem_filter.1 hm).2 (he.trans hother)
  isLegal present hm := by
    rcases List.mem_append.1 hm with hm | hm
    · exact ht.isLegal present (List.mem_filter.1 hm).1
    · rw [List.mem_singleton.1 hm]
      exact hfree.1
  ne_nil present hm := by
    rcases List.mem_append.1 hm with hm | hm
    · exact ht.ne_nil present (List.mem_filter.1 hm).1
    · rw [List.mem_singleton.1 hm]
      exact hne
  parent present hm := by
    have hkeep {place : Trail} (hp : tree.isDirectoryAt place = true) :
        (tree.put trail entry).isDirectoryAt place = true := by
      by_cases he : place = trail
      · subst he
        rcases hd with rfl | hd
        · exact isDirectoryAt_iff.2 (get?_put_self hne tree _)
        · simp [hd] at hp
      · rw [isDirectoryAt_iff, get?_put_of_ne he]
        exact isDirectoryAt_iff.1 hp
    rcases List.mem_append.1 hm with hm | hm
    · exact hkeep (ht.parent present (List.mem_filter.1 hm).1)
    · rw [List.mem_singleton.1 hm]
      exact hkeep hfree.2

theorem erase (trail : Trail) : (tree.erase trail).WellFormed where
  nodup := ht.nodup.sublist (List.filter_sublist.map _)
  isLegal present hm := ht.isLegal present (List.mem_filter.1 hm).1
  ne_nil present hm := ht.ne_nil present (List.mem_filter.1 hm).1
  parent present hm := by
    obtain ⟨hm, hnot⟩ := List.mem_filter.1 hm
    have hparent : trail.isPrefixOf present.1.dropLast = false := by
      refine Bool.eq_false_iff.2 fun hp => ?_
      have hprefix := (List.isPrefixOf_iff_prefix.1 hp).trans (List.dropLast_prefix _)
      simp [List.isPrefixOf_iff_prefix.2 hprefix] at hnot
    rw [isDirectoryAt_iff, get?_erase hparent]
    exact isDirectoryAt_iff.1 (ht.parent present hm)

theorem write {content : Content} (h : tree.write path content = .ok new) : new.WellFormed := by
  obtain ⟨trail, hl, hd, rfl⟩ := eq_of_write h
  exact ht.put (ne_nil_of_isDirectoryAt_eq_false hd) (ht.isFree_of_locate hl) (.inr hd)

theorem createDirectory (h : tree.createDirectory path = .ok new) : new.WellFormed := by
  obtain ⟨trail, hl, ⟨-, rfl⟩ | ⟨hnone, rfl⟩⟩ := eq_of_createDirectory h
  · exact ht
  · refine ht.put (fun htop => ?_) (ht.isFree_of_locate hl) (.inl rfl)
    rw [htop] at hnone
    cases hnone

theorem rename {target : String} (h : tree.rename path target = .ok new) : new.WellFormed := by
  obtain ⟨content, hr⟩ := exists_read_of_rename h
  obtain ⟨source, place, -, hg, hl, hd, ⟨-, rfl⟩ | ⟨hne, rfl⟩⟩ := eq_of_rename h hr
  · exact ht
  · obtain ⟨hlegal, hparent⟩ := ht.isFree_of_locate hl
    have htop := ne_nil_of_isDirectoryAt_eq_false hd
    -- the place is not below the file that moves there, as what is above it is a directory
    have hbelow : ¬ source <+: place.dropLast := by
      intro hprefix
      have hsource : tree.isDirectoryAt source = true := by
        by_cases he : source = place.dropLast
        · exact he ▸ hparent
        · exact ht.isDirectoryAt_of_prefix (isDirectoryAt_iff.1 hparent) hprefix he
      rw [isDirectoryAt_iff, hg] at hsource
      cases hsource
    have hplace : ¬ source <+: place := by
      intro hprefix
      rw [← List.dropLast_concat_getLast htop] at hprefix hne
      exact hbelow ((List.prefix_concat_iff.1 hprefix).resolve_left hne)
    have hfalse {front : Trail} (hf : ¬ source <+: front) : source.isPrefixOf front = false :=
      Bool.eq_false_iff.2 fun hp => hf (List.isPrefixOf_iff_prefix.1 hp)
    refine (ht.erase source).put htop ⟨hlegal, ?_⟩ (.inr ?_)
    · rw [isDirectoryAt_iff, get?_erase (hfalse hbelow)]
      exact isDirectoryAt_iff.1 hparent
    · rw [isDirectoryAt, get?_erase (hfalse hplace)]
      exact hd

end WellFormed

theorem wellFormed_empty : empty.WellFormed where
  nodup := List.nodup_nil
  isLegal _ hm := absurd hm List.not_mem_nil
  ne_nil _ hm := absurd hm List.not_mem_nil
  parent _ hm := absurd hm List.not_mem_nil

end FileTree

end CodeAtlas
