import CodeAtlas.Graph.EdgeList
import CodeAtlas.Proofs.Naming
import CodeAtlas.Proofs.Publication
import CodeAtlas.Proofs.WellFormed
import CodeAtlas.Search.Artifact

/-!
# Publication that breaks off

Publishing a text may break off before any of its steps, or while the text is being written. Until
the last step the file at the path is as it was: what has been written stands beside it, under
another name, and what has been made are the directories above. A path that goes up again may name
one of these directories itself; then it becomes one if nothing was there.
-/

namespace CodeAtlas

/-! ## Places that paths name -/

def Path.enter (here : Trail) (step : String) : Trail :=
  if step = ".." then here.dropLast else here ++ [step]

/-- The place to which a path leads if there are directories on the way. -/
def Path.place (path : String) : Trail := (Path.steps path).foldl Path.enter []

namespace FileTree

variable {tree new seen : FileTree} {trail place : Trail} {path : String}

theorem eq_foldl_of_walk {names : List String} {here : Trail}
    (h : tree.walk here names = .ok place) :
    place = (names.filter (· ≠ ".")).foldl Path.enter here := by
  induction names generalizing here with
  | nil =>
      cases h
      rfl
  | cons name rest ih =>
      rw [walk, checkDirectory_of_walk (List.cons_ne_nil _ _) h] at h
      by_cases hdot : name = "."
      · rw [if_pos hdot] at h
        rw [List.filter_cons_of_neg (by simpa using hdot)]
        exact ih h
      rw [if_neg hdot] at h
      rw [List.filter_cons_of_pos (by simpa using hdot), List.foldl_cons, Path.enter]
      split
      · next hup =>
          rw [if_pos hup] at h
          by_cases htop : here = []
          · rw [if_pos htop] at h
            cases h
          · rw [if_neg htop] at h
            exact ih h
      · next hup =>
          rw [if_neg hup] at h
          by_cases hlong : nameLimit < name.utf8ByteSize
          · rw [if_pos hlong] at h
            cases h
          · rw [if_neg hlong] at h
            exact ih h

theorem filter_namesOf (path : String) : (namesOf path).filter (· ≠ ".") = Path.steps path := by
  have hsteps : ((Path.split '/' path).filter (· ≠ "")).filter (· ≠ ".") = Path.steps path := by
    rw [List.filter_filter, Path.steps]
    exact List.filter_congr fun name _ => by simp [Bool.and_comm]
  rw [namesOf]
  split
  · rw [List.filter_append, hsteps, show ["."].filter (· ≠ ".") = [] by decide, List.append_nil]
  · exact hsteps

theorem eq_place_of_locate (h : tree.locate path = .ok place) : place = Path.place path := by
  rw [eq_foldl_of_walk (locate_eq_ok_iff.1 h).2.2.2, filter_namesOf]
  rfl

theorem WellFormed.isDirectoryAt_of_fileName? (ht : tree.WellFormed)
    (h : Path.fileName? path = none) (hl : tree.locate path = .ok place) :
    tree.isDirectoryAt place = true := by
  obtain ⟨-, -, -, hwalk⟩ := locate_eq_ok_iff.1 hl
  have hlast := Path.fileName?_eq_none_iff.1 h
  rw [← filter_namesOf] at hlast
  rcases List.eq_nil_or_concat (namesOf path) with hnames | ⟨front, last, hnames⟩
  · rw [hnames] at hwalk
    cases hwalk
    rfl
  rw [List.concat_eq_append] at hnames
  rw [hnames, walk_append] at hwalk
  cases htop : tree.walk [] front with
  | error cause =>
      rw [htop] at hwalk
      cases hwalk
  | ok top =>
      rw [htop] at hwalk
      have hwalk : tree.walk top [last] = .ok place := hwalk
      have hopen := checkDirectory_of_walk (List.cons_ne_nil _ _) hwalk
      have hdirectory := checkDirectory_eq_ok_iff.1 hopen
      rw [walk, hopen] at hwalk
      by_cases hdot : last = "."
      · rw [if_pos hdot] at hwalk
        cases hwalk
        exact hdirectory
      rw [if_neg hdot] at hwalk
      have hup : last = ".." := by
        rw [hnames, List.filter_append, List.filter_cons_of_pos (by simpa using hdot)] at hlast
        simpa using hlast
      rw [if_pos hup] at hwalk
      by_cases hnil : top = []
      · rw [if_pos hnil] at hwalk
        cases hwalk
      · rw [if_neg hnil] at hwalk
        cases hwalk
        refine ht.isDirectoryAt_of_prefix (isDirectoryAt_iff.1 hdirectory)
          (List.dropLast_prefix top) fun he => hnil ?_
        have hlength := congrArg List.length he
        rw [List.length_dropLast] at hlength
        exact List.length_eq_zero_iff.1 (by omega)

end FileTree

/-! ## Work that breaks off -/

/-- What is left of a tree when steps break off: the step at which they do has not been taken, but
for a part of a text that may have been written. -/
inductive FileTree.BreaksOff : FileTree → List FileStep → FileTree → Prop
  | before {tree : FileTree} {step : FileStep} {rest : List FileStep} :
      BreaksOff tree (step :: rest) tree
  | during {tree seen : FileTree} {path text : String} {part : Bytes} {rest : List FileStep}
      (hpart : part <+: Text.Utf8.encode text) (hw : tree.write path (.bytes part) = .ok seen) :
      BreaksOff tree (.write path text :: rest) seen
  | after {tree next seen : FileTree} {step : FileStep} {rest : List FileStep}
      (hs : step.apply tree = .ok next) (h : BreaksOff next rest seen) :
      BreaksOff tree (step :: rest) seen

theorem FileTree.WellFormed.apply {tree new : FileTree} (ht : tree.WellFormed) {step : FileStep}
    (h : step.apply tree = .ok new) : new.WellFormed :=
  match step with
  | .createDirectory _ => ht.createDirectory h
  | .write _ _ => ht.write h
  | .rename _ _ => ht.rename h

namespace FileTree

variable {tree new seen : FileTree} {steps first second : List FileStep}

theorem WellFormed.of_breaksOff (ht : tree.WellFormed) (h : tree.BreaksOff steps seen) :
    seen.WellFormed := by
  induction h with
  | before => exact ht
  | during hpart hw => exact ht.write hw
  | after hs h ih => exact ih (ht.apply hs)

theorem WellFormed.of_run (ht : tree.WellFormed) (h : tree.run steps = (.ok (), seen)) :
    seen.WellFormed := by
  induction steps generalizing tree with
  | nil =>
      cases h
      exact ht
  | cons step rest ih =>
      obtain ⟨next, hs, h⟩ := run_cons_eq_ok h
      exact ih (ht.apply hs) h

theorem breaksOff_of_run {cause : SystemError} (h : tree.run steps = (.error cause, new)) :
    tree.BreaksOff steps new := by
  induction steps generalizing tree with
  | nil => cases h
  | cons step rest ih =>
      rw [run] at h
      cases hs : step.apply tree with
      | error other =>
          simp only [hs] at h
          cases h
          exact .before
      | ok next =>
          simp only [hs] at h
          exact .after hs (ih h)

theorem breaksOff_append (h : tree.BreaksOff (first ++ second) seen) :
    tree.BreaksOff first seen ∨
      ∃ middle, tree.run first = (.ok (), middle) ∧ middle.BreaksOff second seen := by
  induction first generalizing tree with
  | nil => exact .inr ⟨tree, rfl, h⟩
  | cons step rest ih =>
      rw [List.cons_append] at h
      cases h with
      | before => exact .inl .before
      | during hpart hw => exact .inl (.during hpart hw)
      | after hs h =>
          rcases ih h with h | ⟨middle, hrun, h⟩
          · exact .inl (.after hs h)
          · refine .inr ⟨middle, ?_, h⟩
            rw [run, hs]
            exact hrun

end FileTree

/-! ## Directories above -/

namespace FileTree

/-- What is at a place stays, or a directory is made there that is one of those above a path. -/
def Keeps (path : String) (tree seen : FileTree) (place : Trail) : Prop :=
  seen.get? place = tree.get? place ∨ tree.get? place = none ∧
    seen.get? place = some .directory ∧ ∃ parent ∈ Path.ancestors path, Path.place parent = place

variable {tree middle new seen : FileTree} {path : String} {place : Trail}

theorem Keeps.trans (h : Keeps path tree middle place) (h' : Keeps path middle seen place) :
    Keeps path tree seen place := by
  rcases h with h | ⟨hnone, hmade, habove⟩
  · rcases h' with h' | ⟨hnone, hmade, habove⟩
    · exact .inl (h'.trans h)
    · exact .inr ⟨h ▸ hnone, hmade, habove⟩
  · rcases h' with h' | ⟨hnone', -, -⟩
    · exact .inr ⟨hnone, h'.trans hmade, habove⟩
    · rw [hnone'] at hmade
      cases hmade

theorem keeps_createDirectory {parent : String} (hm : parent ∈ Path.ancestors path)
    (h : tree.createDirectory parent = .ok new) (place : Trail) : Keeps path tree new place := by
  obtain ⟨made, hl, ⟨-, rfl⟩ | ⟨hnone, rfl⟩⟩ := eq_of_createDirectory h
  · exact .inl rfl
  · by_cases hp : place = made
    · subst hp
      have htop : place ≠ [] := by
        rintro rfl
        cases hnone
      exact .inr ⟨hnone, get?_put_self htop tree .directory, parent, hm,
        (eq_place_of_locate hl).symm⟩
    · exact .inl (get?_put_of_ne hp tree .directory)

theorem keeps_of_run {parents : List String} (hm : ∀ parent ∈ parents, parent ∈ Path.ancestors path)
    (h : tree.BreaksOff (parents.map .createDirectory) seen ∨
      tree.run (parents.map .createDirectory) = (.ok (), seen)) (place : Trail) :
    Keeps path tree seen place := by
  induction parents generalizing tree with
  | nil =>
      rcases h with h | h
      · cases h
      · cases h
        exact .inl rfl
  | cons parent rest ih =>
      obtain ⟨hparent, hrest⟩ := List.forall_mem_cons.1 hm
      have hnext {next : FileTree} (hs : tree.createDirectory parent = .ok next)
          (h : next.BreaksOff (rest.map .createDirectory) seen ∨
            next.run (rest.map .createDirectory) = (.ok (), seen)) :
          Keeps path tree seen place :=
        (keeps_createDirectory hparent hs place).trans (ih hrest h)
      rcases h with h | h
      · cases h with
        | before => exact .inl rfl
        | after hs h => exact hnext hs (.inl h)
      · obtain ⟨next, hs, h⟩ := run_cons_eq_ok h
        exact hnext hs (.inr h)

end FileTree

/-! ## The file beside -/

namespace Path

variable {path name : String}

theorem place_of_steps {front : List String} (h : steps path = front ++ [name])
    (hup : name ≠ "..") : place path = front.foldl enter [] ++ [name] := by
  rw [place, h, List.foldl_append, List.foldl_cons, List.foldl_nil, enter, if_neg hup]

theorem foldl_enter_of_not_mem {names : List String} (h : ".." ∉ names) (here : Trail) :
    names.foldl enter here = here ++ names := by
  induction names generalizing here with
  | nil => rw [List.foldl_nil, List.append_nil]
  | cons name rest ih =>
      obtain ⟨hname, hrest⟩ := List.ne_and_not_mem_of_not_mem_cons h
      rw [List.foldl_cons, enter, if_neg (Ne.symm hname), ih hrest, List.append_assoc]
      rfl

theorem place_ne_of_mem_ancestors {parent : String} (hup : ".." ∉ steps path)
    (hm : parent ∈ ancestors path) (hne : steps path ≠ []) : place parent ≠ place path := by
  intro he
  have hfront := steps_of_mem_ancestors hm
  have hparent : ".." ∉ steps parent := fun hp =>
    hup ((List.dropLast_sublist _).subset (hfront.subset hp))
  rw [place, place, foldl_enter_of_not_mem hup, foldl_enter_of_not_mem hparent] at he
  have hlength := hfront.length_le
  have hpos := List.length_pos_iff.2 hne
  rw [List.append_cancel_left he, List.length_dropLast] at hlength
  omega

end Path

namespace Publication

open CodeAtlas.Path (place)

variable {path name : String}

theorem place_sibling_ne (h : Path.fileName? path = some name) :
    place (sibling path) ≠ place path := by
  obtain ⟨hpath, hsibling⟩ := steps_sibling h
  have hlength : "..".length < ((Path.divideName name).1 ++ ".json.tmp").length := by
    rw [String.length_append]
    exact Nat.lt_of_lt_of_le (by decide) (Nat.le_add_left _ _)
  have hup : (Path.divideName name).1 ++ ".json.tmp" ≠ ".." := by
    intro he
    rw [he] at hlength
    exact absurd hlength (by decide)
  rw [Path.place_of_steps hpath (Path.fileName?_eq_some_iff.1 h).2,
    Path.place_of_steps hsibling hup]
  intro he
  exact Path.stem_append_ne name (List.singleton_inj.1 (List.append_cancel_left he))

end Publication

namespace FileTree

variable {tree middle new seen : FileTree} {path text : String}

theorem WellFormed.eq_of_write_sibling (ht : tree.WellFormed) {content : Content}
    (h : tree.write (Publication.sibling path) content = .ok new) :
    Path.place (Publication.sibling path) ≠ Path.place path ∧
      tree.isDirectoryAt (Path.place (Publication.sibling path)) = false ∧
      new = tree.put (Path.place (Publication.sibling path)) (.file content) := by
  obtain ⟨beside, hl, hd, rfl⟩ := eq_of_write h
  obtain rfl := eq_place_of_locate hl
  refine ⟨?_, hd, rfl⟩
  cases hname : Path.fileName? path with
  | some name => exact Publication.place_sibling_ne hname
  | none =>
      -- The sibling of a path without a name is the path, which is that of a directory.
      have hsibling : Publication.sibling path = path := by
        rw [Publication.sibling, Path.withExtension, hname]
      rw [hsibling] at hl hd
      rw [ht.isDirectoryAt_of_fileName? hname hl] at hd
      cases hd

/-- Everything is kept but what is at the place of the sibling; what is at the place of the path is
kept in any case. -/
def Spares (path : String) (tree seen : FileTree) : Prop :=
  ∀ place, place = Path.place path ∨ place ≠ Path.place (Publication.sibling path) →
    Keeps path tree seen place

theorem spares_of_write (hm : middle.WellFormed) (hkeeps : ∀ place, Keeps path tree middle place)
    {content : Content} (hw : middle.write (Publication.sibling path) content = .ok seen) :
    Spares path tree seen := by
  obtain ⟨hne, -, rfl⟩ := hm.eq_of_write_sibling hw
  intro place hplace
  have hother : place ≠ Path.place (Publication.sibling path) := by
    rcases hplace with rfl | hplace
    · exact hne.symm
    · exact hplace
  exact (hkeeps place).trans (.inl (get?_put_of_ne hother middle _))

theorem spares_of_breaksOff (ht : tree.WellFormed)
    (h : tree.BreaksOff (Publication.steps path text) seen) : Spares path tree seen := by
  rcases breaksOff_append h with h | ⟨middle, hrun, h⟩
  · exact fun place _ => keeps_of_run (fun _ hm => hm) (.inl h) place
  · have hm := ht.of_run hrun
    have hkeeps := keeps_of_run (fun _ hm => hm) (.inr hrun)
    cases h with
    | before => exact fun place _ => hkeeps place
    | during hpart hw => exact spares_of_write hm hkeeps hw
    | after hs h =>
        cases h with
        | before => exact spares_of_write hm hkeeps hs
        | after hs h => cases h

theorem eq_of_publish (ht : tree.WellFormed) (h : tree.publish path text = (.ok (), new)) :
    new.get? (Path.place path) = some (.file (.text text)) ∧
      new.get? (Path.place (Publication.sibling path)) = none ∧
      ∀ place, place ≠ Path.place path → place ≠ Path.place (Publication.sibling path) →
        Keeps path tree new place := by
  rw [publish, Publication.steps, run_append] at h
  rcases hrun : tree.run ((Path.ancestors path).map .createDirectory) with ⟨cause | _, middle⟩
  · simp [hrun] at h
  rw [hrun] at h
  have hm := ht.of_run hrun
  have hkeeps := keeps_of_run (fun _ hm => hm) (.inr hrun)
  obtain ⟨written, hw, h⟩ := run_cons_eq_ok h
  obtain ⟨renamed, hr, h⟩ := run_cons_eq_ok h
  obtain rfl : renamed = new := (Prod.mk.inj h).2
  have hwritten : written.WellFormed := hm.write hw
  obtain ⟨hne, hd, hput⟩ := hm.eq_of_write_sibling hw
  obtain ⟨source, target, hsource, hg, htarget, hfree, hmoved⟩ := eq_of_rename hr (read_write hw)
  obtain rfl := eq_place_of_locate hsource
  obtain rfl := eq_place_of_locate htarget
  obtain ⟨hsame, -⟩ | ⟨-, rfl⟩ := hmoved
  · exact absurd hsame hne
  refine ⟨get?_put_self (ne_nil_of_isDirectoryAt_eq_false hfree) _ _, ?_, fun place hp hb => ?_⟩
  · rw [get?_put_of_ne hne]
    exact get?_erase_of_isPrefix List.prefix_rfl (ne_nil_of_isDirectoryAt_eq_false hd) written
  · refine (hkeeps place).trans (.inl ?_)
    rw [get?_put_of_ne hp, hwritten.get?_erase_file hg hb, hput, get?_put_of_ne hb]

theorem Spares.get?_eq (h : Spares path tree seen) (hup : ".." ∉ Path.steps path) :
    seen.get? (Path.place path) = tree.get? (Path.place path) := by
  rcases h _ (.inl rfl) with h | ⟨hnone, -, parent, hm, he⟩
  · exact h
  · refine absurd he (Path.place_ne_of_mem_ancestors hup hm fun hnil => ?_)
    rw [Path.place, hnil] at hnone
    cases hnone

end FileTree

/-! ## Artifacts -/

namespace Publication

/-- A text is published as a whole or not at all. -/
structure IsAtomic (tree : FileTree) (path text : String)
    (outcome : Except SystemError Unit × FileTree) : Prop where
  /-- What is left is a tree, under which the same may be published again. -/
  wellFormed : ∀ seen, tree.BreaksOff (steps path text) seen ∨ outcome = (.ok (), seen) →
    seen.WellFormed
  /-- Wherever the work breaks off, the file at the path and all others are as they were. -/
  spares : ∀ seen, tree.BreaksOff (steps path text) seen → tree.Spares path seen
  /-- The path does not become a directory either, unless it goes up again. -/
  untouched : ∀ seen, tree.BreaksOff (steps path text) seen → ".." ∉ Path.steps path →
    seen.get? (Path.place path) = tree.get? (Path.place path)
  /-- What an error leaves is left where the work breaks off. -/
  failed : ∀ cause new, outcome = (.error cause, new) → tree.BreaksOff (steps path text) new
  read : ∀ new, outcome = (.ok (), new) → new.read path = .ok (.text text)
  done : ∀ new, outcome = (.ok (), new) →
    new.get? (Path.place path) = some (.file (.text text)) ∧
    new.get? (Path.place (sibling path)) = none ∧
    ∀ place, place ≠ Path.place path → place ≠ Path.place (sibling path) → tree.Keeps path new place

theorem isAtomic_publish {tree : FileTree} (ht : tree.WellFormed) (path text : String) :
    IsAtomic tree path text (tree.publish path text) where
  wellFormed _ h := h.elim ht.of_breaksOff ht.of_run
  spares _ h := FileTree.spares_of_breaksOff ht h
  untouched _ h hup := (FileTree.spares_of_breaksOff ht h).get?_eq hup
  failed _ _ h := FileTree.breaksOff_of_run h
  read _ h := FileTree.read_publish h
  done _ h := FileTree.eq_of_publish ht h

/-- Edge lists and indexes are published as a whole or not at all, in every tree and under every
path. -/
theorem isAtomic_save {tree : FileTree} (ht : tree.WellFormed) (path : String) :
    (∀ list : Graph.EdgeList, IsAtomic tree path list.toText (list.save tree path)) ∧
      ∀ index : Search.Index Float, IsAtomic tree path index.toText (index.save tree path) :=
  ⟨fun list => isAtomic_publish ht path list.toText,
    fun index => isAtomic_publish ht path index.toText⟩

def sampleTree : FileTree where
  entries := [(["out"], .directory), (["out", "edges.json"], .file (.text "[ ]"))]

theorem isAtomic_save_sampleTree :
    let list := Graph.EdgeList.ofEdges []
    let broken := sampleTree.put ["out", "edges.json.tmp"] (.file (.bytes [0x5B]))
    sampleTree.WellFormed ∧
    sampleTree.BreaksOff (steps "out/edges.json" list.toText) broken ∧
    broken.get? ["out", "edges.json"] = some (.file (.text "[ ]")) ∧
    ∃ new, list.save sampleTree "out/edges.json" = (.ok (), new) ∧
      new.read "out/edges.json" = .ok (.text "[]") := by
  intro list broken
  have ht : sampleTree.WellFormed := ⟨by decide, by decide, by decide, by decide⟩
  have htext : list.toText = "[]" := by decide
  have hdirectory : (FileStep.createDirectory "out").apply sampleTree = .ok sampleTree := rfl
  have hpart : [0x5B] <+: Text.Utf8.encode list.toText := by
    rw [htext]
    decide +kernel
  have hbroken : sampleTree.BreaksOff (steps "out/edges.json" list.toText) broken :=
    .after hdirectory (.during hpart rfl)
  have hatomic := (isAtomic_save ht "out/edges.json").1 list
  have hkept := hatomic.untouched broken hbroken (by decide)
  have hsave : list.save sampleTree "out/edges.json" =
      (.ok (), (list.save sampleTree "out/edges.json").2) := by
    refine Prod.ext ?_ rfl
    rfl
  refine ⟨ht, hbroken, hkept, _, hsave, ?_⟩
  rw [← htext]
  exact hatomic.read _ hsave

/-- What is published under a path that goes up again may fail and leave a directory there. -/
theorem directory_of_save : let list := Graph.EdgeList.ofEdges []
    let outcome := list.save FileTree.empty "a/../a"
    FileTree.empty.WellFormed ∧ FileTree.empty.contains "a/../a" = false ∧
      FileTree.empty.get? (Path.place "a/../a") = none ∧ outcome.1 = .error .isDirectory ∧
      outcome.2.isDirectory "a/../a" = true ∧
      outcome.2.get? (Path.place "a/../a") = some .directory := by
  exact ⟨FileTree.wellFormed_empty, by decide, by decide, rfl, by decide, by decide⟩

end Publication

end CodeAtlas
