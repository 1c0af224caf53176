import CodeAtlas.Navigator
import CodeAtlas.Proofs.Naming
import CodeAtlas.Proofs.Scan
import CodeAtlas.Proofs.Text.Blank

/-!
# Paths that are looked up

A navigator takes a path as it may be typed: with blanks around it, with backslashes, and behind
steps that stay where they are. Blanks go first and steps afterwards, each once, so a blank behind a
step belongs to the name that follows. Exactly these spellings lead to a path; a path that begins
with a blank needs a step before it, and one that begins with a step has no spelling.
-/

namespace CodeAtlas

namespace Navigator

open Text (AreBlank IsTrimmed isBlank trimChars trimChars_eq_iff)

/-! ## Steps that stay -/

def slashed (char : Char) : Char := if char = '\\' then '/' else char

def steps (count : Nat) : List Char := (List.replicate count ['.', '/']).flatten

theorem steps_succ (count : Nat) : steps (count + 1) = '.' :: '/' :: steps count := rfl

theorem strip_of_not_step {chars : List Char} (h : ¬ ['.', '/'] <+: chars) :
    normalize.strip chars = chars := by
  unfold normalize.strip
  split
  · next rest => exact absurd (by simp) h
  · rfl

theorem strip_steps (count : Nat) (chars : List Char) :
    normalize.strip (steps count ++ chars) = normalize.strip chars := by
  induction count with
  | zero => rfl
  | succ count ih =>
      rw [steps_succ, List.cons_append, List.cons_append, normalize.strip, ih]

theorem strip_eq_iff {chars rest : List Char} : normalize.strip chars = rest ↔
    ¬ ['.', '/'] <+: rest ∧ ∃ count, chars = steps count ++ rest := by
  constructor
  · rintro rfl
    induction chars using normalize.strip.induct with
    | case1 rest ih =>
        obtain ⟨hrest, count, hcount⟩ := ih
        rw [normalize.strip]
        exact ⟨hrest, count + 1, by rw [steps_succ, List.cons_append, List.cons_append, ← hcount]⟩
    | case2 rest hne =>
        have hrest : ¬ ['.', '/'] <+: rest := fun ⟨tail, ht⟩ => hne tail ht.symm
        rw [strip_of_not_step hrest]
        exact ⟨hrest, 0, rfl⟩
  · rintro ⟨hrest, count, rfl⟩
    rw [strip_steps, strip_of_not_step hrest]

/-! ## Spellings -/

/-- A text that is a path behind a number of steps, with blanks around all of it and with either
slash. -/
def Spells (path : String) (count : Nat) (text : String) : Prop :=
  ∃ front back, text.toList.map slashed = front ++ (steps count ++ path.toList) ++ back ∧
    AreBlank front ∧ AreBlank back

/-- A path that has a spelling: no step stands in front of it, and no blank at its end. -/
structure IsPlain (path : String) : Prop where
  front : ¬ ['.', '/'] <+: path.toList
  back : ∀ char ∈ path.toList.getLast?, isBlank char = false

def BeginsBlank (path : String) : Prop := ∃ char ∈ path.toList.head?, isBlank char = true

@[simp] theorem isBlank_slashed (char : Char) : isBlank (slashed char) = isBlank char := by
  rw [slashed]
  split
  · next h => rw [h]; rfl
  · rfl

theorem map_slashed_trimChars (chars : List Char) :
    (trimChars chars).map slashed = trimChars (chars.map slashed) := by
  have hblank : isBlank ∘ slashed = isBlank := funext isBlank_slashed
  have hdrop (chars : List Char) :
      (chars.map slashed).dropWhile isBlank = (chars.dropWhile isBlank).map slashed := by
    rw [List.dropWhile_map, hblank]
  rw [trimChars, trimChars, hdrop, ← List.map_reverse, hdrop, List.map_reverse]

theorem isTrimmed_steps_append {count : Nat} {chars : List Char} :
    IsTrimmed (steps count ++ chars) ↔ (∀ char ∈ chars.getLast?, isBlank char = false) ∧
      (count = 0 → ∀ char ∈ chars.head?, isBlank char = false) := by
  cases count with
  | zero => exact ⟨fun h => ⟨h.last, fun _ => h.head⟩, fun h => ⟨h.2 rfl, h.1⟩⟩
  | succ count =>
      have hlast : (steps (count + 1) ++ chars).getLast? = chars.getLast?.or (some '/') := by
        rw [steps, List.replicate_succ', List.flatten_concat, List.getLast?_append,
          List.getLast?_append]
        rfl
      have hslash : isBlank '/' = false := by decide
      have hpoint : isBlank '.' = false := by decide
      constructor
      · intro h
        refine ⟨fun char hm => h.last char ?_, fun hz => by cases hz⟩
        rw [hlast, Option.mem_def.1 hm]
        rfl
      · rintro ⟨hback, -⟩
        refine ⟨fun char hm => ?_, fun char hm => ?_⟩
        · obtain rfl : '.' = char := Option.some.inj hm
          exact hpoint
        · rw [hlast] at hm
          cases hc : chars.getLast? with
          | none =>
              rw [hc] at hm
              obtain rfl : '/' = char := Option.some.inj hm
              exact hslash
          | some last =>
              rw [hc] at hm
              exact hback char (hc.trans hm)

theorem normalize_eq_iff {text path : String} : normalize text = path ↔ IsPlain path ∧
    ∃ count, Spells path count text ∧ (BeginsBlank path → count ≠ 0) := by
  have htext : normalize text = path ↔
      normalize.strip (trimChars (text.toList.map slashed)) = path.toList := by
    rw [← map_slashed_trimChars, ← String.toList_inj, normalize, String.toList_ofList]
    rfl
  rw [htext, strip_eq_iff]
  simp only [trimChars_eq_iff, isTrimmed_steps_append]
  constructor
  · rintro ⟨hfront, count, ⟨hback, hhead⟩, hspells⟩
    refine ⟨⟨hfront, hback⟩, count, hspells, ?_⟩
    rintro ⟨char, hm, hblank⟩ hzero
    rw [hhead hzero char hm] at hblank
    cases hblank
  · rintro ⟨⟨hfront, hback⟩, count, hspells, hblank⟩
    refine ⟨hfront, count, ⟨hback, fun hzero char hm => ?_⟩, hspells⟩
    by_contra h
    exact hblank ⟨char, hm, by simpa using h⟩ hzero

theorem isPlain_normalize (text : String) : IsPlain (normalize text) := (normalize_eq_iff.1 rfl).1

theorem not_mem_normalize (text : String) : '\\' ∉ (normalize text).toList := by
  obtain ⟨-, count, ⟨front, back, hmap, -⟩, -⟩ := normalize_eq_iff.1 (Eq.refl (normalize text))
  intro hm
  have hmem : '\\' ∈ text.toList.map slashed := by simp [hmap, hm]
  obtain ⟨char, -, hchar⟩ := List.mem_map.1 hmem
  rw [slashed] at hchar
  split at hchar
  · cases hchar
  · next hne => exact hne hchar

theorem map_slashed_of_not_mem {chars : List Char} (h : '\\' ∉ chars) :
    chars.map slashed = chars := by
  refine (List.map_congr_left fun char hm => if_neg ?_).trans (List.map_id' _)
  rintro rfl
  exact h hm

/-- A path without backslashes leads to itself unless it begins with a blank or has no spelling. -/
theorem normalize_eq_self_iff {path : String} (h : '\\' ∉ path.toList) :
    normalize path = path ↔ IsPlain path ∧ ¬ BeginsBlank path := by
  have hmap := map_slashed_of_not_mem h
  rw [normalize_eq_iff]
  refine and_congr_right fun _ => ⟨?_, fun hblank => ?_⟩
  · rintro ⟨count, ⟨front, back, hspells, -⟩, hcount⟩ hblank
    -- Nothing stands around a path that is as long as its spelling.
    have hlength := congrArg List.length hspells
    rw [hmap, List.length_append, List.length_append, List.length_append] at hlength
    refine hcount hblank ?_
    have hsteps : (steps count).length = 2 * count := by simp [steps, Nat.mul_comm]
    omega
  · refine ⟨0, ⟨[], [], ?_, (fun _ hm => by cases hm), (fun _ hm => by cases hm)⟩,
      fun hb => absurd hb hblank⟩
    rw [hmap, List.append_nil]
    rfl

/-! ## Lookups -/

/-- The question about a text is the one that the graph is asked about a path. -/
def LooksUp (text path : String) : Prop :=
  ∀ (σ η : Type) (around : Surroundings σ η) (direction : Graph.Direction),
    neighbors around text direction = withGraph around (around.neighbors path direction)

/-- Surroundings in which each path is its own neighbour. -/
def echo : Surroundings Unit Unit where
  files _ := {}
  openGraph := pure ()
  neighbors path _ := pure [⟨path, .imports, .outgoing⟩]
  stats := Action.ofResult (.error (.invalidArgument "nothing is counted"))
  close := pure ()

theorem looksUp_iff {text path : String} :
    LooksUp text path ↔ normalize text = path ∧ path ≠ "" := by
  constructor
  · intro h
    have hecho := congrArg (fun action => (action.perform (⟨"", none, none⟩, ())).1)
      (h Unit Unit echo .both)
    rw [neighbors] at hecho
    by_cases hempty : normalize text = ""
    · rw [if_pos hempty] at hecho
      cases hecho
    · rw [if_neg hempty] at hecho
      have hrows : [(⟨normalize text, .imports, .outgoing⟩ : Graph.Neighbor)] =
          [⟨path, .imports, .outgoing⟩] := Except.ok.inj hecho
      obtain rfl : normalize text = path := congrArg Graph.Neighbor.file (List.cons.inj hrows).1
      exact ⟨rfl, hempty⟩
  · rintro ⟨rfl, hempty⟩ σ η around direction
    rw [neighbors, if_neg hempty]

end Navigator

/-! ## Ends of paths -/

namespace Path

variable {path name : String}

theorem getLast?_of_fileName? (h : fileName? path = some name) :
    path.toList.getLast? = name.toList.getLast? ∨ path.toList.getLast? = some '/' ∨
      path.toList.getLast? = some '.' := by
  have hlast := (fileName?_eq_some_iff.1 h).1
  by_cases hm : '/' ∈ path.toList
  · obtain ⟨front, last, rfl, hslash⟩ := exists_append_slash_append hm
    rw [steps_append_slash, steps_of_not_mem hslash] at hlast
    by_cases hempty : last = ""
    · simp [hempty]
    by_cases hpoint : last = "."
    · simp [hpoint]
    rw [if_neg (not_or.2 ⟨hempty, hpoint⟩), List.getLast?_concat] at hlast
    obtain rfl := Option.some.inj hlast
    refine .inl ?_
    rw [String.toList_append, List.getLast?_append,
      List.getLast?_eq_some_getLast (by simpa using hempty)]
    rfl
  · rw [steps_of_not_mem hm] at hlast
    split at hlast
    · cases hlast
    · obtain rfl : path = name := Option.some.inj hlast
      exact .inl rfl

theorem suffix_of_divideName {extension : String}
    (h : (divideName name).2 = some extension) : extension.toList <:+ name.toList := by
  rcases divideName_cases name with hname | ⟨stem, other, hname, hdivided, -⟩
  · rw [hname] at h
    cases h
  · rw [hname] at h
    obtain rfl : other = extension := Option.some.inj h
    rw [hdivided, String.toList_append]
    exact List.suffix_append _ _

end Path

namespace Scan

variable {tree : FileTree} {language : Language} {root path : String}

theorem exists_names_of_mem_scan (hm : path ∈ tree.scan language root) : path = "" ∨
    ∃ names, language.isSource ("/".intercalate names) = true ∧ path = display names := by
  rw [FileTree.scan] at hm
  split at hm
  · cases hm
  split at hm
  · cases hm
  split at hm
  · cases hm
  · split at hm
    · exact .inl (List.mem_singleton.1 hm)
    · cases hm
  · obtain ⟨⟨names, content⟩, -, hfound⟩ := List.mem_filterMap.1 (List.mem_mergeSort.1 hm)
    dsimp only at hfound
    split at hfound
    · next hcond =>
        simp only [Bool.and_eq_true] at hcond
        exact .inr ⟨names, hcond.1.1, (Option.some.inj hfound).symm⟩
    · cases hfound

theorem not_mem_of_mem_scan (hm : path ∈ tree.scan language root) : '\\' ∉ path.toList := by
  rcases exists_names_of_mem_scan hm with rfl | ⟨names, -, rfl⟩
  · simp
  · exact not_mem_display names

theorem getLast?_of_isSource_python (h : Language.python.isSource path = true) :
    ∃ name, Path.fileName? path = some name ∧ name.toList.getLast? = some 'y' := by
  rw [Language.isSource, Path.extension?, Option.any_eq_true] at h
  obtain ⟨extension, hextension, hpython⟩ := h
  obtain ⟨name, hname, hdivide⟩ := Option.bind_eq_some_iff.1 hextension
  obtain rfl := List.mem_singleton.1 (List.contains_iff_mem.1 hpython)
  obtain ⟨front, hfront⟩ := Path.suffix_of_divideName hdivide
  refine ⟨name, hname, ?_⟩
  rw [← hfront, List.getLast?_append]
  rfl

theorem isBlank_getLast?_of_mem_scan (hl : language ∈ Language.all)
    (hm : path ∈ tree.scan language root) :
    ∀ char ∈ path.toList.getLast?, Text.isBlank char = false := by
  obtain rfl := List.mem_singleton.1 hl
  rcases exists_names_of_mem_scan hm with rfl | ⟨names, hsource, rfl⟩
  · simp
  intro char hc
  obtain ⟨name, hname, hy⟩ := getLast?_of_isSource_python hsource
  rw [display, String.toList_map, List.getLast?_map] at hc
  obtain ⟨last, hlast, rfl⟩ := Option.map_eq_some_iff.1 hc
  change Text.isBlank (Navigator.slashed last) = false
  rw [Navigator.isBlank_slashed]
  rcases Path.getLast?_of_fileName? hname with h | h | h
  · obtain rfl : 'y' = last := Option.some.inj (hy.symm.trans (h.symm.trans hlast))
    decide
  · obtain rfl : '/' = last := Option.some.inj (h.symm.trans hlast)
    decide
  · obtain rfl : '.' = last := Option.some.inj (h.symm.trans hlast)
    decide

end Scan

/-! ## Scanned paths -/

namespace Navigator

/-- The texts that lead to a scanned path are its spellings, and the graph is asked about it for
these and no others. It is a spelling of itself unless it begins with a blank or with a step. What a
text leads to leads to itself unless it begins with a blank. -/
theorem spellings_of_scan (tree : FileTree) (language : Language) (root : String) :
    (∀ path ∈ tree.scan language root,
      (∀ text, normalize text = path ↔ IsPlain path ∧
        ∃ count, Spells path count text ∧ (BeginsBlank path → count ≠ 0)) ∧
      (∀ text, LooksUp text path ↔ normalize text = path ∧ path ≠ "") ∧
      (normalize path = path ↔ IsPlain path ∧ ¬ BeginsBlank path) ∧
      (language ∈ Language.all → (IsPlain path ↔ ¬ ['.', '/'] <+: path.toList))) ∧
    ∀ text, normalize (normalize text) = normalize text ↔ ¬ BeginsBlank (normalize text) := by
  refine ⟨fun path hm => ⟨fun text => normalize_eq_iff, fun text => looksUp_iff,
    normalize_eq_self_iff (Scan.not_mem_of_mem_scan hm), fun hl => ?_⟩, fun text => ?_⟩
  · exact ⟨IsPlain.front, fun hfront => ⟨hfront, Scan.isBlank_getLast?_of_mem_scan hl hm⟩⟩
  · rw [normalize_eq_self_iff (not_mem_normalize text), and_iff_right (isPlain_normalize text)]

/-- A module in a package, and a file whose name begins with a blank. -/
def blankTree : FileTree where
  entries := [([" a.py"], .file (.text "import b\n")), (["b.py"], .file (.text "")),
    (["pkg"], .directory), (["pkg", "c.py"], .file (.text ""))]

theorem mem_scan_blankTree {names : Trail} {path : String}
    (hm : names ∈ Scan.sources blankTree .python []) (hn : '\\' ∉ ("/".intercalate names).toList)
    (hp : "/".intercalate names = path) : path ∈ blankTree.scan .python "." := by
  rw [Scan.scan_of_directory (by decide) rfl (by decide), List.mem_mergeSort, ← hp,
    ← Scan.display_eq hn]
  exact List.mem_map_of_mem hm

theorem spellings_of_scan_blankTree :
    "pkg/c.py" ∈ blankTree.scan .python "." ∧ LooksUp " ././pkg\\c.py " "pkg/c.py" ∧
      " a.py" ∈ blankTree.scan .python "." ∧ LooksUp "./ a.py" " a.py" := by
  have hmodule : "pkg/c.py" ∈ blankTree.scan .python "." := mem_scan_blankTree
    (show ["pkg", "c.py"] ∈ _ by decide) (by decide) (by decide)
  have hblank : " a.py" ∈ blankTree.scan .python "." := mem_scan_blankTree
    (show [" a.py"] ∈ _ by decide) (by decide) (by decide)
  obtain ⟨-, hlooks, -⟩ := (spellings_of_scan blankTree .python ".").1 "pkg/c.py" hmodule
  obtain ⟨-, hlooks', -⟩ := (spellings_of_scan blankTree .python ".").1 " a.py" hblank
  exact ⟨hmodule, (hlooks _).2 ⟨by decide, by decide⟩, hblank,
    (hlooks' _).2 ⟨by decide, by decide⟩⟩

/-- A file whose name begins with a blank is not looked up by its path, and a blank behind a step is
taken away only the second time. -/
theorem not_looksUp_blankTree : " a.py" ∈ blankTree.scan .python "." ∧
    ¬ LooksUp " a.py" " a.py" ∧ LooksUp " a.py" "a.py" ∧
    normalize (normalize "./ a.py") ≠ normalize "./ a.py" := by
  refine ⟨mem_scan_blankTree (show [" a.py"] ∈ _ by decide) (by decide) (by decide), fun h => ?_,
    looksUp_iff.2 ⟨by decide, by decide⟩, by decide⟩
  exact absurd (looksUp_iff.1 h).1 (by decide)

end Navigator

end CodeAtlas
