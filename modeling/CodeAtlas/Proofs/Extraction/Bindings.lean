import CodeAtlas.Extraction.Bindings
import CodeAtlas.Proofs.Resolution

/-!
# What names are bound to

An import introduces names, and resolves each of them to a file or to none. A name is bound to what
the first of these introductions that leads to another file leads to. The table of bindings, which
is made from the links of the imports, says just that.
-/

namespace CodeAtlas.Extraction

open Syntax (Import ImportedName Outline)

/-! ## Introductions -/

/-- The names an import introduces, each with the file it resolves to. -/
def introductions (tree : SourceTree) (file : String) : Import → List (String × Option String)
  | .modules names => names.map fun name => (name.bound, tree.resolve? name.text)
  | .members 0 (some module) names => names.map fun name => (name.bound, tree.resolve? module)
  | .members level (some module) names =>
      names.map fun name => (name.bound, tree.resolveRelative? file level (some module))
  | .members level none names =>
      names.map fun name => (name.bound, tree.resolveRelative? file level (some name.text) <|>
        tree.resolveRelative? file level none)

/-- A name is bound to a file: of the imports that introduce it, in document order, the first that
leads to a file other than the importing one leads there. -/
def Binds (tree : SourceTree) (file : String) (outline : Outline) (name target : String) : Prop :=
  ∃ before after, outline.imports.flatMap (introductions tree file) =
      before ++ (name, some target) :: after ∧
    target ≠ file ∧ ∀ entry ∈ before, entry.1 = name → entry.2 = none ∨ entry.2 = some file

/-- A symbol comes from a file: its name is bound to it, or its name is not bound and its qualifier
is bound to it as it stands. -/
def ComesFrom (tree : SourceTree) (file : String) (outline : Outline) (symbol : Symbol)
    (target : String) : Prop :=
  Binds tree file outline symbol.name target ∨
    (∀ other, ¬ Binds tree file outline symbol.name other) ∧
      ∃ qualifier, symbol.qualifier = some qualifier ∧ Binds tree file outline qualifier target

/-! ## Links -/

theorem orElse_eq_some_iff {α : Type} {first second : Option α} {value : α} :
    (first <|> second) = some value ↔ first = some value ∨ first = none ∧ second = some value := by
  simp

theorem linkTo_eq_some_iff {file : String} {names : List String} {target : Option String}
    {link : Link} : linkTo file names target = some link ↔
      target = some link.target ∧ link.target ≠ file ∧ link.names = names := by
  obtain ⟨place, bound⟩ := link
  simp only [linkTo, Option.map_eq_some_iff, Option.filter_eq_some_iff, decide_eq_true_eq,
    Link.mk.injEq]
  constructor
  · intro h
    obtain ⟨other, ⟨ho, hne⟩, rfl, rfl⟩ := h
    exact ⟨ho, hne, rfl⟩
  · intro h
    obtain ⟨ho, hne, rfl⟩ := h
    exact ⟨place, ⟨ho, hne⟩, rfl, rfl⟩

theorem contains_of_mem_linksOf {tree : SourceTree} {file : String} {imported : Import}
    {link : Link} (h : link ∈ linksOf tree file imported) :
    tree.Contains link.target ∧ link.target ≠ file := by
  unfold linksOf at h
  split at h
  · obtain ⟨name, -, hl⟩ := List.mem_filterMap.1 h
    obtain ⟨ht, hne, -⟩ := linkTo_eq_some_iff.1 hl
    exact ⟨SourceTree.contains_of_resolve? ht, hne⟩
  · obtain ⟨ht, hne, -⟩ := linkTo_eq_some_iff.1 (Option.mem_toList.1 h)
    split at ht
    · exact ⟨SourceTree.contains_of_resolve? ht, hne⟩
    · exact ⟨SourceTree.contains_of_resolveRelative? ht, hne⟩
  · obtain ⟨name, -, hl⟩ := List.mem_filterMap.1 h
    obtain ⟨ht, hne, -⟩ := linkTo_eq_some_iff.1 hl
    rcases orElse_eq_some_iff.1 ht with ht | ⟨-, ht⟩ <;>
      exact ⟨SourceTree.contains_of_resolveRelative? ht, hne⟩

theorem contains_of_mem_links {tree : SourceTree} {file : String} {outline : Outline} {link : Link}
    (h : link ∈ links tree file outline) : tree.Contains link.target ∧ link.target ≠ file := by
  obtain ⟨imported, -, hl⟩ := List.mem_flatMap.1 h
  exact contains_of_mem_linksOf hl

theorem exists_link_of_target? {links : List Link} {name target : String}
    (h : (bindingsOf links).target? name = some target) : ∃ link ∈ links, link.target = target := by
  have hm : (name, target) ∈ bindingsOf links := by
    obtain ⟨before, after, he, -⟩ := List.lookup_eq_some_iff.1 h
    simp [he]
  obtain ⟨link, hl, hb⟩ := List.mem_flatMap.1 hm
  obtain ⟨bound, -, he⟩ := List.mem_map.1 hb
  exact ⟨link, hl, congrArg Prod.snd he⟩

theorem exists_link_of_lookup {links : List Link} {symbol : Symbol} {target : String}
    (h : (bindingsOf links).lookup symbol = some target) :
    ∃ link ∈ links, link.target = target := by
  rcases orElse_eq_some_iff.1 h with h | ⟨-, h⟩
  · exact exists_link_of_target? h
  · obtain ⟨qualifier, -, hq⟩ := Option.bind_eq_some_iff.1 h
    exact exists_link_of_target? hq

/-! ## The table -/

/-- The binding an introduction makes, where it makes one. -/
def bindingOf (file : String) (entry : String × Option String) : Option (String × String) :=
  (entry.2.filter (· ≠ file)).map fun target => (entry.1, target)

theorem bindingOf_eq_some_iff {file name target : String} {entry : String × Option String} :
    bindingOf file entry = some (name, target) ↔ entry = (name, some target) ∧ target ≠ file := by
  obtain ⟨bound, place⟩ := entry
  simp only [bindingOf, Option.map_eq_some_iff, Option.filter_eq_some_iff, decide_eq_true_eq,
    Prod.mk.injEq]
  constructor
  · intro h
    obtain ⟨other, ⟨ho, hne⟩, rfl, rfl⟩ := h
    exact ⟨⟨rfl, ho⟩, hne⟩
  · intro h
    obtain ⟨⟨rfl, ho⟩, hne⟩ := h
    exact ⟨target, ⟨ho, hne⟩, rfl, rfl⟩

theorem bindingOf_eq_none_iff {file : String} {entry : String × Option String} :
    bindingOf file entry = none ↔ entry.2 = none ∨ entry.2 = some file := by
  obtain ⟨bound, place⟩ := entry
  cases place <;> simp [bindingOf]

theorem bindingsOf_filterMap_linkTo (file : String) (names : List ImportedName)
    (follow : ImportedName → Option String) :
    bindingsOf (names.filterMap fun name => linkTo file [name.bound] (follow name)) =
      (names.map fun name => (name.bound, follow name)).filterMap (bindingOf file) := by
  induction names with
  | nil => rfl
  | cons name rest ih =>
      rw [List.map_cons, List.filterMap_cons, List.filterMap_cons, ← ih]
      simp only [linkTo, bindingOf]
      cases (follow name).filter (· ≠ file) <;> rfl

theorem bindingsOf_linkTo (file : String) (names : List ImportedName) (target : Option String) :
    bindingsOf (linkTo file (names.map ImportedName.bound) target).toList =
      (names.map fun name => (name.bound, target)).filterMap (bindingOf file) := by
  rw [List.filterMap_map]
  simp only [linkTo, bindingOf, Function.comp_def]
  cases target.filter (· ≠ file) <;> simp [bindingsOf]

theorem bindingsOf_linksOf (tree : SourceTree) (file : String) (imported : Import) :
    bindingsOf (linksOf tree file imported) =
      (introductions tree file imported).filterMap (bindingOf file) := by
  cases imported with
  | modules names => exact bindingsOf_filterMap_linkTo file names _
  | members level module names =>
      cases module with
      | none => cases level <;> exact bindingsOf_filterMap_linkTo file names _
      | some module => cases level <;> exact bindingsOf_linkTo file names _

theorem bindingsOf_links (tree : SourceTree) (file : String) (outline : Outline) :
    bindingsOf (links tree file outline) =
      (outline.imports.flatMap (introductions tree file)).filterMap (bindingOf file) := by
  rw [links, bindingsOf, List.flatMap_assoc, List.filterMap_flatMap]
  congr 1
  funext imported
  exact bindingsOf_linksOf tree file imported

theorem target?_eq_some_iff {tree : SourceTree} {file name target : String} {outline : Outline} :
    (bindingsOf (links tree file outline)).target? name = some target ↔
      Binds tree file outline name target := by
  rw [Bindings.target?, bindingsOf_links, List.lookup_eq_some_iff]
  constructor
  · intro h
    obtain ⟨first, rest, he, hfirst⟩ := h
    obtain ⟨before, after', hb, hfb, hc⟩ := List.filterMap_eq_append_iff.1 he
    obtain ⟨skipped, entry, after, ha, hs, hentry, -⟩ := List.filterMap_eq_cons_iff.1 hc
    obtain ⟨rfl, hne⟩ := bindingOf_eq_some_iff.1 hentry
    refine ⟨before ++ skipped, after, by simp [hb, ha], hne, fun other hm hname => ?_⟩
    rw [← bindingOf_eq_none_iff]
    rcases List.mem_append.1 hm with hm | hm
    · refine Option.eq_none_iff_forall_ne_some.2 fun binding hbinding => ?_
      obtain ⟨rfl, -⟩ := bindingOf_eq_some_iff.1 hbinding
      simpa [← hname] using hfirst binding (hfb ▸ List.mem_filterMap.2 ⟨_, hm, hbinding⟩)
    · exact hs other hm
  · intro h
    obtain ⟨before, after, he, hne, hbefore⟩ := h
    refine ⟨before.filterMap (bindingOf file), after.filterMap (bindingOf file), ?_, ?_⟩
    · rw [he, List.filterMap_append, List.filterMap_cons_some (bindingOf_eq_some_iff.2 ⟨rfl, hne⟩)]
    · intro binding hm
      obtain ⟨entry, hentry, hbinding⟩ := List.mem_filterMap.1 hm
      have hsome : bindingOf file entry ≠ none := by simp [hbinding]
      rw [Ne, bindingOf_eq_none_iff] at hsome
      obtain ⟨rfl, -⟩ := bindingOf_eq_some_iff.1 hbinding
      exact bne_iff_ne.2 fun hname => hsome (hbefore _ hentry hname.symm)

theorem lookup_eq_some_iff {tree : SourceTree} {file target : String} {outline : Outline}
    {symbol : Symbol} : (bindingsOf (links tree file outline)).lookup symbol = some target ↔
      ComesFrom tree file outline symbol target := by
  rw [Bindings.lookup, orElse_eq_some_iff, Option.bind_eq_some_iff, target?_eq_some_iff,
    Option.eq_none_iff_forall_ne_some]
  simp only [Ne, target?_eq_some_iff, ComesFrom]

end CodeAtlas.Extraction
