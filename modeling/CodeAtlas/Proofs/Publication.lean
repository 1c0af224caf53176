import CodeAtlas.Proofs.WellFormed
import CodeAtlas.Publication

/-!
# Published files

A text that has been published under a path is what is read there. Whether it can be published
depends on the path alone, and where one was published another one can be published over it.
-/

namespace CodeAtlas.FileTree

variable {tree middle new : FileTree} {path text : String} {trail place : Trail}

theorem run_append (tree : FileTree) (first second : List FileStep) :
    tree.run (first ++ second) =
      match tree.run first with
      | (.ok _, middle) => middle.run second
      | (.error cause, middle) => (.error cause, middle) := by
  induction first generalizing tree with
  | nil => rfl
  | cons step rest ih =>
      rw [List.cons_append, run, run]
      cases step.apply tree with
      | error cause => rfl
      | ok middle => exact ih middle

theorem run_cons_eq_ok {step : FileStep} {rest : List FileStep}
    (h : tree.run (step :: rest) = (.ok (), new)) :
    ∃ middle, step.apply tree = .ok middle ∧ middle.run rest = (.ok (), new) := by
  rw [run] at h
  cases hs : step.apply tree with
  | error cause => simp [hs] at h
  | ok middle => exact ⟨middle, rfl, by simpa [hs] using h⟩

theorem read_publish (h : tree.publish path text = (.ok (), new)) :
    new.read path = .ok (.text text) := by
  rw [publish, Publication.steps, run_append] at h
  rcases hd : tree.run ((Path.ancestors path).map .createDirectory) with ⟨cause | _, ready⟩
  · simp [hd] at h
  · rw [hd] at h
    obtain ⟨written, hw, h⟩ := run_cons_eq_ok h
    obtain ⟨renamed, hr, h⟩ := run_cons_eq_ok h
    obtain rfl : renamed = new := (Prod.mk.inj h).2
    exact read_rename hr (read_write hw)

theorem exists_publish (h : tree.publish path text = (.ok (), new)) (other : String) :
    ∃ published, tree.publish path other = (.ok (), published) := by
  rw [publish, Publication.steps, run_append] at h ⊢
  rcases hd : tree.run ((Path.ancestors path).map .createDirectory) with ⟨cause | _, ready⟩
  · simp [hd] at h
  · simp only [hd] at h ⊢
    obtain ⟨written, hw, h⟩ := run_cons_eq_ok h
    obtain ⟨renamed, hr, -⟩ := run_cons_eq_ok h
    obtain ⟨trail, hl, hdirectory, rfl⟩ := eq_of_write hw
    obtain ⟨published, hpublished⟩ := exists_rename_put_file hl hdirectory hr (.text other)
    have hwrite : ready.write (Publication.sibling path) (.text other) =
        .ok (ready.put trail (.file (.text other))) := write_eq hl hdirectory _
    refine ⟨published, ?_⟩
    simp only [run, FileStep.apply, hwrite, hpublished]

/-! ## Publishing again -/

/-- What is open in one tree is a directory in another one. -/
def StaysOpen (tree new : FileTree) : Prop :=
  ∀ trail, tree.Opens trail → new.isDirectoryAt trail = true

theorem StaysOpen.opens (h : tree.StaysOpen new) (ho : tree.Opens trail) : new.Opens trail :=
  fun front hf => h front fun before hb => ho before (hb.trans hf)

theorem StaysOpen.trans (h : tree.StaysOpen middle) (h' : middle.StaysOpen new) :
    tree.StaysOpen new := fun trail ho => h' trail (h.opens ho)

theorem staysOpen_put (hd : tree.isDirectoryAt trail = false) (entry : Entry) :
    tree.StaysOpen (tree.put trail entry) :=
  fun place ho => isDirectoryAt_put hd (ho place List.prefix_rfl) entry

theorem staysOpen_erase {content : Content} (hg : tree.get? trail = some (.file content)) :
    tree.StaysOpen (tree.erase trail) := by
  intro place ho
  have hfile : trail.isPrefixOf place = false := by
    refine Bool.eq_false_iff.2 fun hp => ?_
    have hdir := isDirectoryAt_iff.1 (ho trail (List.isPrefixOf_iff_prefix.1 hp))
    rw [hg] at hdir
    cases hdir
  rw [isDirectoryAt_iff, get?_erase hfile]
  exact isDirectoryAt_iff.1 (ho place List.prefix_rfl)

theorem isDirectoryAt_of_walk {names : List String} {here : Trail}
    (hhere : ∀ front, front <+: here → front ≠ here → tree.isDirectoryAt front = true)
    (hw : tree.walk here names = .ok place) :
    ∀ front, front <+: place → front ≠ place → tree.isDirectoryAt front = true := by
  induction names generalizing here with
  | nil =>
      cases hw
      exact hhere
  | cons name rest ih =>
      rw [walk] at hw
      cases hc : tree.checkDirectory here with
      | error cause => simp [hc, bind, Except.bind] at hw
      | ok _ =>
          have hopens : tree.Opens here := by
            intro front hf
            by_cases he : front = here
            · exact he ▸ checkDirectory_eq_ok_iff.1 hc
            · exact hhere front hf he
          simp only [hc, bind, Except.bind] at hw
          by_cases hdot : name = "."
          · rw [if_pos hdot] at hw
            exact ih hhere hw
          rw [if_neg hdot] at hw
          by_cases hup : name = ".."
          · rw [if_pos hup] at hw
            by_cases htop : here = []
            · simp [htop, throw, throwThe, MonadExceptOf.throw] at hw
            rw [if_neg htop] at hw
            exact ih (fun front hf _ => hopens front (hf.trans (List.dropLast_prefix here))) hw
          rw [if_neg hup] at hw
          by_cases hlong : nameLimit < name.utf8ByteSize
          · simp [hlong, throw, throwThe, MonadExceptOf.throw] at hw
          rw [if_neg hlong] at hw
          refine ih (fun front hf hne => hopens front ?_) hw
          exact (List.prefix_concat_iff.1 hf).resolve_left hne

theorem opens_of_locate (hl : tree.locate path = .ok place)
    (hd : tree.isDirectoryAt place = true) : tree.Opens place := by
  obtain ⟨-, -, -, hwalk⟩ := locate_eq_ok_iff.1 hl
  intro front hf
  by_cases he : front = place
  · exact he ▸ hd
  · refine isDirectoryAt_of_walk (fun before hb hne => ?_) hwalk front hf he
    exact absurd (List.prefix_nil.1 hb) hne

theorem createDirectory_eq_self (hl : tree.locate path = .ok place)
    (hd : tree.isDirectoryAt place = true) : tree.createDirectory path = .ok tree := by
  simp [createDirectory, hl, isDirectoryAt_iff.1 hd, bind, Except.bind, pure, Except.pure]

theorem run_createDirectories {parents : List String}
    (h : tree.run (parents.map .createDirectory) = (.ok (), middle)) :
    tree.StaysOpen middle ∧ ∀ new, middle.StaysOpen new →
      new.run (parents.map .createDirectory) = (.ok (), new) := by
  induction parents generalizing tree with
  | nil =>
      cases h
      exact ⟨fun trail ho => ho trail List.prefix_rfl, fun new _ => rfl⟩
  | cons parent rest ih =>
      obtain ⟨made, hmade, hrest⟩ := run_cons_eq_ok h
      obtain ⟨hmiddle, hagain⟩ := ih hrest
      obtain ⟨place, hl, hplace⟩ := eq_of_createDirectory hmade
      have hkept : tree.StaysOpen made ∧ made.locate parent = .ok place ∧
          made.isDirectoryAt place = true := by
        rcases hplace with ⟨hd, rfl⟩ | ⟨hnone, rfl⟩
        · exact ⟨fun trail ho => ho trail List.prefix_rfl, hl, hd⟩
        · have hd : tree.isDirectoryAt place = false := by simp [isDirectoryAt, hnone]
          exact ⟨staysOpen_put hd _, locate_put hl hd _,
            isDirectoryAt_iff.2 (get?_put_self (ne_nil_of_isDirectoryAt_eq_false hd) _ _)⟩
      obtain ⟨hmade, hl, hd⟩ := hkept
      refine ⟨hmade.trans hmiddle, fun new hnew => ?_⟩
      have hopen := hmiddle.trans hnew
      have hsame :=
        createDirectory_eq_self (locate_congr hopen hl) (hopen place (opens_of_locate hl hd))
      rw [List.map_cons, run, FileStep.apply, hsame]
      exact hagain new hnew

theorem getLast?_ne_of_rename {target : String} (h : tree.rename path target = .ok new) :
    target.toList.getLast? ≠ some '/' := by
  intro hslash
  obtain ⟨content, hread⟩ := exists_read_of_rename h
  obtain ⟨source, hl, -⟩ := read_eq_ok_iff.1 hread
  simp [rename, hl, hread, hslash, bind, Except.bind, throw, throwThe, MonadExceptOf.throw] at h

theorem rename_eq {content : Content} {target : String} (hl : tree.locate path = .ok trail)
    (hread : tree.read path = .ok content) (hslash : target.toList.getLast? ≠ some '/')
    (ht : tree.locate target = .ok place) (hd : tree.isDirectoryAt place = false) :
    ∃ renamed, tree.rename path target = .ok renamed := by
  by_cases hsame : trail = place <;>
    simp [rename, hl, hread, hslash, ht, hd, hsame, bind, Except.bind, pure, Except.pure]

theorem isDirectoryAt_erase (htop : trail ≠ []) (hplace : tree.isDirectoryAt place = false) :
    (tree.erase trail).isDirectoryAt place = false := by
  by_cases hp : trail <+: place
  · have hpne : place ≠ [] := fun hnil => htop (List.prefix_nil.1 (hnil ▸ hp))
    simp [isDirectoryAt, get?_erase_of_isPrefix hp hpne]
  · have hpf : trail.isPrefixOf place = false := by
      simpa [← List.isPrefixOf_iff_prefix] using hp
    rw [isDirectoryAt, get?_erase hpf]
    exact hplace

/-- What was open before a file was renamed is open after it; the file stands at its new place, and
at the old one stands no directory. -/
theorem staysOpen_of_rename {source : String} {content : Content}
    (hl : tree.locate source = .ok trail) (hread : tree.read source = .ok content)
    (htop : trail ≠ []) (h : tree.rename source path = .ok new) :
    tree.StaysOpen new ∧ new.isDirectoryAt trail = false ∧
      ∃ place, tree.locate path = .ok place ∧ new.get? place = some (.file content) := by
  obtain ⟨trail', place, hl', hg, ht, hplace, hnew⟩ := eq_of_rename h hread
  obtain rfl : trail = trail' := Except.ok.inj (hl.symm.trans hl')
  rcases hnew with ⟨rfl, rfl⟩ | ⟨hne, rfl⟩
  · exact ⟨fun front ho => ho front List.prefix_rfl, hplace, trail, ht, hg⟩
  · have herased := isDirectoryAt_erase htop hplace
    refine ⟨(staysOpen_erase hg).trans (staysOpen_put herased _), ?_, place, ht,
      get?_put_self (ne_nil_of_isDirectoryAt_eq_false hplace) _ _⟩
    rw [isDirectoryAt, get?_put_of_ne hne, get?_erase_of_isPrefix List.prefix_rfl htop]
    rfl

theorem exists_rename_again {source : String} {content : Content}
    (hl : tree.locate source = .ok trail) (hd : tree.isDirectoryAt trail = false)
    (h : (tree.put trail (.file content)).rename source path = .ok new) (other : Content) :
    tree.StaysOpen new ∧ ∃ written renamed, new.write source other = .ok written ∧
      written.rename source path = .ok renamed := by
  have htop := ne_nil_of_isDirectoryAt_eq_false hd
  have hput : (tree.put trail (.file content)).locate source = .ok trail := locate_put hl hd _
  have hread := read_write (write_eq hl hd content)
  obtain ⟨hopen, hfree, place, ht, hfile⟩ := staysOpen_of_rename hput hread htop h
  have hnew := locate_congr hopen hput
  have hwrite := write_eq hnew hfree other
  have hplace : (new.put trail (.file other)).isDirectoryAt place = false := by
    by_cases he : place = trail
    · rw [isDirectoryAt, he, get?_put_self htop]
      rfl
    · rw [isDirectoryAt, get?_put_of_ne he, hfile]
      rfl
  obtain ⟨renamed, hrenamed⟩ := rename_eq (locate_put hnew hfree _) (read_write hwrite)
    (getLast?_ne_of_rename h)
    ((locate_put_file_iff hfree _).2 (locate_congr hopen ht)) hplace
  exact ⟨(staysOpen_put hd _).trans hopen, _, renamed, hwrite, hrenamed⟩

theorem exists_publish_again (h : tree.publish path text = (.ok (), new)) (other : String) :
    ∃ published, new.publish path other = (.ok (), published) := by
  rw [publish, Publication.steps, run_append] at h
  rcases hready : tree.run ((Path.ancestors path).map .createDirectory) with ⟨cause | _, ready⟩
  · simp [hready] at h
  · rw [hready] at h
    obtain ⟨written, hw, h⟩ := run_cons_eq_ok h
    obtain ⟨renamed, hr, h⟩ := run_cons_eq_ok h
    obtain rfl : renamed = new := (Prod.mk.inj h).2
    obtain ⟨trail, hl, hd, rfl⟩ := eq_of_write hw
    obtain ⟨hopen, rewritten, published, hwrite, hrename⟩ :=
      exists_rename_again hl hd hr (.text other)
    refine ⟨published, ?_⟩
    have hagain := (run_createDirectories hready).2 renamed hopen
    rw [publish, Publication.steps, run_append, hagain]
    simp only [run, FileStep.apply, hwrite, hrename]

end CodeAtlas.FileTree
