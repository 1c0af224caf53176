import CodeAtlas.Proofs.Path
import CodeAtlas.Publication

/-!
# Names at the end of paths

The last name of a path, its stem and its extension are what the paths beside it and above it are
made from. A sibling takes the same steps but for the last one, whose name is another; a path above
takes fewer steps.
-/

namespace CodeAtlas.Path

variable {path name : String}

/-! ## Steps -/

theorem exists_append_slash_append (h : '/' ∈ path.toList) :
    ∃ front last, path = front ++ "/" ++ last ∧ '/' ∉ last.toList := by
  obtain ⟨back, front, hpath, hback⟩ := List.eq_append_cons_of_mem (List.mem_reverse.2 h)
  refine ⟨String.ofList front.reverse, String.ofList back.reverse, ?_, by simpa using hback⟩
  rw [← String.toList_inj, ← List.reverse_inj, hpath]
  simp

theorem steps_append_slash (front back : String) :
    steps (front ++ "/" ++ back) = steps front ++ steps back := by
  rw [steps, split_append_slash, List.filter_append]
  rfl

theorem steps_of_not_mem (h : '/' ∉ path.toList) :
    steps path = if path = "" ∨ path = "." then [] else [path] := by
  rw [steps, split_of_not_mem h]
  by_cases hempty : path = ""
  · simp [hempty]
  · by_cases hpoint : path = "."
    · simp [hpoint]
    · simp [hempty, hpoint]

theorem of_mem_steps (h : name ∈ steps path) : name ≠ "" ∧ name ≠ "." ∧ '/' ∉ name.toList := by
  obtain ⟨hm, hne⟩ := List.mem_filter.1 h
  simp only [Bool.and_eq_true, decide_eq_true_eq] at hne
  exact ⟨hne.1, hne.2, not_mem_of_mem_split hm⟩

theorem fileName?_eq_some_iff :
    fileName? path = some name ↔ (steps path).getLast? = some name ∧ name ≠ ".." := by
  rw [fileName?]
  split
  · next last hl =>
      rw [hl]
      split
      · next hup => simp [hup, eq_comm]
      · next hup =>
          constructor
          · rintro ⟨⟩
            exact ⟨rfl, hup⟩
          · exact fun h => h.1
  · next hl => simp [hl]

theorem fileName?_eq_none_iff :
    fileName? path = none ↔ steps path = [] ∨ (steps path).getLast? = some ".." := by
  rw [fileName?]
  split
  · next last hl =>
      have hne : steps path ≠ [] := by
        intro he
        rw [he] at hl
        cases hl
      split
      · next hup => simp [hl, hup]
      · next hup => simp [hl, hup, hne]
  · next hl => simp [List.getLast?_eq_none_iff.1 hl]

/-! ## Stems and extensions -/

theorem eq_takeWhile_append {keep : Char → Bool} {chars : List Char}
    (h : (chars.takeWhile keep).length ≠ chars.length) : ∃ char, keep char = false ∧
      chars = chars.takeWhile keep ++ char :: chars.drop ((chars.takeWhile keep).length + 1) := by
  induction chars with
  | nil => exact absurd rfl h
  | cons first rest ih =>
      cases hk : keep first with
      | false =>
          rw [List.takeWhile_cons_of_neg (by simp [hk])]
          exact ⟨first, hk, rfl⟩
      | true =>
          rw [List.takeWhile_cons_of_pos hk] at h ⊢
          obtain ⟨char, hchar, hrest⟩ := ih (by simpa using h)
          refine ⟨char, hchar, ?_⟩
          rw [List.cons_append, List.length_cons, List.drop_succ_cons, ← hrest]

theorem divideName_cases (name : String) : divideName name = (name, none) ∨
    ∃ stem extension, divideName name = (stem, some extension) ∧
      name = stem ++ "." ++ extension ∧ '.' ∉ extension.toList := by
  rw [divideName]
  split
  · exact .inl rfl
  · next hdivided =>
      rw [Bool.or_eq_true, not_or, decide_eq_true_eq] at hdivided
      obtain ⟨point, hpoint, hname⟩ := eq_takeWhile_append hdivided.1
      obtain rfl : point = '.' := by simpa using hpoint
      refine .inr ⟨_, _, rfl, ?_, fun hm => ?_⟩
      · rw [← String.toList_inj, ← List.reverse_inj]
        refine hname.trans ?_
        simp
      · rw [String.toList_ofList, List.mem_reverse] at hm
        simpa using List.all_eq_true.1 List.all_takeWhile _ hm

theorem stem_append_ne (name : String) : (divideName name).1 ++ ".json.tmp" ≠ name := by
  rcases divideName_cases name with h | ⟨stem, extension, h, hname, hpoint⟩
  · intro he
    have hlength := congrArg String.length he
    rw [h, String.length_append] at hlength
    exact absurd hlength (by simp)
  · rw [h, hname]
    intro he
    have hchars := congrArg String.toList he
    simp only [String.toList_append, List.append_assoc, List.append_cancel_left_eq] at hchars
    have hextension : "json.tmp".toList = extension.toList := (List.cons.inj hchars).2
    rw [← hextension] at hpoint
    exact hpoint (by decide)

/-! ## Siblings -/

theorem steps_append_slash_end (front : String) : steps (front ++ "/") = steps front := by
  have h := steps_append_slash front ""
  rwa [String.append_empty, show steps "" = [] by decide, List.append_nil] at h

theorem steps_append_point (front : String) : steps (front ++ "/" ++ ".") = steps front := by
  rw [steps_append_slash, show steps "." = [] by decide, List.append_nil]

theorem steps_trim (chars : List Char) : steps (String.ofList (throughName.trim chars).reverse) =
    steps (String.ofList chars.reverse) := by
  have hslash (rest : List Char) :
      String.ofList ('/' :: rest).reverse = String.ofList rest.reverse ++ "/" := by simp
  induction chars using throughName.trim.induct with
  | case1 rest ih => rw [throughName.trim, ih, hslash, steps_append_slash_end]
  | case2 rest ih =>
      have hpoint : String.ofList ('.' :: '/' :: rest).reverse =
          String.ofList rest.reverse ++ "/" ++ "." := by simp [String.append_assoc]
      rw [throughName.trim, ih, hslash, hpoint, steps_append_slash_end, steps_append_point]
  | case3 rest hfirst hsecond => rw [throughName.trim] <;> assumption

theorem trim_ne (chars rest : List Char) : throughName.trim chars ≠ '/' :: rest ∧
    throughName.trim chars ≠ '.' :: '/' :: rest := by
  induction chars using throughName.trim.induct with
  | case1 rest ih => rwa [throughName.trim]
  | case2 rest ih => rwa [throughName.trim]
  | case3 other hfirst hsecond =>
      rw [throughName.trim]
      · exact ⟨hfirst rest, hsecond rest⟩
      · exact hfirst
      · exact hsecond

theorem exists_throughName (h : fileName? path = some name) : ∃ front,
    throughName path.toList = front ++ name.toList ∧
      ∀ last, steps (String.ofList front ++ last) = (steps path).dropLast ++ steps last := by
  have hsteps : steps (String.ofList (throughName path.toList)) = steps path := by
    rw [throughName, steps_trim, List.reverse_reverse, String.ofList_toList]
  have hlast := (fileName?_eq_some_iff.1 h).1
  rw [← hsteps] at hlast ⊢
  by_cases hm : '/' ∈ (String.ofList (throughName path.toList)).toList
  · obtain ⟨front, last, hwhole, hslash⟩ := exists_append_slash_append hm
    have hne : last ≠ "" ∧ last ≠ "." := by
      have htrim := trim_ne path.toList.reverse
      have hchars : throughName.trim path.toList.reverse =
          (front ++ "/" ++ last).toList.reverse := by
        rw [← hwhole, String.toList_ofList, throughName, List.reverse_reverse]
      constructor
      · rintro rfl
        exact (htrim front.toList.reverse).1 (by simp [hchars])
      · rintro rfl
        exact (htrim front.toList.reverse).2 (by simp [hchars])
    rw [hwhole, steps_append_slash, steps_of_not_mem hslash, if_neg (not_or.2 hne)] at hlast ⊢
    obtain rfl : last = name := by simpa using hlast
    refine ⟨(front ++ "/").toList, ?_, fun other => ?_⟩
    · rw [← String.toList_append, ← hwhole, String.toList_ofList]
    · rw [String.ofList_toList, steps_append_slash, List.dropLast_concat]
  · rw [steps_of_not_mem hm] at hlast ⊢
    split at hlast
    · cases hlast
    · next hne =>
        obtain rfl := Option.some.inj hlast
        refine ⟨[], by simp, fun other => ?_⟩
        rw [if_neg hne]
        simp

/-! ## Paths above -/

theorem steps_join (h : name ≠ "" ∧ name ≠ "." ∧ '/' ∉ name.toList) (base : String) :
    steps (join base name) = steps base ++ [name] := by
  obtain ⟨hempty, hpoint, hslash⟩ := h
  have hname : steps name = [name] := by
    rw [steps_of_not_mem hslash, if_neg (not_or.2 ⟨hempty, hpoint⟩)]
  have hrelative : isAbsolute name = false := by
    refine Bool.eq_false_iff.2 fun ha => hslash ?_
    exact List.mem_of_mem_head? (of_decide_eq_true ha)
  rw [join, hrelative, Bool.false_or]
  split
  · next hbase =>
      rw [of_decide_eq_true hbase, hname]
      rfl
  · split
    · next hend =>
        obtain ⟨front, rfl⟩ := exists_append_slash hend
        rw [steps_append_slash, steps_append_slash_end, hname]
    · rw [steps_append_slash, hname]

theorem steps_of_mem_through {names : List String}
    (hnames : ∀ name ∈ names, name ≠ "" ∧ name ≠ "." ∧ '/' ∉ name.toList) {base parent : String}
    (hm : parent ∈ through base names) : ∃ front, front <+: names ∧
      steps parent = steps base ++ front := by
  induction names generalizing base with
  | nil => cases hm
  | cons name rest ih =>
      obtain ⟨hname, hrest⟩ := List.forall_mem_cons.1 hnames
      rw [through] at hm
      rcases List.mem_cons.1 hm with rfl | hm
      · exact ⟨[name], List.prefix_append [name] rest, steps_join hname base⟩
      · obtain ⟨front, hfront, hsteps⟩ := ih hrest hm
        refine ⟨name :: front, List.prefix_cons_inj name |>.2 hfront, ?_⟩
        rw [hsteps, steps_join hname, List.append_assoc]
        rfl

theorem steps_of_mem_ancestors {parent : String} (hm : parent ∈ ancestors path) :
    steps parent <+: (steps path).dropLast := by
  have hnames : ∀ name ∈ (steps path).dropLast, name ≠ "" ∧ name ≠ "." ∧ '/' ∉ name.toList :=
    fun name hn => of_mem_steps ((List.dropLast_sublist _).subset hn)
  have hinner {base : String} (hb : steps base = [])
      (hm : parent ∈ through base (steps path).dropLast) :
      steps parent <+: (steps path).dropLast := by
    obtain ⟨front, hfront, hsteps⟩ := steps_of_mem_through hnames hm
    rwa [hsteps, hb, List.nil_append]
  rw [ancestors] at hm
  split at hm
  · rcases List.mem_cons.1 hm with rfl | hm
    · rw [show steps "/" = [] by decide]
      exact List.nil_prefix
    · exact hinner (by decide) hm
  · exact hinner (by decide) hm

end CodeAtlas.Path

namespace CodeAtlas.Publication

open CodeAtlas.Path (divideName)

variable {path name : String}

theorem stem_isPrefix (name : String) : (divideName name).1.toList <+: name.toList := by
  rcases Path.divideName_cases name with h | ⟨stem, extension, h, hname, -⟩
  · simp [h]
  · rw [h, hname, String.append_assoc, String.toList_append]
    exact List.prefix_append _ _

theorem sibling_eq (h : Path.fileName? path = some name) {front : List Char}
    (hf : Path.throughName path.toList = front ++ name.toList) :
    sibling path = String.ofList front ++ ((divideName name).1 ++ ".json.tmp") := by
  obtain ⟨rest, hrest⟩ := stem_isPrefix name
  have hkept : (front ++ name.toList).length - (name.length - (divideName name).1.length) =
      (front ++ (divideName name).1.toList).length := by
    rw [← String.length_toList, ← String.length_toList, ← hrest, List.length_append,
      List.length_append, List.length_append]
    omega
  rw [sibling, Path.withExtension, h]
  simp only [hf, hkept]
  rw [← hrest, ← List.append_assoc, List.take_left, ← String.toList_inj]
  simp

theorem steps_sibling (h : Path.fileName? path = some name) :
    Path.steps path = (Path.steps path).dropLast ++ [name] ∧
      Path.steps (sibling path) =
        (Path.steps path).dropLast ++ [(divideName name).1 ++ ".json.tmp"] := by
  obtain ⟨init, hinit⟩ := List.getLast?_eq_some_iff.1 (Path.fileName?_eq_some_iff.1 h).1
  refine ⟨by rw [hinit, List.dropLast_concat], ?_⟩
  obtain ⟨front, hfront, hsteps⟩ := Path.exists_throughName h
  obtain ⟨-, -, hname⟩ := Path.of_mem_steps (hinit ▸ List.mem_append_right init List.mem_cons_self)
  have hslash : '/' ∉ ((divideName name).1 ++ ".json.tmp").toList := by
    rw [String.toList_append, List.mem_append, not_or]
    exact ⟨fun hm => hname ((stem_isPrefix name).subset hm), by decide⟩
  have hlength : ".".length < ((divideName name).1 ++ ".json.tmp").length := by
    rw [String.length_append]
    exact Nat.lt_of_lt_of_le (by decide) (Nat.le_add_left _ _)
  rw [sibling_eq h hfront, hsteps, Path.steps_of_not_mem hslash, if_neg]
  rintro (he | he) <;> rw [he] at hlength <;> exact absurd hlength (by decide)

end CodeAtlas.Publication
