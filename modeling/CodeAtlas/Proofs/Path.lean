import CodeAtlas.Path

/-!
# Pieces of paths

How a text divides that was put together with slashes, and which paths lead downwards only. Such a
path adds its pieces to those of the path it is joined to.
-/

namespace CodeAtlas.Path

/-! ## Division -/

theorem splitFrom_of_not_mem {mark : Char} (piece : List Char) {text : List Char}
    (h : mark ∉ text) : splitFrom mark piece text = [piece.reverse ++ text] := by
  induction text generalizing piece with
  | nil => simp [splitFrom]
  | cons char rest ih =>
      obtain ⟨hc, hr⟩ := List.ne_and_not_mem_of_not_mem_cons h
      rw [splitFrom, if_neg (Ne.symm hc), ih _ hr]
      simp

theorem splitFrom_append_cons (mark : Char) (piece left right : List Char) :
    splitFrom mark piece (left ++ mark :: right) =
      splitFrom mark piece left ++ splitFrom mark [] right := by
  induction left generalizing piece with
  | nil => simp [splitFrom]
  | cons char rest ih =>
      rw [List.cons_append, splitFrom, splitFrom]
      split <;> simp [ih]

theorem split_of_not_mem {mark : Char} {text : String} (h : mark ∉ text.toList) :
    split mark text = [text] := by
  simp [split, splitFrom_of_not_mem [] h]

theorem split_append_mark {mark : Char} {sign : String} (hs : sign.toList = [mark])
    (left right : String) :
    split mark (left ++ sign ++ right) = split mark left ++ split mark right := by
  have ht : (left ++ sign ++ right).toList = left.toList ++ mark :: right.toList := by simp [hs]
  rw [split, ht, splitFrom_append_cons, List.map_append]
  rfl

theorem split_intercalate_mark_append {mark : Char} {sign : String} (hs : sign.toList = [mark])
    {names : List String} (last suffix : String) (h : ∀ name ∈ names, mark ∉ name.toList) :
    split mark (sign.intercalate (names ++ [last]) ++ suffix) =
      names ++ split mark (last ++ suffix) := by
  induction names with
  | nil => rw [List.nil_append, String.intercalate_singleton, List.nil_append]
  | cons name rest ih =>
      have hr : ∀ name ∈ rest, mark ∉ name.toList := fun other hm => h other (by simp [hm])
      rw [List.cons_append, String.intercalate_cons_of_ne_nil (by simp), String.append_assoc,
        split_append_mark hs, split_of_not_mem (h name (by simp)), ih hr]
      rfl

theorem split_intercalate_mark {mark : Char} {sign : String} (hs : sign.toList = [mark])
    {names : List String} (last : String) (h : ∀ name ∈ names, mark ∉ name.toList) :
    split mark (sign.intercalate (names ++ [last])) = names ++ split mark last := by
  have hsplit := split_intercalate_mark_append hs last "" h
  rwa [String.append_empty, String.append_empty] at hsplit

theorem split_intercalate_of_ne_nil {mark : Char} {sign : String} (hs : sign.toList = [mark])
    {names : List String} (hne : names ≠ []) (h : ∀ name ∈ names, mark ∉ name.toList) :
    split mark (sign.intercalate names) = names := by
  rw [← List.dropLast_concat_getLast hne] at h ⊢
  have hlast : split mark (names.getLast hne) = [names.getLast hne] :=
    split_of_not_mem (h _ (by simp))
  rw [split_intercalate_mark hs _ fun name hm => h name (List.mem_append_left _ hm), hlast]

theorem split_append_slash (left right : String) :
    split '/' (left ++ "/" ++ right) = split '/' left ++ split '/' right :=
  split_append_mark rfl left right

theorem split_intercalate_append {names : List String} (last suffix : String)
    (h : ∀ name ∈ names, '/' ∉ name.toList) :
    split '/' ("/".intercalate (names ++ [last]) ++ suffix) =
      names ++ split '/' (last ++ suffix) :=
  split_intercalate_mark_append rfl last suffix h

theorem split_intercalate {names : List String} (hne : names ≠ [])
    (h : ∀ name ∈ names, '/' ∉ name.toList) : split '/' ("/".intercalate names) = names :=
  split_intercalate_of_ne_nil rfl hne h

theorem split_append_slash_end (text : String) :
    split '/' (text ++ "/") = split '/' text ++ [""] := by
  have h := split_append_slash text ""
  rw [String.append_empty] at h
  exact h

theorem exists_append_slash {text : String} (h : text.toList.getLast? = some '/') :
    ∃ front, text = front ++ "/" := by
  obtain ⟨front, hfront⟩ := List.getLast?_eq_some_iff.1 h
  refine ⟨String.ofList front, ?_⟩
  rw [← String.toList_inj]
  simpa using hfront

theorem splitFrom_ne_nil (mark : Char) (piece text : List Char) :
    splitFrom mark piece text ≠ [] := by
  induction text generalizing piece with
  | nil => simp [splitFrom]
  | cons char rest ih =>
      rw [splitFrom]
      split
      · simp
      · exact ih _

theorem split_ne_nil (mark : Char) (text : String) : split mark text ≠ [] := by
  simp [split, splitFrom_ne_nil]

theorem not_mem_of_mem_splitFrom {mark : Char} {piece text name : List Char}
    (hp : mark ∉ piece) (hm : name ∈ splitFrom mark piece text) : mark ∉ name := by
  induction text generalizing piece with
  | nil => simpa [List.mem_singleton.1 hm] using hp
  | cons char rest ih =>
      rw [splitFrom] at hm
      split at hm
      · rcases List.mem_cons.1 hm with rfl | hm
        · simpa using hp
        · exact ih (List.not_mem_nil) hm
      · rename_i hne
        exact ih (by simp [hp, Ne.symm hne]) hm

theorem not_mem_of_mem_split {mark : Char} {text name : String} (hm : name ∈ split mark text) :
    mark ∉ name.toList := by
  obtain ⟨chars, hchars, rfl⟩ := List.mem_map.1 hm
  rw [String.toList_ofList]
  exact not_mem_of_mem_splitFrom List.not_mem_nil hchars

theorem intercalate_splitFrom {mark : Char} {sign : String} (hs : sign.toList = [mark])
    (piece text : List Char) :
    sign.intercalate ((splitFrom mark piece text).map String.ofList) =
      String.ofList (piece.reverse ++ text) := by
  induction text generalizing piece with
  | nil => simp [splitFrom]
  | cons char rest ih =>
      rw [splitFrom]
      split
      · rename_i hc
        rw [List.map_cons, String.intercalate_cons_of_ne_nil (by simp [splitFrom_ne_nil]), ih, hc,
          ← String.toList_inj]
        simp [hs]
      · rw [ih]
        simp

theorem intercalate_split (text : String) : "/".intercalate (split '/' text) = text := by
  rw [split, intercalate_splitFrom rfl]
  exact String.ofList_toList

theorem mem_splitFrom_iff {mark char : Char} (hne : char ≠ mark) (piece text : List Char) :
    (∃ name ∈ splitFrom mark piece text, char ∈ name) ↔ char ∈ piece ∨ char ∈ text := by
  induction text generalizing piece with
  | nil => simp [splitFrom]
  | cons other rest ih =>
      rw [splitFrom]
      split
      · rename_i hc
        simp [ih, hc, hne]
      · simp [ih, or_left_comm, or_assoc]

theorem exists_mem_split_iff {mark char : Char} (hne : char ≠ mark) (text : String) :
    (∃ name ∈ split mark text, char ∈ name.toList) ↔ char ∈ text.toList := by
  have h := mem_splitFrom_iff hne [] text.toList
  simp only [List.not_mem_nil, false_or] at h
  rw [← h]
  constructor
  · rintro ⟨name, hm, hc⟩
    obtain ⟨chars, hchars, rfl⟩ := List.mem_map.1 hm
    exact ⟨chars, hchars, by simpa using hc⟩
  · rintro ⟨chars, hm, hc⟩
    exact ⟨_, List.mem_map_of_mem hm, by simpa using hc⟩

theorem isAbsolute_append {base : String} (hne : base ≠ "") (rest : String) :
    isAbsolute (base ++ rest) = isAbsolute base := by
  obtain ⟨first, more, hfirst⟩ := List.exists_cons_of_ne_nil
    (show base.toList ≠ [] by simpa using hne)
  simp [isAbsolute, hfirst]

/-! ## Descent -/

def IsName (name : String) : Prop := name ≠ "" ∧ name ≠ "." ∧ name ≠ ".."

instance (name : String) : Decidable (IsName name) :=
  inferInstanceAs (Decidable (_ ≠ _ ∧ _ ≠ _ ∧ _ ≠ _))

theorem IsName.append_extension (text : String) : IsName (text ++ ".py") := by
  refine ⟨?_, ?_, ?_⟩ <;> intro he
  all_goals
    have hlast := congrArg (fun name => name.toList.getLast?) he
    simp at hlast

/-- A path stays below the place it starts from: each of its pieces leads one step down. -/
def Descends (path : String) : Prop := ∀ name ∈ split '/' path, IsName name

instance (path : String) : Decidable (Descends path) :=
  inferInstanceAs (Decidable (∀ name ∈ split '/' path, IsName name))

namespace Descends

variable {path : String} (h : Descends path)

include h

theorem ne_empty : path ≠ "" := by
  rintro rfl
  exact (h "" (by decide)).1 rfl

theorem isAbsolute_eq_false : isAbsolute path = false := by
  refine Bool.eq_false_iff.2 fun habsolute => ?_
  obtain ⟨rest, hrest⟩ : ∃ rest, path.toList = '/' :: rest := by
    simpa [isAbsolute, List.head?_eq_some_iff] using habsolute
  have hpath : path = "" ++ "/" ++ String.ofList rest := by
    rw [← String.toList_inj]
    simpa using hrest
  have hempty : "" ∈ split '/' path := by
    rw [hpath, split_append_slash]
    exact List.mem_append_left _ (by decide)
  exact (h "" hempty).1 rfl

theorem getLast?_ne : path.toList.getLast? ≠ some '/' := by
  intro hlast
  obtain ⟨front, rfl⟩ := exists_append_slash hlast
  exact (h "" (by simp [split_append_slash_end])).1 rfl

theorem filter_split_join (base : String) : (split '/' (join base path)).filter (· ≠ "") =
    (split '/' base).filter (· ≠ "") ++ split '/' path := by
  have hnames : (split '/' path).filter (· ≠ "") = split '/' path :=
    List.filter_eq_self.2 fun name hm => decide_eq_true (h name hm).1
  rw [join, h.isAbsolute_eq_false, Bool.false_or]
  split
  · rename_i hbase
    rw [of_decide_eq_true hbase, hnames]
    rfl
  split
  · rename_i hslash
    obtain ⟨front, rfl⟩ := exists_append_slash hslash
    rw [split_append_slash, split_append_slash_end, List.filter_append, hnames,
      List.filter_append]
    simp
  · rw [split_append_slash, List.filter_append, hnames]

theorem exists_join_eq_append {base : String} (hbase : base ≠ "") :
    ∃ rest, join base path = base ++ rest := by
  rw [join, if_neg (by simp [h.isAbsolute_eq_false, hbase])]
  split
  · exact ⟨_, rfl⟩
  · exact ⟨"/" ++ path, String.append_assoc⟩

theorem getLast?_join (base : String) :
    (join base path).toList.getLast? = path.toList.getLast? := by
  have hne : path.toList ≠ [] := by simpa using h.ne_empty
  have hlast := List.getLast?_eq_some_getLast hne
  unfold join
  split
  · rfl
  split <;> rw [String.toList_append, List.getLast?_append, hlast, Option.some_or]

end Descends

end CodeAtlas.Path
