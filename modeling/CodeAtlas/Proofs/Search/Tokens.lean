import CodeAtlas.Chunk
import CodeAtlas.Proofs.Text.Classes
import CodeAtlas.Search.Tokens

/-!
# Tokens in one pass

The tokens of a text are what one pass over its characters finds: it cuts at every character that
belongs to no word, and before a capital letter that stands directly behind a small one. No token
goes over a character that belongs to no word, so the tokens of joined texts are those of the parts,
and a text that is made of tokens has just these tokens.
-/

namespace CodeAtlas.Search

open CodeAtlas.Text

namespace Tokens

/-! ## Characters -/

/-- The characters that tokens are made of. -/
def IsPlain (char : Char) : Prop := char.isLower = true ∨ char.isDigit = true ∨ char = '_'

theorem isWord_iff {char : Char} : isWord char = true ↔ char.isUpper = true ∨ IsPlain char := by
  simp [isWord, IsPlain, isAlphanum_iff, isAlpha_iff, or_assoc]

theorem IsPlain.isWord {char : Char} (h : IsPlain char) : isWord char = true :=
  isWord_iff.2 (.inr h)

theorem IsPlain.isUpper_eq_false {char : Char} (h : IsPlain char) : char.isUpper = false := by
  rcases h with h | h | rfl
  · exact isUpper_of_isLower h
  · exact isUpper_of_isDigit h
  · rfl

theorem isPlain_toLower {char : Char} (h : isWord char = true) : IsPlain char.toLower := by
  rcases isWord_iff.1 h with h | h
  · exact .inl (isLower_toLower h)
  · rwa [toLower_of_not_isUpper h.isUpper_eq_false]

theorem IsPlain.ne_blank {char : Char} (h : IsPlain char) : char ≠ ' ' := by
  rintro rfl
  simp [IsPlain] at h

theorem isLower_of_not_isWord {char : Char} (h : isWord char = false) : char.isLower = false := by
  rw [← Bool.not_eq_true, isWord_iff] at h
  simp only [IsPlain, not_or, Bool.not_eq_true] at h
  exact h.2.1

theorem isUpper_of_not_isWord {char : Char} (h : isWord char = false) : char.isUpper = false := by
  rw [← Bool.not_eq_true, isWord_iff] at h
  simp only [not_or, Bool.not_eq_true] at h
  exact h.1

/-! ## Passes over a text -/

variable {char mark : Char} {word piece rest : List Char}

theorem clean_cons_word (h : isWord char = true) :
    clean (char :: rest) = char.toLower :: clean rest := by
  simp [clean, h]

theorem clean_cons_mark (h : isWord mark = false) : clean (mark :: rest) = ' ' :: clean rest := by
  simp [clean, h]

theorem wordsFrom_cons_plain (h : IsPlain char) :
    wordsFrom word (char :: rest) = wordsFrom (char :: word) rest := by
  simp [wordsFrom, h.ne_blank]

theorem wordsFrom_cons_blank :
    wordsFrom word (' ' :: rest) = word.reverse :: wordsFrom [] rest := by
  simp [wordsFrom]

theorem separateCapitals_cons_of_not_isLower (h : char.isLower = false) :
    separateCapitals (char :: rest) = char :: separateCapitals rest := by
  cases rest with
  | nil => rfl
  | cons second rest => simp [separateCapitals, h]

/-- Cuts a text in one pass, given the present piece in reverse: at every character that belongs to
no word, and before a capital letter directly behind a small one. -/
def piecesFrom (piece : List Char) : List Char → List (List Char)
  | [] => [piece.reverse]
  | char :: rest =>
      if !isWord char then piece.reverse :: piecesFrom [] rest
      else if piece.head?.any Char.isLower && char.isUpper then
        piece.reverse :: piecesFrom [char] rest
      else piecesFrom (char :: piece) rest

theorem piecesFrom_cons_mark (h : isWord mark = false) :
    piecesFrom piece (mark :: rest) = piece.reverse :: piecesFrom [] rest := by
  simp [piecesFrom, h]

theorem piecesFrom_cons_capital {last : Char} (hl : last.isLower = true)
    (hu : char.isUpper = true) : piecesFrom (last :: piece) (char :: rest) =
      (last :: piece).reverse :: piecesFrom [char] rest := by
  simp [piecesFrom, isWord_iff.2 (.inl hu), hl, hu]

theorem piecesFrom_cons_word (h : isWord char = true)
    (hcut : ¬ (piece.head?.any Char.isLower = true ∧ char.isUpper = true)) :
    piecesFrom piece (char :: rest) = piecesFrom (char :: piece) rest := by
  rw [← Bool.and_eq_true, Bool.not_eq_true] at hcut
  rw [piecesFrom, h, hcut]
  rfl

/-- The blanks of `separateCapitals` stand where one pass cuts. The next character does not cut off
the piece so far: it was looked at when the character before it was passed. -/
theorem wordsFrom_clean_separateCapitals (piece chars : List Char)
    (h : ¬ (piece.head?.any Char.isLower = true ∧ chars.head?.any Char.isUpper = true)) :
    wordsFrom (piece.map Char.toLower) (clean (separateCapitals chars)) =
      (piecesFrom piece chars).map (List.map Char.toLower) := by
  fun_induction separateCapitals chars generalizing piece with
  | case1 first second rest hcut ih =>
      simp only [Bool.and_eq_true] at hcut
      have hfirst : isWord first = true := isWord_iff.2 (.inr (.inl hcut.1))
      have hsecond : isWord second = true := isWord_iff.2 (.inl hcut.2)
      have hafter : second.isLower = false := by
        rw [← Bool.not_eq_true]
        intro hl
        simp [isUpper_of_isLower hl] at hcut
      rw [piecesFrom_cons_word hfirst (by simpa using h), piecesFrom_cons_capital hcut.1 hcut.2,
        clean_cons_word hfirst, clean_cons_mark rfl, clean_cons_word hsecond,
        wordsFrom_cons_plain (isPlain_toLower hfirst), wordsFrom_cons_blank,
        wordsFrom_cons_plain (isPlain_toLower hsecond)]
      have hih := ih [second] (by simp [hafter])
      simp only [List.map_cons, List.map_nil] at hih
      rw [hih]
      simp
  | case2 first second rest hcut ih =>
      by_cases hfirst : isWord first = true
      · rw [piecesFrom_cons_word hfirst (by simpa using h), clean_cons_word hfirst,
          wordsFrom_cons_plain (isPlain_toLower hfirst), ← List.map_cons]
        exact ih _ (by simpa using hcut)
      · rw [Bool.not_eq_true] at hfirst
        rw [piecesFrom_cons_mark hfirst, clean_cons_mark hfirst, wordsFrom_cons_blank,
          List.map_cons, ← ih [] (by simp)]
        simp
  | case3 rest hshort =>
      -- Nothing or one character is left.
      rcases rest with _ | ⟨first, _ | ⟨second, rest⟩⟩
      · simp [clean, wordsFrom, piecesFrom]
      · by_cases hfirst : isWord first = true
        · rw [piecesFrom_cons_word hfirst (by simpa using h), clean_cons_word hfirst,
            wordsFrom_cons_plain (isPlain_toLower hfirst)]
          simp [clean, wordsFrom, piecesFrom]
        · rw [Bool.not_eq_true] at hfirst
          rw [piecesFrom_cons_mark hfirst, clean_cons_mark hfirst, wordsFrom_cons_blank]
          simp [clean, wordsFrom, piecesFrom]
      · exact absurd rfl (hshort first second rest)

/-- The pieces of two characters or more, in small letters. -/
def onePass (text : String) : List String :=
  ((piecesFrom [] text.toList).filter fun piece => 2 ≤ piece.length).map fun piece =>
    String.ofList (piece.map Char.toLower)

end Tokens

open Tokens

theorem tokens_eq_onePass (text : String) : tokens text = onePass text := by
  have hpieces := wordsFrom_clean_separateCapitals [] text.toList (by simp)
  rw [List.map_nil] at hpieces
  rw [tokens, hpieces, List.filter_map, List.map_map, onePass]
  simp [Function.comp_def, Nat.lt_iff_add_one_le]

/-! ## Joined texts -/

theorem separateCapitals_append_mark {mark : Char} (h : isWord mark = false)
    (left right : List Char) : separateCapitals (left ++ mark :: right) =
      separateCapitals left ++ mark :: separateCapitals right := by
  have hright : separateCapitals (mark :: right) = mark :: separateCapitals right :=
    separateCapitals_cons_of_not_isLower (isLower_of_not_isWord h)
  fun_induction separateCapitals left with
  | case1 first second rest hcut ih =>
      rw [List.cons_append, List.cons_append, separateCapitals, if_pos hcut, ih]
      rfl
  | case2 first second rest hcut ih =>
      rw [List.cons_append, List.cons_append, separateCapitals, if_neg hcut, ← List.cons_append, ih]
      rfl
  | case3 rest hshort =>
      -- Nothing or one character is left, and what stands behind it is no capital.
      rcases rest with _ | ⟨first, _ | ⟨second, rest⟩⟩
      · exact hright
      · simp [separateCapitals, isUpper_of_not_isWord h, hright]
      · exact absurd rfl (hshort first second rest)

theorem wordsFrom_append_blank (word left right : List Char) :
    wordsFrom word (left ++ ' ' :: right) = wordsFrom word left ++ wordsFrom [] right := by
  induction left generalizing word with
  | nil => exact wordsFrom_cons_blank
  | cons char rest ih =>
      rw [List.cons_append, wordsFrom, wordsFrom]
      split <;> simp [ih]

theorem tokens_append_mark {mark : Char} (h : isWord mark = false) (left right : String) :
    tokens (left ++ String.singleton mark ++ right) = tokens left ++ tokens right := by
  have htext : (left ++ String.singleton mark ++ right).toList =
      left.toList ++ mark :: right.toList := by simp
  have hclean : clean (separateCapitals left.toList ++ mark :: separateCapitals right.toList) =
      clean (separateCapitals left.toList) ++ ' ' :: clean (separateCapitals right.toList) := by
    rw [clean, List.map_append]
    exact congrArg _ (clean_cons_mark h)
  rw [tokens, htext, separateCapitals_append_mark h, hclean, wordsFrom_append_blank,
    List.filter_append, List.map_append]
  rfl

theorem tokens_append_blank (left right : String) :
    tokens (left ++ " " ++ right) = tokens left ++ tokens right :=
  tokens_append_mark (show isWord ' ' = false from rfl) left right

theorem tokens_indexText (chunk : Chunk) :
    tokens chunk.indexText = tokens chunk.file ++ tokens chunk.name ++ tokens chunk.source := by
  rw [← tokens_append_blank, ← tokens_append_blank]
  rfl

/-! ## Texts made of tokens -/

theorem mem_wordsFrom {word chars found : List Char} {char : Char}
    (hf : found ∈ wordsFrom word chars) (hc : char ∈ found) :
    char ∈ word ∨ char ∈ chars ∧ char ≠ ' ' := by
  induction chars generalizing word with
  | nil =>
      simp only [wordsFrom, List.mem_singleton] at hf
      simp [hf] at hc
      exact .inl hc
  | cons first rest ih =>
      unfold wordsFrom at hf
      split at hf
      · rcases List.mem_cons.1 hf with rfl | hf
        · exact .inl (List.mem_reverse.1 hc)
        · have hrest := ih hf
          simp at hrest
          simp [hrest]
      · rename_i hblank
        rcases ih hf with hw | ⟨hr, hne⟩
        · rcases List.mem_cons.1 hw with rfl | hw
          · simp [hblank]
          · exact .inl hw
        · simp [hr, hne]

theorem isPlain_of_mem_clean {char : Char} {chars : List Char} (hm : char ∈ clean chars)
    (hne : char ≠ ' ') : IsPlain char := by
  obtain ⟨source, -, hs⟩ := List.mem_map.1 hm
  split at hs
  · rename_i hword
    rw [← hs]
    exact isPlain_toLower hword
  · exact absurd hs.symm hne

theorem isPlain_of_mem_tokens {text token : String} (h : token ∈ tokens text) :
    1 < token.length ∧ ∀ char ∈ token.toList, IsPlain char := by
  obtain ⟨word, hm, rfl⟩ := List.mem_map.1 h
  obtain ⟨hw, hlength⟩ := List.mem_filter.1 hm
  simp only [decide_eq_true_eq] at hlength
  refine ⟨by simpa using hlength, fun char hc => ?_⟩
  rw [String.toList_ofList] at hc
  rcases mem_wordsFrom hw hc with hn | ⟨hc, hne⟩
  · simp at hn
  · exact isPlain_of_mem_clean hc hne

theorem piecesFrom_of_isPlain {chars : List Char} (h : ∀ char ∈ chars, IsPlain char)
    (piece : List Char) : piecesFrom piece chars = [piece.reverse ++ chars] := by
  induction chars generalizing piece with
  | nil => simp [piecesFrom]
  | cons first rest ih =>
      have hfirst := h first (by simp)
      rw [piecesFrom_cons_word hfirst.isWord (by simp [hfirst.isUpper_eq_false]),
        ih (fun char hc => h char (by simp [hc]))]
      simp

theorem tokens_of_isPlain {text : String} (hlength : 1 < text.length)
    (h : ∀ char ∈ text.toList, IsPlain char) : tokens text = [text] := by
  have hsame : text.toList.map Char.toLower = text.toList := by
    rw [List.map_congr_left fun char hc => toLower_of_not_isUpper (h char hc).isUpper_eq_false]
    exact List.map_id _
  have hkept : 2 ≤ text.toList.length := by rwa [String.length_toList]
  rw [tokens_eq_onePass, onePass, piecesFrom_of_isPlain h]
  simp [hkept, hsame]

theorem tokens_intercalate {words : List String}
    (h : ∀ word ∈ words, 1 < word.length ∧ ∀ char ∈ word.toList, IsPlain char) :
    tokens (" ".intercalate words) = words := by
  induction words with
  | nil => rfl
  | cons first rest ih =>
      obtain ⟨hlength, hplain⟩ := h first (by simp)
      have hfirst := tokens_of_isPlain hlength hplain
      by_cases hrest : rest = []
      · rw [hrest, String.intercalate_singleton, hfirst]
      · rw [String.intercalate_cons_of_ne_nil hrest, tokens_append_blank, hfirst,
          ih fun word hm => h word (by simp [hm])]
        rfl

/-- Tokens are found in one pass over the characters and made of small letters, digits and
underscores. Any character that belongs to no word keeps the tokens in front of it apart from those
behind it. Tokens with blanks between them have themselves as their tokens. -/
theorem tokens_of_joined_texts :
    (∀ text, tokens text = onePass text) ∧
    (∀ text, ∀ token ∈ tokens text, ∀ char ∈ token.toList,
      char.isLower = true ∨ char.isDigit = true ∨ char = '_') ∧
    (∀ left right mark, isWord mark = false →
      tokens (left ++ String.singleton mark ++ right) = tokens left ++ tokens right) ∧
    (∀ text, tokens (" ".intercalate (tokens text)) = tokens text) ∧
    ∀ chunk : Chunk,
      tokens chunk.indexText = tokens chunk.file ++ tokens chunk.name ++ tokens chunk.source :=
  ⟨tokens_eq_onePass, fun _ _ h => (isPlain_of_mem_tokens h).2,
    fun left right _ h => tokens_append_mark h left right,
    fun _ => tokens_intercalate fun _ h => isPlain_of_mem_tokens h, tokens_indexText⟩

example : tokens "aBcD-getHTTPResponse é_x1" = ["bc", "get", "httpresponse", "_x1"] := by decide

end CodeAtlas.Search
