import CodeAtlas.CommandLine.Invocation

/-!
# Arguments that are read one by one

An option with its value behind an equals sign is recorded with this value, and a word that does not
begin with a dash goes to its place. So a command that takes one word, with options before it, is
given just these.
-/

namespace CodeAtlas.CommandLine

namespace Given

variable {level : Level} {given : Given} {name : String} {option : Parameter}

theorem takeAll_cons (hc : level.commands = []) (argument : String) (rest : List String) :
    takeAll level given (argument :: rest) =
      (given.take level argument).bind fun given => takeAll level given rest := by
  simp [takeAll, hc, bind]

theorem divide_append (h : '=' ∉ name.toList) (value : String) :
    divide (name.toList ++ '=' :: value.toList) = (name, some value) := by
  have htake : (name.toList ++ '=' :: value.toList).takeWhile (· ≠ '=') = name.toList := by
    rw [List.takeWhile_append_of_pos]
    · simp
    · intro char hm
      have hne : char ≠ '=' := fun he => h (he ▸ hm)
      simpa using hne
  rw [divide, htake]
  simp

theorem take_attached (hw : given.onlyWords = false) (hname : '=' ∉ name.toList)
    (ho : level.long? name = some option) (value : String) :
    given.take level ("--" ++ name ++ "=" ++ value) = given.takeOption option (some value) := by
  have hlist : ("--" ++ name ++ "=" ++ value).toList =
      '-' :: '-' :: (name.toList ++ '=' :: value.toList) := by simp [String.toList_append]
  have hlong : given.takeLong level (name.toList ++ '=' :: value.toList) =
      given.takeOption option (some value) := by
    rw [takeLong, divide_append hname]
    simp only [ho]
  rw [take, hw, hlist, if_neg Bool.false_ne_true]
  cases hrest : name.toList ++ '=' :: value.toList with
  | nil => simp at hrest
  | cons char rest =>
      rw [hrest] at hlong
      exact hlong

theorem take_word {word : String} (hw : given.onlyWords = false)
    (ha : given.awaitsValue = false) (hword : word.toList.head? ≠ some '-') :
    given.take level word = given.takeWord level word := by
  rw [take, hw, if_neg Bool.false_ne_true]
  cases hlist : word.toList with
  | nil => simp [ha]
  | cons char rest =>
      have hne : char ≠ '-' := by simpa [hlist] using hword
      split
      · simp_all
      · simp_all
      · simp_all
      · simp [ha]

theorem record_eq {parameter : Parameter} {text : String} {value : Value}
    (hhelp : parameter.name ≠ "help") (hversion : parameter.name ≠ "version")
    (hnew : ∀ present ∈ given.values, present.1 ≠ parameter)
    (hcheck : check parameter text = .ok value) :
    given.record parameter (some text) =
      .ok { given with values := given.values ++ [(parameter, value)] } := by
  have hh : parameter ≠ Level.helpOption := fun he => hhelp (he ▸ rfl)
  have hv : parameter ≠ Level.versionOption := fun he => hversion (he ▸ rfl)
  have hany : (given.values.any fun present => present.1 = parameter) = false := by
    simpa using hnew
  simp [record, hh, hv, hany, hcheck, bind, Except.bind, pure, Except.pure]

end Given

namespace Invocation

open Given

theorem parse_cons {name : String} {entry : Entry} (hn : named? name = some entry)
    (hc : outerLevel.commands.contains name = true) (rest : List String) :
    parse (name :: rest) = (takeCommand entry rest).map fun inner =>
      ⟨(inner.text? configOption.name).getD Configuration.defaultFile, entry.make inner⟩ := by
  have houter : takeAll outerLevel {} (name :: rest) = .ok ({}, some (name, rest)) := by
    rw [takeAll, hc]
    rfl
  have hsettle : ({} : Given).settle = .ok {} := rfl
  simp only [parse, houter, hn, hsettle, bind, Except.bind]
  cases takeCommand entry rest with
  | error stop => rfl
  | ok inner =>
      simp only [Except.map]
      congr 2
      cases inner.text? configOption.name <;> rfl

/-- A command takes one word, an option with a value, and the wish for JSON. -/
structure Entry.Takes (entry : Entry) (place option : Parameter) : Prop where
  words : entry.words = [place]
  wordKind : place.kind = some .text
  wordName : place.name ∉ ["help", "version", jsonOption.name, option.name]
  json : entry.level.long? jsonOption.name = some jsonOption
  known : entry.level.long? option.name = some option
  optionKind : option.kind.isSome = true
  optionName : option.name ∉ ["help", "version", jsonOption.name]
  plain : '=' ∉ option.name.toList

/-- The wish for JSON and the option, each of which may be there or not. -/
def optionArguments (json : Bool) (option : Parameter) (text : Option String) : List String :=
  (if json then ["--json"] else []) ++
    (text.map fun text => "--" ++ option.name ++ "=" ++ text).toList

/-- The values that come of these arguments. -/
def optionValues (json : Bool) (option : Parameter) (value : Option Value) :
    List (Parameter × Value) :=
  (if json then [(jsonOption, .present)] else []) ++
    (value.map fun value => (option, value)).toList

section

variable {α : Type} {entry : Entry} {place option : Parameter} {values : List (Parameter × Value)}
  {given : Option α} {spell : α → String} {value : α → Value}

theorem take_json (h : entry.Takes place option) :
    ({} : Given).take entry.level "--json" = .ok { values := [(jsonOption, .present)] } := by
  have hlong : ({} : Given).takeLong entry.level "json".toList =
      ({} : Given).takeOption jsonOption none := by
    have hdivide : divide "json".toList = (jsonOption.name, none) := by decide
    rw [takeLong, hdivide]
    simp only [h.json]
  exact hlong

theorem take_option (h : entry.Takes place option) (hv : ∀ present ∈ values, present.1 ≠ option)
    {text : String} {value : Value} (hc : check option text = .ok value) :
    ({ values } : Given).take entry.level ("--" ++ option.name ++ "=" ++ text) =
      .ok { values := values ++ [(option, value)] } := by
  obtain ⟨kind, hk⟩ := Option.isSome_iff_exists.1 h.optionKind
  have hname := h.optionName
  simp only [List.mem_cons, not_or] at hname
  have hrecord : ({ values } : Given).record option (some text) =
      .ok { values := values ++ [(option, value)] } := record_eq hname.1 hname.2.1 hv hc
  rw [take_attached rfl h.plain h.known]
  simp only [takeOption, hk]
  exact hrecord

theorem takeAll_word (h : entry.Takes place option) {word : String}
    (hword : word.toList.head? ≠ some '-') :
    takeAll entry.level { values } [word] =
      .ok ({ values, pending := some (place, some word), wordCount := 1 }, none) := by
  have hwords : entry.level.words[0]? = some place := by
    rw [Entry.level, h.words]
    rfl
  rw [takeAll_cons rfl, take_word rfl rfl hword, takeWord]
  simp only [hwords]
  rfl

theorem takeAll_append (hc : entry.level.commands = []) (front back : List String)
    (given : Given) : takeAll entry.level given (front ++ back) =
      (takeAll entry.level given front).bind fun reached => takeAll entry.level reached.1 back := by
  induction front generalizing given with
  | nil => rfl
  | cons argument rest ih =>
      rw [List.cons_append, takeAll_cons hc, takeAll_cons hc]
      cases given.take entry.level argument with
      | error stop => rfl
      | ok after => exact ih after

theorem takeAll_options (h : entry.Takes place option) (json : Bool)
    (hg : ∀ present ∈ given, check option (spell present) = .ok (value present)) :
    takeAll entry.level {} (optionArguments json option (given.map spell)) =
      .ok ({ values := optionValues json option (given.map value) }, none) := by
  have hjson : takeAll entry.level {} (if json then ["--json"] else []) =
      .ok ({ values := if json then [(jsonOption, .present)] else [] }, none) := by
    cases json with
    | false => rfl
    | true =>
        rw [if_pos rfl, takeAll_cons rfl, take_json h]
        rfl
  have hne : jsonOption ≠ option := by
    rintro rfl
    exact h.optionName (by simp)
  rw [optionArguments, takeAll_append rfl, hjson]
  cases given with
  | none => simp [Except.bind, takeAll, optionValues]
  | some present =>
      have hv : ∀ other ∈ (if json then [(jsonOption, Value.present)] else []),
          other.1 ≠ option := by cases json <;> simp [hne]
      have hoption := take_option h hv (hg present rfl)
      simp only [Except.bind, Option.map_some, Option.toList_some]
      rw [takeAll_cons rfl, hoption]
      rfl

theorem ne_of_mem_optionValues (h : entry.Takes place option) {json : Bool}
    {recorded : Option Value} {present : Parameter × Value}
    (hm : present ∈ optionValues json option recorded) : present.1 ≠ place := by
  have hname := h.wordName
  simp only [List.mem_cons, not_or] at hname
  obtain ⟨-, -, hjson, hoption, -⟩ := hname
  rintro rfl
  rcases List.mem_append.1 hm with hm | hm
  · cases json with
    | false => cases hm
    | true =>
        obtain rfl := List.mem_singleton.1 hm
        exact hjson rfl
  · obtain ⟨_, -, rfl⟩ := Option.map_eq_some_iff.1 (Option.mem_toList.1 hm)
    exact hoption rfl

theorem takeCommand_eq (h : entry.Takes place option) (json : Bool)
    (hg : ∀ present ∈ given, check option (spell present) = .ok (value present)) {word : String}
    (hword : word.toList.head? ≠ some '-') :
    takeCommand entry (optionArguments json option (given.map spell) ++ [word]) =
      .ok { values := optionValues json option (given.map value) ++ [(place, .text word)]
            wordCount := 1 } := by
  have hname := h.wordName
  simp only [List.mem_cons, not_or] at hname
  have hcheck : check place word = .ok (.text word) := by rw [check, h.wordKind]
  have hall : takeAll entry.level {} (optionArguments json option (given.map spell) ++ [word]) =
      .ok ({ values := optionValues json option (given.map value)
             pending := some (place, some word), wordCount := 1 }, none) := by
    rw [takeAll_append rfl, takeAll_options h json hg]
    exact takeAll_word h hword
  rw [takeCommand, hall]
  simp only [bind, Except.bind, settle]
  rw [record_eq hname.1 hname.2.1 (fun _ hm => ne_of_mem_optionValues h hm) hcheck]
  simp [h.words, pure, Except.pure]

end

end Invocation

end CodeAtlas.CommandLine
