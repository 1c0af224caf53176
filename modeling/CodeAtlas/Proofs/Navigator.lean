import CodeAtlas.Navigator
import CodeAtlas.Proofs.Action
import Mathlib.Data.List.DropRight

/-!
# What a navigator holds on to

A navigator is asked one thing after another, while the world around it may change and graphs and
files may fail. It opens a graph just when a question finds none, and keeps it until it learns that
the graph is not available, or is told to let go. The index it searches is the first one that could
be read since it last let go, whatever has become of the file. When it has let go it is a new one.
-/

namespace CodeAtlas

/-! ## Counting -/

namespace Surroundings

variable {σ η α : Type}

/-- A question to a graph leaves the count alone. -/
def beside (question : Action (η × σ) α) : Action (η × Nat × σ) α :=
  Action.within (fun (graph, _, world) => (graph, world))
    (fun (_, opens, _) (graph, world) => (graph, opens, world)) question

theorem perform_beside (question : Action (η × σ) α) (graph : η) (opens : Nat) (world : σ) :
    (beside question).perform (graph, opens, world) =
      ((question.perform (graph, world)).1, (question.perform (graph, world)).2.1, opens,
        (question.perform (graph, world)).2.2) := rfl

theorem forget_beside (question : Action (η × σ) α) :
    (beside question).forget = beside question.forget := by
  funext ⟨graph, opens, world⟩
  change (beside question).forget.perform (graph, opens, world) =
    (beside question.forget).perform (graph, opens, world)
  rw [Action.perform_forget, perform_beside, perform_beside, Action.perform_forget]

/-- The same surroundings, in a world that counts how often a graph is opened. -/
def counted (around : Surroundings σ η) : Surroundings (Nat × σ) η where
  files world := around.files world.2
  openGraph := ExceptT.mk fun (opens, world) =>
    let (result, world) := around.openGraph.perform world
    (result, opens + 1, world)
  neighbors path direction := beside (around.neighbors path direction)
  stats := beside around.stats
  close := beside around.close

end Surroundings

namespace Navigator

variable {σ η α : Type} {around : Surroundings σ η}

/-! ## Events -/

/-- What may happen to a navigator: it is asked something, or the world around it changes. -/
inductive Event (σ : Type) where
  | neighbors (path : String) (direction : Graph.Direction)
  | search (query : String) (limit : Nat)
  | stats
  | reload
  | close
  | change (next : σ → σ)

namespace Event

def action (around : Surroundings σ η) : Event σ → Action (Situated σ η) Unit
  | neighbors path direction => (Navigator.neighbors around path direction).forget
  | search query limit => (Navigator.search around query limit).forget
  | stats => (Navigator.stats around).forget
  | reload => Navigator.reload around
  | close => Navigator.close around
  | change next => ExceptT.mk fun (navigator, world) => (.ok (), navigator, next world)

/-- What is put to the graph, if anything is. -/
def question? (around : Surroundings σ η) : Event σ → Option (Action (η × σ) Unit)
  | neighbors path direction =>
      if normalize path = "" then none
      else some (around.neighbors (normalize path) direction).forget
  | stats => some around.stats.forget
  | _ => none

def letsGo : Event σ → Bool
  | reload => true
  | close => true
  | _ => false

/-- The same event where openings are counted. -/
def counted : Event σ → Event (Nat × σ)
  | neighbors path direction => neighbors path direction
  | search query limit => search query limit
  | stats => stats
  | reload => reload
  | close => close
  | change next => change fun (opens, world) => (opens, next world)

end Event

/-- A navigator that holds on to nothing yet. -/
abbrev fresh (path : String) (world : σ) : Situated σ η := ({ indexPath := path }, world)

def after (around : Surroundings σ η) (situated : Situated σ η) (event : Event σ) :
    Situated σ η := ((event.action around).perform situated).2

def afterAll (around : Surroundings σ η) (past : List (Event σ)) (situated : Situated σ η) :
    Situated σ η := past.foldl (after around) situated

/-- An event with the navigator that it happens to and the world at that time. -/
structure Moment (σ η : Type) where
  event : Event σ
  before : Situated σ η

def history (around : Surroundings σ η) :
    List (Event σ) → Situated σ η → List (Moment σ η)
  | [], _ => []
  | event :: rest, situated =>
      ⟨event, situated⟩ :: history around rest (after around situated event)

theorem afterAll_append (past later : List (Event σ)) (situated : Situated σ η) :
    afterAll around (past ++ later) situated =
      afterAll around later (afterAll around past situated) := List.foldl_append

theorem history_append (past later : List (Event σ)) (situated : Situated σ η) :
    history around (past ++ later) situated =
      history around past situated ++ history around later (afterAll around past situated) := by
  induction past generalizing situated with
  | nil => rfl
  | cons first rest ih =>
      rw [List.cons_append, history, ih]
      rfl

/-! ## Questions to the graph -/

theorem losesGraph_map {β : Type} (result : Result α) (change : α → β) :
    losesGraph (result.map change) = losesGraph result := by
  rcases result with error | value
  · cases error <;> rfl
  · rfl

/-- The graph that is at hand, or else what the opener gives, and the world after that. -/
def obtained (around : Surroundings σ η) (situated : Situated σ η) : Result η × σ :=
  match situated.1.graph with
  | some graph => (.ok graph, situated.2)
  | none => around.openGraph.perform situated.2

theorem perform_acquire (situated : Situated σ η) :
    (acquire around).perform situated =
      ((obtained around situated).1, situated.1, (obtained around situated).2) := by
  rcases situated with ⟨⟨path, _ | graph, index⟩, world⟩ <;> rfl

theorem perform_withGraph (question : Action (η × σ) α) (situated : Situated σ η) :
    (withGraph around question).perform situated =
      match obtained around situated with
      | (.error error, world) => (.error error, { situated.1 with graph := none }, world)
      | (.ok graph, world) =>
          let (answer, left, world) := question.perform (graph, world)
          (answer, { situated.1 with graph := if losesGraph answer then none else some left },
            world) := by
  rw [Action.perform, withGraph, ExceptT.run_mk, StateT.run, perform_acquire]
  rcases situated with ⟨⟨path, _ | graph, index⟩, world⟩
  · rw [obtained]
    rcases around.openGraph.perform world with ⟨error | graph, world⟩ <;> rfl
  · rfl

theorem perform_forget_withGraph (question : Action (η × σ) α) (situated : Situated σ η) :
    (withGraph around question).forget.perform situated =
      (withGraph around question.forget).perform situated := by
  rw [Action.perform_forget, perform_withGraph, perform_withGraph]
  rcases obtained around situated with ⟨error | graph, world⟩
  · rfl
  · dsimp only
    rw [Action.perform_forget, losesGraph_map]

theorem perform_of_question {event : Event σ} {question : Action (η × σ) Unit}
    (h : event.question? around = some question) (situated : Situated σ η) :
    (event.action around).perform situated = (withGraph around question).perform situated := by
  cases event with
  | neighbors path direction =>
      simp only [Event.question?] at h
      split at h
      · cases h
      · rename_i hp
        obtain rfl := Option.some.inj h
        rw [Event.action, neighbors, if_neg hp, perform_forget_withGraph]
  | stats =>
      obtain rfl := Option.some.inj h
      rw [Event.action, stats, perform_forget_withGraph]
  | search query limit => cases h
  | reload => cases h
  | close => cases h
  | change next => cases h

/-! ## Searches -/

/-- A search that is carried out has words to look for and wants some files. -/
def IsSearch (query : String) (limit : Nat) : Prop := Text.isBlankText query = false ∧ limit ≠ 0

instance (query : String) (limit : Nat) : Decidable (IsSearch query limit) :=
  inferInstanceAs (Decidable (_ ∧ _))

/-- What is wrong with a search that is not carried out. -/
def refusal (query : String) : Error :=
  if Text.isBlankText query then .invalidArgument "query is required"
  else .invalidArgument "top_n must be at least 1"

theorem perform_search {query : String} {limit : Nat} (h : IsSearch query limit)
    (situated : Situated σ η) :
    (search around query limit).perform situated =
      match (loadedIndex around).perform situated with
      | (.ok index, situated) => (.ok (index.search .float query limit), situated)
      | (.error error, situated) => (.error error, situated) := by
  rw [search, if_neg (by simp [h.1]), if_neg h.2]
  refine (Action.perform_bind (loadedIndex around) _ situated).trans ?_
  rcases (loadedIndex around).perform situated with ⟨error | index, left⟩ <;> rfl

theorem perform_search_of_not {query : String} {limit : Nat} (h : ¬ IsSearch query limit)
    (situated : Situated σ η) :
    (search around query limit).perform situated = (.error (refusal query), situated) := by
  rw [search, refusal]
  by_cases hq : Text.isBlankText query
  · rw [if_pos hq, if_pos hq]
    rfl
  · have hl : limit = 0 := by
      by_contra hl
      exact h ⟨by simpa using hq, hl⟩
    rw [if_neg hq, if_neg hq, if_pos hl]
    rfl

theorem perform_loadedIndex (navigator : Navigator η) (world : σ) :
    (loadedIndex around).perform (navigator, world) =
      match navigator.index with
      | some index => (.ok index, navigator, world)
      | none =>
          let index := Search.Index.load (around.files world) navigator.indexPath
          (index, { navigator with index := index.toOption }, world) := by
  rw [loadedIndex, Action.perform_update]
  rcases navigator with ⟨path, graph, _ | index⟩
  · dsimp only
    cases Search.Index.load (around.files world) path <;> rfl
  · rfl

/-! ## What is remembered -/

namespace Moment

/-- The graph is opened: something is put to it, and none is there. -/
def opensGraph (around : Surroundings σ η) (moment : Moment σ η) : Bool :=
  (moment.event.question? around).isSome && moment.before.1.graph.isNone

/-- The index that the file holds, if a search is carried out at this moment. -/
def readable? (around : Surroundings σ η) (path : String) (moment : Moment σ η) :
    Option (Search.Index Float) :=
  match moment.event with
  | .search query limit =>
      if IsSearch query limit then (Search.Index.load (around.files moment.before.2) path).toOption
      else none
  | _ => none

theorem readable?_search (path query : String) (limit : Nat) (before : Situated σ η) :
    readable? around path ⟨.search query limit, before⟩ =
      if IsSearch query limit then (Search.Index.load (around.files before.2) path).toOption
      else none := rfl

end Moment

/-- The first index that could be read since the navigator last let go. -/
def remembered (around : Surroundings σ η) (path : String) (moments : List (Moment σ η)) :
    Option (Search.Index Float) :=
  (moments.rtakeWhile fun moment => !moment.event.letsGo).findSome? (Moment.readable? around path)

theorem remembered_append_singleton (path : String) (moments : List (Moment σ η))
    (moment : Moment σ η) :
    remembered around path (moments ++ [moment]) =
      if moment.event.letsGo then none
      else (remembered around path moments).or (moment.readable? around path) := by
  rw [remembered, List.rtakeWhile_concat]
  cases moment.event.letsGo
  · simp only [Bool.not_false, if_true, List.findSome?_append, List.findSome?_singleton,
      remembered]
    rfl
  · rfl

/-! ## One event -/

theorem after_of_question {event : Event σ} {question : Action (η × σ) Unit}
    (h : event.question? around = some question) (situated : Situated σ η) :
    ∃ graph, (after around situated event).1 = { situated.1 with graph := graph } := by
  rw [after, perform_of_question h, perform_withGraph]
  rcases obtained around situated with ⟨error | graph, world⟩ <;> exact ⟨_, rfl⟩

theorem after_neighbors_of_eq {path : String} (h : normalize path = "")
    (direction : Graph.Direction) (situated : Situated σ η) :
    after around situated (.neighbors path direction) = situated := by
  rw [after, Event.action, neighbors, if_pos h]
  rfl

theorem after_search (query : String) (limit : Nat) (situated : Situated σ η) :
    after around situated (.search query limit) =
      ({ situated.1 with
          index := situated.1.index.or
            (Moment.readable? around situated.1.indexPath ⟨.search query limit, situated⟩) },
        situated.2) := by
  rcases situated with ⟨⟨path, graph, index⟩, world⟩
  rw [after, Event.action, Action.perform_forget, Moment.readable?_search]
  by_cases h : IsSearch query limit
  · rw [perform_search h, perform_loadedIndex, if_pos h]
    cases index with
    | some index => rfl
    | none =>
        dsimp only
        cases Search.Index.load (around.files world) path <;> rfl
  · rw [perform_search_of_not h, if_neg h, Option.or_none]

theorem perform_reload (situated : Situated σ η) :
    (reload around).perform situated =
      match situated.1.graph with
      | none => (.ok (), fresh situated.1.indexPath situated.2)
      | some graph =>
          let (closed, _, world) := around.close.perform (graph, situated.2)
          (closed, fresh situated.1.indexPath world) := by
  rcases situated with ⟨⟨path, _ | graph, index⟩, world⟩ <;> rfl

theorem perform_of_letsGo {event : Event σ} (h : event.letsGo = true) (situated : Situated σ η) :
    (event.action around).perform situated = (reload around).perform situated := by
  cases event with
  | reload => rfl
  | close => rfl
  | neighbors path direction => cases h
  | search query limit => cases h
  | stats => cases h
  | change next => cases h

theorem after_of_letsGo {event : Event σ} (h : event.letsGo = true) (situated : Situated σ η) :
    after around situated event = fresh situated.1.indexPath (after around situated event).2 := by
  rw [after, perform_of_letsGo h, perform_reload]
  cases situated.1.graph <;> rfl

theorem indexPath_after (situated : Situated σ η) (event : Event σ) :
    (after around situated event).1.indexPath = situated.1.indexPath := by
  cases hq : event.question? around with
  | some question =>
      obtain ⟨graph, hg⟩ := after_of_question hq situated
      rw [hg]
  | none =>
      cases event with
      | neighbors path direction =>
          rw [after_neighbors_of_eq (by simpa [Event.question?] using hq)]
      | search query limit => rw [after_search]
      | stats => cases hq
      | reload => rw [after_of_letsGo rfl]
      | close => rw [after_of_letsGo rfl]
      | change next => rfl

theorem index_after (situated : Situated σ η) (event : Event σ) :
    (after around situated event).1.index =
      if event.letsGo then none
      else situated.1.index.or
        (Moment.readable? around situated.1.indexPath ⟨event, situated⟩) := by
  cases hq : event.question? around with
  | some question =>
      obtain ⟨graph, hg⟩ := after_of_question hq situated
      rw [hg]
      cases event with
      | neighbors path direction => exact Option.or_none.symm
      | stats => exact Option.or_none.symm
      | search query limit => cases hq
      | reload => cases hq
      | close => cases hq
      | change next => cases hq
  | none =>
      cases event with
      | neighbors path direction =>
          rw [after_neighbors_of_eq (by simpa [Event.question?] using hq)]
          exact Option.or_none.symm
      | search query limit => rw [after_search]; rfl
      | stats => cases hq
      | reload => rw [after_of_letsGo rfl]; rfl
      | close => rw [after_of_letsGo rfl]; rfl
      | change next => exact Option.or_none.symm

theorem graph_after {event : Event σ} (hq : event.question? around = none)
    (hl : event.letsGo = false) (situated : Situated σ η) :
    (after around situated event).1.graph = situated.1.graph := by
  cases event with
  | neighbors path direction =>
      rw [after_neighbors_of_eq (by simpa [Event.question?] using hq)]
  | search query limit => rw [after_search]
  | stats => cases hq
  | reload => cases hl
  | close => cases hl
  | change next => rfl

/-! ## Counting the openings -/

theorem obtained_counted (navigator : Navigator η) (opens : Nat) (world : σ) :
    obtained around.counted (navigator, opens, world) =
      ((obtained around (navigator, world)).1, opens + navigator.graph.isNone.toNat,
        (obtained around (navigator, world)).2) := by
  rcases navigator with ⟨path, _ | graph, index⟩ <;> rfl

theorem perform_withGraph_counted (question : Action (η × σ) Unit) (navigator : Navigator η)
    (opens : Nat) (world : σ) :
    ((withGraph around.counted (Surroundings.beside question)).perform
        (navigator, opens, world)).2 =
      (((withGraph around question).perform (navigator, world)).2.1,
        opens + navigator.graph.isNone.toNat,
        ((withGraph around question).perform (navigator, world)).2.2) := by
  rw [perform_withGraph, perform_withGraph, obtained_counted]
  rcases obtained around (navigator, world) with ⟨error | graph, left⟩ <;> rfl

theorem perform_reload_counted (navigator : Navigator η) (opens : Nat) (world : σ) :
    ((reload around.counted).perform (navigator, opens, world)).2 =
      (((reload around).perform (navigator, world)).2.1, opens,
        ((reload around).perform (navigator, world)).2.2) := by
  rw [perform_reload, perform_reload]
  cases navigator.graph <;> rfl

theorem question?_counted (event : Event σ) :
    event.counted.question? around.counted = (event.question? around).map Surroundings.beside := by
  cases event with
  | neighbors path direction =>
      simp only [Event.counted, Event.question?]
      split
      · rfl
      · exact congrArg some (Surroundings.forget_beside _)
  | stats => exact congrArg some (Surroundings.forget_beside _)
  | search query limit => rfl
  | reload => rfl
  | close => rfl
  | change next => rfl

theorem after_counted (navigator : Navigator η) (opens : Nat) (world : σ) (event : Event σ) :
    after around.counted (navigator, opens, world) event.counted =
      ((after around (navigator, world) event).1,
        opens + (Moment.opensGraph around ⟨event, navigator, world⟩).toNat,
        (after around (navigator, world) event).2) := by
  cases hq : event.question? around with
  | some question =>
      have hc : event.counted.question? around.counted = some (Surroundings.beside question) := by
        rw [question?_counted, hq]
        rfl
      rw [after, after, perform_of_question hc, perform_of_question hq, perform_withGraph_counted,
        Moment.opensGraph, hq]
      rfl
  | none =>
      have ho : Moment.opensGraph around ⟨event, navigator, world⟩ = false := by
        rw [Moment.opensGraph, hq]
        rfl
      rw [ho]
      cases event with
      | neighbors path direction =>
          have hp : normalize path = "" := by simpa [Event.question?] using hq
          rw [after_neighbors_of_eq hp, Event.counted, after_neighbors_of_eq hp]
          rfl
      | search query limit =>
          rw [after_search, Event.counted, after_search]
          rfl
      | stats => cases hq
      | reload => exact perform_reload_counted navigator opens world
      | close => exact perform_reload_counted navigator opens world
      | change next => rfl

/-! ## Every past -/

section Past

variable (around) (path : String) (world : σ) (past : List (Event σ))

theorem afterAll_counted :
    afterAll around.counted (past.map Event.counted) (fresh path (0, world)) =
      ((afterAll around past (fresh path world)).1,
        (history around past (fresh path world)).countP (Moment.opensGraph around),
        (afterAll around past (fresh path world)).2) := by
  induction past using List.reverseRecOn with
  | nil => rfl
  | append_singleton past event ih =>
      rw [List.map_append, afterAll_append, ih, afterAll_append, history_append, List.countP_append]
      refine (after_counted _ _ _ event).trans ?_
      rw [history, history, List.countP_singleton]
      generalize Moment.opensGraph around _ = opens
      cases opens <;> rfl

theorem indexPath_afterAll :
    (afterAll around past (fresh path world)).1.indexPath = path := by
  induction past using List.reverseRecOn with
  | nil => rfl
  | append_singleton past event ih =>
      rw [afterAll_append]
      exact (indexPath_after _ event).trans ih

theorem index_afterAll :
    (afterAll around past (fresh path world)).1.index =
      remembered around path (history around past (fresh path world)) := by
  induction past using List.reverseRecOn with
  | nil => rfl
  | append_singleton past event ih =>
      rw [afterAll_append, history_append, history, history]
      refine (index_after _ event).trans ?_
      rw [indexPath_afterAll around path world past, ih]
      exact (remembered_append_singleton path _
        ⟨event, afterAll around past (fresh path world)⟩).symm

theorem search_afterAll (query : String) (limit : Nat) :
    ((search around query limit).perform (afterAll around past (fresh path world))).1 =
      if IsSearch query limit then
        match remembered around path (history around past (fresh path world)) with
        | some index => .ok (index.search .float query limit)
        | none =>
            (Search.Index.load (around.files (afterAll around past (fresh path world)).2) path).map
              fun index => index.search .float query limit
      else .error (refusal query) := by
  by_cases h : IsSearch query limit
  · rw [perform_search h, if_pos h, perform_loadedIndex, index_afterAll, indexPath_afterAll]
    cases remembered around path (history around past (fresh path world)) with
    | some index => rfl
    | none =>
        dsimp only
        generalize Search.Index.load _ path = loaded
        cases loaded <;> rfl
  · rw [perform_search_of_not h, if_neg h]

/-- The opener is called by the questions to the graph that find none, and by nothing else. The
graph stays until a question learns that it is not available; one that cannot be opened is not
there. Each search is one in the index file as it was when it could first be read since the
navigator let go. Whatever closing the graph says, a navigator that lets go is from then on like a
new one. -/
theorem handles_over_every_past :
    let start : Situated σ η := fresh path world
    let moments := history around past start
    let now := afterAll around past start
    -- openings
    afterAll around.counted (past.map Event.counted) (fresh path (0, world)) =
      (now.1, moments.countP (Moment.opensGraph around), now.2) ∧
    -- the graph
    (∀ (event : Event σ) (question : Action (η × σ) Unit),
      event.question? around = some question → (event.action around).perform now =
        match obtained around now with
        | (.error error, world) => (.error error, { now.1 with graph := none }, world)
        | (.ok graph, world) =>
            let (answer, left, world) := question.perform (graph, world)
            (answer, { now.1 with graph := if losesGraph answer then none else some left },
              world)) ∧
    (∀ event : Event σ, event.question? around = none → event.letsGo = false →
      (after around now event).1.graph = now.1.graph) ∧
    -- searches
    (∀ query limit, ((search around query limit).perform now).1 =
      if IsSearch query limit then
        match remembered around path moments with
        | some index => .ok (index.search .float query limit)
        | none => (Search.Index.load (around.files now.2) path).map fun index =>
            index.search .float query limit
      else .error (refusal query)) ∧
    -- letting go
    ∀ event : Event σ, event.letsGo = true → ∃ left,
      (event.action around).perform now =
        (match now.1.graph with
          | none => .ok ()
          | some graph => (around.close.perform (graph, now.2)).1, fresh path left) ∧
      ∀ later, history around (past ++ event :: later) start =
        moments ++ ⟨event, now⟩ :: history around later (fresh path left) := by
  intro start moments now
  have hp : now.1.indexPath = path := indexPath_afterAll around path world past
  refine ⟨afterAll_counted around path world past, ?_, fun event hq hl => graph_after hq hl now,
    search_afterAll around path world past, ?_⟩
  · intro event question hq
    rw [perform_of_question hq, perform_withGraph]
  · intro event hl
    refine ⟨(after around now event).2, ?_, fun later => ?_⟩
    · rw [after, perform_of_letsGo hl, perform_reload, hp]
      cases now.1.graph <;> rfl
    · rw [history_append, history, ← hp, ← after_of_letsGo hl now]

end Past

/-- A graph that can be opened at any time, but answers no question and is not closed readily. -/
def grudging : Surroundings FileTree Unit where
  files := id
  openGraph := pure ()
  neighbors path _ := throw (.datastoreUnavailable path "gone" "")
  stats := throw (.query "busy")
  close := throw (.query "in use")

def samplePast : List (Event FileTree) :=
  [.neighbors "./" .both, .stats, .stats, .neighbors "a.py" .incoming, .search "word" 3, .stats]

theorem handles_over_every_past_of_grudging :
    let now := afterAll grudging samplePast (fresh "index.json" {})
    Event.question? grudging .stats = some grudging.stats.forget ∧
    now.1.graph = some () ∧
    afterAll grudging.counted (samplePast.map Event.counted)
      (fresh "index.json" (0, {})) = (now.1, 2, now.2) ∧
    (Event.stats.action grudging).perform now = (.error (.query "busy"), now) ∧
    ((search grudging "word" 3).perform now).1 = .error (.indexNotFound "index.json") ∧
    ∃ left, (Event.reload.action grudging).perform now =
      (.error (.query "in use"), fresh "index.json" left) := by
  intro now
  obtain ⟨openings, graph, -, searches, lettingGo⟩ :=
    handles_over_every_past grudging "index.json" {} samplePast
  have count : (history grudging samplePast (fresh "index.json" {})).countP
      (Moment.opensGraph grudging) = 2 := by decide +kernel
  have nothing : (remembered grudging "index.json"
      (history grudging samplePast (fresh "index.json" {}))).isNone := by decide +kernel
  have files : grudging.files now.2 = {} := rfl
  have missing : Search.Index.load {} "index.json" = .error (.indexNotFound "index.json") := by rfl
  rw [count] at openings
  refine ⟨rfl, rfl, openings, (graph .stats _ rfl).trans rfl, (searches "word" 3).trans ?_, ?_⟩
  · rw [if_pos (by decide +kernel), Option.isNone_iff_eq_none.1 nothing, files, missing]
    rfl
  · obtain ⟨left, hl, -⟩ := lettingGo .reload rfl
    exact ⟨left, hl⟩

end Navigator

end CodeAtlas
