import CodeAtlas.Proofs.Remote.Grammar
import CodeAtlas.Proofs.Remote.Statements

/-!
# Loading a server

A load sends one statement for each batch and stops at the first one that the server does not take.
If it takes them all, the graph of the server is the same whichever way the edges were put together.
It also is if the server takes some statements for all relations and then refuses one, so that the
load begins again relation by relation: what was merged before is merged again, to no effect.
-/

namespace CodeAtlas.Remote

open CodeAtlas.Graph

namespace Client

/-! ## Sending -/

/-- The client when it has sent commands, read their replies and kept its connection. -/
def after (client : Client) (commands : List Command) : Client :=
  { client with
    stream := Reply.afterMany commands.length client.stream
    sent := client.sent ++ commands }

/-- The commands that a client sends for an action, each with what comes of it. -/
def exchanged {α : Type} (action : Action Client α) (client : Client) :
    List (Command × Except ReplyError Reply) :=
  let commands := (action.perform client).2.sent.drop client.sent.length
  commands.zip (Reply.readMany commands.length client.stream)

/-- Has a statement carried out that merges edges. -/
def merge : Merge → Action Client Unit
  | .all edges => mergeAll edges
  | .one relation edges => mergeOne relation edges

variable {client : Client}

theorem after_nil (client : Client) : client.after [] = client := by
  rw [after, List.append_nil]
  rfl

theorem after_append (client : Client) (commands more : List Command) :
    client.after (commands ++ more) = (client.after commands).after more := by
  simp [after, Reply.afterMany_add]

theorem exchanged_eq_append {α : Type} {action : Action Client α} {commands more : List Command}
    (h : (action.perform client).2.sent = client.sent ++ (commands ++ more)) :
    exchanged action client =
      commands.zip (Reply.readMany commands.length client.stream) ++
        more.zip (Reply.readMany more.length (client.after commands).stream) := by
  rw [exchanged, h, List.drop_left, List.length_append, Reply.readMany_add,
    List.zip_append (Reply.length_readMany _ _).symm]
  rfl

theorem exchanged_eq {α : Type} {action : Action Client α} {commands : List Command}
    (h : (action.perform client).2.sent = client.sent ++ commands) :
    exchanged action client = commands.zip (Reply.readMany commands.length client.stream) := by
  rw [exchanged, h, List.drop_left]

theorem load_eq (strategy : Strategy) (edges : List Edge) :
    load strategy edges =
      ((statements strategy edges).forM merge >>= fun _ => pure ⟨edges.length, strategy⟩) := by
  cases strategy with
  | generic =>
      rw [statements, List.forM_eq_forM, List.forM_map]
      rfl
  | perRelation =>
      simp only [load, statements, List.forM_eq_forM, Relation.all, List.forM_cons, List.forM_nil,
        List.flatMap_cons, List.flatMap_nil, List.forM_append, List.forM_map, List.append_nil,
        bind_assoc, pure_bind]
      rfl

theorem perform_query (hc : client.isConnected = true) (statement : String) :
    (query statement).perform client =
      match (Reply.read client.stream).1 with
      | .ok (.failure reason) =>
          (.error (.query reason), client.after [statementCommand client.graph statement])
      | .ok reply => (.ok reply, client.after [statementCommand client.graph statement])
      | .error (.stream cause) =>
          (.error (unavailable client.address cause.message "Is FalkorDB still running?"),
            { client.after [statementCommand client.graph statement] with isConnected := false })
      | .error (.malformed reason) =>
          (.error (ReplyError.malformed reason).toError,
            client.after [statementCommand client.graph statement]) := by
  have hp : (query statement).perform client = _ := if_pos hc
  have hcall : client.call (statementCommand client.graph statement) =
      ((Reply.read client.stream).1,
        client.after [statementCommand client.graph statement]) := rfl
  rw [hp, hcall]
  rcases (Reply.read client.stream).1 with (cause | reason) | reply
  · rfl
  · rfl
  · cases reply <;> rfl

theorem perform_merge_one (relation : Relation) (edges : List Edge) (client : Client) :
    (merge (.one relation edges)).perform client =
      ((query (Cypher.mergeOne relation edges)).forget).perform client := rfl

theorem sent_merge (hc : client.isConnected = true) (item : Merge) :
    ((merge item).perform client).2.sent = client.sent ++ [item.command client.graph] := by
  cases item with
  | all edges =>
      rw [merge, snd_perform_mergeAll]
      exact (sends_query hc _).sent
  | one relation edges =>
      rw [perform_merge_one, Action.perform_forget]
      exact (sends_query hc _).sent

theorem perform_merge_of_taken (hc : client.isConnected = true) (item : Merge)
    (ht : isTaken (Reply.read client.stream).1 = true) :
    (merge item).perform client = (.ok (), client.after [item.command client.graph]) := by
  have hquery (statement : String) : ∃ reply, (query statement).perform client =
      (.ok reply, client.after [statementCommand client.graph statement]) := by
    rw [perform_query hc]
    rcases he : (Reply.read client.stream).1 with error | reply
    · simp [he, isTaken] at ht
    · cases reply with
      | failure reason => simp [he, isTaken] at ht
      | _ => exact ⟨_, rfl⟩
  obtain ⟨reply, hr⟩ := hquery item.statement
  cases item with
  | all edges =>
      rw [merge, perform_mergeAll]
      rw [Merge.statement] at hr
      rw [hr]
      rfl
  | one relation edges =>
      rw [Merge.statement] at hr
      rw [perform_merge_one, Action.perform_forget, hr]
      rfl

theorem exists_perform_merge_of_refused (hc : client.isConnected = true) (item : Merge)
    (hf : isTaken (Reply.read client.stream).1 = false) :
    ∃ error, ((merge item).perform client).1 = .error error := by
  have hquery (statement : String) :
      ∃ error, ((query statement).perform client).1 = .error error := by
    rw [perform_query hc]
    rcases he : (Reply.read client.stream).1 with (cause | reason) | reply
    · exact ⟨_, rfl⟩
    · exact ⟨_, rfl⟩
    · cases reply with
      | failure reason => exact ⟨_, rfl⟩
      | _ => simp [he, isTaken] at hf
  obtain ⟨error, he⟩ := hquery item.statement
  cases item with
  | all edges =>
      rw [merge, perform_mergeAll]
      rw [Merge.statement] at he
      split <;> rename_i hp <;> rw [hp] at he
      · cases he
      · split <;> exact ⟨_, rfl⟩
      · exact ⟨_, rfl⟩
  | one relation edges =>
      rw [Merge.statement] at he
      rw [perform_merge_one, Action.perform_forget, he]
      exact ⟨_, rfl⟩

theorem perform_mergeAll_of_rejected (hc : client.isConnected = true) (edges : List Edge)
    {reason : String} (hr : (Reply.read client.stream).1 = .ok (.failure reason))
    (hj : isRejection reason = true) :
    (merge (.all edges)).perform client =
      (.error (.unsupported s!"generic relationship merge ({reason})"),
        client.after [(Merge.all edges).command client.graph]) := by
  rw [merge, perform_mergeAll, perform_query hc, hr]
  exact if_pos hj

/-! ## Sending one statement after the other -/

theorem all_taken_or_exists_refused (items : List Merge) (client : Client) :
    (∀ outcome ∈ Reply.readMany items.length client.stream, isTaken outcome = true) ∨
      ∃ front item rest, items = front ++ item :: rest ∧
        (∀ outcome ∈ Reply.readMany front.length client.stream, isTaken outcome = true) ∧
        isTaken (Reply.read
          (client.after (front.map (Merge.command client.graph))).stream).1 = false := by
  induction items generalizing client with
  | nil => exact .inl fun _ hm => by cases hm
  | cons item rest ih =>
      cases ht : isTaken (Reply.read client.stream).1 with
      | false => exact .inr ⟨[], item, rest, rfl, fun _ hm => (by cases hm), ht⟩
      | true =>
          rcases ih (client.after [item.command client.graph]) with
            hall | ⟨front, other, rest, rfl, hall, hf⟩
          · exact .inl (List.forall_mem_cons.2 ⟨ht, hall⟩)
          · exact .inr ⟨item :: front, other, rest, rfl, List.forall_mem_cons.2 ⟨ht, hall⟩, hf⟩

theorem perform_forM_append (hc : client.isConnected = true) (front rest : List Merge)
    (h : ∀ outcome ∈ Reply.readMany front.length client.stream, isTaken outcome = true) :
    ((front ++ rest).forM merge).perform client =
      (rest.forM merge).perform (client.after (front.map (Merge.command client.graph))) := by
  induction front generalizing client with
  | nil => rw [List.map_nil, after_nil, List.nil_append]
  | cons item front ih =>
      obtain ⟨ht, hfront⟩ := List.forall_mem_cons.1 h
      have hcons : ((item :: front ++ rest).forM merge) =
          (merge item >>= fun _ => (front ++ rest).forM merge) := rfl
      rw [hcons, Action.perform_bind, perform_merge_of_taken hc item ht]
      have hmiddle : (client.after [item.command client.graph]).isConnected = true := hc
      refine (ih hmiddle hfront).trans ?_
      rw [← after_append]
      rfl

theorem perform_load_of_taken (hc : client.isConnected = true) (strategy : Strategy)
    (edges : List Edge)
    (h : ∀ outcome ∈ Reply.readMany (statements strategy edges).length client.stream,
      isTaken outcome = true) :
    (load strategy edges).perform client = (.ok ⟨edges.length, strategy⟩,
      client.after ((statements strategy edges).map (Merge.command client.graph))) := by
  have hrun := perform_forM_append hc (statements strategy edges) [] h
  rw [List.append_nil] at hrun
  rw [load_eq, Action.perform_bind, hrun]
  rfl

theorem exists_perform_load_of_refused (hc : client.isConnected = true) {strategy : Strategy}
    {edges : List Edge} {front rest : List Merge} {item : Merge} {middle : Client}
    (he : statements strategy edges = front ++ item :: rest)
    (hm : client.after (front.map (Merge.command client.graph)) = middle)
    (h : ∀ outcome ∈ Reply.readMany front.length client.stream, isTaken outcome = true)
    (hf : isTaken (Reply.read middle.stream).1 = false) :
    ∃ error last, (merge item).perform middle = (.error error, last) ∧
      (load strategy edges).perform client = (.error error, last) ∧
      last.sent = client.sent ++ (front.map (Merge.command client.graph) ++
        [item.command client.graph]) := by
  have hmc : middle.isConnected = true := hm ▸ hc
  obtain ⟨error, herror⟩ := exists_perform_merge_of_refused hmc item hf
  have hp : (merge item).perform middle = (.error error, ((merge item).perform middle).2) :=
    Prod.ext herror rfl
  refine ⟨error, _, hp, ?_, ?_⟩
  · have hcons : (item :: rest).forM merge = (merge item >>= fun _ => rest.forM merge) := rfl
    rw [load_eq, he, Action.perform_bind, perform_forM_append hc front (item :: rest) h, hm, hcons,
      Action.perform_bind, hp]
  · rw [sent_merge hmc, ← List.append_assoc, ← hm]
    rfl

theorem mem_exchanged {α : Type} {action : Action Client α} {commands more : List Command}
    {command : Command}
    (h : (action.perform client).2.sent = client.sent ++ (commands ++ command :: more)) :
    (command, (Reply.read (client.after commands).stream).1) ∈ exchanged action client := by
  rw [exchanged_eq_append h]
  exact List.mem_append_right _ (List.mem_cons_self ..)

/-! ## Loads that are taken -/

/-- The server has refused a statement for all relations, as one that it does not know. -/
def IsUnsupported (name : String) (entry : Command × Except ReplyError Reply) : Prop :=
  ∃ batch reason, entry = ((Merge.all batch).command name, .ok (.failure reason)) ∧
    isRejection reason = true

/-- A load has ended well: behind the statements that it tried before, it sent some that carry the
edges, and in the graph of the server there are the links of the edges besides those before. -/
structure Loads (action : Action Client LoadSummary) (client : Client) (strategy : Strategy)
    (edges : List Edge) (tried : List Merge) : Prop where
  result : (action.perform client).1 = .ok ⟨edges.length, strategy⟩
  sent : ∃ merges, (action.perform client).2.sent =
    client.sent ++ (tried ++ merges).map (Merge.command client.graph) ∧
      Carries strategy edges merges
  graph : ∀ before after : LinkGraph, Serves client.graph before (exchanged action client) after ↔
    after = before.add (properKeys edges)

theorem loads_of_perform {action : Action Client LoadSummary} {strategy : Strategy}
    {edges : List Edge}
    (hp : action.perform client = (.ok ⟨edges.length, strategy⟩,
      client.after ((statements strategy edges).map (Merge.command client.graph))))
    (hall : ∀ outcome ∈ Reply.readMany (statements strategy edges).length client.stream,
      isTaken outcome = true) :
    Loads action client strategy edges [] := by
  have hsent := congrArg (fun outcome => outcome.2.sent) hp
  have hcarries := carries_statements strategy edges
  refine ⟨by rw [hp], ⟨_, hsent, hcarries⟩, fun before after => ?_⟩
  rw [exchanged_eq hsent, List.length_map, Serves.zip_iff (Reply.length_readMany _ _) hall,
    LinkGraph.add_congr before fun key => hcarries.keys_perm.mem_iff]

/-- Statements for all relations have been taken, one has been refused, and those relation by
relation have all been taken. -/
theorem loads_of_perform_again {action : Action Client LoadSummary} {edges : List Edge}
    {front rest : List Merge} {item : Merge} {middle next : Client}
    (he : statements .generic edges = front ++ item :: rest)
    (hm : client.after (front.map (Merge.command client.graph)) = middle)
    (hn : middle.after [item.command client.graph] = next)
    (hfront : ∀ outcome ∈ Reply.readMany front.length client.stream, isTaken outcome = true)
    (hf : isTaken (Reply.read middle.stream).1 = false)
    (hp : action.perform client = (.ok ⟨edges.length, .perRelation⟩,
      next.after ((statements .perRelation edges).map (Merge.command client.graph))))
    (hall : ∀ outcome ∈ Reply.readMany (statements .perRelation edges).length next.stream,
      isTaken outcome = true) :
    Loads action client .perRelation edges (front ++ [item]) := by
  have hcarries := carries_statements .perRelation edges
  have hsent : (action.perform client).2.sent = client.sent ++
      (front.map (Merge.command client.graph) ++ item.command client.graph ::
        (statements .perRelation edges).map (Merge.command client.graph)) := by
    rw [hp, ← hn, ← hm]
    simp [after]
  refine ⟨by rw [hp], ⟨_, by rw [hsent]; simp, hcarries⟩, fun before after => ?_⟩
  have hkeys : ∀ key, key ∈ front.flatMap Merge.keys ++
      (statements .perRelation edges).flatMap Merge.keys ↔ key ∈ properKeys edges := by
    intro key
    rw [List.mem_append, hcarries.keys_perm.mem_iff, or_iff_right_iff_imp,
      ← (carries_statements .generic edges).keys_perm.mem_iff, he, List.flatMap_append]
    exact List.mem_append_left _
  have hlog : exchanged action client = _ := exchanged_eq_append hsent
  have hrest (graph last : LinkGraph) : Serves client.graph graph
      ((item.command client.graph :: (statements .perRelation edges).map
          (Merge.command client.graph)).zip
        (Reply.readMany (item.command client.graph :: (statements .perRelation edges).map
          (Merge.command client.graph)).length middle.stream)) last ↔
      last = graph.add ((statements .perRelation edges).flatMap Merge.keys) := by
    rw [List.length_cons, List.length_map, Reply.readMany, List.zip_cons_cons,
      Serves.refused_cons_iff hf]
    subst hn
    exact Serves.zip_iff (Reply.length_readMany _ _) hall
  rw [hlog, hm, Serves.append_iff, List.length_map]
  simp only [Serves.zip_iff (Reply.length_readMany _ _) hfront, hrest, exists_eq_left,
    LinkGraph.add_add, LinkGraph.add_congr before hkeys]

theorem loads_load (hc : client.isConnected = true) (strategy : Strategy) (edges : List Edge)
    (h : ∀ entry ∈ exchanged (load strategy edges) client, isTaken entry.2 = true) :
    Loads (load strategy edges) client strategy edges [] := by
  rcases all_taken_or_exists_refused (statements strategy edges) client with
    hall | ⟨front, item, rest, he, hfront, hf⟩
  · exact loads_of_perform (perform_load_of_taken hc strategy edges hall) hall
  · obtain ⟨error, last, -, hp, hsent⟩ := exists_perform_load_of_refused hc he rfl hfront hf
    rw [h _ (mem_exchanged (by rw [hp]; exact hsent))] at hf
    cases hf

theorem exists_sent_loadWithFallback (edges : List Edge) (client : Client) :
    ∃ more, ((loadWithFallback fun strategy => load strategy edges).perform client).2.sent =
      ((load .generic edges).perform client).2.sent ++ more := by
  rw [perform_loadWithFallback]
  split
  · rename_i he
    obtain ⟨more, hm⟩ := exchanges_load .perRelation edges _
    rw [he]
    exact ⟨more, hm.sent⟩
  · exact ⟨[], (List.append_nil _).symm⟩

theorem perform_loadWithFallback_of_rejected (hc : client.isConnected = true) {edges : List Edge}
    {front rest : List Merge} {batch : List Edge} {middle : Client} {reason : String}
    (he : statements .generic edges = front ++ .all batch :: rest)
    (hm : client.after (front.map (Merge.command client.graph)) = middle)
    (h : ∀ outcome ∈ Reply.readMany front.length client.stream, isTaken outcome = true)
    (hr : (Reply.read middle.stream).1 = .ok (.failure reason))
    (hj : isRejection reason = true) :
    (loadWithFallback fun strategy => load strategy edges).perform client =
      (load .perRelation edges).perform
        (middle.after [(Merge.all batch).command client.graph]) := by
  have hmc : middle.isConnected = true := hm ▸ hc
  have hmg : middle.graph = client.graph := hm ▸ rfl
  obtain ⟨error, last, hmerge, hload, -⟩ :=
    exists_perform_load_of_refused hc he hm h (by rw [hr]; rfl)
  rw [perform_mergeAll_of_rejected hmc batch hr hj, hmg] at hmerge
  obtain ⟨herror, hlast⟩ := Prod.mk.inj hmerge
  rw [perform_loadWithFallback, hload, ← Except.error.inj herror, ← hlast]

theorem all_taken_again (hc : client.isConnected = true) {edges : List Edge} {front : List Merge}
    {command : Command} {next : Client}
    (hn : (client.after (front.map (Merge.command client.graph))).after [command] = next)
    (hagain : (loadWithFallback fun strategy => load strategy edges).perform client =
      (load .perRelation edges).perform next)
    (h : ∀ entry ∈ exchanged (loadWithFallback fun strategy => load strategy edges) client,
      isTaken entry.2 = true ∨ IsUnsupported client.graph entry) :
    ∀ outcome ∈ Reply.readMany (statements .perRelation edges).length next.stream,
      isTaken outcome = true := by
  have hnc : next.isConnected = true := hn ▸ hc
  have hng : next.graph = client.graph := hn ▸ rfl
  rcases all_taken_or_exists_refused (statements .perRelation edges) next with
    hall | ⟨more, item, rest, he, hmore, hf⟩
  · exact hall
  exfalso
  obtain ⟨error, last, -, hload, hsent⟩ := exists_perform_load_of_refused hnc he rfl hmore hf
  have hlast : client.after (front.map (Merge.command client.graph) ++ command ::
      more.map (Merge.command client.graph)) = next.after (more.map (Merge.command next.graph)) := by
    rw [List.append_cons, after_append, after_append, hn, hng]
  have hfinal : ((loadWithFallback fun strategy => load strategy edges).perform client).2.sent =
      client.sent ++ ((front.map (Merge.command client.graph) ++ command ::
        more.map (Merge.command client.graph)) ++ [item.command client.graph]) := by
    rw [hagain, hload, hsent, hng, ← hn]
    simp [after]
  have hentry := h _ (mem_exchanged hfinal)
  rw [hlast, hf] at hentry
  obtain ⟨batch, reason, hreason, -⟩ := hentry.resolve_left (by simp)
  obtain ⟨relation, hone, -⟩ := (carries_statements .perRelation edges).isOf item (by simp [he])
  have hstatement := Merge.statement_eq_of_command_eq (Prod.mk.inj hreason).1
  rw [hone] at hstatement
  exact Merge.statement_all_ne_one _ _ _ hstatement.symm

/-- If all statements are taken but some for all relations, of which the server says that it does not
know them, then a load ends well, relation by relation where it has to. -/
theorem loads_loadWithFallback (hc : client.isConnected = true) (edges : List Edge)
    (h : ∀ entry ∈ exchanged (loadWithFallback fun strategy => load strategy edges) client,
      isTaken entry.2 = true ∨ IsUnsupported client.graph entry) :
    Loads (loadWithFallback fun strategy => load strategy edges) client .generic edges [] ∨
      ∃ tried merges, Carries .generic edges merges ∧ tried <+: merges ∧ tried ≠ [] ∧
        Loads (loadWithFallback fun strategy => load strategy edges) client .perRelation edges
          tried := by
  rcases all_taken_or_exists_refused (statements .generic edges) client with
    hall | ⟨front, item, rest, he, hfront, hf⟩
  · left
    refine loads_of_perform ?_ hall
    rw [perform_loadWithFallback, perform_load_of_taken hc .generic edges hall]
  · right
    have hcarries := carries_statements .generic edges
    obtain ⟨batch, rfl⟩ : ∃ batch, item = .all batch := ⟨_, hcarries.isOf item (by simp [he])⟩
    -- what was refused stands among the commands exchanged, and so it is a statement not supported
    obtain ⟨error, last, -, hload, hsent⟩ := exists_perform_load_of_refused hc he rfl hfront hf
    obtain ⟨more, hmore⟩ := exists_sent_loadWithFallback edges client
    rw [hload, hsent, List.append_assoc, List.append_assoc] at hmore
    have hentry := h _ (mem_exchanged hmore)
    rw [hf] at hentry
    obtain ⟨others, reason, hreason, hrejection⟩ := hentry.resolve_left (by simp)
    have hagain := perform_loadWithFallback_of_rejected hc he rfl hfront (Prod.mk.inj hreason).2
      hrejection
    have hall := all_taken_again hc rfl hagain h
    refine ⟨front ++ [.all batch], _, hcarries, ⟨rest, by simp [he]⟩, by simp, ?_⟩
    have hnext : ((client.after (front.map (Merge.command client.graph))).after
        [(Merge.all batch).command client.graph]).isConnected = true := hc
    exact loads_of_perform_again he rfl rfl hfront hf
      (hagain.trans (perform_load_of_taken hnext .perRelation edges hall)) hall

/-- Both strategies leave the same graph on a server that takes all of their statements, and so does
a load that falls back because a statement for all relations was refused, whichever of them it was. -/
theorem sameGraph_of_load (hc : client.isConnected = true) (edges : List Edge) :
    (∀ strategy, (∀ entry ∈ exchanged (load strategy edges) client, isTaken entry.2 = true) →
      Loads (load strategy edges) client strategy edges []) ∧
    ((∀ entry ∈ exchanged (loadWithFallback fun strategy => load strategy edges) client,
        isTaken entry.2 = true ∨ IsUnsupported client.graph entry) →
      Loads (loadWithFallback fun strategy => load strategy edges) client .generic edges [] ∨
        ∃ tried merges, Carries .generic edges merges ∧ tried <+: merges ∧ tried ≠ [] ∧
          Loads (loadWithFallback fun strategy => load strategy edges) client .perRelation edges
            tried) :=
  ⟨fun strategy => loads_load hc strategy edges, loads_loadWithFallback hc edges⟩

/-- A client of a server that does not know statements for all relations. -/
def sampleClient : Client where
  graph := "code"
  address := "localhost:6379"
  stream := Reply.frames [.failure "ERR FOREACH unknown", .status "OK", .status "OK"]

def sampleEdges : List Edge :=
  [⟨"b.py", "a.py", .inherits, none⟩, ⟨"a.py", "a.py", .imports, none⟩,
    ⟨"b.py", "a.py", .imports, none⟩, ⟨"b.py", "a.py", .inherits, none⟩]

theorem sameGraph_of_load_of_sampleEdges :
    sampleClient.isConnected = true ∧
      ∃ tried, tried ≠ [] ∧ Loads (loadWithFallback fun strategy => load strategy sampleEdges)
        sampleClient .perRelation sampleEdges tried := by
  have hc : sampleClient.isConnected = true := rfl
  have hfirst : Reply.read sampleClient.stream =
      (.ok (.failure "ERR FOREACH unknown"), Reply.frames [.status "OK", .status "OK"]) :=
    (Reply.isWritten_frame (by decide)).read_append _
  have hsecond : Reply.read (Reply.frames [.status "OK", .status "OK"]) =
      (.ok (.status "OK"), Reply.frames [.status "OK"]) :=
    (Reply.isWritten_frame (by decide)).read_append _
  have hthird : Reply.read (Reply.frames [.status "OK"]) = (.ok (.status "OK"), []) :=
    (Reply.isWritten_frame (by decide)).read_append _
  have hread : Reply.readMany 3 sampleClient.stream =
      [.ok (.failure "ERR FOREACH unknown"), .ok (.status "OK"), .ok (.status "OK")] := by
    simp only [Reply.readMany, hfirst, hsecond, hthird]
  obtain ⟨hfailure, hrest⟩ := List.cons.inj hread
  have hlast : ∀ outcome ∈ Reply.readMany 2 (Reply.read sampleClient.stream).2,
      isTaken outcome = true := hrest ▸ by decide
  have hagain := perform_loadWithFallback_of_rejected hc
    (show statements .generic sampleEdges = [] ++ .all _ :: [] from rfl) (after_nil _)
    (fun _ hm => by cases hm) hfailure rfl
  generalize hn : sampleClient.after _ = next at hagain
  have hnext : next.isConnected = true := hn ▸ hc
  have hp := hagain.trans (perform_load_of_taken hnext .perRelation sampleEdges (hn ▸ hlast))
  have hlog : exchanged (loadWithFallback fun strategy => load strategy sampleEdges)
      sampleClient = _ :=
    exchanged_eq (by rw [hp, ← hn]; exact List.append_assoc ..)
  have htaken : ∀ entry ∈ exchanged (loadWithFallback fun strategy => load strategy sampleEdges)
      sampleClient, isTaken entry.2 = true ∨ IsUnsupported sampleClient.graph entry := by
    rw [hlog]
    show ∀ entry ∈ (_, (Reply.read sampleClient.stream).1) ::
      List.zip _ (Reply.readMany 2 (Reply.read sampleClient.stream).2), _
    rw [hfailure]
    exact List.forall_mem_cons.2
      ⟨.inr ⟨_, _, rfl, rfl⟩, fun entry hm => .inl (hlast _ (List.of_mem_zip hm).2)⟩
  refine ⟨hc, ?_⟩
  rcases (sameGraph_of_load hc sampleEdges).2 htaken with h | ⟨tried, _, _, _, hne, h⟩
  · have hresult := h.result.symm.trans (congrArg Prod.fst hp)
    cases hresult
  · exact ⟨tried, hne, h⟩

end Client

end CodeAtlas.Remote
