import CodeAtlas.Proofs.Graph.Operation
import CodeAtlas.Proofs.Remote.Buffers

/-!
# When a connection is over

A client that has lost its connection, or has hung up, sends nothing any more and refuses whatever
needs the server. That is so just where it was told to hang up, or where the stream failed while a
reply was read. After a malformed reply the client goes on, and reads what that reply left over.

All of this is what a client does whose replies can be kept. A reply that announces more than there
is memory for ends the program while it is read, and the client with it.
-/

namespace CodeAtlas.Remote.Client

open CodeAtlas.Graph

theorem call_of_answer? {memory : Nat} {client : Client} {answer : Reply.Read Reply}
    (h : Reply.answer? memory client.stream = some answer) (command : Command) :
    client.call command =
      (answer.1, { client with stream := answer.2, sent := client.sent ++ [command] }) := by
  rw [(Reply.answer?_eq_some_iff.1 h).2]
  rfl

/-! ## Refusal -/

/-- Without a connection the action fails and changes nothing. -/
def Refuses {α : Type} (action : Action Client α) : Prop :=
  ∀ client : Client, client.isConnected = false →
    action.perform client = (.error client.closedError, client)

section

variable {α β : Type}

theorem Refuses.bind {action : Action Client α} (h : Refuses action) (next : α → Action Client β) :
    Refuses (action >>= next) := by
  intro client hc
  rw [Action.perform_bind, h client hc]

theorem Refuses.forget {action : Action Client α} (h : Refuses action) : Refuses action.forget :=
  h.bind _

theorem refuses_forM {action : α → Action Client Unit} {items : List α}
    (h : ∀ item ∈ items, action item = pure () ∨ Refuses (action item))
    (hs : ∃ item ∈ items, Refuses (action item)) : Refuses (items.forM action) := by
  induction items with
  | nil => simp at hs
  | cons item rest ih =>
      obtain ⟨other, hm, ho⟩ := hs
      rcases List.mem_cons.1 hm with rfl | hm
      · exact ho.bind _
      · rcases h item (by simp) with hp | hr
        · have hrest : Refuses (rest.forM action) :=
            ih (fun item hm => h item (by simp [hm])) ⟨other, hm, ho⟩
          intro client hc
          show (action item >>= fun _ => rest.forM action).perform client = _
          rw [Action.perform_bind, hp, Action.perform_pure]
          exact hrest client hc
        · exact hr.bind _

end

theorem refuses_query (statement : String) : Refuses (query statement) :=
  fun _ hc => perform_query_of_disconnected hc statement

theorem refuses_rows (statement : String) : Refuses (rows statement) :=
  (refuses_query statement).bind _

theorem refuses_mergeAll (edges : List Edge) : Refuses (mergeAll edges) := by
  intro client hc
  rw [perform_mergeAll, refuses_query _ client hc]
  rfl

theorem refuses_mergeOne (relation : Relation) (edges : List Edge) :
    Refuses (mergeOne relation edges) := (refuses_query _).bind _

theorem refuses_batches {action : List Edge → Action Client Unit}
    (h : ∀ batch, Refuses (action batch)) {edges : List Edge} (hne : edges ≠ []) :
    Refuses ((batches edges).forM action) := by
  obtain ⟨batch, hm⟩ := List.exists_mem_of_ne_nil _ (batches_ne_nil hne)
  exact refuses_forM (fun batch _ => .inr (h batch)) ⟨batch, hm, h batch⟩

theorem refuses_load {strategy : Strategy} {edges : List Edge}
    (h : ∃ edge ∈ edges, edge.isLoop = false) : Refuses (load strategy edges) := by
  obtain ⟨edge, hm, hl⟩ := h
  have hproper : edge ∈ edges.filter fun edge => !edge.isLoop := by simp [hm, hl]
  cases strategy with
  | generic => exact (refuses_batches refuses_mergeAll (List.ne_nil_of_mem hproper)).bind _
  | perRelation =>
      refine (refuses_forM (fun relation _ => ?_) ⟨edge.relation, Relation.mem_all _, ?_⟩).bind _
      · by_cases hne : (edges.filter fun edge => !edge.isLoop).filter
            (fun edge => edge.relation = relation) = []
        · left
          rw [hne]
          rfl
        · exact .inr (refuses_batches (refuses_mergeOne relation) hne)
      · refine refuses_batches (refuses_mergeOne _) (List.ne_nil_of_mem (a := edge) ?_)
        simpa using hproper

theorem refuses_loadWithFallback {edges : List Edge} (h : ∃ edge ∈ edges, edge.isLoop = false) :
    Refuses (loadWithFallback fun strategy => load strategy edges) := by
  intro client hc
  rw [perform_loadWithFallback, refuses_load h client hc]
  rfl

theorem refuses_clear : Refuses clear := (refuses_query _).bind _

theorem refuses_neighbors (file : String) (direction : Direction) :
    Refuses (neighbors file direction) := by
  cases direction with
  | incoming =>
      intro client hc
      show (neighborsIn file .incoming .outgoing >>= _).perform client = _
      rw [Action.perform_bind]
      exact (((refuses_rows _).bind _).bind _) client hc
  | outgoing => exact ((refuses_rows _).bind _).bind _
  | both => exact ((refuses_rows _).bind _).bind _

theorem refuses_stats : Refuses stats := (refuses_rows _).bind _

/-! ## Operations -/

def actionOf : Operation → Action Client Unit
  | .load edges strategy => (load strategy edges).forget
  | .loadWithFallback edges => (loadWithFallback fun strategy => load strategy edges).forget
  | .clear => clear
  | .neighbors file direction => (neighbors file direction).forget
  | .stats => stats.forget
  | .close => close

theorem perform_action_server (operation : Operation) (client : Client) (workspace : Workspace) :
    operation.action.perform (.server client, workspace) =
      (((actionOf operation).perform client).1,
        .server ((actionOf operation).perform client).2, workspace) := by
  cases operation with
  | loadWithFallback edges =>
      rw [Operation.action, actionOf, Action.perform_forget, Action.perform_forget,
        perform_loadWithFallback, perform_loadWithFallback]
      have hgeneric : (Handle.load edges .generic).perform (.server client, workspace) =
          (((load .generic edges).perform client).1,
            .server ((load .generic edges).perform client).2, workspace) := rfl
      rw [hgeneric]
      rcases (load .generic edges).perform client with ⟨error | summary, last⟩
      · cases error <;> rfl
      · rfl
  | load edges strategy => simp only [Operation.action, actionOf, Action.perform_forget]; rfl
  | neighbors file direction => simp only [Operation.action, actionOf, Action.perform_forget]; rfl
  | stats => simp only [Operation.action, actionOf, Action.perform_forget]; rfl
  | clear => rfl
  | close => rfl

/-- The operation needs an answer of the server: it asks for something, or it loads an edge that is
not a loop. -/
def NeedsServer : Operation → Prop
  | .load edges _ => ∃ edge ∈ edges, edge.isLoop = false
  | .loadWithFallback edges => ∃ edge ∈ edges, edge.isLoop = false
  | .clear => True
  | .neighbors _ _ => True
  | .stats => True
  | .close => False

theorem refuses_actionOf {operation : Operation} (h : NeedsServer operation) :
    Refuses (actionOf operation) := by
  cases operation with
  | load edges strategy => exact (refuses_load h).forget
  | loadWithFallback edges => exact (refuses_loadWithFallback h).forget
  | clear => exact refuses_clear
  | neighbors file direction => exact (refuses_neighbors file direction).forget
  | stats => exact refuses_stats.forget
  | close => exact h.elim

theorem exchanges_actionOf {operation : Operation} (h : operation ≠ .close) :
    Exchanges (actionOf operation) := by
  cases operation with
  | load edges strategy => exact (exchanges_load strategy edges).forget
  | loadWithFallback edges => exact (exchanges_loadWithFallback edges).forget
  | clear => exact exchanges_clear
  | neighbors file direction => exact (exchanges_neighbors file direction).forget
  | stats => exact exchanges_stats.forget
  | close => exact absurd rfl h

/-! ## Runs -/

/-- Operations one after the other take a client from one state to another by way of commands. -/
structure RunsTo (first : Client) (operations : List Operation) (commands : List Command)
    (last : Client) : Prop where
  sent : last.sent = first.sent ++ commands
  stream : last.stream = Reply.afterMany commands.length first.stream
  isConnected : last.isConnected = false ↔ first.isConnected = false ∨ .close ∈ operations ∨
    ∃ cause, .error (.stream cause) ∈ Reply.readMany commands.length first.stream
  silent : first.isConnected = false → last = first

namespace RunsTo

variable {first middle last : Client} {operations more : List Operation}
  {commands others : List Command}

theorem of_sends (h : first.Sends commands last) (hn : .close ∉ operations) :
    first.RunsTo operations commands last where
  sent := h.sent
  stream := h.stream
  isConnected := by
    rw [← Bool.not_eq_true, h.isConnected, ← Bool.not_eq_true]
    simp only [hn, false_or]
    grind
  silent := h.eq_of_disconnected

theorem nil (client : Client) : client.RunsTo [] [] client := of_sends (.refl client) (by simp)

theorem close (client : Client) :
    ∃ commands, client.RunsTo [.close] commands (Client.close.perform client).2 := by
  by_cases hc : client.isConnected = true
  · refine ⟨[["QUIT"]], ?_⟩
    have hp : (Client.close.perform client).2 =
        { (client.call ["QUIT"]).2 with isConnected := false } := congrArg Prod.snd (if_pos hc)
    rw [hp]
    exact ⟨rfl, rfl, by simp, by simp [hc]⟩
  · have hp : (Client.close.perform client).2 = client := congrArg Prod.snd (if_neg hc)
    rw [hp]
    exact ⟨[], by simp, rfl, by simpa using hc, fun _ => rfl⟩

theorem trans (h : first.RunsTo operations commands middle) (hm : middle.RunsTo more others last) :
    first.RunsTo (operations ++ more) (commands ++ others) last where
  sent := by rw [hm.sent, h.sent, List.append_assoc]
  stream := by rw [hm.stream, h.stream, List.length_append, Reply.afterMany_add]
  isConnected := by
    rw [hm.isConnected, h.isConnected, h.stream, List.length_append, Reply.readMany_add]
    simp only [List.mem_append]
    grind
  silent hf := by
    obtain rfl := h.silent hf
    exact hm.silent hf

end RunsTo

theorem runsTo_of_operation (operation : Operation) (client : Client) :
    ∃ commands, client.RunsTo [operation] commands ((actionOf operation).perform client).2 := by
  by_cases hn : operation = .close
  · subst hn
    exact RunsTo.close client
  · obtain ⟨commands, h⟩ := exchanges_actionOf hn client
    exact ⟨commands, .of_sends h (by simpa [eq_comm] using hn)⟩

theorem exists_runsTo (operations : List Operation) (client : Client) (workspace : Workspace) :
    ∃ commands last, client.RunsTo operations commands last ∧
      Operation.afterAll operations (.server client, workspace) = (.server last, workspace) := by
  induction operations generalizing client with
  | nil => exact ⟨[], client, .nil client, rfl⟩
  | cons operation rest ih =>
      obtain ⟨commands, h⟩ := runsTo_of_operation operation client
      obtain ⟨more, last, hl, he⟩ := ih ((actionOf operation).perform client).2
      refine ⟨commands ++ more, last, h.trans hl, ?_⟩
      rw [Operation.afterAll, List.foldl_cons, Operation.after, perform_action_server]
      exact he

/-! ## The end of a connection -/

/-- Whatever is done from here on, nothing is sent, and what needs the server is refused. -/
structure Unusable (client : Client) : Prop where
  silent : ∀ (operations : List Operation) (workspace : Workspace), ∃ last : Client,
    Operation.afterAll operations (.server client, workspace) = (.server last, workspace) ∧
      last.sent = client.sent
  refused : ∀ (operations : List Operation) (workspace : Workspace) (operation : Operation),
    NeedsServer operation →
      (operation.action.perform
        (Operation.afterAll operations (.server client, workspace))).1 = .error client.closedError

theorem snd_perform_clear (client : Client) :
    (clear.perform client).2 = ((query Cypher.clear).perform client).2 := by
  rw [clear, Action.perform_bind]
  rcases (query Cypher.clear).perform client with ⟨_ | reply, last⟩ <;> rfl

theorem unusable_iff {client : Client} : client.Unusable ↔ client.isConnected = false := by
  constructor
  · intro h
    refine Bool.eq_false_iff.2 fun hc => ?_
    obtain ⟨last, he, hs⟩ := h.silent [.clear] {}
    rw [Operation.afterAll, List.foldl_cons, List.foldl_nil, Operation.after,
      perform_action_server] at he
    have hclear : (clear.perform client).2 = last := Handle.server.inj (Prod.mk.inj he).1
    have hquery := (sends_query hc Cypher.clear).sent
    rw [← snd_perform_clear, hclear, hs] at hquery
    simp at hquery
  · intro hc
    constructor
    · intro operations workspace
      obtain ⟨commands, last, hr, he⟩ := exists_runsTo operations client workspace
      exact ⟨last, he, by rw [hr.silent hc]⟩
    · intro operations workspace operation hn
      obtain ⟨commands, last, hr, he⟩ := exists_runsTo operations client workspace
      rw [he, hr.silent hc, perform_action_server, refuses_actionOf hn client hc]

/-! ## Connecting -/

/-- A client as it is before it says anything. -/
def start (settings : GraphSettings) (endpoint : Endpoint) (stream : Bytes) : Client :=
  { graph := settings.graphName, address := endpoint.address, stream }

theorem sends_authenticate {endpoint : Endpoint} {client last : Client}
    (hc : client.isConnected = true) (h : (authenticate endpoint).perform client = (.ok (), last)) :
    ∃ commands, client.Sends commands last := by
  simp only [authenticate, Action.perform, ExceptT.run, ExceptT.mk, StateT.run] at h
  cases hp : endpoint.password with
  | none =>
      simp only [hp, Prod.mk.injEq, true_and] at h
      exact ⟨[], h ▸ .refl client⟩
  | some password =>
      simp only [hp] at h
      generalize "AUTH" :: endpoint.user.toList ++ [password] = command at h
      cases hr : refusal? (client.call command).1 with
      | some reason => simp [hr] at h
      | none =>
          simp only [hr, Prod.mk.injEq, true_and] at h
          refine ⟨[command], h ▸ .of_call command hc fun cause he => ?_⟩
          have hread : (client.call command).1 = .error (.stream cause) := he
          rw [hread] at hr
          cases hr

theorem sends_greet {endpoint : Endpoint} {client last : Client} (hc : client.isConnected = true)
    (h : (greet endpoint).perform client = (.ok (), last)) :
    ∃ commands, client.Sends commands last := by
  rw [greet, Action.perform_bind] at h
  rcases ha : (authenticate endpoint).perform client with ⟨error | value, middle⟩
  · simp [ha] at h
  · obtain ⟨commands, hs⟩ := sends_authenticate hc ha
    obtain ⟨more, hm⟩ := exchanges_query Cypher.createIndex middle
    simp only [ha, Action.perform_bind, Action.perform_attempt, Action.perform_pure,
      Prod.mk.injEq, true_and] at h
    exact ⟨commands ++ more, h ▸ hs.trans hm⟩

theorem sends_connect {settings : GraphSettings} {dial : Dialer} {endpoint : Endpoint}
    {stream : Bytes} {client : Client} (hparse : Endpoint.parse settings.url = .ok endpoint)
    (hdial : dial (endpoint.withSettings settings).address = .ok stream)
    (hconnect : (connect settings dial).outcome = .ok client) :
    ∃ commands, (start settings (endpoint.withSettings settings) stream).Sends commands client := by
  simp only [connect, hparse, hdial] at hconnect
  rcases hg : (greet (endpoint.withSettings settings)).perform
    (start settings (endpoint.withSettings settings) stream) with ⟨error | value, last⟩
  · rw [start] at hg
    simp [hg] at hconnect
  · obtain ⟨commands, hs⟩ := sends_greet rfl hg
    rw [start] at hg
    simp only [hg, Except.ok.injEq] at hconnect
    exact ⟨commands, hconnect ▸ hs⟩

/-- After any operations on a server that was connected to, each reply has been read from where the
one before it ended, well or not. The client is unusable just where it was told to hang up or the
stream failed while one of these replies was read, that to the making of the index included. The
program has not ended on the way just if there was memory for each reply, which was then read as it
can be kept. -/
theorem unusable_iff_of_connect {settings : GraphSettings} {dial : Dialer} {endpoint : Endpoint}
    {stream : Bytes} {client : Client} (hparse : Endpoint.parse settings.url = .ok endpoint)
    (hdial : dial (endpoint.withSettings settings).address = .ok stream)
    (hconnect : (connect settings dial).outcome = .ok client) (operations : List Operation)
    (workspace : Workspace) :
    ∃ last : Client,
      Operation.afterAll operations (.server client, workspace) = (.server last, workspace) ∧
      last.stream = Reply.afterMany last.sent.length stream ∧
      (last.Unusable ↔ .close ∈ operations ∨
        ∃ cause, .error (.stream cause) ∈ Reply.readMany last.sent.length stream) ∧
      ∀ memory, Reply.endsProgram memory last.sent.length stream = false ↔
        ∀ index < last.sent.length, Reply.answer? memory (Reply.afterMany index stream) =
          some (Reply.read (Reply.afterMany index stream)) := by
  obtain ⟨commands, hs⟩ := sends_connect hparse hdial hconnect
  obtain ⟨more, last, hr, he⟩ := exists_runsTo operations client workspace
  have hrun := (RunsTo.of_sends hs (by simp) : RunsTo _ [] _ _).trans hr
  have hsent : last.sent = commands ++ more := hrun.sent
  refine ⟨last, he, ?_, ?_, fun memory => Reply.endsProgram_eq_false_iff⟩
  · rw [hsent, hrun.stream]
    rfl
  · rw [unusable_iff, hrun.isConnected, hsent]
    simp [start]

def sampleSettings : GraphSettings := { url := "localhost", graphName := "g" }

/-- A reply to the making of the index, and a list whose first item is no reply. The second item is
a set of rows, which stays unread. -/
def sampleStream : Bytes :=
  Text.Utf8.encode <| "+OK\r\n" ++ "*2\r\n?\r\n" ++
    "*3\r\n*0\r\n*1\r\n*2\r\n*2\r\n:2\r\n$4\r\nx.py\r\n*2\r\n:2\r\n$7\r\nIMPORTS\r\n*0\r\n"

theorem unusable_iff_of_sampleStream :
    ∃ endpoint client, Endpoint.parse sampleSettings.url = .ok endpoint ∧
      (connect sampleSettings fun _ => .ok sampleStream).outcome = .ok client ∧
      ∃ last : Client, Operation.afterAll [.neighbors "a.py" .outgoing] (.server client, {}) =
          (.server last, {}) ∧
        last.stream = Reply.afterMany last.sent.length sampleStream ∧
        (last.Unusable ↔ .close ∈ [Operation.neighbors "a.py" .outgoing] ∨
          ∃ cause, .error (.stream cause) ∈ Reply.readMany last.sent.length sampleStream) ∧
        ∀ memory, Reply.endsProgram memory last.sent.length sampleStream = false ↔
          ∀ index < last.sent.length, Reply.answer? memory (Reply.afterMany index sampleStream) =
            some (Reply.read (Reply.afterMany index sampleStream)) := by
  have hparse : Endpoint.parse sampleSettings.url = .ok ⟨"localhost", 6379, none, none⟩ :=
    eq_ok_of_toOption (by decide +kernel)
  have hsome :
      (connect sampleSettings fun _ => .ok sampleStream).outcome.toOption.isSome = true := by
    decide +kernel
  obtain ⟨client, hclient⟩ := Option.isSome_iff_exists.1 hsome
  have hconnect := eq_ok_of_toOption hclient
  exact ⟨_, client, hparse, hconnect, unusable_iff_of_connect hparse rfl hconnect _ _⟩

/-- A malformed reply is not the end of the connection: the next question is answered with what that
reply left over. -/
theorem answered_from_leftover :
    ∃ client, (connect sampleSettings fun _ => .ok sampleStream).outcome = .ok client ∧
      message? ((Handle.neighbors "a.py" .outgoing).perform (.server client, {})).1 =
        some "graph query failed: malformed reply from graph server: unknown reply type in '?'" ∧
      ((Handle.neighbors "a.py" .outgoing).perform
        (Operation.after (.server client, {}) (.neighbors "a.py" .outgoing))).1 =
          .ok [⟨"x.py", .imports, .outgoing⟩] := by
  have hsome : (connect sampleSettings fun _ => .ok sampleStream).outcome.toOption.map
      (fun client => (message? ((Handle.neighbors "a.py" .outgoing).perform (.server client, {})).1,
        ((Handle.neighbors "a.py" .outgoing).perform
          (Operation.after (.server client, {}) (.neighbors "a.py" .outgoing))).1.toOption)) =
      some (some "graph query failed: malformed reply from graph server: unknown reply type in '?'",
        some [⟨"x.py", .imports, .outgoing⟩]) := by
    decide +kernel
  obtain ⟨client, hclient, hp⟩ := Option.map_eq_some_iff.1 hsome
  obtain ⟨hfirst, hsecond⟩ := Prod.mk.inj hp
  exact ⟨client, eq_ok_of_toOption hclient, hfirst, eq_ok_of_toOption hsecond⟩

end CodeAtlas.Remote.Client
