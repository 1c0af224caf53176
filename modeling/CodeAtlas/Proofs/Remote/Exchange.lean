import CodeAtlas.Proofs.Graph.Loading
import CodeAtlas.Remote.Client

/-!
# Exchanges with a server

Whatever a client is asked, it sends some commands and reads as many replies from the front of its
stream. It keeps its connection unless one of these replies could not be read for a failure of the
stream. A reply that is malformed does not end the connection: the next one is read from the bytes
it left over.
-/

namespace CodeAtlas.Remote

open CodeAtlas.Graph

namespace Reply

/-! ## Reading one reply after the other -/

/-- What comes of reading a number of replies, each from the bytes that the one before left over. -/
def readMany : Nat → Bytes → List (Except ReplyError Reply)
  | 0, _ => []
  | count + 1, stream => (read stream).1 :: readMany count (read stream).2

/-- The bytes left over by a number of replies. -/
def afterMany : Nat → Bytes → Bytes
  | 0, stream => stream
  | count + 1, stream => afterMany count (read stream).2

theorem length_readMany (count : Nat) (stream : Bytes) : (readMany count stream).length = count := by
  induction count generalizing stream with
  | zero => rfl
  | succ count ih => rw [readMany, List.length_cons, ih]

theorem readMany_add (first second : Nat) (stream : Bytes) :
    readMany (first + second) stream =
      readMany first stream ++ readMany second (afterMany first stream) := by
  induction first generalizing stream with
  | zero => rw [Nat.zero_add]; rfl
  | succ first ih =>
      rw [Nat.succ_add, readMany, ih]
      rfl

theorem afterMany_add (first second : Nat) (stream : Bytes) :
    afterMany (first + second) stream = afterMany second (afterMany first stream) := by
  induction first generalizing stream with
  | zero => rw [Nat.zero_add]; rfl
  | succ first ih =>
      rw [Nat.succ_add, afterMany, ih]
      rfl

end Reply

namespace Client

/-! ## Exchanges -/

/-- From one state to another a client has sent commands and read their replies. -/
structure Sends (first : Client) (commands : List Command) (last : Client) : Prop where
  graph : last.graph = first.graph
  address : last.address = first.address
  sent : last.sent = first.sent ++ commands
  stream : last.stream = Reply.afterMany commands.length first.stream
  isConnected : last.isConnected = true ↔ first.isConnected = true ∧
    ∀ cause, .error (.stream cause) ∉ Reply.readMany commands.length first.stream
  silent : first.isConnected = false → commands = []

namespace Sends

variable {first middle last : Client} {commands more : List Command}

theorem refl (client : Client) : client.Sends [] client where
  graph := rfl
  address := rfl
  sent := (List.append_nil _).symm
  stream := rfl
  isConnected := by simp [Reply.readMany]
  silent _ := rfl

theorem trans (h : first.Sends commands middle) (hm : middle.Sends more last) :
    first.Sends (commands ++ more) last where
  graph := hm.graph.trans h.graph
  address := hm.address.trans h.address
  sent := by rw [hm.sent, h.sent, List.append_assoc]
  stream := by rw [hm.stream, h.stream, List.length_append, Reply.afterMany_add]
  isConnected := by
    rw [hm.isConnected, h.isConnected, h.stream, List.length_append, Reply.readMany_add]
    simp only [List.mem_append, not_or]
    grind
  silent hf := by
    have hc : middle.isConnected = false := by
      rw [← Bool.not_eq_true, h.isConnected, hf]
      simp
    rw [h.silent hf, hm.silent hc, List.append_nil]

theorem eq_of_disconnected (h : first.Sends commands last) (hf : first.isConnected = false) :
    last = first := by
  have hl : last.isConnected = false := by
    rw [← Bool.not_eq_true, h.isConnected, hf]
    simp
  obtain rfl := h.silent hf
  have hg := h.graph
  have ha := h.address
  have hs := h.sent
  have hr := h.stream
  rw [List.append_nil] at hs
  cases first
  cases last
  simp_all [Reply.afterMany]

theorem of_call {client : Client} (command : Command) (hc : client.isConnected = true)
    (hs : ∀ cause, (Reply.read client.stream).1 ≠ .error (.stream cause)) :
    client.Sends [command] (client.call command).2 where
  graph := rfl
  address := rfl
  sent := rfl
  stream := rfl
  isConnected := by simpa [call, hc, Reply.readMany] using fun cause => (hs cause).symm
  silent hf := by simp [hc] at hf

theorem of_call_failed {client : Client} (command : Command) (hc : client.isConnected = true)
    {cause : SystemError} (hs : (Reply.read client.stream).1 = .error (.stream cause)) :
    client.Sends [command] { (client.call command).2 with isConnected := false } where
  graph := rfl
  address := rfl
  sent := rfl
  stream := rfl
  isConnected := by simp [hs, Reply.readMany]
  silent hf := by simp [hc] at hf

end Sends

/-! ## Actions that exchange -/

/-- Whatever comes of an action, the client has sent commands and read their replies. -/
def Exchanges {α : Type} (action : Action Client α) : Prop :=
  ∀ client : Client, ∃ commands, client.Sends commands (action.perform client).2

section

variable {α β : Type}

theorem exchanges_of_still {action : Action Client α}
    (h : ∀ client, (action.perform client).2 = client) : Exchanges action := by
  intro client
  rw [h]
  exact ⟨[], .refl client⟩

theorem Exchanges.bind {action : Action Client α} {next : α → Action Client β}
    (h : Exchanges action) (hn : ∀ value, Exchanges (next value)) :
    Exchanges (action >>= next) := by
  intro client
  obtain ⟨commands, hc⟩ := h client
  rw [Action.perform_bind]
  rcases hp : action.perform client with ⟨_ | value, middle⟩ <;> rw [hp] at hc
  · exact ⟨commands, hc⟩
  · obtain ⟨more, hm⟩ := hn value middle
    exact ⟨commands ++ more, hc.trans hm⟩

theorem Exchanges.forget {action : Action Client α} (h : Exchanges action) :
    Exchanges action.forget := by
  intro client
  rw [Action.perform_forget]
  exact h client

theorem Exchanges.forM {action : α → Action Client Unit} (h : ∀ item, Exchanges (action item))
    (items : List α) : Exchanges (items.forM action) := by
  induction items with
  | nil => exact exchanges_of_still fun _ => rfl
  | cons item rest ih =>
      exact (h item).bind fun _ => ih

end

/-- What a client without a connection answers. -/
def closedError (client : Client) : Error :=
  unavailable client.address "connection closed" "Reopen the graph store."

theorem perform_query_of_disconnected {client : Client} (hc : client.isConnected = false)
    (statement : String) :
    (query statement).perform client = (.error client.closedError, client) :=
  if_neg (by simp [hc])

theorem sends_query {client : Client} (hc : client.isConnected = true) (statement : String) :
    client.Sends [statementCommand client.graph statement]
      ((query statement).perform client).2 := by
  let command := statementCommand client.graph statement
  have hread : (client.call command).1 = (Reply.read client.stream).1 := rfl
  have hp : (query statement).perform client = _ := if_pos hc
  rw [hp]
  split <;> rename_i he <;> rw [he] at hread <;> have hlast := congrArg Prod.snd he
  · exact hlast ▸ Sends.of_call command hc (by simp [← hread])
  · exact hlast ▸ Sends.of_call command hc (by simp [← hread])
  · exact (congrArg (fun last => { last with isConnected := false }) hlast) ▸
      Sends.of_call_failed command hc hread.symm
  · exact hlast ▸ Sends.of_call command hc (by simp [← hread])

theorem exchanges_query (statement : String) : Exchanges (query statement) := by
  intro client
  by_cases hc : client.isConnected = true
  · exact ⟨_, sends_query hc statement⟩
  · rw [perform_query_of_disconnected (by simpa using hc)]
    exact ⟨[], .refl client⟩

theorem exchanges_rows (statement : String) : Exchanges (rows statement) :=
  (exchanges_query statement).bind fun _ => exchanges_of_still fun _ => rfl

theorem perform_mergeAll (edges : List Edge) (client : Client) :
    (mergeAll edges).perform client =
      match (query (Cypher.mergeAll edges)).perform client with
      | (.ok _, client) => (.ok (), client)
      | (.error (.query reason), client) =>
          if isRejection reason then
            (.error (.unsupported s!"generic relationship merge ({reason})"), client)
          else (.error (.query reason), client)
      | (.error error, client) => (.error error, client) := rfl

theorem snd_perform_mergeAll (edges : List Edge) (client : Client) :
    ((mergeAll edges).perform client).2 = ((query (Cypher.mergeAll edges)).perform client).2 := by
  rw [perform_mergeAll]
  split <;> rename_i he <;> rw [he]
  split <;> rfl

theorem exchanges_mergeAll (edges : List Edge) : Exchanges (mergeAll edges) := by
  intro client
  rw [snd_perform_mergeAll]
  exact exchanges_query (Cypher.mergeAll edges) client

theorem exchanges_mergeOne (relation : Relation) (edges : List Edge) :
    Exchanges (mergeOne relation edges) :=
  (exchanges_query _).bind fun _ => exchanges_of_still fun _ => rfl

theorem exchanges_load (strategy : Strategy) (edges : List Edge) :
    Exchanges (load strategy edges) := by
  cases strategy with
  | generic =>
      exact (Exchanges.forM exchanges_mergeAll _).bind fun _ => exchanges_of_still fun _ => rfl
  | perRelation =>
      exact (Exchanges.forM (fun relation => .forM (exchanges_mergeOne relation) _) _).bind
        fun _ => exchanges_of_still fun _ => rfl

theorem exchanges_loadWithFallback (edges : List Edge) :
    Exchanges (loadWithFallback fun strategy => load strategy edges) := by
  intro client
  obtain ⟨commands, h⟩ := exchanges_load .generic edges client
  rw [perform_loadWithFallback]
  split
  · rename_i middle he
    obtain ⟨more, hm⟩ := exchanges_load .perRelation edges middle
    rw [he] at h
    exact ⟨commands ++ more, h.trans hm⟩
  · exact ⟨commands, h⟩

theorem exchanges_clear : Exchanges clear :=
  (exchanges_query _).bind fun _ => exchanges_of_still fun _ => rfl

theorem exchanges_neighborsIn (file : String) (wanted direction : Direction) :
    Exchanges (neighborsIn file wanted direction) := by
  unfold neighborsIn
  split
  · exact (exchanges_rows _).bind fun _ => exchanges_of_still fun _ => rfl
  · exact exchanges_of_still fun _ => rfl

theorem exchanges_neighbors (file : String) (direction : Direction) :
    Exchanges (neighbors file direction) :=
  (exchanges_neighborsIn file direction .outgoing).bind fun _ =>
    (exchanges_neighborsIn file direction .incoming).bind fun _ => exchanges_of_still fun _ => rfl

theorem exchanges_stats : Exchanges stats :=
  (exchanges_rows _).bind fun _ => (exchanges_rows _).bind fun _ => exchanges_of_still fun _ => rfl

end Client

end CodeAtlas.Remote
