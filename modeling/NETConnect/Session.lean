import NETConnect.Client
import NETConnect.PerConnection
/-!
# A server and its clients

Any number of clients connect to one server.  Each connection has two channels that
keep the order of the frames and deliver them whole.  The steps of the ends are
interleaved in any way, and other threads may send on every connection.
-/

namespace NETConnect

open Lib SocketExtensions

/-! ## What the ends read and write -/

namespace BaseTCPServer

/-- What `ReceivePacket` returns in a step that calls it. -/
def Event.received : Event → Option Received
  | .handshake _ received | .receive _ _ received => some received
  | _ => none

def Event.IsAccept : Event → Bool
  | .accept _ _ => true
  | _ => false

/-- The frame that an output puts on a connection. -/
def Output.sentOn (c : ConnId) : Output → Option Frame
  | .sent c' f => if c' = c then some f else none
  | _ => none

variable {P : Platform} {s : Server} {c : ConnId}

theorem mem_filterMap_sentOn_iff {o : List Output} {f : Frame} :
    f ∈ o.filterMap (Output.sentOn c) ↔ .sent c f ∈ o := by
  rw [List.mem_filterMap]
  constructor
  · rintro ⟨x, hx, hsent⟩
    cases x with
    | sent c' g =>
        simp only [Output.sentOn] at hsent
        split_ifs at hsent with hc
        obtain rfl := Option.some.inj hsent
        rwa [← hc]
    | authenticated c' => simp [Output.sentOn] at hsent
    | delivered c' header data => simp [Output.sentOn] at hsent
  · intro hmem
    exact ⟨_, hmem, by simp [Output.sentOn]⟩

theorem filterMap_sentOn_map (fs : List Frame) (c' : ConnId) :
    (fs.map (Output.sent c)).filterMap (Output.sentOn c') = if c' = c then fs else [] := by
  rw [List.filterMap_map]
  split_ifs with hc
  · rw [hc]
    simp [Function.comp_def, Output.sentOn]
  · simp [Function.comp_def, Output.sentOn, Ne.symm hc]

theorem Server.authenticate_spec (P : Platform) (s : Server) (c : ConnId) (io : Ambient)
    (received : Received) :
    let handled := Authentication.takeTurn (handleAuthenticationPacket P) (s.keys c)
      ⟨s.self.settings, io, received⟩
    (s.authenticate P c io received).1.keys = Function.update s.keys c handled.keys ∧
      ∀ c', (s.authenticate P c io received).2.filterMap (Output.sentOn c') =
        if c' = c then handled.replies else [] := by
  intro handled
  have hkeys : ∀ t : Server, t.conns = (s.setConn c { s.conns c with keys := handled.keys }).conns →
      t.keys = Function.update s.keys c handled.keys := by
    intro t ht
    rw [← Server.keys_setConn s c { s.conns c with keys := handled.keys }]
    funext c'
    exact congrArg (fun conns => (conns c').keys) ht
  have hlast : ∀ c', [Output.authenticated c].filterMap (Output.sentOn c') = [] := fun c' => rfl
  cases houtcome : handled.outcome with
  | error e =>
      have houtcome' : (Authentication.takeTurn (handleAuthenticationPacket P) (s.conns c).keys
        ⟨s.self.settings, io, received⟩).outcome = .error e := houtcome
      simp only [Server.authenticate, houtcome']
      exact ⟨hkeys _ rfl, fun c' => by simp [Handled.replies, houtcome]⟩
  | ok r =>
      obtain ⟨m, reply⟩ := r
      have houtcome' : (Authentication.takeTurn (handleAuthenticationPacket P) (s.conns c).keys
        ⟨s.self.settings, io, received⟩).outcome = .ok (m, reply) := houtcome
      have hreplies : handled.replies = reply.toList := by simp [Handled.replies, houtcome]
      simp only [Server.authenticate, houtcome']
      split_ifs
      · refine ⟨hkeys _ rfl, fun c' => ?_⟩
        rw [List.filterMap_append, hlast, List.append_nil, filterMap_sentOn_map, hreplies]
      · refine ⟨hkeys _ rfl, fun c' => ?_⟩
        rw [filterMap_sentOn_map, hreplies]

theorem Server.afterBeat_action {others : ConnId → Ambient} {beat : Beat} {c' : ConnId}
    {f : Frame} (hping : ∀ f ∈ (beat.ping.bind Sent.frame).toList, f.header.packetAction = .ping)
    (h : .sent c' f ∈ (s.afterBeat P c others beat).2) :
    ¬ f.header.packetAction.IsHandshake := by
  have hold : ∀ fs : List Frame, (∀ f ∈ fs, f.header.packetAction = .ping) →
      .sent c' f ∈ fs.map (Output.sent c) → ¬ f.header.packetAction.IsHandshake := by
    intro fs hfs hmem
    obtain ⟨g, hg, hsent⟩ := List.mem_map.1 hmem
    obtain ⟨-, rfl⟩ := Output.sent.inj hsent
    rw [hfs g hg]
    decide
  unfold Server.afterBeat at h
  simp only at h
  split_ifs at h
  · rcases List.mem_append.1 h with hmem | hmem
    · exact hold _ hping hmem
    · obtain ⟨l, hl, hsent⟩ := List.mem_map.1 hmem
      obtain ⟨-, rfl⟩ := Output.sent.inj hsent
      rw [Peer.removeClient_action hl]
      decide
  · exact hold _ hping h

/-- Outside the handshake nothing is sent that belongs to one. -/
theorem Stepped.sent_action {e : Event} {r : Server × List Output} (h : Stepped P s e r)
    (hne : ∀ io received, e ≠ .handshake io received) {f : Frame} (hf : .sent c f ∈ r.2) :
    ¬ f.header.packetAction.IsHandshake := by
  cases h with
  | accept h => simp at hf
  | gate h => simp at hf
  | handshake h => exact absurd rfl (hne _ _)
  | beat h => exact Server.afterBeat_action (fun g hg => HeartBeat.trySendHeartBeat_action hg) hf
  | receive h =>
      simp only [Server.takePacket] at hf
      split at hf
      · simp at hf
      · split at hf
        · simp at hf
        · simp at hf
        · simp only [Server.afterRaise, List.mem_cons, reduceCtorEq, false_or] at hf
          obtain ⟨g, hg, hsent⟩ := List.mem_map.1 hf
          obtain ⟨-, rfl⟩ := Output.sent.inj hsent
          rcases handleDataReceived_action _ _ _ _ _ (Option.mem_toList.1 hg) with hpong | hjoin
          · rw [hpong]
            decide
          · rw [hjoin]
            decide
  | cancelServer => simp at hf
  | cancelClient => simp at hf
  | elsewhere => simp at hf

end BaseTCPServer

/-! ## The machine -/

/-- `toServer c` and `toClient c` are the two channels of connection `c`; the clients are
numbered in the order in which they connect. -/
structure Session where
  server : BaseTCPServer.Server
  clients : ConnId → BaseTCPClient.Client
  connected : Nat := 0
  toServer : ConnId → List Frame := fun _ => []
  toClient : ConnId → List Frame := fun _ => []

namespace Session

inductive Event
  | connect (peerId : Guid) (settings : Option PeerSettings) (created : DateTime × DateTime)
  | server (e : BaseTCPServer.Event)
  | client (c : ConnId) (e : BaseTCPClient.Event)
  /-- another thread of the client sends a frame -/
  | alsoToServer (c : ConnId) (f : Frame)
  /-- another thread of the server sends a frame -/
  | alsoToClient (c : ConnId) (f : Frame)

inductive Output
  | server (o : BaseTCPServer.Output)
  | client (c : ConnId) (o : BaseTCPClient.Output)
  deriving DecidableEq

/-- What is left in a channel by a call of `ReceivePacket`: it takes the first frame,
or finds nothing yet, or throws.  `none`: it cannot return this. -/
def takeFrom (channel : List Frame) : Received → Option (List Frame)
  | .threw _ => some channel
  | .packet f =>
      match channel with
      | [] => if f = .nothing then some [] else none
      | g :: rest => if f = g then some rest else if f = .nothing then some (g :: rest) else none

/-- The same for a step that may call it. -/
def readFrom (channel : List Frame) : Option Received → Option (List Frame)
  | none => some channel
  | some received => takeFrom channel received

variable (P : Platform) (s : Session)

/-- The channels to the server when its step has read the one that is served. -/
def serverReads (e : BaseTCPServer.Event) : Option (ConnId → List Frame) :=
  match s.server.thread.serving with
  | some c => (readFrom (s.toServer c) e.received).map (Function.update s.toServer c)
  | none => some s.toServer

/-- The server accepts the connections in their order. -/
def stepServer (e : BaseTCPServer.Event) : Option (Session × List BaseTCPServer.Output) :=
  if e.IsAccept ∧ s.connected ≤ s.server.accepted then none
  else do
    let toServer ← s.serverReads e
    let (server, o) ← (BaseTCPServer.server P).step s.server e
    return ({ s with
      server, toServer
      toClient := fun c => s.toClient c ++ o.filterMap (BaseTCPServer.Output.sentOn c) }, o)

def stepClient (c : ConnId) (e : BaseTCPClient.Event) :
    Option (Session × List BaseTCPClient.Output) := do
  let toClient ← readFrom (s.toClient c) e.received
  let (client, o) ← (BaseTCPClient.client P).step (s.clients c) e
  return ({ s with
    clients := Function.update s.clients c client
    toClient := Function.update s.toClient c toClient
    toServer := Function.update s.toServer c
      (s.toServer c ++ o.filterMap BaseTCPClient.Output.sentFrame) }, o)

/-- The client connects; its channels are empty. -/
def connect (peerId : Guid) (settings : Option PeerSettings) (created : DateTime × DateTime) :
    Session :=
  { s with
    clients := Function.update s.clients s.connected
      (BaseTCPClient.start peerId settings created)
    connected := s.connected + 1
    toServer := Function.update s.toServer s.connected []
    toClient := Function.update s.toClient s.connected [] }

/-- What the other threads send is no part of a handshake. -/
def session : Machine Session Event Output where
  step s e :=
    match e with
    | .connect peerId settings created => some (s.connect peerId settings created, [])
    | .server e => (s.stepServer P e).map fun r => (r.1, r.2.map .server)
    | .client c e =>
        if c < s.connected then (s.stepClient P c e).map fun r => (r.1, r.2.map (.client c))
        else none
    | .alsoToServer c f =>
        if c < s.connected ∧ ¬ f.header.packetAction.IsHandshake then
          some ({ s with toServer := Function.update s.toServer c (s.toServer c ++ [f]) }, [])
        else none
    | .alsoToClient c f =>
        if c < s.connected ∧ ¬ f.header.packetAction.IsHandshake then
          some ({ s with toClient := Function.update s.toClient c (s.toClient c ++ [f]) }, [])
        else none

/-- Nobody has connected yet. -/
def start (self : Peer) : Session where
  server := BaseTCPServer.start self
  clients := fun _ => BaseTCPClient.start .empty none ((0 : Nat), (0 : Nat))

end Session

end NETConnect
