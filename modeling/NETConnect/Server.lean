import Mathlib.Logic.Function.Basic
import NETConnect.Handshake.Server
import NETConnect.Packet.AutoDecrypt
import NETConnect.Peers.Peer
/-!
# The server

`StartServer` runs one thread that accepts clients.  `OnClientConnected` is invoked on
that thread, so `HandleClientConnected`, and in it `HandleAuthentication`, run on it
too: where it stands is part of the state.  The flags `IsAuthenticating` and
`IsAuthenticated` are fields of the server.
-/

namespace NETConnect

open Lib SocketExtensions

namespace BaseTCPServer

/-- Where the thread of `StartServer` stands. -/
inductive Thread
  /-- in `Accept` -/
  | accepting
  /-- at the head of the loop of `HandleClientConnected` -/
  | head (c : ConnId)
  | authenticating (c : ConnId)
  /-- past the flags, before the heartbeat -/
  | beating (c : ConnId)
  /-- before `ReceivePacket` -/
  | receiving (c : ConnId)
  /-- the loop of `StartServer` has ended -/
  | finished
  /-- an exception has ended it -/
  | faulted (e : Exn)
  deriving DecidableEq, Repr

/-- The connection whose handler is running. -/
def Thread.serving : Thread → Option ConnId
  | .head c | .authenticating c | .beating c | .receiving c => some c
  | .accepting | .finished | .faulted _ => none

/-- `conns c` says nothing while the number `c` has not been given out. -/
structure Server where
  self : Peer
  isAuthenticating : Bool := false
  isAuthenticated : Bool := false
  /-- `ServerToken.IsCancellationRequested` -/
  serverToken : Bool := false
  hasOnPeerConnected : Bool := false
  isAudioRunning : Bool := true
  accepted : Nat := 0
  conns : ConnId → Connection
  thread : Thread := .accepting

/-- What happens next, with everything it depends on. -/
inductive Event
  /-- `Accept` returns; two readings of the clock are made for the heartbeat -/
  | accept (created : DateTime × DateTime) (entropy : Bytes)
  /-- the token and the flags are looked at -/
  | gate
  /-- one turn of the loop of `HandleAuthentication` -/
  | handshake (io : Ambient) (received : Received)
  /-- `TrySendHeartBeat`; `others` are the sockets of the other connections -/
  | beat (clock : PollClock) (isGracefulShutdown : Bool) (io : Ambient)
      (others : ConnId → Ambient)
  /-- `ReceivePacket` and what follows it -/
  | receive (io : Ambient) (utcNow : DateTime) (received : Received)
  | cancelServer
  | cancelClient (c : ConnId)
  /-- other threads change the peer, or who listens -/
  | elsewhere (update : Peer → Peer) (hasOnPeerConnected isAudioRunning : Bool)

/-- What can be observed of a step. -/
inductive Output
  | sent (c : ConnId) (f : Frame)
  /-- the loop of `HandleAuthentication` has ended -/
  | authenticated (c : ConnId)
  /-- `OnDataReceived` is raised -/
  | delivered (c : ConnId) (header : PacketHeader) (data : Bytes)
  deriving DecidableEq, Repr

def Output.deliveredOn : Output → Option ConnId
  | .delivered c _ _ => some c
  | _ => none

namespace Server

/-- Where the thread goes when a handler returns. -/
def returned (s : Server) : Thread := if s.serverToken then .finished else .accepting

/-- Where it goes when a handler has run `action`, which may have thrown. -/
def after (threw : Option Exn) (thread : Thread) : Thread :=
  match threw with
  | none => thread
  | some e => .faulted e

def setConn (s : Server) (c : ConnId) (conn : Connection) : Server :=
  { s with conns := Function.update s.conns c conn }

def site (s : Server) (io : Ambient) (utcNow : DateTime) : Site :=
  { io, utcNow, hasOnPeerConnected := s.hasOnPeerConnected, isAudioRunning := s.isAudioRunning }

variable (P : Platform) (s : Server) (c : ConnId)

/-- `HandleClientConnected` up to its loop. -/
def acceptClient (created : DateTime × DateTime) (entropy : Bytes) : Server :=
  let s := { s with accepted := s.accepted + 1 }
  match P.rsaCreate 8192 entropy with
  | none => { s with thread := .faulted .cryptographic }
  | some localKeys =>
      let c := s.accepted - 1
      { s.setConn c
          { keys := startKeys localKeys, heartBeat := .create created.1 created.2 } with
        self := { s.self with clients := s.self.clients ++ [c] }
        thread := .head c }

/-- The head of the loop. -/
def passGate : Server :=
  if (s.conns c).clientToken then { s with thread := s.returned }
  else if s.isAuthenticating then s
  else if s.isAuthenticated then { s with thread := .beating c }
  else { s with isAuthenticating := true, thread := .authenticating c }

def authenticate (io : Ambient) (received : Received) : Server × List Output :=
  let conn := s.conns c
  let handled := Authentication.takeTurn (handleAuthenticationPacket P) conn.keys
    ⟨s.self.settings, io, received⟩
  let s := s.setConn c { conn with keys := handled.keys }
  match handled.outcome with
  | .error e => ({ s with thread := .faulted e }, [])
  | .ok (m, reply) =>
      let sent := reply.toList.map (Output.sent c)
      if m = some .ready then
        ({ s with isAuthenticated := true, isAuthenticating := false, thread := .beating c },
          sent ++ [.authenticated c])
      else (s, sent)

/-- What follows the poll of the heartbeat; the cleanup if the connection is gone. -/
def afterBeat (others : ConnId → Ambient) (beat : Beat) : Server × List Output :=
  let conn := s.conns c
  let ping := (beat.ping.bind Sent.frame).toList.map (Output.sent c)
  if !beat.result && beat.isDisconnected && !beat.heartBeat.firstBeat then
    let s := s.setConn c { conn with heartBeat := beat.heartBeat, clientToken := true }
    let (self, leaves, threw) := s.self.removeClient P (fun c => (s.conns c).keys)
      (fun c => (s.conns c).id) others conn.id
    ({ s with self, thread := after threw s.returned },
      ping ++ leaves.map fun l => .sent l.1 l.2)
  else
    let s := s.setConn c { conn with heartBeat := beat.heartBeat }
    ({ s with thread := .receiving c }, ping)

def takeBeat (clock : PollClock) (isGracefulShutdown : Bool) (io : Ambient)
    (others : ConnId → Ambient) : Server × List Output :=
  let conn := s.conns c
  s.afterBeat P c others (conn.heartBeat.trySendHeartBeat P ⟨s.self.settings, conn.keys⟩ io clock
    isGracefulShutdown)

/-- `OnDataReceived` was raised, and the subscriber did what is in `raised`. -/
def afterRaise (header : PacketHeader) (data : Bytes) (raised : Raised) :
    Server × List Output :=
  ({ s.setConn c raised.conn with
      self := raised.self, thread := after raised.threw (.head c) },
    .delivered c header data :: raised.sent.toList.map (Output.sent c))

def takePacket (io : Ambient) (utcNow : DateTime) (received : Received) :
    Server × List Output :=
  let conn := s.conns c
  match received with
  | .threw e => ({ s with thread := .faulted e }, [])
  | .packet f =>
      match autoDecrypt P conn.keys f with
      | .error e => ({ s with thread := .faulted e }, [])
      | .ok none => ({ s with thread := .head c }, [])
      | .ok (some data) =>
          s.afterRaise c f.header data
            (handleDataReceived P (s.site io utcNow) s.self c conn f.header data)

end Server

/-- The machine.  An event that does not fit the thread's position cannot happen. -/
def server (P : Platform) : Machine Server Event Output where
  step s e :=
    match e, s.thread with
    | .accept created entropy, .accepting => some (s.acceptClient P created entropy, [])
    | .gate, .head c => some (s.passGate c, [])
    | .handshake io received, .authenticating c => some (s.authenticate P c io received)
    | .beat clock isGracefulShutdown io others, .beating c =>
        some (s.takeBeat P c clock isGracefulShutdown io others)
    | .receive io utcNow received, .receiving c => some (s.takePacket P c io utcNow received)
    | .cancelServer, _ => some ({ s with serverToken := true }, [])
    | .cancelClient c, _ => some (s.setConn c { s.conns c with clientToken := true }, [])
    | .elsewhere update hasOnPeerConnected isAudioRunning, _ =>
        some ({ s with self := update s.self, hasOnPeerConnected, isAudioRunning }, [])
    | _, _ => none

/-- The server when its accept thread starts. -/
def start (self : Peer) : Server :=
  { self, conns := fun _ => { keys := {}, heartBeat := .create (0 : Nat) (0 : Nat) } }

theorem Server.takePacket_of_opens {P : Platform} {s : Server} {c : ConnId} {io : Ambient}
    {utcNow : DateTime} {f : Frame} {data : Bytes}
    (h : autoDecrypt P (s.conns c).keys f = .ok (some data)) :
    s.takePacket P c io utcNow (.packet f) = s.afterRaise c f.header data
      (handleDataReceived P (s.site io utcNow) s.self c (s.conns c) f.header data) := by
  simp only [takePacket, h]

/-! ## What a step can do -/

/-- The steps of the machine, one constructor for each kind. -/
inductive Stepped (P : Platform) (s : Server) : Event → Server × List Output → Prop
  | accept {created entropy} (h : s.thread = .accepting) :
      Stepped P s (.accept created entropy) (s.acceptClient P created entropy, [])
  | gate {c} (h : s.thread = .head c) : Stepped P s .gate (s.passGate c, [])
  | handshake {io received c} (h : s.thread = .authenticating c) :
      Stepped P s (.handshake io received) (s.authenticate P c io received)
  | beat {clock isGracefulShutdown io others c} (h : s.thread = .beating c) :
      Stepped P s (.beat clock isGracefulShutdown io others)
        (s.takeBeat P c clock isGracefulShutdown io others)
  | receive {io utcNow received c} (h : s.thread = .receiving c) :
      Stepped P s (.receive io utcNow received) (s.takePacket P c io utcNow received)
  | cancelServer : Stepped P s .cancelServer ({ s with serverToken := true }, [])
  | cancelClient {c} :
      Stepped P s (.cancelClient c) (s.setConn c { s.conns c with clientToken := true }, [])
  | elsewhere {update hasOnPeerConnected isAudioRunning} :
      Stepped P s (.elsewhere update hasOnPeerConnected isAudioRunning)
        ({ s with self := update s.self, hasOnPeerConnected, isAudioRunning }, [])

theorem server_step_iff {P : Platform} {s : Server} {e : Event} {r : Server × List Output} :
    (server P).step s e = some r ↔ Stepped P s e r := by
  constructor
  · intro h
    simp only [server] at h
    split at h
    · obtain rfl := Option.some.inj h
      exact .accept ‹_›
    · obtain rfl := Option.some.inj h
      exact .gate ‹_›
    · obtain rfl := Option.some.inj h
      exact .handshake ‹_›
    · obtain rfl := Option.some.inj h
      exact .beat ‹_›
    · obtain rfl := Option.some.inj h
      exact .receive ‹_›
    · obtain rfl := Option.some.inj h
      exact .cancelServer
    · obtain rfl := Option.some.inj h
      exact .cancelClient
    · obtain rfl := Option.some.inj h
      exact .elsewhere
    · simp at h
  · rintro (h | h | h | h | h | _ | _ | _)
    all_goals simp only [server]
    all_goals rw [h]

/-! ## Keys -/

def Server.keys (s : Server) (c : ConnId) : SecurityKey := (s.conns c).keys

theorem Server.keys_setConn (s : Server) (c : ConnId) (conn : Connection) :
    (s.setConn c conn).keys = Function.update s.keys c conn.keys := by
  funext c'
  rcases eq_or_ne c' c with rfl | hne
  · simp [Server.keys, Server.setConn]
  · simp [Server.keys, Server.setConn, hne]

theorem Server.keys_setConn_self (s : Server) (c : ConnId) (conn : Connection)
    (h : conn.keys = (s.conns c).keys) : (s.setConn c conn).keys = s.keys := by
  rw [Server.keys_setConn, h]
  exact Function.update_eq_self c s.keys

/-- The keys of a connection are made when it is accepted, and change in its handshake
only. -/
theorem Stepped.keys {P : Platform} {s : Server} {e : Event} {r : Server × List Output}
    (h : Stepped P s e r) :
    r.1.keys = s.keys ∨
      (∃ created entropy localKeys, e = .accept created entropy ∧ s.thread = .accepting ∧
        P.rsaCreate 8192 entropy = some localKeys ∧
        r.1.keys = Function.update s.keys s.accepted (startKeys localKeys)) ∨
      ∃ io received c, e = .handshake io received ∧ s.thread = .authenticating c ∧
        r.1.keys = Function.update s.keys c
          (Authentication.takeTurn (handleAuthenticationPacket P) (s.keys c)
            ⟨s.self.settings, io, received⟩).keys := by
  cases h with
  | @accept created entropy h =>
      simp only [Server.acceptClient]
      cases hkeys : P.rsaCreate 8192 entropy with
      | none => exact Or.inl rfl
      | some localKeys =>
          exact Or.inr (Or.inl ⟨created, entropy, localKeys, rfl, h, hkeys,
            Server.keys_setConn s s.accepted _⟩)
  | gate h =>
      left
      simp only [Server.passGate]
      split_ifs <;> rfl
  | @handshake io received c h =>
      refine Or.inr (Or.inr ⟨io, received, c, rfl, h, ?_⟩)
      simp only [Server.authenticate]
      split
      · exact Server.keys_setConn s c _
      · split_ifs
        · exact Server.keys_setConn s c _
        · exact Server.keys_setConn s c _
  | beat h =>
      left
      simp only [Server.takeBeat, Server.afterBeat]
      split_ifs
      · exact Server.keys_setConn_self s _ _ rfl
      · exact Server.keys_setConn_self s _ _ rfl
  | receive h =>
      left
      simp only [Server.takePacket]
      split
      · rfl
      · split
        · rfl
        · rfl
        · exact Server.keys_setConn_self s _ _ (handleDataReceived_keeps ..).1
  | cancelServer => exact Or.inl rfl
  | cancelClient => exact Or.inl (Server.keys_setConn_self s _ _ rfl)
  | elsewhere => exact Or.inl rfl

end BaseTCPServer

end NETConnect
