import NETConnect.Handshake.Client
import NETConnect.HeartBeat
import NETConnect.Packet.AutoDecrypt
/-!
# The client

The task that `HandleConnected` starts: the same loop as the server's, for one
connection, with flags of its own.
-/

namespace NETConnect

open Lib SocketExtensions

namespace BaseTCPClient

inductive Thread
  /-- at the head of the loop of `HandleConnected` -/
  | head
  | authenticating
  /-- past the flags, before the heartbeat -/
  | beating
  /-- before `ReceivePacket` -/
  | receiving
  | finished
  | faulted (e : Exn)
  deriving DecidableEq, Repr

structure Client where
  peerId : Guid
  settings : Option PeerSettings
  keys : SecurityKey := {}
  heartBeat : HeartBeat
  isAuthenticating : Bool := false
  isAuthenticated : Bool := false
  /-- `Token.IsCancellationRequested` -/
  token : Bool := false
  thread : Thread := .head
  deriving DecidableEq, Repr

inductive Event
  /-- the token and the flags are looked at; `key` is for the session -/
  | gate (io : Ambient) (key : RandomData 32)
  | handshake (io : Ambient) (received : Received)
  | beat (clock : PollClock) (isGracefulShutdown : Bool) (io : Ambient)
  | receive (io : Ambient) (utcNow : DateTime) (received : Received)
  | cancel
  /-- another thread changes the settings -/
  | elsewhere (settings : Option PeerSettings)

/-- What `ReceivePacket` returns in a step that calls it. -/
def Event.received : Event → Option Received
  | .handshake _ received | .receive _ _ received => some received
  | _ => none

inductive Output
  | sent (f : Frame)
  /-- the session key was generated -/
  | generated (key : RandomData 32)
  | authenticated
  /-- `OnDataReceived` is raised -/
  | delivered (header : PacketHeader) (data : Bytes)
  deriving DecidableEq

/-- The frame that an output writes. -/
def Output.sentFrame : Output → Option Frame
  | .sent f => some f
  | _ => none

/-- `HandleOnDataReceived`, the client's own subscriber of `OnDataReceived`. -/
def handleOnDataReceived (P : Platform) (helper : PacketHelper) (io : Ambient)
    (utcNow : DateTime) (heartBeat : HeartBeat) (header : PacketHeader) (data : Bytes) :
    Except Exn (HeartBeat × Option Frame) :=
  if data.length = 0 then .ok (heartBeat, none)
  else if header.packetAction = .ping ∨ header.packetAction = .pong then
    heartBeat.handleHeartBeatActions P helper io utcNow header data
  else .ok (heartBeat, none)

namespace Client

variable (P : Platform) (s : Client)

def passGate (io : Ambient) (key : RandomData 32) : Client × List Output :=
  if s.token then ({ s with thread := .finished }, [])
  else if s.isAuthenticating then (s, [])
  else if s.isAuthenticated then ({ s with thread := .beating }, [])
  else
    let (keys, sent) := startAuthentication P s.settings io s.peerId s.keys key
    ({ s with keys, isAuthenticating := true, thread := .authenticating },
      .generated key :: sent.toList.map .sent)

def authenticate (io : Ambient) (received : Received) : Client × List Output :=
  let handled := Authentication.takeTurn (handleAuthenticationPacket P) s.keys
    ⟨s.settings, io, received⟩
  let s := { s with keys := handled.keys }
  match handled.outcome with
  | .error e => ({ s with thread := .faulted e }, [])
  | .ok (m, reply) =>
      let sent := reply.toList.map Output.sent
      if m = some .ready then
        ({ s with isAuthenticated := true, isAuthenticating := false, thread := .beating },
          sent ++ [.authenticated])
      else (s, sent)

/-- What follows the poll of the heartbeat.  The cleanup of the peer's lists is not
here, as nothing ever gets to it. -/
def afterBeat (beat : Beat) : Client × List Output :=
  let ping := (beat.ping.bind Sent.frame).toList.map Output.sent
  let s := { s with heartBeat := beat.heartBeat }
  -- in the source the `!` follows the call, where it negates nothing
  if beat.result && beat.isDisconnected && !beat.heartBeat.firstBeat then
    ({ s with token := true, thread := .finished }, ping)
  else ({ s with thread := .receiving }, ping)

def takeBeat (clock : PollClock) (isGracefulShutdown : Bool) (io : Ambient) :
    Client × List Output :=
  s.afterBeat (s.heartBeat.trySendHeartBeat P ⟨s.settings, s.keys⟩ io clock isGracefulShutdown)

def takePacket (io : Ambient) (utcNow : DateTime) (received : Received) :
    Client × List Output :=
  match received with
  | .threw e => ({ s with thread := .faulted e }, [])
  | .packet f =>
      match autoDecrypt P s.keys f with
      | .error e => ({ s with thread := .faulted e }, [])
      | .ok none => ({ s with thread := .head }, [])
      | .ok (some data) =>
          match handleOnDataReceived P ⟨s.settings, s.keys⟩ io utcNow s.heartBeat f.header
            data with
          | .error e => ({ s with thread := .faulted e }, [.delivered f.header data])
          | .ok (heartBeat, reply) =>
              ({ s with heartBeat, thread := .head },
                .delivered f.header data :: reply.toList.map .sent)

end Client

def client (P : Platform) : Machine Client Event Output where
  step s e :=
    match e, s.thread with
    | .gate io key, .head => some (s.passGate P io key)
    | .handshake io received, .authenticating => some (s.authenticate P io received)
    | .beat clock isGracefulShutdown io, .beating =>
        some (s.takeBeat P clock isGracefulShutdown io)
    | .receive io utcNow received, .receiving => some (s.takePacket P io utcNow received)
    | .cancel, _ => some ({ s with token := true }, [])
    | .elsewhere settings, _ => some ({ s with settings }, [])
    | _, _ => none

/-- The client when `TryConnect` has connected it. -/
def start (peerId : Guid) (settings : Option PeerSettings) (created : DateTime × DateTime) :
    Client :=
  { peerId, settings, heartBeat := .create created.1 created.2 }

/-! ## What a step can do -/

inductive Stepped (P : Platform) (s : Client) : Event → Client × List Output → Prop
  | gate {io key} (h : s.thread = .head) : Stepped P s (.gate io key) (s.passGate P io key)
  | handshake {io received} (h : s.thread = .authenticating) :
      Stepped P s (.handshake io received) (s.authenticate P io received)
  | beat {clock isGracefulShutdown io} (h : s.thread = .beating) :
      Stepped P s (.beat clock isGracefulShutdown io)
        (s.takeBeat P clock isGracefulShutdown io)
  | receive {io utcNow received} (h : s.thread = .receiving) :
      Stepped P s (.receive io utcNow received) (s.takePacket P io utcNow received)
  | cancel : Stepped P s .cancel ({ s with token := true }, [])
  | elsewhere {settings} : Stepped P s (.elsewhere settings) ({ s with settings }, [])

theorem client_step_iff {P : Platform} {s : Client} {e : Event} {r : Client × List Output} :
    (client P).step s e = some r ↔ Stepped P s e r := by
  constructor
  · intro h
    simp only [client] at h
    split at h
    · obtain rfl := Option.some.inj h
      exact .gate ‹_›
    · obtain rfl := Option.some.inj h
      exact .handshake ‹_›
    · obtain rfl := Option.some.inj h
      exact .beat ‹_›
    · obtain rfl := Option.some.inj h
      exact .receive ‹_›
    · obtain rfl := Option.some.inj h
      exact .cancel
    · obtain rfl := Option.some.inj h
      exact .elsewhere
    · simp at h
  · rintro (h | h | h | h | _ | _)
    all_goals simp only [client]
    all_goals rw [h]

theorem filterMap_sentFrame (fs : List Frame) :
    (fs.map Output.sent).filterMap Output.sentFrame = fs := by
  rw [List.filterMap_map]
  exact List.filterMap_some

theorem generated_not_mem_map {fs : List Frame} {x : Output} (h : x ∈ fs.map Output.sent)
    (key : RandomData 32) : x ≠ .generated key := by
  obtain ⟨f, -, rfl⟩ := List.mem_map.1 h
  simp

theorem Client.authenticate_spec (P : Platform) (s : Client) (io : Ambient)
    (received : Received) :
    let handled := Authentication.takeTurn (handleAuthenticationPacket P) s.keys
      ⟨s.settings, io, received⟩
    let t := (s.authenticate P io received).1
    let o := (s.authenticate P io received).2
    t.keys = handled.keys ∧ o.filterMap Output.sentFrame = handled.replies ∧
      (∀ key, .generated key ∉ o) ∧
      (t.isAuthenticating = s.isAuthenticating ∧ t.isAuthenticated = s.isAuthenticated ∧
          (t.thread = s.thread ∨ ∃ e, t.thread = .faulted e) ∨
        ∃ reply, handled.outcome = .ok (some .ready, reply) ∧ t.isAuthenticating = false ∧
          t.isAuthenticated = true ∧ t.thread = .beating) := by
  intro handled t o
  cases houtcome : handled.outcome with
  | error e =>
      have hr : s.authenticate P io received =
          ({ s with keys := handled.keys, thread := .faulted e }, []) := by
        simp only [Client.authenticate]
        rw [houtcome]
      simp only [t, o]
      rw [hr]
      refine ⟨rfl, ?_, by simp, Or.inl ⟨rfl, rfl, Or.inr ⟨e, rfl⟩⟩⟩
      simp [Handled.replies, houtcome]
  | ok r =>
      obtain ⟨m, reply⟩ := r
      by_cases hready : m = some .ready
      · have hr : s.authenticate P io received =
            ({ s with keys := handled.keys, isAuthenticated := true, isAuthenticating := false
                      thread := .beating },
              reply.toList.map Output.sent ++ [.authenticated]) := by
          simp only [Client.authenticate]
          rw [houtcome]
          simp only [if_pos hready]
          rfl
        simp only [t, o]
        rw [hr]
        refine ⟨rfl, ?_, fun key hmem => ?_, Or.inr ⟨reply, by rw [hready], rfl, rfl, rfl⟩⟩
        · rw [List.filterMap_append, filterMap_sentFrame]
          simp [Handled.replies, houtcome, Output.sentFrame]
        · rcases List.mem_append.1 hmem with hmem | hmem
          · exact generated_not_mem_map hmem key rfl
          · simp at hmem
      · have hr : s.authenticate P io received =
            ({ s with keys := handled.keys }, reply.toList.map Output.sent) := by
          simp only [Client.authenticate]
          rw [houtcome]
          simp only [if_neg hready]
          rfl
        simp only [t, o]
        rw [hr]
        refine ⟨rfl, ?_, fun key hmem => generated_not_mem_map hmem key rfl, Or.inl ⟨rfl, rfl, Or.inl rfl⟩⟩
        rw [filterMap_sentFrame]
        simp [Handled.replies, houtcome]

theorem Client.afterBeat_keys (s : Client) (beat : Beat) :
    (s.afterBeat beat).1.keys = s.keys := by
  unfold Client.afterBeat
  split_ifs <;> rfl

theorem Client.afterBeat_eq {s : Client} {beat : Beat}
    (h : (beat.result && beat.isDisconnected) = false) :
    s.afterBeat beat = ({ s with heartBeat := beat.heartBeat, thread := .receiving },
      (beat.ping.bind Sent.frame).toList.map .sent) := by
  unfold Client.afterBeat
  rw [h]
  rfl

/-- A step in terms of the handshake. -/
inductive Moves (P : Platform) (s : Client) (e : Event) (t : Client) (o : List Output) : Prop
  /-- the session key is generated and SYN is sent -/
  | begins (key : RandomData 32) (sent : List Frame)
      (before : s.isAuthenticating = false ∧ s.isAuthenticated = false)
      (stored : t.keys.chaChaKey = some key.1)
      (after : t.isAuthenticating = true ∧ t.isAuthenticated = false)
      (out : o = .generated key :: sent.map .sent)
      (syn : ∀ f ∈ sent, f.header.packetAction = .syn) (silent : e.received = none)
  | turns (io : Ambient) (received : Received) (event : e = .handshake io received)
      (before : s.thread = .authenticating) (next : (t, o) = s.authenticate P io received)
  | goesOn (key : t.keys = s.keys) (isAuthenticating : t.isAuthenticating = s.isAuthenticating)
      (isAuthenticated : t.isAuthenticated = s.isAuthenticated)
      (thread : t.thread = .authenticating → s.thread = .authenticating)
      (out : ∀ x ∈ o, ∀ key, x ≠ .generated key)
      (sent : ∀ f ∈ o.filterMap Output.sentFrame, ¬ f.header.packetAction.IsHandshake)

theorem handleOnDataReceived_action {P : Platform} {helper : PacketHelper} {io : Ambient}
    {utcNow : DateTime} {hb hb' : HeartBeat} {header : PacketHeader} {data : Bytes} {f : Frame}
    (h : handleOnDataReceived P helper io utcNow hb header data = .ok (hb', some f)) :
    f.header.packetAction = .pong := by
  unfold handleOnDataReceived at h
  split_ifs at h
  · simp at h
  · exact HeartBeat.handleHeartBeatActions_action h
  · simp at h

theorem Client.passGate_moves (P : Platform) (s : Client) (io : Ambient) (key : RandomData 32)
    (h : s.thread = .head) :
    Moves P s (.gate io key) (s.passGate P io key).1 (s.passGate P io key).2 := by
  unfold Client.passGate
  split_ifs with htoken hauthenticating hauthenticated
  · exact .goesOn rfl rfl rfl (by simp) (by simp) (by simp)
  · exact .goesOn rfl rfl rfl (by simp [h]) (by simp) (by simp)
  · exact .goesOn rfl rfl rfl (by simp) (by simp) (by simp)
  · refine .begins key _ ⟨by simpa using hauthenticating, by simpa using hauthenticated⟩ rfl
      ⟨rfl, by simpa using hauthenticated⟩ rfl ?_ rfl
    exact fun f hf => PacketHelper.action_of_mem_sendUTF8Packet P hf

theorem Client.afterBeat_moves {P : Platform} {s : Client} {e : Event} {beat : Beat}
    (hresult : (beat.result && beat.isDisconnected) = false)
    (hping : ∀ f ∈ (beat.ping.bind Sent.frame).toList, f.header.packetAction = .ping) :
    Moves P s e (s.afterBeat beat).1 (s.afterBeat beat).2 := by
  rw [Client.afterBeat_eq hresult]
  refine .goesOn rfl rfl rfl (by simp) (fun x hx => generated_not_mem_map hx) fun f hf => ?_
  rw [filterMap_sentFrame] at hf
  rw [hping f hf]
  decide

theorem Client.takePacket_moves (P : Platform) (s : Client) (io : Ambient) (utcNow : DateTime)
    (received : Received) :
    Moves P s (.receive io utcNow received) (s.takePacket P io utcNow received).1
      (s.takePacket P io utcNow received).2 := by
  unfold Client.takePacket
  split
  · exact .goesOn rfl rfl rfl (by simp) (by simp) (by simp)
  · split
    · exact .goesOn rfl rfl rfl (by simp) (by simp) (by simp)
    · exact .goesOn rfl rfl rfl (by simp) (by simp) (by simp)
    · split
      · exact .goesOn rfl rfl rfl (by simp) (by simp) (by simp [Output.sentFrame])
      · rename_i heartBeat reply hhandled
        refine .goesOn rfl rfl rfl (by simp) (fun x hx key => ?_) (fun f hf => ?_)
        · rcases List.mem_cons.1 hx with rfl | hsent
          · simp
          · exact generated_not_mem_map hsent key
        · rw [List.filterMap_cons_none rfl, filterMap_sentFrame, Option.mem_toList] at hf
          obtain rfl : reply = some f := hf
          rw [handleOnDataReceived_action hhandled]
          decide

theorem moves_of_stepped {P : Platform} {s : Client} {e : Event} {r : Client × List Output}
    (h : Stepped P s e r) : Moves P s e r.1 r.2 := by
  cases h with
  | gate h => exact s.passGate_moves P _ _ h
  | handshake h => exact .turns _ _ rfl h rfl
  | beat h =>
      exact Client.afterBeat_moves (HeartBeat.trySendHeartBeat_result ..)
        fun f hf => HeartBeat.trySendHeartBeat_action hf
  | receive h => exact s.takePacket_moves P _ _ _
  | cancel => exact .goesOn rfl rfl rfl id (by simp) (by simp)
  | elsewhere => exact .goesOn rfl rfl rfl id (by simp) (by simp)

/-- The end of the loop that `HandleConnected` provides for is never reached. -/
theorem Client.takeBeat_thread (P : Platform) (s : Client) (clock : PollClock)
    (isGracefulShutdown : Bool) (io : Ambient) :
    (s.takeBeat P clock isGracefulShutdown io).1.thread = .receiving := by
  rw [Client.takeBeat, Client.afterBeat_eq (HeartBeat.trySendHeartBeat_result ..)]

end BaseTCPClient

end NETConnect
