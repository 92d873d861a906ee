import NETConnect.Client
import NETConnect.Lib.Relay
import NETConnect.PerConnection
/-!
# Delivery over an established session

One end calls `SendPacket` in ways that select ChaCha20-Poly1305, the other end runs
its receive loop.  The loop is a relay: it hands on every packet unless the heartbeat
gives the connection up, or a subscriber throws on an earlier packet.
-/

namespace NETConnect

open Lib SocketExtensions

/-- A call of `SendPacket` that selects ChaCha20-Poly1305, with the settings it meets, on
a socket that works. -/
structure SealedCall where
  settings : Option PeerSettings
  io : Ambient
  data : Bytes
  type : PacketActionType
  isEncryptionEnabled : Bool
  encryptionType : PacketEncryptionType
  data_ne : data ≠ []
  type_ne : type ≠ .empty
  selected : PacketHelper.selectedType settings isEncryptionEnabled encryptionType =
    .chaCha20Poly1305
  alive : io.alive = true

namespace SealedCall

/-- The frame that the call writes. -/
def frame (P : Platform) (keys : SecurityKey) (call : SealedCall) : Option Frame :=
  (PacketHelper.sendPacket P ⟨call.settings, keys⟩ call.io (some call.data) call.type
    call.isEncryptionEnabled call.encryptionType).frame

variable {P : Platform} {keys : SecurityKey} {key : Bytes}

theorem usableKey_chaCha (hkey : keys.chaChaKey = some key) (hlength : key.length = 32) :
    PacketHelper.usableKey keys .chaCha20Poly1305 = some key := by
  unfold PacketHelper.usableKey
  rw [if_neg (by decide), if_pos rfl, hkey]
  simp [Option.filter, hlength]

theorem frame_spec (laws : P.ChaChaLaws) (hjson : P.packetEncrypted.RoundTrips)
    (hkey : keys.chaChaKey = some key) (hlength : key.length = 32) (call : SealedCall) :
    ∃ f, call.frame P keys = some f ∧ f.header.packetAction = call.type ∧
      ∀ keys' : SecurityKey, keys'.chaChaKey = some key →
        autoDecrypt P keys' f = .ok (some call.data) := by
  have hcipher : (P.chaChaEncrypt key call.io.nonce call.data).isSome :=
    (laws.encrypt_isSome call.io.nonce.2).2 hlength
  obtain ⟨⟨cipher, tag⟩, hcipher⟩ := Option.isSome_iff_exists.1 hcipher
  have hselected : PacketHelper.selectedType call.settings call.isEncryptionEnabled
      call.encryptionType ≠ .none := by
    rw [call.selected]
    decide
  have husable : PacketHelper.usableKey keys (PacketHelper.selectedType call.settings
      call.isEncryptionEnabled call.encryptionType) = some key := by
    rw [call.selected]
    exact usableKey_chaCha hkey hlength
  -- the envelope
  obtain ⟨payload, hpayload⟩ : ∃ payload, PacketEncrypted.encryptUT8Bytes P call.io call.data
      (some key) (PacketHelper.selectedType call.settings call.isEncryptionEnabled
        call.encryptionType) = .ok payload := by
    rw [call.selected]
    exact ⟨_, PacketEncrypted.encryptUT8Bytes_chaCha P hcipher⟩
  have hframe := congrArg Sent.frame (PacketHelper.sendPacket_encrypted P ⟨call.settings, keys⟩
    call.io call.alive call.data_ne call.type hselected husable hpayload)
  have hsealed := PacketHelper.sendPacket_isSealed P ⟨call.settings, keys⟩ call.io call.data_ne
    hselected husable hframe
  refine ⟨_, hframe, rfl, fun keys' hkey' => ?_⟩
  rw [call.selected] at hsealed ⊢
  exact autoDecrypt_of_isSealed laws hjson hkey' call.data_ne call.type_ne hsealed

end SealedCall

/-- One pass of a receive loop, with the call whose frame it reads, if it reads one. -/
structure Round where
  clock : PollClock
  isGracefulShutdown : Bool
  pingIO : Ambient
  others : ConnId → Ambient
  io : Ambient
  utcNow : DateTime
  /-- for a session key, if one were generated -/
  random : RandomData 32
  call : Option SealedCall

namespace Round

/-- What `ReceivePacket` returns. -/
def received (P : Platform) (keys : SecurityKey) (r : Round) : Received :=
  .packet ((r.call.bind (SealedCall.frame P keys)).getD .nothing)

def brings (r : Round) : Option (PacketActionType × Bytes) :=
  r.call.map fun call => (call.type, call.data)

end Round

/-! ## The server's loop -/

namespace BaseTCPServer

variable (P : Platform) (c : ConnId)

/-- The connection is authenticated, and the loop of its handler is at some place. -/
structure InLoop (key : Bytes) (thread : Thread) (s : Server) : Prop where
  thread : s.thread = thread
  token : (s.conns c).clientToken = false
  isAuthenticating : s.isAuthenticating = false
  isAuthenticated : s.isAuthenticated = true
  key : (s.keys c).chaChaKey = some key

def roundEvents (keys : SecurityKey) (r : Round) : List Event :=
  [.beat r.clock r.isGracefulShutdown r.pingIO r.others,
    .receive r.io r.utcNow (r.received P keys), .gate]

/-- The packets of the connection that `OnDataReceived` is raised with. -/
def Output.handsOn : Output → Option (PacketActionType × Bytes)
  | .delivered c' header data => if c' = c then some (header.packetAction, data) else none
  | _ => none

/-- The heartbeat gives the connection up. -/
def Lost (s : Server) (r : Round) : Prop :=
  HeartBeat.GivesUp P ⟨s.self.settings, s.keys c⟩ r.pingIO (s.conns c).heartBeat r.clock
    r.isGracefulShutdown

/-- The server's own subscriber throws on the packet. -/
def Upset (keys : SecurityKey) (s : Server) (r : Round) : Prop :=
  ∃ call f, r.call = some call ∧ call.frame P keys = some f ∧
    Upsets P (s.site r.io r.utcNow) f.header call.data

variable {P c} {s t : Server} {beat : Beat} {others : ConnId → Ambient} {o : List Output}

theorem filterMap_handsOn_of_isSent (h : ∀ x ∈ o, x.IsSent) :
    o.filterMap (Output.handsOn c) = [] := by
  apply List.filterMap_eq_nil_iff.2
  intro x hx
  have hsent := h x hx
  cases x with
  | sent c' f => rfl
  | authenticated c' => exact hsent.elim
  | delivered c' header data => exact hsent.elim

theorem Server.afterBeat_stays
    (h : (!beat.result && beat.isDisconnected && !beat.heartBeat.firstBeat) = false) :
    s.afterBeat P c others beat =
      ({ s.setConn c { s.conns c with heartBeat := beat.heartBeat } with
          thread := .receiving c }, (beat.ping.bind Sent.frame).toList.map (.sent c)) := by
  unfold Server.afterBeat
  rw [h]
  rfl

theorem Server.afterBeat_leaves
    (h : (!beat.result && beat.isDisconnected && !beat.heartBeat.firstBeat) = true) :
    ∃ t o, s.afterBeat P c others beat = (t, o) ∧ t.thread.serving = none ∧
      ∀ x ∈ o, x.IsSent := by
  have hnone : ∀ threw, (Server.after threw s.returned).serving = none := by
    rintro (_ | e)
    · exact s.serving_returned
    · rfl
  unfold Server.afterBeat
  rw [h]
  refine ⟨_, _, rfl, hnone _, fun x hx => ?_⟩
  rcases List.mem_append.1 hx with hping | hleave
  · exact isSent_of_mem_map hping
  · obtain ⟨l, -, rfl⟩ := List.mem_map.1 hleave
    trivial

theorem step_eq_none {e : Event} (h : ∀ r, ¬ Stepped P s e r) : (server P).step s e = none := by
  apply Option.eq_none_iff_forall_ne_some.2
  intro r hstep
  exact h r (server_step_iff.1 hstep)

/-! ### The three steps of a round -/

variable {key : Bytes}

theorem InLoop.setConn {thread : Thread} (h : InLoop c key thread s) (conn : Connection)
    (self : Peer) (thread' : Thread) (hkeys : conn.keys = s.keys c)
    (htoken : conn.clientToken = (s.conns c).clientToken) :
    InLoop c key thread' { s.setConn c conn with self, thread := thread' } where
  thread := rfl
  token := by
    change (Function.update s.conns c conn c).clientToken = false
    rw [Function.update_self, htoken]
    exact h.token
  isAuthenticating := h.isAuthenticating
  isAuthenticated := h.isAuthenticated
  key := by
    change ((s.setConn c conn).keys c).chaChaKey = some key
    rw [Server.keys_setConn_self s c conn hkeys]
    exact h.key

theorem InLoop.takeBeat (h : InLoop c key (.beating c) s) {r : Round} (hkept : ¬ Lost P c s r) :
    ∃ t o, (server P).step s (.beat r.clock r.isGracefulShutdown r.pingIO r.others) =
        some (t, o) ∧ (∀ x ∈ o, x.IsSent) ∧ InLoop c key (.receiving c) t ∧
      t.hasOnPeerConnected = s.hasOnPeerConnected ∧ t.isAudioRunning = s.isAudioRunning ∧
      t.self = s.self := by
  have hstays := Bool.eq_false_iff.2 fun hgone =>
    hkept ((HeartBeat.trySendHeartBeat_givesUp_iff ..).1 hgone)
  have hbeat : s.takeBeat P c r.clock r.isGracefulShutdown r.pingIO r.others = _ :=
    Server.afterBeat_stays hstays
  refine ⟨_, _, (server_step_iff.2 (.beat h.thread)).trans (congrArg some hbeat), ?_⟩
  exact ⟨fun x hx => isSent_of_mem_map hx, h.setConn _ s.self _ rfl rfl, rfl, rfl, rfl⟩

theorem InLoop.passGate (h : InLoop c key (.head c) s) :
    (server P).step s .gate = some ({ s with thread := .beating c }, []) ∧
      InLoop c key (.beating c) { s with thread := .beating c } := by
  refine ⟨?_, rfl, h.token, h.isAuthenticating, h.isAuthenticated, h.key⟩
  rw [server_step_iff.2 (.gate h.thread), Server.passGate, h.token, h.isAuthenticating,
    h.isAuthenticated]
  rfl

theorem InLoop.takeNothing (h : InLoop c key (.receiving c) s) (io : Ambient)
    (utcNow : DateTime) :
    (server P).step s (.receive io utcNow (.packet .nothing)) =
        some ({ s with thread := .head c }, []) ∧
      InLoop c key (.head c) { s with thread := .head c } := by
  refine ⟨?_, rfl, h.token, h.isAuthenticating, h.isAuthenticated, h.key⟩
  rw [server_step_iff.2 (.receive h.thread)]
  rfl

theorem InLoop.takeCall (h : InLoop c key (.receiving c) s) (io : Ambient)
    (utcNow : DateTime) {f : Frame} {data : Bytes}
    (hopens : autoDecrypt P (s.keys c) f = .ok (some data)) :
    ∃ t o, (server P).step s (.receive io utcNow (.packet f)) = some (t, o) ∧
      o.filterMap (Output.handsOn c) = [(f.header.packetAction, data)] ∧
      (Upsets P (s.site io utcNow) f.header data → t.thread.serving = none) ∧
      (¬ Upsets P (s.site io utcNow) f.header data → InLoop c key (.head c) t) := by
  have hthrew := handleDataReceived_threw_iff P (s.site io utcNow) s.self c (s.conns c) f.header
    data
  obtain ⟨hkeys, htoken⟩ := handleDataReceived_keeps P (s.site io utcNow) s.self c (s.conns c)
    f.header data
  refine ⟨_, _, (server_step_iff.2 (.receive h.thread)).trans
    (congrArg some (Server.takePacket_of_opens hopens)), ?_⟩
  refine ⟨?_, fun hupset => ?_, fun hcalm => ?_⟩
  · have hhere : Output.handsOn c (.delivered c f.header data) =
        some (f.header.packetAction, data) := by simp [Output.handsOn]
    rw [List.filterMap_cons_some hhere,
      filterMap_handsOn_of_isSent fun x hx => isSent_of_mem_map hx]
  · obtain ⟨e, he⟩ := Option.ne_none_iff_exists'.1 (hthrew.2 hupset)
    rw [he]
    rfl
  · have hnone := not_not.1 (mt hthrew.1 hcalm)
    rw [hnone]
    exact h.setConn _ _ _ hkeys htoken

/-! ### The relay -/

theorem step_receive_of_not_serving {io : Ambient} {utcNow : DateTime} {received : Received}
    (h : s.thread.serving = none) :
    (server P).step s (.receive io utcNow received) = none := by
  apply step_eq_none
  rintro r ⟨⟩
  simp [‹s.thread = _›, Thread.serving] at h

theorem step_gate_of_not_serving (h : s.thread.serving = none) :
    (server P).step s .gate = none := by
  apply step_eq_none
  rintro r ⟨⟩
  simp [‹s.thread = _›, Thread.serving] at h

theorem InLoop.round {keys : SecurityKey} {r : Round} (laws : P.ChaChaLaws)
    (hjson : P.packetEncrypted.RoundTrips) (hkey : keys.chaChaKey = some key)
    (hlength : key.length = 32) (h : InLoop c key (.beating c) s) (hkept : ¬ Lost P c s r)
    (hcalm : r.brings ≠ none → ¬ Upset P keys s r) :
    ∃ t o, (server P).run s (roundEvents P keys r) = some (t, o) ∧
      o.filterMap (Output.handsOn c) = r.brings.toList ∧ InLoop c key (.beating c) t := by
  obtain ⟨t, o, hbeat, hsent, ht, hpeers, haudio, -⟩ := h.takeBeat hkept
  have hsite : t.site r.io r.utcNow = s.site r.io r.utcNow := by
    unfold Server.site
    rw [hpeers, haudio]
  cases hcall : r.call with
  | none =>
      obtain ⟨hreceive, hu⟩ := ht.takeNothing (P := P) r.io r.utcNow
      obtain ⟨hgate, hv⟩ := hu.passGate (P := P)
      refine ⟨_, o ++ [], ?_, ?_, hv⟩
      · simp only [roundEvents, Round.received, hcall, Option.bind_none, Option.getD_none]
        exact Machine.run_cons_iff.2 ⟨t, o, [], hbeat, Machine.run_cons_iff.2
          ⟨_, [], [], hreceive, Machine.run_singleton_iff.2 hgate, rfl⟩, rfl⟩
      · rw [List.append_nil, filterMap_handsOn_of_isSent hsent]
        simp [Round.brings, hcall]
  | some call =>
      obtain ⟨f, hframe, haction, hopens⟩ := call.frame_spec laws hjson hkey hlength
      obtain ⟨u, o', hreceive, hdelivered, -, hu⟩ :=
        ht.takeCall r.io r.utcNow (hopens (t.keys c) ht.key)
      have hquiet : ¬ Upsets P (t.site r.io r.utcNow) f.header call.data := by
        rw [hsite]
        exact fun hupset => hcalm (by simp [Round.brings, hcall]) ⟨call, f, hcall, hframe, hupset⟩
      obtain ⟨hgate, hv⟩ := (hu hquiet).passGate (P := P)
      refine ⟨_, o ++ o', ?_, ?_, hv⟩
      · simp only [roundEvents, Round.received, hcall, Option.bind_some, hframe, Option.getD_some]
        exact Machine.run_cons_iff.2 ⟨t, o, o', hbeat, Machine.run_cons_iff.2
          ⟨u, o', [], hreceive, Machine.run_singleton_iff.2 hgate, (List.append_nil o').symm⟩, rfl⟩
      · rw [List.filterMap_append, filterMap_handsOn_of_isSent hsent, hdelivered, haction]
        simp [Round.brings, hcall]

theorem InLoop.leaves (h : InLoop c key (.beating c) s) {r : Round} (hlost : Lost P c s r) :
    ∃ t o, (server P).step s (.beat r.clock r.isGracefulShutdown r.pingIO r.others) =
      some (t, o) ∧ (∀ x ∈ o, x.IsSent) ∧ t.thread.serving = none := by
  obtain ⟨t, o, hbeat, hthread, hsent⟩ := Server.afterBeat_leaves
    ((HeartBeat.trySendHeartBeat_givesUp_iff ..).2 hlost)
  exact ⟨t, o, (server_step_iff.2 (.beat h.thread)).trans (congrArg some hbeat), hsent, hthread⟩

theorem InLoop.lost {keys : SecurityKey} {r : Round} (h : InLoop c key (.beating c) s)
    (hlost : Lost P c s r) (es : List Event) :
    ((server P).trace s (roundEvents P keys r ++ es)).filterMap (Output.handsOn c) = [] := by
  obtain ⟨t, o, hbeat, hsent, hthread⟩ := h.leaves hlost
  unfold roundEvents
  rw [List.cons_append, Machine.trace_cons_of_some hbeat, List.cons_append,
    Machine.trace_cons_of_none (step_receive_of_not_serving hthread), List.append_nil]
  exact filterMap_handsOn_of_isSent hsent

theorem InLoop.upset {keys : SecurityKey} {r : Round} (laws : P.ChaChaLaws)
    (hjson : P.packetEncrypted.RoundTrips) (hkey : keys.chaChaKey = some key)
    (hlength : key.length = 32) (h : InLoop c key (.beating c) s) (hkept : ¬ Lost P c s r)
    (hupset : Upset P keys s r) (es : List Event) :
    ((server P).trace s (roundEvents P keys r ++ es)).filterMap (Output.handsOn c) =
      r.brings.toList := by
  obtain ⟨t, o, hbeat, hsent, ht, hpeers, haudio, -⟩ := h.takeBeat hkept
  have hsite : t.site r.io r.utcNow = s.site r.io r.utcNow := by
    unfold Server.site
    rw [hpeers, haudio]
  obtain ⟨call, f, hcall, hframe, hthrows⟩ := hupset
  obtain ⟨f', hframe', haction, hopens⟩ := call.frame_spec laws hjson hkey hlength
  obtain rfl : f = f' := Option.some.inj (hframe.symm.trans hframe')
  obtain ⟨u, o', hreceive, hdelivered, hends, -⟩ :=
    ht.takeCall r.io r.utcNow (hopens (t.keys c) ht.key)
  have hthread := hends (by rw [hsite]; exact hthrows)
  unfold roundEvents
  simp only [Round.received, hcall, Option.bind_some, hframe, Option.getD_some, List.cons_append]
  rw [Machine.trace_cons_of_some hbeat, Machine.trace_cons_of_some hreceive,
    Machine.trace_cons_of_none (step_gate_of_not_serving hthread), List.append_nil,
    List.filterMap_append, filterMap_handsOn_of_isSent hsent, hdelivered, haction]
  simp [Round.brings, hcall]

/-- The loop of `HandleClientConnected`, for what the other end sends with `keys`. -/
def relay (P : Platform) (c : ConnId) (laws : P.ChaChaLaws)
    (hjson : P.packetEncrypted.RoundTrips) (keys : SecurityKey) (key : Bytes)
    (hkey : keys.chaChaKey = some key) (hlength : key.length = 32) :
    Relay (server P) Round (PacketActionType × Bytes) where
  events := roundEvents P keys
  brings := Round.brings
  handsOn := Output.handsOn c
  Alive := InLoop c key (.beating c)
  Lost := Lost P c
  Upset := Upset P keys
  round h hkept hcalm := h.round laws hjson hkey hlength hkept hcalm
  lost h hlost es := h.lost hlost es
  upset h hkept _ hupset es := h.upset laws hjson hkey hlength hkept hupset es

end BaseTCPServer

/-! ## The client's loop -/

namespace BaseTCPClient

/-- The client is authenticated, and its loop is at some place. -/
structure InLoop (key : Bytes) (thread : Thread) (s : Client) : Prop where
  thread : s.thread = thread
  token : s.token = false
  isAuthenticating : s.isAuthenticating = false
  isAuthenticated : s.isAuthenticated = true
  key : s.keys.chaChaKey = some key

def roundEvents (P : Platform) (keys : SecurityKey) (r : Round) : List Event :=
  [.beat r.clock r.isGracefulShutdown r.pingIO, .receive r.io r.utcNow (r.received P keys),
    .gate r.io r.random]

/-- The packets that `OnDataReceived` is raised with. -/
def Output.handsOn : Output → Option (PacketActionType × Bytes)
  | .delivered header data => some (header.packetAction, data)
  | _ => none

/-- The client's own subscriber throws on the packet. -/
def Upset (P : Platform) (keys : SecurityKey) (_ : Client) (r : Round) : Prop :=
  ∃ call f, r.call = some call ∧ call.frame P keys = some f ∧
    HeartBeat.Upsets P f.header call.data

variable {P : Platform} {s t : Client} {key : Bytes}

theorem filterMap_handsOn_sent (fs : List Frame) :
    (fs.map Output.sent).filterMap Output.handsOn = [] := by
  apply List.filterMap_eq_nil_iff.2
  intro x hx
  obtain ⟨f, -, rfl⟩ := List.mem_map.1 hx
  rfl

theorem handleOnDataReceived_error_iff (helper : PacketHelper) (io : Ambient)
    (utcNow : DateTime) (heartBeat : HeartBeat) (header : PacketHeader) {data : Bytes}
    (hdata : data ≠ []) :
    (∃ e, handleOnDataReceived P helper io utcNow heartBeat header data = .error e) ↔
      HeartBeat.Upsets P header data := by
  have hlength : ¬ data.length = 0 := fun h => hdata (List.length_eq_zero_iff.1 h)
  unfold handleOnDataReceived
  rw [if_neg hlength]
  split_ifs with hbeat
  · exact HeartBeat.handleHeartBeatActions_error_iff P helper io heartBeat utcNow header data
  · exact iff_of_false (by simp) fun h => hbeat (h.imp And.left And.left)

theorem InLoop.takeBeat (h : InLoop key .beating s) (r : Round) :
    ∃ t o, (client P).step s (.beat r.clock r.isGracefulShutdown r.pingIO) = some (t, o) ∧
      o.filterMap Output.handsOn = [] ∧ InLoop key .receiving t :=
  ⟨_, _, (client_step_iff.2 (.beat h.thread)).trans
      (congrArg some (Client.afterBeat_eq (HeartBeat.trySendHeartBeat_result ..))),
    filterMap_handsOn_sent _, rfl, h.token, h.isAuthenticating, h.isAuthenticated, h.key⟩

theorem InLoop.passGate (h : InLoop key .head s) (io : Ambient) (random : RandomData 32) :
    (client P).step s (.gate io random) = some ({ s with thread := .beating }, []) ∧
      InLoop key .beating { s with thread := .beating } := by
  refine ⟨?_, rfl, h.token, h.isAuthenticating, h.isAuthenticated, h.key⟩
  rw [client_step_iff.2 (.gate h.thread), Client.passGate, h.token, h.isAuthenticating,
    h.isAuthenticated]
  rfl

theorem InLoop.takeNothing (h : InLoop key .receiving s) (io : Ambient) (utcNow : DateTime) :
    (client P).step s (.receive io utcNow (.packet .nothing)) =
        some ({ s with thread := .head }, []) ∧
      InLoop key .head { s with thread := .head } := by
  refine ⟨?_, rfl, h.token, h.isAuthenticating, h.isAuthenticated, h.key⟩
  rw [client_step_iff.2 (.receive h.thread)]
  rfl

theorem InLoop.takeCall (h : InLoop key .receiving s) (io : Ambient) (utcNow : DateTime)
    {f : Frame} {data : Bytes} (hdata : data ≠ [])
    (hopens : autoDecrypt P s.keys f = .ok (some data)) :
    ∃ t o, (client P).step s (.receive io utcNow (.packet f)) = some (t, o) ∧
      o.filterMap Output.handsOn = [(f.header.packetAction, data)] ∧
      (HeartBeat.Upsets P f.header data → ∃ e, t.thread = .faulted e) ∧
      (¬ HeartBeat.Upsets P f.header data → InLoop key .head t) := by
  have hthrew := handleOnDataReceived_error_iff (P := P) ⟨s.settings, s.keys⟩ io utcNow
    s.heartBeat f.header hdata
  have hstep : (client P).step s (.receive io utcNow (.packet f)) =
      some (s.takePacket P io utcNow (.packet f)) := client_step_iff.2 (.receive h.thread)
  simp only [Client.takePacket, hopens] at hstep
  cases hhandled : handleOnDataReceived P ⟨s.settings, s.keys⟩ io utcNow s.heartBeat f.header
      data with
  | error e =>
      rw [hhandled] at hstep
      exact ⟨_, _, hstep, rfl, fun _ => ⟨e, rfl⟩, fun hcalm => absurd (hthrew.1 ⟨e, hhandled⟩) hcalm⟩
  | ok handled =>
      rw [hhandled] at hstep
      refine ⟨_, _, hstep, ?_, fun hupset => ?_, fun _ =>
        ⟨rfl, h.token, h.isAuthenticating, h.isAuthenticated, h.key⟩⟩
      · have hhere : Output.handsOn (.delivered f.header data) =
            some (f.header.packetAction, data) := rfl
        rw [List.filterMap_cons_some hhere, filterMap_handsOn_sent]
      · obtain ⟨e, he⟩ := hthrew.2 hupset
        simp [hhandled] at he

theorem step_gate_of_faulted {e : Exn} {io : Ambient} {random : RandomData 32}
    (h : s.thread = .faulted e) : (client P).step s (.gate io random) = none := by
  simp only [client, h]

theorem InLoop.round {keys : SecurityKey} {r : Round} (laws : P.ChaChaLaws)
    (hjson : P.packetEncrypted.RoundTrips) (hkey : keys.chaChaKey = some key)
    (hlength : key.length = 32) (h : InLoop key .beating s)
    (hcalm : r.brings ≠ none → ¬ Upset P keys s r) :
    ∃ t o, (client P).run s (roundEvents P keys r) = some (t, o) ∧
      o.filterMap Output.handsOn = r.brings.toList ∧ InLoop key .beating t := by
  obtain ⟨t, o, hbeat, hquiet, ht⟩ := h.takeBeat (P := P) r
  cases hcall : r.call with
  | none =>
      obtain ⟨hreceive, hu⟩ := ht.takeNothing (P := P) r.io r.utcNow
      obtain ⟨hgate, hv⟩ := hu.passGate (P := P) r.io r.random
      refine ⟨_, o ++ [], ?_, ?_, hv⟩
      · simp only [roundEvents, Round.received, hcall, Option.bind_none, Option.getD_none]
        exact Machine.run_cons_iff.2 ⟨t, o, [], hbeat, Machine.run_cons_iff.2
          ⟨_, [], [], hreceive, Machine.run_singleton_iff.2 hgate, rfl⟩, rfl⟩
      · rw [List.append_nil, hquiet]
        simp [Round.brings, hcall]
  | some call =>
      obtain ⟨f, hframe, haction, hopens⟩ := call.frame_spec laws hjson hkey hlength
      obtain ⟨u, o', hreceive, hdelivered, -, hu⟩ :=
        ht.takeCall r.io r.utcNow call.data_ne (hopens t.keys ht.key)
      obtain ⟨hgate, hv⟩ := (hu fun hupset => hcalm (by simp [Round.brings, hcall])
        ⟨call, f, hcall, hframe, hupset⟩).passGate (P := P) r.io r.random
      refine ⟨_, o ++ o', ?_, ?_, hv⟩
      · simp only [roundEvents, Round.received, hcall, Option.bind_some, hframe, Option.getD_some]
        exact Machine.run_cons_iff.2 ⟨t, o, o', hbeat, Machine.run_cons_iff.2
          ⟨u, o', [], hreceive, Machine.run_singleton_iff.2 hgate, (List.append_nil o').symm⟩, rfl⟩
      · rw [List.filterMap_append, hquiet, hdelivered, haction]
        simp [Round.brings, hcall]

theorem InLoop.upset {keys : SecurityKey} {r : Round} (laws : P.ChaChaLaws)
    (hjson : P.packetEncrypted.RoundTrips) (hkey : keys.chaChaKey = some key)
    (hlength : key.length = 32) (h : InLoop key .beating s) (hupset : Upset P keys s r)
    (es : List Event) :
    ((client P).trace s (roundEvents P keys r ++ es)).filterMap Output.handsOn =
      r.brings.toList := by
  obtain ⟨t, o, hbeat, hquiet, ht⟩ := h.takeBeat (P := P) r
  obtain ⟨call, f, hcall, hframe, hthrows⟩ := hupset
  obtain ⟨f', hframe', haction, hopens⟩ := call.frame_spec laws hjson hkey hlength
  obtain rfl : f = f' := Option.some.inj (hframe.symm.trans hframe')
  obtain ⟨u, o', hreceive, hdelivered, hends, -⟩ :=
    ht.takeCall r.io r.utcNow call.data_ne (hopens t.keys ht.key)
  obtain ⟨e, hthread⟩ := hends hthrows
  unfold roundEvents
  simp only [Round.received, hcall, Option.bind_some, hframe, Option.getD_some, List.cons_append]
  rw [Machine.trace_cons_of_some hbeat, Machine.trace_cons_of_some hreceive,
    Machine.trace_cons_of_none (step_gate_of_faulted hthread), List.append_nil,
    List.filterMap_append, hquiet, hdelivered, haction]
  simp [Round.brings, hcall]

/-- The loop of `HandleConnected`; its heartbeat never ends it. -/
def relay (P : Platform) (laws : P.ChaChaLaws) (hjson : P.packetEncrypted.RoundTrips)
    (keys : SecurityKey) (key : Bytes) (hkey : keys.chaChaKey = some key)
    (hlength : key.length = 32) : Relay (client P) Round (PacketActionType × Bytes) where
  events := roundEvents P keys
  brings := Round.brings
  handsOn := Output.handsOn
  Alive := InLoop key .beating
  Lost _ _ := False
  Upset := Upset P keys
  round h _ hcalm := h.round laws hjson hkey hlength hcalm
  lost _ hlost _ := hlost.elim
  upset h _ _ hupset es := h.upset laws hjson hkey hlength hupset es

end BaseTCPClient

/-! ## Both directions -/

/-- What one end sends, the other end raises `OnDataReceived` with, once and in order,
exactly if its rounds are undisturbed. -/
theorem delivered_iff (P : Platform) (laws : P.ChaChaLaws)
    (hjson : P.packetEncrypted.RoundTrips) (keys : SecurityKey) (key : Bytes)
    (hkey : keys.chaChaKey = some key) (hlength : key.length = 32) (rounds : List Round) :
    (∀ c s, BaseTCPServer.InLoop c key (.beating c) s →
      (((BaseTCPServer.server P).trace s (rounds.flatMap
          (BaseTCPServer.roundEvents P keys))).filterMap (BaseTCPServer.Output.handsOn c) =
          rounds.filterMap Round.brings ↔
        (BaseTCPServer.relay P c laws hjson keys key hkey hlength).Undisturbed s rounds)) ∧
    ∀ s, BaseTCPClient.InLoop key .beating s →
      (((BaseTCPClient.client P).trace s (rounds.flatMap
          (BaseTCPClient.roundEvents P keys))).filterMap BaseTCPClient.Output.handsOn =
          rounds.filterMap Round.brings ↔
        (BaseTCPClient.relay P laws hjson keys key hkey hlength).Undisturbed s rounds) := by
  constructor
  · intro c s hloop
    exact (BaseTCPServer.relay P c laws hjson keys key hkey hlength).handedOn_eq_iff hloop
  · intro s hloop
    exact (BaseTCPClient.relay P laws hjson keys key hkey hlength).handedOn_eq_iff hloop

/-- A round in which nothing is due and nobody hangs up. -/
def calmRound (call : Option SealedCall) : Round :=
  let t : DateTime := (0 : Nat)
  { clock := ⟨t, (t, t), (t, t), t⟩, isGracefulShutdown := false, pingIO := PacketHelper.quiet
    others := fun _ => PacketHelper.quiet, io := PacketHelper.quiet, utcNow := t
    random := ⟨List.replicate 32 0, rfl⟩, call }

def dataCall : SealedCall :=
  ⟨some {}, PacketHelper.quiet, [7], .data, true, .none, by decide, by decide, rfl, rfl⟩

/-- A Pong whose data is the text `null`. -/
def nullPong : SealedCall :=
  ⟨some {}, PacketHelper.quiet, toUTF8Byte "null", .pong, true, .none, by decide, by decide, rfl,
    rfl⟩

namespace BaseTCPServer

def sessionKey : Bytes := List.replicate 32 7

/-- The packets of a client that keeps to the protocol. -/
def honestClient : List Frame :=
  let helper : PacketHelper := ⟨some {},
    { remoteRSAPubKey := (Reference.reference.rsaCreate 8192 []).map RSAExport.publicKey
      chaChaKey := some sessionKey }⟩
  let auth : PacketAuthentication :=
    { encryptionType := .chaCha20Poly1305, keyData := some sessionKey }
  let io := PacketHelper.quiet
  let acknowledgement := (helper.sendEncryptedPacket Reference.reference io
    (some (toUTF8Byte (Reference.reference.packetAuthentication.toJSON auth))) .rsa .ack
    false).toOption.bind Sent.frame
  PacketHelper.frameOf io (toUTF8Byte (Reference.reference.guid.toJSON .empty)) .syn .none ::
    acknowledgement.toList ++ [PacketHelper.frameOf io (toUTF8Byte "<READY>") .ready .none]

/-- Its handshake with a server. -/
def honestHandshake : List Event :=
  [acceptNow, .gate] ++
    honestClient.map fun f => .handshake PacketHelper.quiet (.packet f)

theorem run_honestHandshake : ∃ s os,
    (server Reference.reference).run (start { peerId := .empty }) honestHandshake = some (s, os) ∧
      InLoop 0 sessionKey (.beating 0) s ∧
      (s.conns 0).heartBeat = .create (0 : Nat) (0 : Nat) ∧ s.self.settings = some {} := by
  have hend : ∃ r ∈ (server Reference.reference).run (start { peerId := .empty })
      honestHandshake, r.1.thread = .beating 0 ∧ (r.1.conns 0).clientToken = false ∧
        r.1.isAuthenticating = false ∧ r.1.isAuthenticated = true ∧
        (r.1.keys 0).chaChaKey = some sessionKey ∧
        (r.1.conns 0).heartBeat = .create (0 : Nat) (0 : Nat) ∧
        r.1.self.settings = some {} := by decide +kernel
  obtain ⟨⟨s, os⟩, hrun, hthread, htoken, hauthenticating, hauthenticated, hkey, hbeat,
    hsettings⟩ := hend
  exact ⟨s, os, hrun, ⟨hthread, htoken, hauthenticating, hauthenticated, hkey⟩, hbeat, hsettings⟩

theorem not_lost_calmRound {s : Server}
    (h : (s.conns 0).heartBeat = .create (0 : Nat) (0 : Nat)) (call : Option SealedCall) :
    ¬ Lost Reference.reference 0 s (calmRound call) := by
  have hdue : ¬ (HeartBeat.create (0 : Nat) (0 : Nat)).IsDue (0 : Nat) := by decide
  have hfirst : (HeartBeat.create (0 : Nat) (0 : Nat)).firstBeat = true := rfl
  unfold Lost HeartBeat.GivesUp
  rw [h]
  simp [calmRound, hdue, hfirst]

theorem upset_nullPong (s : Server) : Upset Reference.reference
    { chaChaKey := some sessionKey } s (calmRound (some nullPong)) := by
  obtain ⟨f, hframe, haction, -⟩ := nullPong.frame_spec Reference.reference_chaChaLaws
    Reference.packetEncrypted_roundTrips
    (show ({ chaChaKey := some sessionKey } : SecurityKey).chaChaKey = some sessionKey from rfl) rfl
  have hnull : Reference.reference.pingTracker.isValidJSONBytes nullPong.data = some none := by
    decide +kernel
  exact ⟨nullPong, f, rfl, hframe, Or.inl (Or.inr ⟨haction, hnull⟩)⟩

end BaseTCPServer

theorem delivered_iff_dataCall : ∃ s os,
    (BaseTCPServer.server Reference.reference).run (BaseTCPServer.start { peerId := .empty })
        BaseTCPServer.honestHandshake = some (s, os) ∧
      ((BaseTCPServer.server Reference.reference).trace s ([calmRound (some dataCall)].flatMap
        (BaseTCPServer.roundEvents Reference.reference
          { chaChaKey := some BaseTCPServer.sessionKey }))).filterMap
            (BaseTCPServer.Output.handsOn 0) = [(.data, [7])] := by
  obtain ⟨s, os, hrun, hloop, hbeat, -⟩ := BaseTCPServer.run_honestHandshake
  refine ⟨s, os, hrun, ?_⟩
  have h := (delivered_iff Reference.reference Reference.reference_chaChaLaws
    Reference.packetEncrypted_roundTrips { chaChaKey := some BaseTCPServer.sessionKey }
    BaseTCPServer.sessionKey rfl rfl [calmRound (some dataCall)]).1 0 s hloop
  exact h.2 (Relay.undisturbed_of_last (BaseTCPServer.not_lost_calmRound hbeat _) rfl)

/-- After the Pong with the text `null` the data is not delivered. -/
theorem not_delivered :
    ¬ ∀ (P : Platform) (keys : SecurityKey) (key : Bytes) (rounds : List Round) (c : ConnId)
        (s : BaseTCPServer.Server), P.ChaChaLaws → P.packetEncrypted.RoundTrips →
        keys.chaChaKey = some key → key.length = 32 →
        BaseTCPServer.InLoop c key (.beating c) s →
          ((BaseTCPServer.server P).trace s (rounds.flatMap
            (BaseTCPServer.roundEvents P keys))).filterMap (BaseTCPServer.Output.handsOn c) =
            rounds.filterMap Round.brings := by
  intro halways
  obtain ⟨s, os, hrun, hloop, hbeat, -⟩ := BaseTCPServer.run_honestHandshake
  have h := halways Reference.reference { chaChaKey := some BaseTCPServer.sessionKey }
    BaseTCPServer.sessionKey [calmRound (some nullPong), calmRound (some dataCall)] 0 s
    Reference.reference_chaChaLaws Reference.packetEncrypted_roundTrips rfl rfl hloop
  -- the loop ends at the Pong
  have hone : ∀ es, ((BaseTCPServer.server Reference.reference).trace s
      (BaseTCPServer.roundEvents Reference.reference
        { chaChaKey := some BaseTCPServer.sessionKey } (calmRound (some nullPong)) ++
          es)).filterMap (BaseTCPServer.Output.handsOn 0) = [(.pong, nullPong.data)] :=
    hloop.upset Reference.reference_chaChaLaws Reference.packetEncrypted_roundTrips rfl rfl
      (BaseTCPServer.not_lost_calmRound hbeat _) (BaseTCPServer.upset_nullPong s)
  rw [List.flatMap_cons, hone] at h
  exact absurd (congrArg List.length h) (by decide)

end NETConnect
