import NETConnect.HeartBeat
/-!
# The peer of a server

The lists of `Peer` and of its `TCPServer`, and what the packets of a connection do
to them.  An entry of `ConnectedPeers` is an object: two entries may be equal in
every field and still be different, so each has a number of its own.  An entry made
for an outgoing connection has no `PacketHelper`.
-/

namespace NETConnect

open Lib

/-- The number of an accepted connection; its handle, its `PacketHelper` and its
heartbeat have the same. -/
abbrev ConnId := Nat

structure PeerTable where
  ref : Nat
  info : PeerInfo
  packetHelper : Option ConnId := none
  /-- `Client` is set -/
  hasClient : Bool := false
  deriving DecidableEq, Repr

/-- `clients` is `TCPServer.Clients`. -/
structure Peer where
  peerId : Guid
  settings : Option PeerSettings := some {}
  connectedPeers : List PeerTable := []
  clients : List ConnId := []
  nextRef : Nat := 0
  deriving DecidableEq, Repr

inductive PeerState
  | server
  | peer
  deriving DecidableEq, Repr

/-- What belongs to one accepted connection. -/
structure Connection where
  keys : SecurityKey
  heartBeat : HeartBeat
  /-- `ClientHandle.Id` -/
  id : Guid := .empty
  /-- `ClientToken.IsCancellationRequested` -/
  clientToken : Bool := false
  deriving DecidableEq, Repr

namespace Peer

def operationMode (self : Peer) : PeerState :=
  if self.connectedPeers.length = 0 then .server else .peer

/-- `Distinct()` on the entries, which are compared by reference. -/
def distinct : List PeerTable → List PeerTable
  | [] => []
  | entry :: entries => entry :: (distinct entries).filter fun x => x.ref ≠ entry.ref

/-- The peer after entries that are in the list twice were removed. -/
def cleaned (self : Peer) : Peer :=
  { self with connectedPeers := distinct self.connectedPeers }

/-- The ids in the list. -/
def ids (self : Peer) : List Guid := self.connectedPeers.map fun x => x.info.peerId

theorem distinct_sublist (entries : List PeerTable) : (distinct entries).Sublist entries := by
  induction entries with
  | nil => exact List.Sublist.refl _
  | cons entry entries ih => exact (List.filter_sublist.trans ih).cons_cons entry

end Peer

/-- What handling a packet of a connection does, up to the exception if it throws. -/
structure Raised where
  self : Peer
  conn : Connection
  sent : Option Frame := none
  threw : Option Exn := none
  deriving DecidableEq, Repr

/-- What the handlers of a server read besides the connection. -/
structure Site where
  io : Ambient
  utcNow : DateTime
  /-- someone has subscribed to `OnPeerConnected` -/
  hasOnPeerConnected : Bool
  /-- `Audio.Init` was called, and `Stop` was not -/
  isAudioRunning : Bool
  deriving DecidableEq

namespace Peer

variable (P : Platform) (site : Site) (self : Peer) (c : ConnId) (conn : Connection)

/-- The packet with the known peers that is sent first. -/
def sendKnownPeers (entries : List PeerTable) : Option Frame :=
  (PacketHelper.sendPacket P ⟨self.settings, conn.keys⟩ site.io
    (some (toUTF8Byte (P.peerTables.toJSON (entries.map PeerTable.info)))) .peerJoin true
    .none).frame

def addPeer (initPeer : Option PeerInfo) : Raised :=
  let sent := sendKnownPeers P site self conn self.connectedPeers
  match initPeer with
  | none => { self, conn, sent, threw := some .nullReference }
  | some initPeer =>
      let newPeer : PeerTable :=
        { ref := self.nextRef
          info := { peerId := initPeer.peerId, address := initPeer.address, port := initPeer.port }
          packetHelper := some c }
      { self := { self with
          connectedPeers := self.connectedPeers ++ [newPeer]
          clients := self.clients ++ [c]
          nextRef := self.nextRef + 1 }
        conn := { conn with id := initPeer.peerId }
        sent
        -- `OnPeerConnected.Invoke` with no subscriber
        threw := if site.hasOnPeerConnected then none else some .nullReference }

/-- `AddPeers` in its default version, which connects to nobody. -/
def addPeers (initPeers : Option (List (Option PeerInfo))) : Raised :=
  let self := { self with connectedPeers := distinct self.connectedPeers }
  match initPeers with
  | none => { self, conn, threw := some .argumentNull }
  | some _ => { self, conn, sent := sendKnownPeers P site self conn self.connectedPeers }

/-! ## Leaving -/

/-- `FindPeerById`: the first handle and the first entry with that id. -/
def findPeerById (ids : ConnId → Guid) (id : Guid) : Option (ConnId × PeerTable) := do
  let entry ← self.connectedPeers.find? fun x => x.info.peerId = id
  let client ← self.clients.find? fun x => ids x = id
  return (client, entry)

/-- The `ForEach` that tells the other peers: an entry without a `PacketHelper` ends
it with an exception. -/
def announceLeave (keys : ConnId → SecurityKey) (io : ConnId → Ambient) (left : PeerInfo) :
    List PeerTable → List (ConnId × Frame) × Option Exn
  | [] => ([], none)
  | entry :: entries =>
      match entry.packetHelper with
      | none => ([], some .nullReference)
      | some c =>
          let sent := PacketHelper.sendPacket P ⟨self.settings, keys c⟩ (io c)
            (some (toUTF8Byte (P.peerTable.toJSON left))) .peerLeave true .none
          let (more, threw) := announceLeave keys io left entries
          (sent.frame.toList.map (fun f => (c, f)) ++ more, threw)

/-- The cleanup after a connection has ended. -/
def removeClient (keys : ConnId → SecurityKey) (ids : ConnId → Guid) (io : ConnId → Ambient)
    (id : Guid) : Peer × List (ConnId × Frame) × Option Exn :=
  match self.operationMode, self.findPeerById ids id with
  | .peer, some (client, entry) =>
      let self := { self with
        clients := self.clients.erase client
        connectedPeers := self.connectedPeers.eraseP fun x => x.ref = entry.ref }
      (self, self.announceLeave P keys io entry.info self.connectedPeers)
  | _, _ => (self, [], none)

end Peer

namespace Peer

variable {P : Platform}

theorem announceLeave_action {self : Peer} {keys : ConnId → SecurityKey} {io : ConnId → Ambient}
    {left : PeerInfo} {entries : List PeerTable} {l : ConnId × Frame}
    (h : l ∈ (self.announceLeave P keys io left entries).1) :
    l.2.header.packetAction = .peerLeave := by
  induction entries with
  | nil => simp [announceLeave] at h
  | cons entry entries ih =>
      unfold announceLeave at h
      split at h
      · simp at h
      · rename_i c _
        rcases List.mem_append.1 h with hhere | hlater
        · obtain ⟨f, hf, rfl⟩ := List.mem_map.1 hhere
          exact PacketHelper.sendPacket_action P _ _ (Option.mem_toList.1 hf)
        · exact ih hlater

theorem removeClient_action {self : Peer} {keys : ConnId → SecurityKey} {ids : ConnId → Guid}
    {io : ConnId → Ambient} {id : Guid} {l : ConnId × Frame}
    (h : l ∈ (self.removeClient P keys ids io id).2.1) :
    l.2.header.packetAction = .peerLeave := by
  unfold removeClient at h
  split at h
  · exact announceLeave_action h
  · simp at h

theorem sendKnownPeers_action {site : Site} {self : Peer} {conn : Connection}
    {entries : List PeerTable} {f : Frame}
    (h : sendKnownPeers P site self conn entries = some f) :
    f.header.packetAction = .peerJoin :=
  PacketHelper.sendPacket_action P _ _ h

end Peer

/-! ## The server's handlers -/

namespace BaseTCPServer

variable (P : Platform) (site : Site) (self : Peer) (c : ConnId) (conn : Connection)

/-- `HandleAction`; queueing a chunk of voice changes nothing that is modelled here. -/
def handleAction (header : PacketHeader) (data : Bytes) : Raised :=
  if header.packetAction = .ping ∨ header.packetAction = .pong then
    match conn.heartBeat.handleHeartBeatActions P ⟨self.settings, conn.keys⟩ site.io site.utcNow
      header data with
    | .ok (heartBeat, sent) => { self, conn := { conn with heartBeat }, sent }
    | .error e => { self, conn, threw := some e }
  else if header.packetAction = .voice then
    { self, conn, threw := if site.isAudioRunning then none else some .invalidOperation }
  else if header.packetAction = .peerJoin then
    let utf8 := getString data
    match P.peerTable.isValidJSON utf8 with
    | some initPeer => self.addPeer P site c conn initPeer
    | none =>
        match P.peerTables.isValidJSON utf8 with
        | some initPeers => self.addPeers P site conn initPeers
        | none => { self, conn }
  else { self, conn }

/-- `HandleDataReceived`, the server's own subscriber of `OnDataReceived`. -/
def handleDataReceived (header : PacketHeader) (data : Bytes) : Raised :=
  handleAction P site self c conn header data

theorem handleDataReceived_keeps (header : PacketHeader) (data : Bytes) :
    (handleDataReceived P site self c conn header data).conn.keys = conn.keys ∧
      (handleDataReceived P site self c conn header data).conn.clientToken =
        conn.clientToken := by
  unfold handleDataReceived handleAction
  split_ifs
  · split <;> exact ⟨rfl, rfl⟩
  · exact ⟨rfl, rfl⟩
  · exact ⟨rfl, rfl⟩
  · simp only [Peer.addPeer, Peer.addPeers]
    split
    · split <;> exact ⟨rfl, rfl⟩
    · split
      · split <;> exact ⟨rfl, rfl⟩
      · exact ⟨rfl, rfl⟩
  · exact ⟨rfl, rfl⟩

theorem handleDataReceived_action {header : PacketHeader} {data : Bytes} {f : Frame}
    (h : (handleDataReceived P site self c conn header data).sent = some f) :
    f.header.packetAction = .pong ∨ f.header.packetAction = .peerJoin := by
  unfold handleDataReceived handleAction at h
  split_ifs at h
  · split at h
    · rename_i heartBeat sent hhandled
      obtain rfl : sent = some f := h
      exact Or.inl (HeartBeat.handleHeartBeatActions_action hhandled)
    · simp at h
  · right
    simp only [Peer.addPeer, Peer.addPeers] at h
    split at h
    · split at h <;> exact Peer.sendKnownPeers_action h
    · split at h
      · split at h
        · simp at h
        · exact Peer.sendKnownPeers_action h
      · simp at h

/-- The packets on which the subscriber throws. -/
def Upsets (header : PacketHeader) (data : Bytes) : Prop :=
  HeartBeat.Upsets P header data ∨
    header.packetAction = .voice ∧ site.isAudioRunning = false ∨
    header.packetAction = .peerJoin ∧
      (P.peerTable.isValidJSONBytes data = some none ∨
        (∃ initPeer, P.peerTable.isValidJSONBytes data = some (some initPeer)) ∧
          site.hasOnPeerConnected = false ∨
        P.peerTable.isValidJSONBytes data = none ∧ P.peerTables.isValidJSONBytes data = some none)

theorem handled_ne : PacketActionType.voice ≠ .ping ∧ PacketActionType.voice ≠ .pong ∧
    PacketActionType.voice ≠ .peerJoin ∧ PacketActionType.peerJoin ≠ .ping ∧
    PacketActionType.peerJoin ≠ .pong ∧ PacketActionType.peerJoin ≠ .voice := by decide

/-- The subscriber returns on every other packet. -/
theorem handleDataReceived_threw_iff (header : PacketHeader) (data : Bytes) :
    (handleDataReceived P site self c conn header data).threw ≠ none ↔
      Upsets P site header data := by
  unfold handleDataReceived handleAction Upsets
  by_cases hbeat : header.packetAction = .ping ∨ header.packetAction = .pong
  · -- the heartbeat's own packets
    have hvoice : header.packetAction ≠ .voice := by
      rcases hbeat with h | h <;> rw [h] <;> decide
    have hjoin : header.packetAction ≠ .peerJoin := by
      rcases hbeat with h | h <;> rw [h] <;> decide
    rw [if_pos hbeat, ← HeartBeat.handleHeartBeatActions_error_iff P
      ⟨self.settings, conn.keys⟩ site.io conn.heartBeat site.utcNow]
    cases conn.heartBeat.handleHeartBeatActions P ⟨self.settings, conn.keys⟩ site.io site.utcNow
      header data with
    | ok r => simp [hvoice, hjoin]
    | error e => simp [hvoice, hjoin]
  have hcalm : ¬ HeartBeat.Upsets P header data := fun h =>
    hbeat (h.imp And.left And.left)
  rw [if_neg hbeat]
  by_cases hvoice : header.packetAction = .voice
  · cases hrunning : site.isAudioRunning <;> simp [hvoice, hcalm, handled_ne]
  by_cases hjoin : header.packetAction = .peerJoin
  · -- no peer table, or nobody to tell
    simp only [hjoin, JsonSerializer.isValidJSONBytes, Peer.addPeer, Peer.addPeers]
    rcases P.peerTable.isValidJSON (getString data) with _ | _ | initPeer
    · rcases P.peerTables.isValidJSON (getString data) with _ | _ | initPeers
      all_goals simp [hcalm, handled_ne]
    · simp [hcalm, handled_ne]
    · cases hsubscribed : site.hasOnPeerConnected <;> simp [hcalm, handled_ne]
  · simp [hcalm, hvoice, hjoin]

end BaseTCPServer

end NETConnect
