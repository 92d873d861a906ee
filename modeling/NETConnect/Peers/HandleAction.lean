import NETConnect.Peers.Entries
/-!
# Handling a delivered packet

What `HandleDataReceived` leaves alone when the payload is not what the action type asks
for, and what a PeerJoin with one peer table changes.
-/

namespace NETConnect

open Lib

namespace BaseTCPServer

variable (P : Platform)

/-- The payload of a pong is a `PingTracker`, the one of a PeerJoin a `PeerTable`; the
text `null` is neither. -/
def IsValidPayload (header : PacketHeader) (data : Bytes) : Prop :=
  header.packetAction = .pong ∧
      (∃ ping, P.pingTracker.isValidJSONBytes data = some (some ping)) ∨
    header.packetAction = .peerJoin ∧
      ∃ initPeer, P.peerTable.isValidJSONBytes data = some (some initPeer)

/-- Everything a packet could have changed is as it was. -/
structure Untouched (peer : Peer) (conn : Connection) (r : Raised) : Prop where
  pingLog : r.conn.heartBeat.pingLog = conn.heartBeat.pingLog
  pulse : r.conn.heartBeat.pulseAtInSeconds = conn.heartBeat.pulseAtInSeconds
  connectedPeers : r.self.connectedPeers = peer.connectedPeers
  clients : r.self.clients = peer.clients
  id : r.conn.id = conn.id

/-- The peer has its entry and its handle, which has the id. -/
structure Joined (peer : Peer) (c : ConnId) (initPeer : PeerInfo) (r : Raised) : Prop where
  connectedPeers : ∃ newPeer : PeerTable, r.self.connectedPeers = peer.connectedPeers ++ [newPeer] ∧
    newPeer.info =
      { peerId := initPeer.peerId, address := initPeer.address, port := initPeer.port } ∧
    newPeer.packetHelper = some c
  clients : r.self.clients = peer.clients ++ [c]
  id : r.conn.id = initPeer.peerId

/-- The call returns; a payload that is not valid changes nothing, and one peer table is
applied completely. -/
structure HandledWhole (peer : Peer) (c : ConnId) (conn : Connection) (header : PacketHeader)
    (data : Bytes) (r : Raised) : Prop where
  returns : r.threw = none
  untouched : ¬ IsValidPayload P header data → Untouched peer conn r
  joined : ∀ initPeer, header.packetAction = .peerJoin →
    P.peerTable.isValidJSONBytes data = some (some initPeer) → Joined peer c initPeer r

variable {P : Platform} {site : Site} {self : Peer} {c : ConnId} {conn : Connection}

theorem untouched_refl {sent : Option Frame} {threw : Option Exn} :
    Untouched self conn { self, conn, sent, threw } := ⟨rfl, rfl, rfl, rfl, rfl⟩

theorem untouched_heartBeat {header : PacketHeader} {data : Bytes} {heartBeat : HeartBeat}
    {sent : Option Frame} (hinvalid : ¬ IsValidPayload P header data)
    (h : conn.heartBeat.handleHeartBeatActions P ⟨self.settings, conn.keys⟩ site.io site.utcNow
      header data = .ok (heartBeat, sent)) :
    Untouched self conn { self, conn := { conn with heartBeat }, sent } := by
  rw [HeartBeat.handleHeartBeatActions] at h
  split_ifs at h with hping hpong
  · obtain ⟨pingSentAt, -, h⟩ := Exn.bind_eq_ok.1 h
    obtain ⟨rfl, -⟩ := Prod.mk.inj (Except.ok.inj h)
    exact ⟨rfl, rfl, rfl, rfl, rfl⟩
  · split at h
    · obtain ⟨rfl, -⟩ := Prod.mk.inj (Except.ok.inj h)
      exact ⟨rfl, rfl, rfl, rfl, rfl⟩
    · simp at h
    · rename_i ping hvalid
      exact absurd (Or.inl ⟨hpong, ping, hvalid⟩) hinvalid
  · obtain ⟨rfl, -⟩ := Prod.mk.inj (Except.ok.inj h)
    exact ⟨rfl, rfl, rfl, rfl, rfl⟩

theorem untouched_peerJoin (hnumbered : self.Numbered) {header : PacketHeader} {data : Bytes}
    (haction : header.packetAction = .peerJoin) (hinvalid : ¬ IsValidPayload P header data) :
    Untouched self conn (handleDataReceived P site self c conn header data) := by
  have hjoining : joining P data = none := by
    rw [joining, Option.join_eq_none_iff]
    rcases hread : P.peerTable.isValidJSON (getString data) with _ | _ | initPeer
    · exact Or.inl rfl
    · exact Or.inr rfl
    · exact absurd (Or.inr ⟨haction, initPeer, hread⟩) hinvalid
  obtain ⟨hself, hconn⟩ := @handleDataReceived_notJoining P site self c conn header haction data
    hjoining
  rw [hnumbered.cleaned_eq, or_self] at hself
  exact ⟨by rw [hconn], by rw [hconn], by rw [hself], by rw [hself], by rw [hconn]⟩

theorem handleDataReceived_untouched (hnumbered : self.Numbered) {header : PacketHeader}
    {data : Bytes} (hinvalid : ¬ IsValidPayload P header data) :
    Untouched self conn (handleDataReceived P site self c conn header data) := by
  by_cases haction : header.packetAction = .peerJoin
  · exact untouched_peerJoin hnumbered haction hinvalid
  unfold handleDataReceived handleAction
  by_cases hbeat : header.packetAction = .ping ∨ header.packetAction = .pong
  · rw [if_pos hbeat]
    split
    · exact untouched_heartBeat hinvalid ‹_›
    · exact untouched_refl
  · rw [if_neg hbeat, if_neg haction]
    split_ifs <;> exact untouched_refl

/-- Whether somebody is told or not, a peer table is applied. -/
theorem handleDataReceived_joined {header : PacketHeader} {data : Bytes} {initPeer : PeerInfo}
    (haction : header.packetAction = .peerJoin)
    (hread : P.peerTable.isValidJSONBytes data = some (some initPeer)) :
    Joined self c initPeer (handleDataReceived P site self c conn header data) := by
  rw [handleDataReceived_joining haction (Option.join_eq_some_iff.2 hread)]
  exact ⟨⟨_, rfl, rfl, rfl⟩, rfl, rfl⟩

/-- In every state that is reached a packet is handled whole exactly if the subscriber does
not throw on it. -/
theorem handleDataReceived_handledWhole_iff (P : Platform) (isIPAddress : String → Bool)
    (peerId : Guid) (settings : Option PeerSettings) (es : List Registry.Event) (s : Registry)
    (os : List Exn)
    (hrun : (registry P isIPAddress).run (Registry.start peerId settings) es = some (s, os))
    (site : Site) (c : ConnId) (conn : Connection) (header : PacketHeader) (data : Bytes) :
    HandledWhole P s.self c conn header data
        (handleDataReceived P site s.self c conn header data) ↔
      ¬ Upsets P site header data := by
  have hnumbered := Registry.numbered_of_run hrun
  rw [← handleDataReceived_threw_iff P site s.self c conn, not_not]
  constructor
  · intro h
    exact h.returns
  · intro hreturns
    exact ⟨hreturns, handleDataReceived_untouched hnumbered,
      fun initPeer haction hread => handleDataReceived_joined haction hread⟩

theorem reads_someoneText : Registry.readsSomeone.peerTable.isValidJSONBytes
    (toUTF8Byte Registry.someoneText) = some (some Registry.someone) := by decide +kernel

theorem handleDataReceived_handledWhole_iff_someone :
    HandledWhole Registry.readsSomeone { peerId := ⟨1⟩ } 0
      { keys := {}, heartBeat := .create (0 : Nat) (0 : Nat) } (.create 0 .peerJoin .none 0)
      (toUTF8Byte Registry.someoneText)
      (handleDataReceived Registry.readsSomeone ⟨PacketHelper.quiet, (0 : Nat), true, true⟩
        { peerId := ⟨1⟩ } 0 { keys := {}, heartBeat := .create (0 : Nat) (0 : Nat) }
        (.create 0 .peerJoin .none 0) (toUTF8Byte Registry.someoneText)) := by
  refine (handleDataReceived_handledWhole_iff Registry.readsSomeone (fun _ => false) ⟨1⟩
    (some {}) [] (Registry.start ⟨1⟩ (some {})) [] rfl _ _ _ _ _).2 ?_
  rintro ((⟨hping, -⟩ | ⟨hpong, -⟩) | ⟨hvoice, -⟩ | ⟨-, hnull | ⟨-, hnobody⟩ | ⟨hnone, -⟩⟩)
  · exact absurd hping (by decide)
  · exact absurd hpong (by decide)
  · exact absurd hvoice (by decide)
  · exact absurd (reads_someoneText.symm.trans hnull) (by simp)
  · exact absurd hnobody (by decide)
  · exact absurd (reads_someoneText.symm.trans hnone) (by simp)

/-- A peer announces itself to a server that nobody listens to. -/
theorem not_handleDataReceived_handledWhole :
    ¬ ∀ (P : Platform) (isIPAddress : String → Bool) (peerId : Guid)
        (settings : Option PeerSettings) (es : List Registry.Event) (s : Registry) (os : List Exn),
        (registry P isIPAddress).run (Registry.start peerId settings) es = some (s, os) →
        ∀ (site : Site) (c : ConnId) (conn : Connection) (header : PacketHeader) (data : Bytes),
          HandledWhole P s.self c conn header data
            (handleDataReceived P site s.self c conn header data) := by
  intro halways
  have h := halways Registry.readsSomeone (fun _ => false) ⟨1⟩ (some {}) []
    (Registry.start ⟨1⟩ (some {})) [] rfl ⟨PacketHelper.quiet, (0 : Nat), false, true⟩ 0
    { keys := {}, heartBeat := .create (0 : Nat) (0 : Nat) } (.create 0 .peerJoin .none 0)
    (toUTF8Byte Registry.someoneText)
  have hthrows : (handleDataReceived Registry.readsSomeone
      ⟨PacketHelper.quiet, (0 : Nat), false, true⟩ { peerId := ⟨1⟩ } 0
      { keys := {}, heartBeat := .create (0 : Nat) (0 : Nat) } (.create 0 .peerJoin .none 0)
      (toUTF8Byte Registry.someoneText)).threw = some .nullReference := by decide +kernel
  exact absurd (hthrows.symm.trans h.returns) (by simp)

end BaseTCPServer

end NETConnect
