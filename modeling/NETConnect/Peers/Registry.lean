import NETConnect.Multicast.Multicast
import NETConnect.Peers.UniquePeers
import NETConnect.Server
/-!
# The lists of known peers and of clients

Everything that changes `ConnectedPeers` and `TCPServer.Clients`, each call taken as
one step: what the handlers of the connections do, the multicasts, and calls of
`AddPeers`.  The handlers of several connections may be running at once here.
-/

namespace NETConnect

open Lib

/-- `conns c` says nothing while the number `c` has not been given out. -/
structure Registry where
  self : Peer
  accepted : Nat := 0
  conns : ConnId → Connection
  /-- the handler of the connection is running -/
  served : ConnId → Bool

namespace Registry

/-- What the handler of a connection does. -/
inductive ClientEvent
  | connect (created : DateTime × DateTime) (entropy : Bytes)
  /-- a PeerJoin is handed over -/
  | peerJoin (c : ConnId) (site : Site) (header : PacketHeader) (data : Bytes)
  /-- the heartbeat finds that the connection is gone -/
  | disconnect (c : ConnId) (others : ConnId → Ambient)

inductive Event
  | client (e : ClientEvent)
  | multicast (dial : Dial) (packet : MulticastPacket)
  | addPeers (c : ConnId) (site : Site) (initPeers : Option (List (Option GivenPeer)))
      (useOriginalVersion : Bool)

variable (P : Platform) (isIPAddress : String → Bool) (s : Registry)

/-- `HandleClientConnected` up to its loop. -/
def connect (created : DateTime × DateTime) (entropy : Bytes) : Registry × List Exn :=
  match P.rsaCreate 8192 entropy with
  | none => ({ s with accepted := s.accepted + 1 }, [.cryptographic])
  | some localKeys =>
      let conn : Connection :=
        { keys := BaseTCPServer.startKeys localKeys, heartBeat := .create created.1 created.2 }
      ({ self := { s.self with clients := s.self.clients ++ [s.accepted] }
         accepted := s.accepted + 1
         conns := Function.update s.conns s.accepted conn
         served := Function.update s.served s.accepted true }, [])

/-- An exception ends the handler, as its loop catches nothing. -/
def peerJoin (c : ConnId) (site : Site) (header : PacketHeader) (data : Bytes) :
    Registry × List Exn :=
  let raised := BaseTCPServer.handleDataReceived P site s.self c (s.conns c) header data
  ({ s with
      self := raised.self
      conns := Function.update s.conns c raised.conn
      served := Function.update s.served c raised.threw.isNone }, raised.threw.toList)

/-- The token is cancelled, the lists are cleaned up, and the handler returns. -/
def disconnect (c : ConnId) (others : ConnId → Ambient) : Registry × List Exn :=
  let conn := s.conns c
  let conns := Function.update s.conns c { conn with clientToken := true }
  let (self, _, threw) := s.self.removeClient P (fun c => (conns c).keys) (fun c => (conns c).id)
    others conn.id
  ({ s with self, conns, served := Function.update s.served c false }, threw.toList)

def clientStep : ClientEvent → Option (Registry × List Exn)
  | .connect created entropy => some (s.connect P created entropy)
  | .peerJoin c site header data =>
      if s.served c = true ∧ header.packetAction = .peerJoin then
        some (s.peerJoin P c site header data)
      else none
  | .disconnect c others => if s.served c = true then some (s.disconnect P c others) else none

end Registry

/-- The clients of a server.  What is observed are the exceptions. -/
def clients (P : Platform) : Machine Registry Registry.ClientEvent Exn where
  step s e := s.clientStep P e

/-- The clients of a server, with everything else that changes the lists. -/
def registry (P : Platform) (isIPAddress : String → Bool) :
    Machine Registry Registry.Event Exn where
  step s e :=
    match e with
    | .client e => s.clientStep P e
    | .multicast dial packet =>
        let announced := Multicast.handleOnMulticastMessage P isIPAddress dial s.self packet
        some ({ s with self := announced.self }, announced.threw.toList)
    | .addPeers c site initPeers useOriginalVersion =>
        let raised :=
          if useOriginalVersion then
            s.self.addPeersOriginal P isIPAddress site c (s.conns c) initPeers
          else s.self.addPeers P site (s.conns c) (initPeers.map (List.map (Option.map GivenPeer.info)))
        some ({ s with self := raised.self }, raised.threw.toList)

/-- A server without clients. -/
def Registry.start (peerId : Guid) (settings : Option PeerSettings) : Registry where
  self := { peerId, settings }
  conns _ := { keys := {}, heartBeat := .create (0 : Nat) (0 : Nat) }
  served _ := false

/-! ## What the calls do to the lists -/

namespace BaseTCPServer

variable {P : Platform} {site : Site} {self : Peer} {c : ConnId} {conn : Connection}

/-- The peer that a PeerJoin announces, if it is not a list of peers. -/
def joining (P : Platform) (data : Bytes) : Option PeerInfo :=
  (P.peerTable.isValidJSON (getString data)).join

theorem handleDataReceived_peerJoin {header : PacketHeader} (h : header.packetAction = .peerJoin)
    (data : Bytes) :
    handleDataReceived P site self c conn header data =
      match P.peerTable.isValidJSON (getString data) with
      | some initPeer => self.addPeer P site c conn initPeer
      | none =>
          match P.peerTables.isValidJSON (getString data) with
          | some initPeers => self.addPeers P site conn initPeers
          | none => { self, conn } := by
  obtain ⟨-, -, -, hping, hpong, hvoice⟩ := handled_ne
  unfold handleDataReceived handleAction
  rw [h, if_neg (by simp [hping, hpong]), if_neg hvoice]
  exact (if_pos rfl).trans rfl

theorem handleDataReceived_joining {header : PacketHeader} (h : header.packetAction = .peerJoin)
    {data : Bytes} {initPeer : PeerInfo} (hjoining : joining P data = some initPeer) :
    handleDataReceived P site self c conn header data =
      self.addPeer P site c conn (some initPeer) := by
  rw [joining, Option.join_eq_some_iff] at hjoining
  rw [handleDataReceived_peerJoin h, hjoining]

theorem handleDataReceived_notJoining {header : PacketHeader}
    (h : header.packetAction = .peerJoin) {data : Bytes} (hjoining : joining P data = none) :
    let raised := handleDataReceived P site self c conn header data
    (raised.self = self ∨ raised.self = self.cleaned) ∧ raised.conn = conn := by
  rw [handleDataReceived_peerJoin h]
  rw [joining, Option.join_eq_none_iff] at hjoining
  rcases hjoining with hnone | hnull
  · rw [hnone]
    cases P.peerTables.isValidJSON (getString data) with
    | none => exact ⟨Or.inl rfl, rfl⟩
    | some initPeers => cases initPeers <;> exact ⟨Or.inr rfl, rfl⟩
  · rw [hnull]
    exact ⟨Or.inl rfl, rfl⟩

end BaseTCPServer

namespace Peer

variable {P : Platform} {isIPAddress : String → Bool} {self self' : Peer}

/-- The same peer, with no entry that was not there. -/
def Shrinks (self self' : Peer) : Prop :=
  self'.peerId = self.peerId ∧ self'.connectedPeers.Sublist self.connectedPeers

theorem shrinks_refl (self : Peer) : Shrinks self self := ⟨rfl, List.Sublist.refl _⟩

theorem shrinks_cleaned (self : Peer) : Shrinks self self.cleaned := ⟨rfl, distinct_sublist _⟩

theorem shrinks_removeClient (keys : ConnId → SecurityKey) (handles : ConnId → Guid)
    (io : ConnId → Ambient) (id : Guid) :
    Shrinks self (self.removeClient P keys handles io id).1 := by
  unfold removeClient
  split
  · exact ⟨rfl, List.eraseP_sublist⟩
  · exact shrinks_refl self

theorem shrinks_addPeers (site : Site) (conn : Connection)
    (initPeers : Option (List (Option PeerInfo))) :
    Shrinks self (self.addPeers P site conn initPeers).self := by
  cases initPeers <;> exact shrinks_cleaned self

theorem ids_addPeer (site : Site) (c : ConnId) (conn : Connection) (initPeer : PeerInfo) :
    (self.addPeer P site c conn (some initPeer)).self.peerId = self.peerId ∧
      (self.addPeer P site c conn (some initPeer)).self.ids = self.ids ++ [initPeer.peerId] := by
  constructor
  · rfl
  · simp [ids, addPeer]

/-- The ids in the list are pairwise different, and different from the peer's own. -/
structure IsPeerSet (peer : Peer) : Prop where
  nodup : peer.ids.Nodup
  own : peer.peerId ∉ peer.ids

theorem isPeerSet_iff : IsPeerSet self ↔ (self.peerId :: self.ids).Nodup := by
  rw [List.nodup_cons]
  constructor
  · intro h
    exact ⟨h.own, h.nodup⟩
  · intro h
    exact ⟨h.2, h.1⟩

theorem IsPeerSet.shrinks (h : IsPeerSet self) (hshrinks : Shrinks self self') :
    IsPeerSet self' := by
  obtain ⟨hpeerId, hsublist⟩ := hshrinks
  rw [isPeerSet_iff] at h ⊢
  rw [hpeerId]
  exact ((hsublist.map _).cons_cons _).nodup h

theorem IsPeerSet.append_iff (h : IsPeerSet self) {new : List Guid}
    (hpeerId : self'.peerId = self.peerId) (hids : self'.ids = self.ids ++ new) :
    IsPeerSet self' ↔ new.Nodup ∧ ∀ id ∈ new, id ∉ self.peerId :: self.ids := by
  rw [isPeerSet_iff] at h ⊢
  rw [hpeerId, hids, ← List.cons_append, List.nodup_append]
  constructor
  · rintro ⟨-, hnew, hdisjoint⟩
    exact ⟨hnew, fun id hid hold => hdisjoint id hold id hid rfl⟩
  · rintro ⟨hnew, hfresh⟩
    refine ⟨h, hnew, fun id hold id' hid heq => ?_⟩
    exact hfresh id' hid (heq ▸ hold)

theorem knows_iff {id : Guid} : Multicast.knows self id ↔ id ∈ self.peerId :: self.ids := by
  simp only [Multicast.knows, ids, List.mem_cons, List.mem_map]
  rw [or_comm, eq_comm]

theorem ids_join {dial : Dial} {packet : MulticastPacket} {r : Peer × Option Frame}
    (h : Multicast.join P isIPAddress dial self packet = .ok r) :
    r.1.peerId = self.peerId ∧ (r.1 = self ∨ r.1.ids = self.ids ++ [packet.senderId]) := by
  unfold Multicast.join at h
  obtain ⟨⟨address, port⟩, -, h⟩ := Exn.bind_eq_ok.1 h
  obtain ⟨connected, -, h⟩ := Exn.bind_eq_ok.1 h
  cases connected with
  | false =>
      obtain rfl := Except.ok.inj h
      exact ⟨rfl, Or.inl rfl⟩
  | true =>
      obtain rfl := Except.ok.inj h
      refine ⟨rfl, Or.inr ?_⟩
      simp [ids]

theorem IsPeerSet.multicast (h : IsPeerSet self) (dial : Dial) (packet : MulticastPacket) :
    IsPeerSet (Multicast.handleOnMulticastMessage P isIPAddress dial self packet).self := by
  have hcleaned : IsPeerSet self.cleaned := h.shrinks (shrinks_cleaned self)
  unfold Multicast.handleOnMulticastMessage
  by_cases hjoin : packet.action = .join
  · rw [if_pos hjoin]
    by_cases hknown : Multicast.knows self.cleaned packet.senderId
    · rw [cleaned] at hcleaned hknown
      simp only [if_pos hknown]
      exact hcleaned
    · have hjoined : ∀ r, Multicast.join P isIPAddress dial self.cleaned packet = .ok r →
          IsPeerSet r.1 := by
        intro r hok
        obtain ⟨hpeerId, hsame | hids⟩ := ids_join hok
        · rw [hsame]
          exact hcleaned
        · rw [hcleaned.append_iff hpeerId hids]
          rw [knows_iff] at hknown
          exact ⟨List.nodup_singleton _, by simpa using hknown⟩
      rw [cleaned] at hcleaned hknown hjoined
      simp only [if_neg hknown]
      split
      · exact hjoined _ ‹_›
      · exact hcleaned
  · rw [if_neg hjoin]
    exact h

/-- The loop of `AddPeers` looks neither for this peer itself nor for an id that is in
the list twice. -/
theorem IsPeerSet.addPeersOriginal_iff (h : IsPeerSet self) (site : Site) (c : ConnId)
    (conn : Connection) (initPeers : Option (List (Option GivenPeer))) :
    IsPeerSet (self.addPeersOriginal P isIPAddress site c conn initPeers).self ↔
      ((newlyReached isIPAddress site self initPeers).map PeerInfo.peerId).Nodup ∧
        ∀ peer ∈ newlyReached isIPAddress site self initPeers, peer.peerId ≠ self.peerId := by
  have hcleaned : IsPeerSet self.cleaned := h.shrinks (shrinks_cleaned self)
  obtain ⟨hpeerId, hids⟩ := @addPeersOriginal_spec P isIPAddress site self c conn initPeers
  rw [hcleaned.append_iff hpeerId hids]
  refine and_congr_right fun _ => ?_
  constructor
  · intro hnew peer hpeer heq
    refine hnew peer.peerId (List.mem_map_of_mem hpeer) ?_
    rw [heq]
    exact List.mem_cons_self
  · rintro hnew id hid hknown
    obtain ⟨peer, hpeer, rfl⟩ := List.mem_map.1 hid
    rcases List.mem_cons.1 hknown with hown | hin
    · exact hnew peer hpeer hown
    · rcases newlyReached_fresh hpeer with hfresh | hown
      · exact hfresh hin
      · exact hnew peer hpeer hown

end Peer

/-! ## The list of known peers -/

namespace Registry

variable {P : Platform} {isIPAddress : String → Bool}

/-- A PeerJoin announces a peer that is neither known nor this one; the peers to which the
original version of `AddPeers` connects are different from each other and from this one. -/
def AddsNew (P : Platform) (isIPAddress : String → Bool) (s : Registry) : Event → Prop
  | .client (.peerJoin c _ header data) =>
      s.served c = true → header.packetAction = .peerJoin →
        ∀ initPeer, BaseTCPServer.joining P data = some initPeer →
          initPeer.peerId ∉ s.self.peerId :: s.self.ids
  | .client _ | .multicast _ _ | .addPeers _ _ _ false => True
  | .addPeers _ site initPeers true =>
      ((Peer.newlyReached isIPAddress site s.self initPeers).map PeerInfo.peerId).Nodup ∧
        ∀ peer ∈ Peer.newlyReached isIPAddress site s.self initPeers,
          peer.peerId ≠ s.self.peerId

theorem addsNew_of_blocked (s : Registry) (e : Event)
    (h : (registry P isIPAddress).step s e = none) : AddsNew P isIPAddress s e := by
  cases e with
  | client e =>
      cases e with
      | connect created entropy => exact trivial
      | disconnect c others => exact trivial
      | peerJoin c site header data =>
          intro hserved haction
          simp [registry, clientStep, hserved, haction] at h
  | multicast dial packet => exact trivial
  | addPeers c site initPeers useOriginalVersion => simp [registry] at h

theorem isPeerSet_step_iff {s t : Registry} {e : Event} {o : List Exn}
    (h : s.self.IsPeerSet) (hstep : (registry P isIPAddress).step s e = some (t, o)) :
    t.self.IsPeerSet ↔ AddsNew P isIPAddress s e := by
  cases e with
  | client e =>
      cases e with
      | connect created entropy =>
          refine iff_of_true ?_ trivial
          obtain ⟨rfl, -⟩ := Prod.mk.inj (Option.some.inj hstep)
          split
          · exact h
          · exact h.shrinks ⟨rfl, List.Sublist.refl _⟩
      | disconnect c others =>
          refine iff_of_true ?_ trivial
          simp only [registry, clientStep] at hstep
          split_ifs at hstep
          obtain ⟨rfl, -⟩ := Prod.mk.inj (Option.some.inj hstep)
          exact h.shrinks (Peer.shrinks_removeClient ..)
      | peerJoin c site header data =>
          simp only [registry, clientStep] at hstep
          split_ifs at hstep with hcond
          obtain ⟨hserved, haction⟩ := hcond
          obtain ⟨rfl, -⟩ := Prod.mk.inj (Option.some.inj hstep)
          simp only [AddsNew, hserved, haction, true_imp_iff]
          cases hjoining : BaseTCPServer.joining P data with
          | none =>
              refine iff_of_true ?_ (by simp)
              rcases (BaseTCPServer.handleDataReceived_notJoining haction hjoining).1 with
                hsame | hcleaned
              · rw [hsame]
                exact h
              · rw [hcleaned]
                exact h.shrinks (Peer.shrinks_cleaned _)
          | some initPeer =>
              rw [BaseTCPServer.handleDataReceived_joining haction hjoining]
              obtain ⟨hpeerId, hids⟩ :=
                @Peer.ids_addPeer P s.self site c (s.conns c) initPeer
              rw [h.append_iff hpeerId hids]
              simp
  | multicast dial packet =>
      refine iff_of_true ?_ trivial
      obtain ⟨rfl, -⟩ := Prod.mk.inj (Option.some.inj hstep)
      exact h.multicast dial packet
  | addPeers c site initPeers useOriginalVersion =>
      obtain ⟨rfl, -⟩ := Prod.mk.inj (Option.some.inj hstep)
      cases useOriginalVersion with
      | false => exact iff_of_true (h.shrinks (Peer.shrinks_addPeers ..)) trivial
      | true => exact h.addPeersOriginal_iff site c (s.conns c) initPeers

/-- The list of peers is a set without this peer exactly as long as every peer that is
added is new. -/
theorem throughout_isPeerSet_iff (P : Platform) (isIPAddress : String → Bool) (peerId : Guid)
    (settings : Option PeerSettings) (es : List Event) :
    (registry P isIPAddress).Throughout (fun s _ => s.self.IsPeerSet) (start peerId settings) es ↔
      (registry P isIPAddress).Along (AddsNew P isIPAddress) (start peerId settings) es := by
  have hstart : (start peerId settings).self.IsPeerSet := by
    constructor <;> simp [start, Peer.ids]
  exact Machine.throughout_iff_along (I := fun s _ => s.self.IsPeerSet) (A := fun _ _ => True)
    addsNew_of_blocked
    (fun s h e t o hI _ hstep => ⟨isPeerSet_step_iff hI hstep, fun _ => trivial⟩) (h := [])
    hstart trivial es

/-- A peer with its address, and the text of it. -/
def someone : PeerInfo := { peerId := ⟨2⟩, address := some "10.0.0.2", port := 50420 }

def someoneText : String :=
  "\x7b\"PeerId\":\"00000000-0000-0000-0000-000000000002\",\"Address\":\"10.0.0.2\"," ++
    "\"Port\":50420\x7d"

def readsSomeone : Platform :=
  { Reference.reference with
    peerTable :=
      { serialize := fun _ => none
        deserialize := fun s => if s = someoneText then some (some someone) else none } }

/-- A PeerJoin that announces it, on the first connection. -/
def joinSomeone : ClientEvent :=
  .peerJoin 0 ⟨PacketHelper.quiet, (0 : Nat), true, true⟩ (.create 0 .peerJoin .none 0)
    (toUTF8Byte someoneText)

def connectNow : ClientEvent := .connect ((0 : Nat), (0 : Nat)) []

/-- The same peer is announced twice. -/
theorem not_throughout_isPeerSet :
    ¬ ∀ (P : Platform) (isIPAddress : String → Bool) (peerId : Guid)
        (settings : Option PeerSettings) (es : List Event),
        (registry P isIPAddress).Throughout (fun s _ => s.self.IsPeerSet)
          (start peerId settings) es := by
  intro halways
  have hids : ((registry readsSomeone fun _ => false).run (start ⟨1⟩ none)
      [.client connectNow, .client joinSomeone, .client joinSomeone]).map
        (fun r => r.1.self.ids) = some [⟨2⟩, ⟨2⟩] := by decide +kernel
  obtain ⟨⟨t, os⟩, hrun, hids⟩ := Option.map_eq_some_iff.1 hids
  have hnodup := ((halways _ _ _ _ _).last hrun).nodup
  rw [hids] at hnodup
  exact absurd hnodup (by decide)

/-! ## The connections that are served -/

/-- The lists speak of the connections whose handlers are running. -/
structure Mirrors (s : Registry) : Prop where
  once : ∀ c, s.served c = true → s.self.clients.count c = 1
  alive : ∀ c ∈ s.self.clients, (s.conns c).clientToken = false
  entries : ∀ x ∈ s.self.connectedPeers, ∀ c, x.packetHelper = some c → s.served c = true

/-- The cleanup of a connection removes what belongs to it. -/
def CleansUp (P : Platform) (s : Registry) (e : ClientEvent) : Prop :=
  ∀ c others t o, e = .disconnect c others → (clients P).step s e = some (t, o) →
    t.self.clients = s.self.clients.filter (· ≠ c) ∧
      t.self.connectedPeers = s.self.connectedPeers.filter (·.packetHelper ≠ some c)

/-- Nobody announces itself, and nobody leaves. -/
def StaysQuiet (P : Platform) (s : Registry) : ClientEvent → Prop
  | .connect _ _ => True
  | .peerJoin c _ header data =>
      s.served c = true → header.packetAction = .peerJoin → BaseTCPServer.joining P data = none
  | .disconnect c _ => s.served c = false

/-- What holds as long as everybody stays quiet. -/
structure Unannounced (s : Registry) : Prop where
  alone : s.self.connectedPeers = []
  served : ∀ c, s.served c = true → c < s.accepted
  handles : ∀ c ∈ s.self.clients, c < s.accepted

theorem staysQuiet_of_blocked (s : Registry) (e : ClientEvent)
    (h : (clients P).step s e = none) : StaysQuiet P s e := by
  cases e with
  | connect created entropy => exact trivial
  | disconnect c others => simpa [clients, clientStep, StaysQuiet] using h
  | peerJoin c site header data =>
      intro hserved haction
      simp [clients, clientStep, hserved, haction] at h

theorem mirrors_connect {s : Registry} (h : Mirrors s) (hquiet : Unannounced s)
    (created : DateTime × DateTime) (entropy : Bytes) :
    Mirrors (s.connect P created entropy).1 ∧ Unannounced (s.connect P created entropy).1 := by
  unfold connect
  split
  · refine ⟨⟨h.once, h.alive, h.entries⟩, hquiet.alone, fun c hc => ?_, fun c hc => ?_⟩
    · exact Nat.lt_succ_of_lt (hquiet.served c hc)
    · exact Nat.lt_succ_of_lt (hquiet.handles c hc)
  · have hfresh : s.accepted ∉ s.self.clients := fun hmem =>
      Nat.lt_irrefl _ (hquiet.handles _ hmem)
    constructor
    · constructor
      · intro c hc
        rw [List.count_append]
        rcases eq_or_ne c s.accepted with rfl | hne
        · rw [List.count_eq_zero.2 hfresh]
          simp
        · simp only [Function.update_of_ne hne] at hc
          rw [h.once c hc, List.count_singleton, if_neg (by simpa using hne.symm)]
      · intro c hc
        rcases eq_or_ne c s.accepted with rfl | hne
        · simp
        · simp only [Function.update_of_ne hne]
          exact h.alive c (by simpa [hne] using hc)
      · intro x hx
        simp [hquiet.alone] at hx
    · refine ⟨hquiet.alone, fun c hc => ?_, fun c hc => ?_⟩
      · rcases eq_or_ne c s.accepted with rfl | hne
        · exact Nat.lt_succ_self _
        · simp only [Function.update_of_ne hne] at hc
          exact Nat.lt_succ_of_lt (hquiet.served c hc)
      · rcases List.mem_append.1 hc with hold | hnew
        · exact Nat.lt_succ_of_lt (hquiet.handles c hold)
        · rw [List.mem_singleton.1 hnew]
          exact Nat.lt_succ_self _

/-- A peer that announces itself gets a second handle, or an entry that outlives its
handler. -/
theorem mirrors_peerJoin_iff {s : Registry} (h : Mirrors s) (hquiet : Unannounced s)
    {c : ConnId} {header : PacketHeader} (hserved : s.served c = true)
    (haction : header.packetAction = .peerJoin) (site : Site) (data : Bytes) :
    (Mirrors (s.peerJoin P c site header data).1 ↔ BaseTCPServer.joining P data = none) ∧
      (BaseTCPServer.joining P data = none →
        Unannounced (s.peerJoin P c site header data).1) := by
  unfold peerJoin
  cases hjoining : BaseTCPServer.joining P data with
  | some initPeer =>
      rw [BaseTCPServer.handleDataReceived_joining haction hjoining]
      refine ⟨iff_of_false (fun hafter => ?_) (by simp), by simp⟩
      have hstill := hafter.entries _ (List.mem_append_right _ (List.mem_singleton_self _)) c rfl
      have htwice := hafter.once c hstill
      have hcount : (s.self.clients ++ [c]).count c = 2 := by
        rw [List.count_append, h.once c hserved, List.count_singleton_self]
      exact absurd (hcount.symm.trans htwice) (by decide)
  | none =>
      obtain ⟨hself, hconn⟩ := @BaseTCPServer.handleDataReceived_notJoining P site s.self c
        (s.conns c) header haction data hjoining
      have hpeers : (BaseTCPServer.handleDataReceived P site s.self c (s.conns c) header
          data).self.connectedPeers = [] := by
        rcases hself with hsame | hcleaned
        · rw [hsame, hquiet.alone]
        · rw [hcleaned, Peer.cleaned, hquiet.alone]
          rfl
      have hclients : (BaseTCPServer.handleDataReceived P site s.self c (s.conns c) header
          data).self.clients = s.self.clients := by
        rcases hself with hsame | hcleaned
        · rw [hsame]
        · rw [hcleaned, Peer.cleaned]
      have hbefore : ∀ c' v, Function.update s.served c v c' = true → s.served c' = true := by
        intro c' v hc'
        rcases eq_or_ne c' c with rfl | hne
        · exact hserved
        · rwa [Function.update_of_ne hne] at hc'
      refine ⟨iff_of_true ⟨fun c' hc' => ?_, fun c' hc' => ?_, fun x hx => ?_⟩ rfl,
        fun _ => ⟨hpeers, fun c' hc' => ?_, fun c' hc' => ?_⟩⟩
      · rw [hclients]
        exact h.once c' (hbefore c' _ hc')
      · simp only [hconn, Function.update_eq_self]
        exact h.alive c' (hclients ▸ hc')
      · simp [hpeers] at hx
      · exact hquiet.served c' (hbefore c' _ hc')
      · exact hquiet.handles c' (hclients ▸ hc')

/-- Where no peer is known, the cleanup is not made, and the handle stays. -/
theorem not_mirrors_disconnect {s : Registry} (h : Mirrors s) (hquiet : Unannounced s)
    {c : ConnId} (hserved : s.served c = true) (others : ConnId → Ambient) :
    ¬ Mirrors (s.disconnect P c others).1 := by
  intro hafter
  have hmode : s.self.operationMode = .server := by
    rw [Peer.operationMode, hquiet.alone]
    rfl
  have hself : (s.disconnect P c others).1.self = s.self := by
    simp only [disconnect, Peer.removeClient, hmode]
  have hmem : c ∈ s.self.clients := by
    rw [← List.count_pos_iff, h.once c hserved]
    exact Nat.one_pos
  have hopen := hafter.alive c (hself ▸ hmem)
  simp [disconnect] at hopen

theorem mirrors_step_iff {s t : Registry} {e : ClientEvent} {o : List Exn} (h : Mirrors s)
    (hquiet : Unannounced s) (hstep : (clients P).step s e = some (t, o)) :
    (Mirrors t ↔ StaysQuiet P s e) ∧ (StaysQuiet P s e → Unannounced t) := by
  cases e with
  | connect created entropy =>
      obtain ⟨hafter, hnext⟩ := mirrors_connect (P := P) h hquiet created entropy
      obtain ⟨rfl, -⟩ := Prod.mk.inj (Option.some.inj hstep)
      exact ⟨iff_of_true hafter trivial, fun _ => hnext⟩
  | peerJoin c site header data =>
      simp only [clients, clientStep] at hstep
      split_ifs at hstep with hcond
      obtain ⟨hserved, haction⟩ := hcond
      obtain ⟨rfl, -⟩ := Prod.mk.inj (Option.some.inj hstep)
      simp only [StaysQuiet, hserved, haction, true_imp_iff]
      exact mirrors_peerJoin_iff h hquiet hserved haction site data
  | disconnect c others =>
      simp only [clients, clientStep] at hstep
      split_ifs at hstep with hserved
      obtain ⟨rfl, -⟩ := Prod.mk.inj (Option.some.inj hstep)
      have hbusy : ¬ StaysQuiet P s (.disconnect c others) := by simp [StaysQuiet, hserved]
      exact ⟨iff_of_false (not_mirrors_disconnect h hquiet hserved others) hbusy,
        fun hquiet' => absurd hquiet' hbusy⟩

/-- The lists mirror the live connections exactly as long as nobody announces itself and
nobody leaves. -/
theorem throughout_mirrors_iff (P : Platform) (peerId : Guid) (settings : Option PeerSettings)
    (es : List ClientEvent) :
    (clients P).Throughout (fun s _ => Mirrors s) (start peerId settings) es ∧
        (clients P).Along (CleansUp P) (start peerId settings) es ↔
      (clients P).Along (StaysQuiet P) (start peerId settings) es := by
  have hstart : Mirrors (start peerId settings) := by constructor <;> simp [start]
  have halone : Unannounced (start peerId settings) := by constructor <;> simp [start]
  have hiff : (clients P).Throughout (fun s _ => Mirrors s) (start peerId settings) es ↔
      (clients P).Along (StaysQuiet P) (start peerId settings) es :=
    Machine.throughout_iff_along (I := fun s _ => Mirrors s) (A := fun s _ => Unannounced s)
      staysQuiet_of_blocked (fun s h e t o hI hA hstep => mirrors_step_iff hI hA hstep) (h := [])
      hstart halone es
  constructor
  · intro h
    exact hiff.1 h.1
  · intro h
    refine ⟨hiff.2 h, Machine.along_iff.2 ?_⟩
    rintro pre _ post s os hsplit hrun c others t o rfl hstep
    have hserved : s.served c = false := Machine.along_iff.1 h pre _ post s os hsplit hrun
    simp [clients, clientStep, hserved] at hstep

/-- The handle of a connection that has ended stays in the list. -/
theorem not_throughout_mirrors :
    ¬ ∀ (P : Platform) (peerId : Guid) (settings : Option PeerSettings) (es : List ClientEvent),
        (clients P).Throughout (fun s _ => Mirrors s) (start peerId settings) es ∧
          (clients P).Along (CleansUp P) (start peerId settings) es := by
  intro halways
  have hleft : ((clients Reference.reference).run (start ⟨1⟩ none)
      [connectNow, .disconnect 0 fun _ => PacketHelper.quiet]).map
        (fun r => (r.1.self.clients, (r.1.conns 0).clientToken)) = some ([0], true) := by
    decide +kernel
  obtain ⟨⟨t, os⟩, hrun, hleft⟩ := Option.map_eq_some_iff.1 hleft
  obtain ⟨hclients, htoken⟩ := Prod.mk.inj hleft
  have hopen := ((halways _ _ _ _).1.last hrun).alive 0 (by rw [hclients]; simp)
  rw [htoken] at hopen
  exact Bool.noConfusion hopen

end Registry

end NETConnect
