import NETConnect.Multicast.MulticastPacket
import NETConnect.Peers.TryConnect
/-!
# Reading multicasts

`ReadMulticast` and its subscriber `HandleOnMulticastMessage`.  The loop catches
nothing: whatever a datagram makes them throw ends it.
-/

namespace NETConnect

open Lib

namespace Multicast

/-- What handling a packet does, up to the exception if it throws. -/
structure Announced where
  self : Peer
  sent : Option Frame := none
  threw : Option Exn := none
  deriving DecidableEq, Repr

variable (P : Platform) (J : JsonSerializer MulticastPacket (Option MulticastPacket))
  (isIPAddress : String → Bool)

/-- `Split(":")`. -/
def splitAddress (utf8 : String) : List String := (utf8.toList.splitOn ':').map String.ofList

/-- The peer is in the list, or is this one. -/
def knows (self : Peer) (senderId : Guid) : Prop :=
  (∃ x ∈ self.connectedPeers, x.info.peerId = senderId) ∨ self.peerId = senderId

instance (self : Peer) (senderId : Guid) : Decidable (knows self senderId) :=
  inferInstanceAs (Decidable (_ ∨ _))

/-- The address and the port that a message announces. -/
def readAddress (data : Option Bytes) : Except Exn (String × BitVec 32) := do
  let utf8 ← toUTF8String data
  match splitAddress utf8 with
  | address :: port :: _ => return (address, ← parseInt port)
  | _ => .error .indexOutOfRange

/-- A Join of a peer that is not known yet. -/
def join (dial : Dial) (self : Peer) (packet : MulticastPacket) :
    Except Exn (Peer × Option Frame) := do
  let (address, port) ← readAddress packet.data
  if ← BaseTCPClient.tryConnect isIPAddress dial (some address) port then
    let newPeer : PeerTable :=
      { ref := self.nextRef
        info := { peerId := packet.senderId, address := some address, port }
        hasClient := true }
    let sent := PacketHelper.sendUTF8Packet P ⟨self.settings, dial.keys⟩ dial.io
      (P.peerTables.toJSON (self.connectedPeers.map PeerTable.info)) .peerJoin true .none
    return ({ self with
      connectedPeers := self.connectedPeers ++ [newPeer], nextRef := self.nextRef + 1 }, sent.frame)
  else return (self, none)

def handleOnMulticastMessage (dial : Dial) (self : Peer) (packet : MulticastPacket) : Announced :=
  if packet.action = .join then
    let self := { self with connectedPeers := Peer.distinct self.connectedPeers }
    if knows self packet.senderId then { self }
    else match join P isIPAddress dial self packet with
      | .ok (self, sent) => { self, sent }
      | .error e => { self, threw := some e }
  else { self }

/-- What the loop of `ReadMulticast` does with a datagram. -/
def handleDatagram (dial : Dial) (self : Peer) (senderId : Guid) (received : Bytes) : Announced :=
  match J.isValidJSON (getString received) with
  | none => { self }
  -- the text `null`: `Packet.SenderId`
  | some none => { self, threw := some .nullReference }
  | some (some packet) =>
      if packet.senderId ≠ senderId then handleOnMulticastMessage P isIPAddress dial self packet
      else { self }

/-! ## The loop -/

/-- `senderId` is the `SenderId` of the `Multicast`. -/
structure Reader where
  self : Peer
  senderId : Guid
  threw : Option Exn := none
  deriving DecidableEq, Repr

inductive ReaderEvent
  /-- `Receive` returns -/
  | datagram (received : Bytes) (dial : Dial)
  /-- other threads change the peer -/
  | elsewhere (update : Peer → Peer)

/-- The loop of `ReadMulticast`, up to the exception that ends it. -/
def readMulticast : Machine Reader ReaderEvent Frame where
  step s e :=
    if s.threw = none then
      match e with
      | .datagram received dial =>
          let announced := handleDatagram P J isIPAddress dial s.self s.senderId received
          some ({ s with self := announced.self, threw := announced.threw },
            announced.sent.toList)
      | .elsewhere update => some ({ s with self := update s.self }, [])
    else none

/-! ## What a datagram does -/

/-- The datagrams the loop survives: what is no packet, what it ignores, and a Join that
names an endpoint, if only as a text that is no address. -/
def Tolerated (self : Peer) (senderId : Guid) (received : Bytes) : Prop :=
  match J.isValidJSON (getString received) with
  | none => True
  | some none => False
  | some (some packet) =>
      packet.senderId = senderId ∨ packet.action ≠ .join ∨ knows self.cleaned packet.senderId ∨
        ∃ address port, readAddress packet.data = .ok (address, port) ∧
          (isIPAddress address = true → IsPort port)

/-- A Join from an unknown sender, with the text of an address and a port. -/
def IsJoin (self : Peer) (senderId : Guid) (received : Bytes) : Prop :=
  ∃ packet address port, J.isValidJSON (getString received) = some (some packet) ∧
    packet.senderId ≠ senderId ∧ packet.action = .join ∧
    ¬ knows self.cleaned packet.senderId ∧ readAddress packet.data = .ok (address, port) ∧
    isIPAddress address = true ∧ IsPort port

variable {P J isIPAddress}

/-- A Join throws exactly if it names no endpoint. -/
theorem join_ok_iff {dial : Dial} {self : Peer} {packet : MulticastPacket} :
    (∃ r, join P isIPAddress dial self packet = .ok r) ↔
      ∃ address port, readAddress packet.data = .ok (address, port) ∧
        (isIPAddress address = true → IsPort port) := by
  unfold join
  cases hread : readAddress packet.data with
  | error e => simp [bind, Except.bind]
  | ok read =>
      obtain ⟨address, port⟩ := read
      have hconnect : (∃ connected, BaseTCPClient.tryConnect isIPAddress dial (some address) port =
          .ok connected) ↔ (isIPAddress address = true → IsPort port) :=
        BaseTCPClient.tryConnect_ok_iff
      cases hconnected : BaseTCPClient.tryConnect isIPAddress dial (some address) port with
      | error e => simpa [bind, Except.bind, hconnected] using hconnect
      | ok connected =>
          have hport := hconnect.1 ⟨connected, hconnected⟩
          refine iff_of_true ?_ ⟨address, port, rfl, hport⟩
          simp only [bind, Except.bind, hconnected]
          cases connected <;> exact ⟨_, rfl⟩

theorem join_connectedPeers {dial : Dial} {self : Peer} {packet : MulticastPacket}
    {r : Peer × Option Frame} (h : join P isIPAddress dial self packet = .ok r) :
    r.1.connectedPeers = self.connectedPeers ∨
      ∃ address port, readAddress packet.data = .ok (address, port) ∧
        isIPAddress address = true ∧ IsPort port := by
  unfold join at h
  obtain ⟨⟨address, port⟩, hread, h⟩ := Exn.bind_eq_ok.1 h
  obtain ⟨connected, hconnected, h⟩ := Exn.bind_eq_ok.1 h
  cases connected with
  | false =>
      obtain rfl := Except.ok.inj h
      exact Or.inl rfl
  | true =>
      obtain ⟨found, hfound, haddress, hport⟩ := BaseTCPClient.tryConnect_true hconnected
      obtain rfl := Option.some.inj hfound
      exact Or.inr ⟨address, port, hread, haddress, hport⟩

theorem handleDatagram_threw_iff {dial : Dial} {self : Peer} {senderId : Guid}
    {received : Bytes} :
    (handleDatagram P J isIPAddress dial self senderId received).threw = none ↔
      Tolerated J isIPAddress self senderId received := by
  unfold handleDatagram Tolerated
  rcases J.isValidJSON (getString received) with _ | _ | packet
  · simp
  · simp
  · by_cases hown : packet.senderId = senderId
    · simp [hown]
    by_cases hjoin : packet.action = .join
    · by_cases hknown : knows self.cleaned packet.senderId
      · rw [Peer.cleaned] at hknown
        simp [hown, hjoin, handleOnMulticastMessage, Peer.cleaned, hknown]
      · have hiff : (∃ r, join P isIPAddress dial self.cleaned packet = .ok r) ↔
            ∃ address port, readAddress packet.data = .ok (address, port) ∧
              (isIPAddress address = true → IsPort port) := join_ok_iff
        rw [Peer.cleaned] at hknown hiff
        simp only [hown, hjoin, handleOnMulticastMessage, Peer.cleaned, hknown, ne_eq,
          not_false_eq_true, not_true_eq_false, if_true, if_false, false_or]
        rw [← hiff]
        split <;> simp [*]
    · simp [hown, hjoin, handleOnMulticastMessage]

theorem handleDatagram_connectedPeers {dial : Dial} {self : Peer} {senderId : Guid}
    {received : Bytes} (hno : ¬ IsJoin J isIPAddress self senderId received) :
    let after := (handleDatagram P J isIPAddress dial self senderId received).self
    after.connectedPeers = self.connectedPeers ∨
      after.connectedPeers = Peer.distinct self.connectedPeers := by
  unfold handleDatagram
  split
  · exact Or.inl rfl
  · exact Or.inl rfl
  · rename_i packet hpacket
    by_cases hown : packet.senderId = senderId
    · rw [if_neg (by simpa using hown)]
      exact Or.inl rfl
    rw [if_pos hown]
    unfold handleOnMulticastMessage
    by_cases hjoin : packet.action = .join
    · rw [if_pos hjoin]
      by_cases hknown : knows self.cleaned packet.senderId
      · simp only [Peer.cleaned] at hknown
        simp only [if_pos hknown]
        exact Or.inr trivial
      · have hknown' := hknown
        simp only [Peer.cleaned] at hknown
        simp only [if_neg hknown]
        split
        · rename_i self' sent hok
          rcases join_connectedPeers hok with hsame | ⟨address, port, hread, haddress, hport⟩
          · exact Or.inr hsame
          · exact absurd
              ⟨packet, address, port, hpacket, hown, hjoin, hknown', hread, haddress, hport⟩ hno
        · exact Or.inr rfl
    · rw [if_neg hjoin]
      exact Or.inl rfl

/-! ## Any sequence of datagrams -/

variable (P J isIPAddress)

/-- The loop has handled all of them and goes on. -/
def Survives (s : Reader) (es : List ReaderEvent) : Prop :=
  ∃ t os, (readMulticast P J isIPAddress).run s es = some (t, os) ∧ t.threw = none

/-- What is no Join with an endpoint leaves the list alone, up to duplicates. -/
def LeavesAlone (s : Reader) : ReaderEvent → Prop
  | .elsewhere _ => True
  | .datagram received dial =>
      ¬ IsJoin J isIPAddress s.self s.senderId received →
        ∀ t os, (readMulticast P J isIPAddress).step s (.datagram received dial) = some (t, os) →
          t.self.connectedPeers = s.self.connectedPeers ∨
            t.self.connectedPeers = Peer.distinct s.self.connectedPeers

def Harmless (s : Reader) : ReaderEvent → Prop
  | .elsewhere _ => True
  | .datagram received _ => Tolerated J isIPAddress s.self s.senderId received

variable {P J isIPAddress}

theorem leavesAlone (s : Reader) (e : ReaderEvent) : LeavesAlone P J isIPAddress s e := by
  cases e with
  | elsewhere update => exact trivial
  | datagram received dial =>
      intro hno t os hstep
      simp only [readMulticast] at hstep
      split_ifs at hstep
      obtain ⟨rfl, -⟩ := Prod.mk.inj (Option.some.inj hstep)
      exact handleDatagram_connectedPeers hno

theorem step_survives_iff {s : Reader} (hrunning : s.threw = none) (e : ReaderEvent) :
    ∃ t os, (readMulticast P J isIPAddress).step s e = some (t, os) ∧
      (t.threw = none ↔ Harmless J isIPAddress s e) := by
  cases e with
  | elsewhere update =>
      refine ⟨{ s with self := update s.self }, [], ?_, iff_of_true hrunning trivial⟩
      simp only [readMulticast, if_pos hrunning]
  | datagram received dial =>
      have hthrew : (handleDatagram P J isIPAddress dial s.self s.senderId received).threw =
          none ↔ Tolerated J isIPAddress s.self s.senderId received := handleDatagram_threw_iff
      generalize hannounced :
        handleDatagram P J isIPAddress dial s.self s.senderId received = announced at hthrew
      refine ⟨{ s with self := announced.self, threw := announced.threw },
        announced.sent.toList, ?_, hthrew⟩
      simp only [readMulticast, if_pos hrunning, hannounced]

/-- By induction on the events; what comes after a datagram that throws is not received. -/
theorem survives_iff {s : Reader} (hrunning : s.threw = none) (es : List ReaderEvent) :
    Survives P J isIPAddress s es ↔
      (readMulticast P J isIPAddress).Along (Harmless J isIPAddress) s es := by
  induction es generalizing s with
  | nil => exact iff_of_true ⟨s, [], rfl, hrunning⟩ trivial
  | cons e es ih =>
      obtain ⟨t, os, hstep, hthrew⟩ : ∃ t os, (readMulticast P J isIPAddress).step s e =
          some (t, os) ∧ (t.threw = none ↔ Harmless J isIPAddress s e) :=
        step_survives_iff hrunning e
      constructor
      · rintro ⟨u, os', hrun, hu⟩
        obtain ⟨t', o, o', hstep', hrest, -⟩ := Machine.run_cons_iff.1 hrun
        obtain ⟨rfl, rfl⟩ := Prod.mk.inj (Option.some.inj (hstep.symm.trans hstep'))
        have ht : t.threw = none := by
          by_contra hstopped
          cases es with
          | nil =>
              obtain ⟨rfl, -⟩ : t = u ∧ [] = o' := by simpa using hrest
              exact hstopped hu
          | cons e' es =>
              obtain ⟨v, p, p', hstep', -, -⟩ := Machine.run_cons_iff.1 hrest
              simp [readMulticast, hstopped] at hstep'
        refine ⟨hthrew.1 ht, fun t' o hstep' => ?_⟩
        obtain ⟨rfl, rfl⟩ := Prod.mk.inj (Option.some.inj (hstep.symm.trans hstep'))
        exact (ih ht).1 ⟨u, o', hrest, hu⟩
      · rintro ⟨hharmless, hrest⟩
        have ht : t.threw = none := hthrew.2 hharmless
        obtain ⟨u, o', hrun, hu⟩ := (ih ht).2 (hrest t os hstep)
        exact ⟨u, os ++ o', Machine.run_cons_iff.2 ⟨t, os, o', hstep, hrun, rfl⟩, hu⟩

theorem along_leavesAlone (s : Reader) (es : List ReaderEvent) :
    (readMulticast P J isIPAddress).Along (LeavesAlone P J isIPAddress) s es :=
  Machine.along_iff.2 fun _ e _ t _ _ _ => leavesAlone t e

variable (P J isIPAddress)

/-- The loop is never stopped, and what is no Join with an endpoint changes nothing. -/
def Discovers (s : Reader) (es : List ReaderEvent) : Prop :=
  Survives P J isIPAddress s es ∧
    (readMulticast P J isIPAddress).Along (LeavesAlone P J isIPAddress) s es

/-- Peers are discovered as long as every datagram is tolerated. -/
theorem readMulticast_discovers_iff (self : Peer) (senderId : Guid) (es : List ReaderEvent) :
    Discovers P J isIPAddress { self, senderId } es ↔
      (readMulticast P J isIPAddress).Along (Harmless J isIPAddress) { self, senderId } es := by
  constructor
  · intro h
    exact (survives_iff rfl es).1 h.1
  · intro h
    exact ⟨(survives_iff rfl es).2 h, along_leavesAlone _ es⟩

/-- The text `null` is a packet to the check, and the loop looks for its sender. -/
theorem not_readMulticast_discovers :
    ¬ ∀ (P : Platform) (J : JsonSerializer MulticastPacket (Option MulticastPacket))
        (isIPAddress : String → Bool) (self : Peer) (senderId : Guid) (es : List ReaderEvent),
        Discovers P J isIPAddress { self, senderId } es := by
  intro halways
  obtain ⟨⟨t, os, hrun, hthrew⟩, -⟩ := halways Reference.reference
    (Reference.nullable Reference.multicastPacket) (fun _ => false) { peerId := ⟨1⟩ } ⟨1⟩
    [.datagram (toUTF8Byte "null") ⟨false, {}, PacketHelper.quiet⟩]
  obtain ⟨t', o, o', hstep, hrest, -⟩ := Machine.run_cons_iff.1 hrun
  obtain ⟨rfl, -⟩ : t' = t ∧ [] = o' := by simpa using hrest
  have hthrows : (handleDatagram Reference.reference
      (Reference.nullable Reference.multicastPacket) (fun _ => false)
      ⟨false, {}, PacketHelper.quiet⟩ { peerId := ⟨1⟩ } ⟨1⟩ (toUTF8Byte "null")).threw =
        some .nullReference := by decide +kernel
  simp only [readMulticast, if_true] at hstep
  obtain ⟨rfl, -⟩ := Prod.mk.inj (Option.some.inj hstep)
  rw [hthrows] at hthrew
  simp at hthrew

end Multicast

end NETConnect
