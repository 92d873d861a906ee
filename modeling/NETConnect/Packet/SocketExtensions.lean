import NETConnect.Lib.Machine
import NETConnect.Lib.Framing
import NETConnect.Packet.Header
/-!
# Framing over a TCP connection

`SocketExtensions.Send`, `HasValidHeader` and `ReceivePacket`, over a receive
queue that fills while the receiver polls it.  TCP decides how the stream is cut:
how many bytes arrive before a poll, how many arrive between its two `Receive`
calls, and how long a prefix of what has arrived each `Receive` returns.  All of
that is the `Poll` of a step, so a statement about every list of polls is one
about every segmentation.
-/

namespace NETConnect

open Lib

/-- A received packet: `ReceivePacket`'s header and its result. -/
structure Frame where
  header : PacketHeader
  packet : Bytes
  deriving DecidableEq, Repr

/-- A frame as it stands in the stream. -/
def Frame.bytes (f : Frame) : Bytes := f.header.bytes ++ f.packet

@[simp] theorem Frame.length_bytes (f : Frame) :
    f.bytes.length = PacketHeader.headerSize + f.packet.length := by
  simp [Frame.bytes]

/-- What a poll that finds nothing returns: the default header and an empty array. -/
def Frame.nothing : Frame := ⟨.default, []⟩

namespace SocketExtensions

/-! ## Sending -/

/-- The bytes `Send` hands to the socket. -/
def send (data : Option Bytes) (actionType : PacketActionType)
    (encryptionType : PacketEncryptionType) (sentAt : BitVec 64) : Except Exn Bytes := do
  let (dataSize, dataToWrite) : Nat × BitVec 32 := match data with
    | some d => (d.length, BitVec.ofNat 32 d.length)
    | none => (0, BitVec.ofInt 32 (-1))
  let safeBuffer : Bytes := List.replicate (PacketHeader.headerSize + dataSize) 0
  let header := PacketHeader.create dataToWrite actionType encryptionType sentAt
  let safeBuffer ← header.writeTo safeBuffer
  let packet := safeBuffer.take PacketHeader.headerSize
  match data with
  -- `Data.Length` is read again here, outside the null check above
  | none => .error .nullReference
  | some d => if d.length = 0 then .ok packet else .ok (packet ++ d)

theorem send_some (d : Bytes) (actionType : PacketActionType)
    (encryptionType : PacketEncryptionType) (sentAt : BitVec 64) :
    send (some d) actionType encryptionType sentAt =
      .ok (Frame.bytes
        ⟨.create (BitVec.ofNat 32 d.length) actionType encryptionType sentAt, d⟩) := by
  have hroom : PacketHeader.headerSize ≤
      (List.replicate (PacketHeader.headerSize + d.length) (0 : UInt8)).length := by simp
  simp only [send, PacketHeader.writeTo_eq _ _ hroom, bind, Except.bind, Frame.bytes]
  rw [List.take_left' (PacketHeader.length_bytes _)]
  split_ifs with hempty
  · rw [List.length_eq_zero_iff.1 hempty, List.append_nil]
  · rfl

/-! ## The receiving socket -/

/-- The receiving end of a connection: the bytes in the receive queue, the bytes
still under way, and whether the other side has closed after them. -/
structure Tcp where
  arrived : Bytes
  inFlight : Bytes
  closed : Bool
  deriving DecidableEq, Repr

namespace Tcp

/-- Everything sent and not yet read. -/
def unread (s : Tcp) : Bytes := s.arrived ++ s.inFlight

/-- `Socket.Available`. -/
def available (s : Tcp) : Nat := s.arrived.length

/-- `n` more bytes arrive. -/
def arrive (s : Tcp) (n : Nat) : Option Tcp :=
  if n ≤ s.inFlight.length then
    some { s with arrived := s.arrived ++ s.inFlight.take n, inFlight := s.inFlight.drop n }
  else none

/-- `Poll(0, SelectRead)`: data can be read, or the end of the stream was reached. -/
def selectRead (s : Tcp) : Bool :=
  decide (0 < s.available) || (s.closed && s.inFlight.isEmpty)

def isGracefulShutdown (s : Tcp) : Bool :=
  s.selectRead && decide (s.available = 0)

/-- `Socket.Receive` into a fresh array of `size` bytes, returning `count` of them.  It
waits until there is something to read or the stream has ended, also where `size` is zero,
and returns at least one byte if it was asked for any and there is one. -/
def receive (s : Tcp) (size count : Nat) : Option (Bytes × Tcp) :=
  if count ≤ size ∧ count ≤ s.available ∧
      (0 < count ∨ (size = 0 ∧ 0 < s.available) ∨
        (s.closed = true ∧ s.inFlight = [] ∧ s.available = 0)) then
    some (s.arrived.take count ++ List.replicate (size - count) 0,
      { s with arrived := s.arrived.drop count })
  else none

theorem arrive_spec {s t : Tcp} {n : Nat} (h : s.arrive n = some t) :
    t.unread = s.unread ∧ t.available = s.available + n ∧ t.closed = s.closed := by
  unfold arrive at h
  split_ifs at h with hn
  obtain rfl := Option.some.inj h
  refine ⟨?_, ?_, rfl⟩
  · simp [unread]
  · simp [available, List.length_take, Nat.min_eq_left hn]

theorem receive_spec {s t : Tcp} {size count : Nat} {buffer : Bytes}
    (h : s.receive size count = some (buffer, t)) :
    count ≤ size ∧ count ≤ s.available ∧ (0 < size → 0 < count ∨ s.available = 0) ∧
      buffer = s.unread.take count ++ List.replicate (size - count) 0 ∧
      t.unread = s.unread.drop count ∧ t.available = s.available - count ∧
      t.closed = s.closed := by
  unfold receive at h
  split_ifs at h with hcond
  obtain ⟨hsize, havail, hcount⟩ := hcond
  obtain ⟨rfl, rfl⟩ : _ ∧ _ := by simpa using h
  have hprefix : count ≤ s.arrived.length := havail
  refine ⟨hsize, havail, ?_, ?_, ?_, ?_, rfl⟩
  · rcases hcount with hpos | ⟨hzero, -⟩ | ⟨-, -, hempty⟩
    · exact fun _ => Or.inl hpos
    · intro hpos
      omega
    · exact fun _ => Or.inr hempty
  · rw [unread, List.take_append_of_le_length hprefix]
  · rw [unread, unread, List.drop_append_of_le_length hprefix]
  · simp [available]

end Tcp

/-! ## Polling -/

/-- What the network does during one call of `ReceivePacket`. -/
structure Poll where
  /-- bytes that arrive before the call -/
  before : Nat
  /-- bytes the `Receive` for the header returns -/
  header : Nat := 0
  /-- bytes that arrive between the two `Receive` calls -/
  between : Nat := 0
  /-- bytes the `Receive` for the body returns -/
  body : Nat := 0
  deriving DecidableEq, Repr

/-- How a call of `ReceivePacket` ends. -/
inductive Received
  | packet (f : Frame)
  | threw (e : Exn)
  deriving DecidableEq, Repr

/-- `HasValidHeader(out PacketHeader)`; its `Receive` returns `count` bytes.
`none`: the socket cannot return that many. -/
def hasValidHeader (s : Tcp) (count : Nat) : Option (Tcp × Option PacketHeader) :=
  if PacketHeader.headerSize ≤ s.available then
    (s.receive PacketHeader.headerSize count).map fun r =>
      (r.2, PacketHeader.validateHeader r.1)
  else some (s, none)

/-- `ReceivePacket`.  `none`: the network cannot behave as `poll` says. -/
def receivePacket (s : Tcp) (poll : Poll) : Option (Tcp × Received) := do
  let s ← s.arrive poll.before
  if s.isGracefulShutdown then return (s, .packet .nothing)
  let (s, header) ← hasValidHeader s poll.header
  match header with
  | none => return (s, .packet .nothing)
  | some header =>
      -- `new byte[Header.ByteLength]`
      if header.byteLength.toInt < 0 then return (s, .threw .overflow)
      let s ← s.arrive poll.between
      let (buffer, s) ← s.receive header.byteLength.toNat poll.body
      return (s, .packet ⟨header, if 0 < poll.body then buffer else []⟩)

/-- The polls of one connection, one after another. -/
def receiver : Machine Tcp Poll Received where
  step s poll := (receivePacket s poll).map fun r => (r.1, [r.2])

end SocketExtensions

end NETConnect
