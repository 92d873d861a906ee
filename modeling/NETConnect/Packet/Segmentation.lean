import NETConnect.Packet.SocketExtensions
/-!
# Which segmentations the framing survives

The reader keeps nothing between two polls, and takes a body with one `Receive`.
Each poll of a correctly framed stream therefore does one of three things: it
finds no header and reads nothing, it reads one whole frame, or it reads a part
of one.  After the third it is aligned with no frame of the stream, whatever the
bytes were (`Lib.not_alignedAt_of_cut`).
-/

namespace NETConnect.SocketExtensions

open Lib PacketHeader

/-! ## One call of `ReceivePacket` -/

theorem hasValidHeader_idle {s : Tcp} {count : Nat} (hshort : s.available < headerSize) :
    hasValidHeader s count = some (s, none) := by
  rw [hasValidHeader, if_neg (Nat.not_le.2 hshort)]

theorem hasValidHeader_ready {s t : Tcp} {count : Nat} {found : Option PacketHeader}
    (hready : headerSize ≤ s.available) (h : hasValidHeader s count = some (t, found)) :
    0 < count ∧ count ≤ headerSize ∧ t.unread = s.unread.drop count ∧
      t.available = s.available - count ∧
      ∃ header, found = some header ∧
        validateHeader (s.unread.take count ++ List.replicate (headerSize - count) 0) =
          some header := by
  rw [hasValidHeader, if_pos hready, Option.map_eq_some_iff] at h
  obtain ⟨⟨tempBuffer, s'⟩, hreceive, h⟩ := h
  obtain ⟨rfl, rfl⟩ : s' = t ∧ validateHeader tempBuffer = found := by simpa using h
  obtain ⟨hle, hgot, hpos, rfl, hunread, havail, -⟩ := Tcp.receive_spec hreceive
  have hsize : 18 ≤ s.available := hready
  have hpos' : 0 < count := (hpos (by decide)).resolve_right (by omega)
  have hthere : count ≤ s.unread.length := by
    rw [Tcp.unread, List.length_append]
    exact Nat.le_add_right_of_le hgot
  have hfull : (s.unread.take count ++
      List.replicate (headerSize - count) (0 : UInt8)).length = headerSize := by
    rw [List.length_append, List.length_take, List.length_replicate]
    omega
  refine ⟨hpos', hle, hunread, havail, ?_⟩
  rw [validateHeader, if_pos hfull]
  exact ⟨_, rfl, rfl⟩

/-- A call of `Send` with data.  The length of an array is an `int`. -/
structure SendCall where
  data : Bytes
  actionType : PacketActionType
  encryptionType : PacketEncryptionType
  sentAt : BitVec 64
  length_lt : data.length < 2 ^ 31

namespace SendCall

def frame (c : SendCall) : Frame :=
  ⟨.create (BitVec.ofNat 32 c.data.length) c.actionType c.encryptionType c.sentAt, c.data⟩

/-- What the caller passed and the other end is to see again. -/
def triple (c : SendCall) : PacketActionType × PacketEncryptionType × Bytes :=
  (c.actionType, c.encryptionType, c.data)

end SendCall

/-- What successive calls of `ReceivePacket` yield, without the empty polls. -/
def yields (rs : List Received) :
    List (Except Exn (PacketActionType × PacketEncryptionType × Bytes)) :=
  rs.filterMap fun
    | .packet f =>
        if f.header.packetAction = .empty then none
        else some (.ok (f.header.packetAction, f.header.packetEncryptionType, f.packet))
    | .threw e => some (.error e)

/-- The receiver has yielded the first calls, in order and unchanged, and the
bytes it has not read are exactly those of the other calls. -/
def InOrder (calls : List SendCall) (s : Tcp) (rs : List Received) : Prop :=
  ∃ n, AlignedAt Frame.bytes (calls.map SendCall.frame) n s.unread ∧
    yields rs = (calls.take n).map fun c => .ok c.triple

theorem frame_bytes_pos (calls : List SendCall) :
    ∀ f ∈ calls.map SendCall.frame, 0 < f.bytes.length := by
  intro f _
  rw [Frame.length_bytes, headerSize]
  omega

theorem InOrder.complete {calls : List SendCall} {s : Tcp} {rs : List Received}
    (h : InOrder calls s rs) (hread : s.unread = []) :
    yields rs = calls.map fun c => .ok c.triple := by
  obtain ⟨n, haligned, hyields⟩ := h
  have hend : AlignedAt Frame.bytes (calls.map SendCall.frame) calls.length s.unread := by
    refine ⟨by simp, ?_⟩
    rw [hread, List.drop_eq_nil_of_le (by simp), stream_nil]
  rw [hyields, haligned.unique (frame_bytes_pos calls) hend, List.take_length]

/-- Two bytes of data. -/
def twoBytes : SendCall := ⟨[1, 2], .data, .none, 0, by decide⟩

end NETConnect.SocketExtensions
