import NETConnect.Packet.Segmentation
/-!
# Receiving untrusted bytes

Every 18 bytes are a header, and the length they announce is the size of an array
and of a `Receive` before anything looks at it.  The array is made by the runtime
here, which makes none of negative length and none above `Array.MaxLength`; memory
is not otherwise scarce.
-/

namespace NETConnect.SocketExtensions

open Lib PacketHeader

/-- `Array.MaxLength`. -/
def arrayMaxLength : Nat := 0x7FFFFFC7

/-- What `new byte[length]` throws. -/
def newByteArray (length : BitVec 32) : Except Exn Unit :=
  if length.toInt < 0 then .error .overflow
  else if arrayMaxLength < length.toNat then .error .outOfMemory
  else .ok ()

/-- `ReceivePacket`, with its array made by the runtime. -/
def receivePacketAllocating (s : Tcp) (poll : Poll) : Option (Tcp × Received) := do
  let s ← s.arrive poll.before
  if s.isGracefulShutdown then return (s, .packet .nothing)
  let (s, header) ← hasValidHeader s poll.header
  match header with
  | none => return (s, .packet .nothing)
  | some header =>
      match newByteArray header.byteLength with
      | .error e => return (s, .threw e)
      | .ok () =>
          let s ← s.arrive poll.between
          let (buffer, s) ← s.receive header.byteLength.toNat poll.body
          return (s, .packet ⟨header, if 0 < poll.body then buffer else []⟩)

theorem newByteArray_eq_ok_iff {length : BitVec 32} :
    newByteArray length = .ok () ↔ 0 ≤ length.toInt ∧ length.toNat ≤ arrayMaxLength := by
  unfold newByteArray
  split_ifs with hneg hlarge <;> simp <;> omega

/-- Where no length above `Array.MaxLength` is announced the runtime makes no
difference. -/
theorem receivePacketAllocating_eq {s : Tcp} {poll : Poll}
    (hsmall : ∀ t u header, s.arrive poll.before = some t →
      hasValidHeader t poll.header = some (u, some header) →
        header.byteLength.toNat ≤ arrayMaxLength ∨ header.byteLength.toInt < 0) :
    receivePacketAllocating s poll = receivePacket s poll := by
  unfold receivePacketAllocating receivePacket
  cases harrive : s.arrive poll.before with
  | none => rfl
  | some t =>
      simp only [bind, Option.bind_some]
      by_cases hshutdown : t.isGracefulShutdown
      · rw [if_pos hshutdown, if_pos hshutdown]
      · rw [if_neg hshutdown, if_neg hshutdown]
        cases hheader : hasValidHeader t poll.header with
        | none => rfl
        | some found =>
            obtain ⟨u, header⟩ := found
            cases header with
            | none => rfl
            | some header =>
                simp only [Option.bind_some, newByteArray]
                by_cases hneg : header.byteLength.toInt < 0
                · rw [if_pos hneg, if_pos hneg]
                · have hle := (hsmall t u header harrive hheader).resolve_right hneg
                  rw [if_neg hneg, if_neg hneg, if_neg (Nat.not_lt.2 hle)]

/-! ## One call -/

/-- A call that meets what has arrived already, and whose `Receive` for the header
gets all of it. -/
def Poll.Direct (poll : Poll) : Prop := poll.before = 0 ∧ poll.header = headerSize

/-- The call comes back, and whenever it does, with nothing or with the header that
stands first in the queue and a packet no longer than that announces. -/
def ReturnsNormally (s : Tcp) : Prop :=
  (∃ poll : Poll, poll.Direct ∧ ∃ r, receivePacketAllocating s poll = some r) ∧
  ∀ (poll : Poll) (t : Tcp) (r : Received), poll.Direct →
    receivePacketAllocating s poll = some (t, r) →
      ∃ f, r = .packet f ∧ (f = .nothing ∨
        validateHeader (s.arrived.take headerSize) = some f.header ∧
          f.packet.length ≤ f.header.byteLength.toNat)

/-- There is no header yet, or it announces the length of an array, and after it comes
a byte or the end of the stream. -/
def Receivable (s : Tcp) : Prop :=
  s.available < headerSize ∨
    ∃ header, validateHeader (s.arrived.take headerSize) = some header ∧
      0 ≤ header.byteLength.toInt ∧ header.byteLength.toNat ≤ arrayMaxLength ∧
      (headerSize < s.unread.length ∨ s.closed = true)

theorem Tcp.arrive_zero (s : Tcp) : s.arrive 0 = some s := by
  simp [Tcp.arrive]

theorem receivePacketAllocating_idle {s : Tcp} {poll : Poll} (hdirect : poll.before = 0)
    (hshort : s.available < headerSize) :
    receivePacketAllocating s poll = some (s, .packet .nothing) := by
  simp only [receivePacketAllocating, hdirect, Tcp.arrive_zero, bind, Option.bind_some,
    hasValidHeader_idle hshort]
  split_ifs <;> rfl

theorem receivePacketAllocating_ready {s : Tcp} {poll : Poll} {header : PacketHeader}
    (hdirect : poll.Direct) (hready : headerSize ≤ s.available)
    (hheader : validateHeader (s.arrived.take headerSize) = some header) :
    receivePacketAllocating s poll =
      match newByteArray header.byteLength with
      | .error e => some ({ s with arrived := s.arrived.drop headerSize }, .threw e)
      | .ok () =>
          (({ s with arrived := s.arrived.drop headerSize }).arrive poll.between).bind fun t =>
            (t.receive header.byteLength.toNat poll.body).map fun (r : Bytes × Tcp) =>
              (r.2, .packet ⟨header, if 0 < poll.body then r.1 else []⟩) := by
  have hopen : s.isGracefulShutdown = false := by
    have hsize : 18 ≤ s.available := hready
    simp only [Tcp.isGracefulShutdown, Bool.and_eq_false_iff, decide_eq_false_iff_not]
    exact Or.inr (by omega)
  have hreceive : s.receive headerSize headerSize =
      some (s.arrived.take headerSize, { s with arrived := s.arrived.drop headerSize }) := by
    rw [Tcp.receive, if_pos ⟨Nat.le_refl _, hready, Or.inl (by decide)⟩]
    simp
  simp only [receivePacketAllocating, hdirect.1, hdirect.2, Tcp.arrive_zero, bind,
    Option.bind_some, hopen, hasValidHeader, if_pos hready, hreceive, Option.map_some, hheader]
  cases newByteArray header.byteLength with
  | error e => rfl
  | ok u =>
      simp only [Option.map_eq_bind]
      rfl

/-- A `Receive` comes back if there is a byte to read, or one comes, or the stream ends,
whatever the number of bytes it asks for. -/
theorem receive_returns_iff {s : Tcp} {size : Nat} :
    (∃ between body t r, s.arrive between = some t ∧ t.receive size body = some r) ↔
      0 < s.unread.length ∨ s.closed = true := by
  constructor
  · rintro ⟨between, body, t, r, harrive, hreceive⟩
    obtain ⟨hunread, -, hclosed⟩ := Tcp.arrive_spec harrive
    have hle : t.available ≤ s.unread.length := by
      rw [← hunread, Tcp.available, Tcp.unread, List.length_append]
      exact Nat.le_add_right _ _
    unfold Tcp.receive at hreceive
    split_ifs at hreceive with hcond
    obtain ⟨-, hthere, hpos | ⟨-, hpos⟩ | ⟨hend, -, -⟩⟩ := hcond
    · exact Or.inl (by omega)
    · exact Or.inl (by omega)
    · exact Or.inr (hclosed ▸ hend)
  · intro h
    have hall : s.arrive s.inFlight.length = some ⟨s.unread, [], s.closed⟩ := by
      simp [Tcp.arrive, Tcp.unread]
    by_cases hpos : 0 < s.unread.length
    · by_cases hzero : size = 0
      · exact ⟨_, 0, _, _, hall,
          if_pos ⟨Nat.zero_le _, Nat.zero_le _, Or.inr (Or.inl ⟨hzero, hpos⟩)⟩⟩
      · exact ⟨_, 1, _, _, hall, if_pos ⟨by omega, hpos, Or.inl (by omega)⟩⟩
    · have hclosed : s.closed = true := h.resolve_left hpos
      exact ⟨_, 0, _, _, hall, if_pos ⟨Nat.zero_le _, Nat.zero_le _,
        Or.inr (Or.inr ⟨hclosed, rfl, Nat.eq_zero_of_not_pos hpos⟩)⟩⟩

theorem Tcp.unread_dropHeader_pos {s : Tcp} (hready : headerSize ≤ s.available) :
    0 < ({ s with arrived := s.arrived.drop headerSize } : Tcp).unread.length ↔
      headerSize < s.unread.length := by
  have hlength : headerSize ≤ s.arrived.length := hready
  simp only [Tcp.unread, List.length_append, List.length_drop]
  omega

theorem returnsNormally_of_short {s : Tcp} (hshort : s.available < headerSize) :
    ReturnsNormally s := by
  constructor
  · exact ⟨⟨0, headerSize, 0, 0⟩, ⟨rfl, rfl⟩, _, receivePacketAllocating_idle rfl hshort⟩
  · intro poll t r hdirect hcall
    rw [receivePacketAllocating_idle hdirect.1 hshort] at hcall
    obtain ⟨-, rfl⟩ := Prod.mk.inj (Option.some.inj hcall)
    exact ⟨_, rfl, Or.inl rfl⟩

theorem not_returnsNormally_of_error {s : Tcp} {header : PacketHeader} {e : Exn}
    (hready : headerSize ≤ s.available)
    (hheader : validateHeader (s.arrived.take headerSize) = some header)
    (harray : newByteArray header.byteLength = .error e) : ¬ ReturnsNormally s := by
  intro h
  have hcall := @receivePacketAllocating_ready s ⟨0, headerSize, 0, 0⟩ header
    ⟨rfl, rfl⟩ hready hheader
  simp only [harray] at hcall
  obtain ⟨f, hf, -⟩ := h.2 _ _ _ ⟨rfl, rfl⟩ hcall
  simp at hf

theorem returnsNormally_iff_of_ok {s : Tcp} {header : PacketHeader}
    (hready : headerSize ≤ s.available)
    (hheader : validateHeader (s.arrived.take headerSize) = some header)
    (harray : newByteArray header.byteLength = .ok ()) :
    ReturnsNormally s ↔ headerSize < s.unread.length ∨ s.closed = true := by
  have hcall := fun poll hdirect =>
    @receivePacketAllocating_ready s poll header hdirect hready hheader
  simp only [harray] at hcall
  have hreturns := @receive_returns_iff { s with arrived := s.arrived.drop headerSize }
    header.byteLength.toNat
  rw [Tcp.unread_dropHeader_pos hready] at hreturns
  constructor
  · rintro ⟨⟨poll, hdirect, r, hr⟩, -⟩
    rw [hcall poll hdirect, Option.bind_eq_some_iff] at hr
    obtain ⟨t, harrive, hr⟩ := hr
    obtain ⟨r', hreceive, -⟩ := Option.map_eq_some_iff.1 hr
    exact hreturns.1 ⟨poll.between, poll.body, t, r', harrive, hreceive⟩
  · intro hbody
    constructor
    · obtain ⟨between, body, t, r, harrive, hreceive⟩ := hreturns.2 hbody
      refine ⟨⟨0, headerSize, between, body⟩, ⟨rfl, rfl⟩, ?_⟩
      rw [hcall _ ⟨rfl, rfl⟩, harrive, Option.bind_some, hreceive]
      exact ⟨_, rfl⟩
    · intro poll t r hdirect hr
      rw [hcall poll hdirect, Option.bind_eq_some_iff] at hr
      obtain ⟨u, harrive, hr⟩ := hr
      obtain ⟨⟨buffer, v⟩, hreceive, hr⟩ := Option.map_eq_some_iff.1 hr
      obtain ⟨rfl, rfl⟩ := Prod.mk.inj hr
      obtain ⟨hsize, -, -, rfl, -⟩ := Tcp.receive_spec hreceive
      refine ⟨_, rfl, Or.inr ⟨hheader, ?_⟩⟩
      split_ifs
      · simp only [List.length_append, List.length_take, List.length_replicate]
        omega
      · exact Nat.zero_le _

theorem receivable_iff_of_header {s : Tcp} {header : PacketHeader}
    (hready : headerSize ≤ s.available)
    (hheader : validateHeader (s.arrived.take headerSize) = some header) :
    Receivable s ↔ newByteArray header.byteLength = .ok () ∧
      (headerSize < s.unread.length ∨ s.closed = true) := by
  rw [newByteArray_eq_ok_iff]
  constructor
  · rintro (hshort | ⟨found, hfound, hnonneg, hle, hbody⟩)
    · omega
    · rw [hheader] at hfound
      obtain rfl := Option.some.inj hfound
      exact ⟨⟨hnonneg, hle⟩, hbody⟩
  · rintro ⟨⟨hnonneg, hle⟩, hbody⟩
    exact Or.inr ⟨header, hheader, hnonneg, hle, hbody⟩

/-- A call of `ReceivePacket` comes back without an exception exactly if the length
in the header is that of an array, and after the header comes a byte or the end of the
stream. -/
theorem receivePacket_returnsNormally_iff (s : Tcp) : ReturnsNormally s ↔ Receivable s := by
  by_cases hready : headerSize ≤ s.available
  · have hvalid : validateHeader (s.arrived.take headerSize) ≠ none := by
      have hlength : headerSize ≤ s.arrived.length := hready
      simp [validateHeader, hlength]
    obtain ⟨header, hheader⟩ := Option.ne_none_iff_exists'.1 hvalid
    rw [receivable_iff_of_header hready hheader]
    cases harray : newByteArray header.byteLength with
    | error e =>
        refine iff_of_false (not_returnsNormally_of_error hready hheader harray) ?_
        simp
    | ok u =>
        rw [returnsNormally_iff_of_ok hready hheader harray]
        exact (and_iff_right rfl).symm
  · -- nothing to read yet
    have hshort : s.available < headerSize := Nat.lt_of_not_le hready
    exact iff_of_true (returnsNormally_of_short hshort) (Or.inl hshort)

/-- A header with the length that `Send` takes for null data, in the queue. -/
def nullData : Tcp :=
  ⟨(PacketHeader.create (BitVec.ofInt 32 (-1)) .data .none 0).bytes, [], false⟩

theorem not_receivePacket_returnsNormally :
    ¬ ∀ s : Tcp, ReturnsNormally s := by
  intro halways
  have hthrows : receivePacketAllocating nullData ⟨0, headerSize, 0, 0⟩ =
      some (⟨[], [], false⟩, .threw .overflow) := by decide
  obtain ⟨f, hf, -⟩ := (halways nullData).2 _ _ _ ⟨rfl, rfl⟩ hthrows
  simp at hf

end NETConnect.SocketExtensions
