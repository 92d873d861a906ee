import NETConnect.Packet.SocketExtensions
/-!
# `ReadFrom`

The second reader of framed bytes: it takes a whole buffer at once and decodes the
header itself, in two branches.  Both read the time as an `int`, neither looks for
a second frame, and the branch for a bare header does not look at its length.
-/

namespace NETConnect

open Lib

/-- The header announces the packet behind it. -/
def Frame.Fits (f : Frame) : Prop := f.header.byteLength.toInt = f.packet.length

instance (f : Frame) : Decidable f.Fits := inferInstanceAs (Decidable (_ = _))

namespace PacketHeader

/-- The result of `ReadFrom` and its two outputs. -/
structure Reading where
  result : Bool
  headers : List PacketHeader
  packetData : List Bytes
  deriving DecidableEq, Repr

def readInt32LittleEndian (buffer : Bytes) (offset : Nat) : BitVec 32 :=
  BitVec.ofNat 32 (readLittleEndian buffer offset 4)

def readUInt16LittleEndian (buffer : Bytes) (offset : Nat) : BitVec 16 :=
  BitVec.ofNat 16 (readLittleEndian buffer offset 2)

/-- `ReadFrom(buffer, out Headers, out PacketData)`. -/
def readFrom (buffer : Bytes) : Reading :=
  if headerSize < buffer.length then
    let header := buffer.take headerSize
    let dataLength := readInt32LittleEndian header 0
    -- the sum is taken in 32 bits
    let announced := (BitVec.ofNat 32 headerSize + dataLength).toInt
    if announced = buffer.length then
      let packet : PacketHeader :=
        { byteLength := dataLength
          packetAction := ⟨readUInt16LittleEndian header 4⟩
          packetEncodingType := ⟨readUInt16LittleEndian header 6⟩
          packetEncryptionType := ⟨readUInt16LittleEndian buffer 8⟩
          sentAt := (readInt32LittleEndian buffer 10).signExtend 64 }
      ⟨true, [packet], [buffer.drop headerSize]⟩
    else if buffer.length < announced then ⟨false, [], []⟩
    else ⟨false, [], []⟩
  else if buffer.length = headerSize then
    let packet : PacketHeader :=
      { byteLength := readInt32LittleEndian buffer 0
        packetAction := ⟨readUInt16LittleEndian buffer 4⟩
        packetEncodingType := ⟨readUInt16LittleEndian buffer 6⟩
        packetEncryptionType := ⟨readUInt16LittleEndian buffer 8⟩
        sentAt := (readInt32LittleEndian buffer 10).signExtend 64 }
    ⟨true, [packet], []⟩
  else ⟨false, [], []⟩

/-! ## Reading the bytes of a header -/

theorem readLittleEndian_left {buffer rest : Bytes} {offset width : Nat}
    (hinside : offset + width ≤ buffer.length) :
    readLittleEndian (buffer ++ rest) offset width = readLittleEndian buffer offset width := by
  unfold readLittleEndian
  rw [List.drop_append_of_le_length (by omega), List.take_append_of_le_length]
  rw [List.length_drop]
  omega

theorem exists_header_of_length {buffer : Bytes} (hroom : headerSize ≤ buffer.length) :
    ∃ header : PacketHeader, buffer.take headerSize = header.bytes := by
  have hvalid : validateHeader (buffer.take headerSize) ≠ none := by
    simp [validateHeader, hroom]
  obtain ⟨header, hheader⟩ := Option.ne_none_iff_exists'.1 hvalid
  exact ⟨header, (bytes_of_validateHeader hheader).symm⟩

theorem bytes_injective {header header' : PacketHeader} (h : header.bytes = header'.bytes) :
    header = header' := by
  have hread := validateHeader_bytes header
  rw [h, validateHeader_bytes] at hread
  exact (Option.some.inj hread).symm

/-- What is left of a time that is read as an `int`. -/
def truncatedSentAt (sentAt : BitVec 64) : BitVec 64 := (sentAt.setWidth 32).signExtend 64

/-- The header as `ReadFrom` decodes it. -/
def truncated (header : PacketHeader) : PacketHeader :=
  { header with sentAt := truncatedSentAt header.sentAt }

theorem take_leBytes {m n : Nat} (h : m ≤ n) (value : Nat) :
    (leBytes n value).take m = leBytes m value := by
  induction m generalizing n value with
  | zero => rfl
  | succ m ih =>
      obtain ⟨n, rfl⟩ : ∃ k, n = k + 1 := ⟨n - 1, by omega⟩
      rw [leBytes, leBytes, List.take_succ_cons, ih (by omega)]

theorem readInt32LittleEndian_sentAt (header : PacketHeader) :
    readInt32LittleEndian header.bytes 10 = header.sentAt.setWidth 32 := by
  have hdrop : header.bytes.drop 10 = leBytes 8 header.sentAt.toNat := by
    simp only [bytes, List.drop_append, List.drop_of_length_le, length_leBytes, Nat.reduceSub,
      Nat.reduceLeDiff, Nat.sub_self, List.drop_zero, List.nil_append]
  apply BitVec.eq_of_toNat_eq
  rw [readInt32LittleEndian, readLittleEndian, hdrop, take_leBytes (by norm_num),
    leValue_leBytes]
  simp

/-- Both branches decode the first 18 bytes to the same header. -/
theorem truncated_eq (header : PacketHeader) (rest : Bytes) :
    ({ byteLength := readInt32LittleEndian header.bytes 0
       packetAction := ⟨readUInt16LittleEndian header.bytes 4⟩
       packetEncodingType := ⟨readUInt16LittleEndian header.bytes 6⟩
       packetEncryptionType := ⟨readUInt16LittleEndian (header.bytes ++ rest) 8⟩
       sentAt := (readInt32LittleEndian (header.bytes ++ rest) 10).signExtend 64 } :
      PacketHeader) = header.truncated := by
  have hread := validateHeader_bytes header
  rw [validateHeader, if_pos (length_bytes header)] at hread
  have hheader := Option.some.inj hread
  have hlength : header.bytes.length = 18 := length_bytes header
  have hsentAt : readInt32LittleEndian (header.bytes ++ rest) 10 =
      header.sentAt.setWidth 32 := by
    rw [← readInt32LittleEndian_sentAt, readInt32LittleEndian, readInt32LittleEndian,
      readLittleEndian_left (by omega)]
  rw [hsentAt]
  unfold readUInt16LittleEndian readInt32LittleEndian
  rw [readLittleEndian_left (by omega)]
  exact congrArg
    (fun read : PacketHeader => { read with sentAt := truncatedSentAt header.sentAt }) hheader

theorem readFrom_bytes {header : PacketHeader} {packet : Bytes} (hne : packet ≠ [])
    (hlength : (header.bytes ++ packet).length < 2 ^ 31) :
    readFrom (header.bytes ++ packet) =
      if Frame.Fits ⟨header, packet⟩ then ⟨true, [header.truncated], [packet]⟩
      else ⟨false, [], []⟩ := by
  have hpos : 0 < packet.length := List.length_pos_of_ne_nil hne
  have htotal : (header.bytes ++ packet).length = 18 + packet.length := by
    rw [List.length_append, length_bytes, headerSize]
  have hbyteLength : readInt32LittleEndian header.bytes 0 = header.byteLength :=
    congrArg byteLength (truncated_eq header packet)
  have hsum : (BitVec.ofNat 32 headerSize + header.byteLength).toInt =
        (header.bytes ++ packet).length ↔ Frame.Fits ⟨header, packet⟩ := by
    unfold Frame.Fits headerSize
    rw [htotal, BitVec.toInt_add]
    have hlow := BitVec.le_toInt header.byteLength
    have hhigh := BitVec.toInt_lt (x := header.byteLength)
    have h18 : (BitVec.ofNat 32 18).toInt = 18 := by decide
    rw [h18, Int.bmod_def]
    push_cast
    split_ifs <;> omega
  unfold readFrom
  rw [if_pos (by rw [htotal, headerSize]; omega), List.take_left' (length_bytes header),
    List.drop_left' (length_bytes header)]
  simp only [hbyteLength]
  by_cases hfits : Frame.Fits ⟨header, packet⟩
  · rw [if_pos (hsum.2 hfits), if_pos hfits, ← truncated_eq header packet, hbyteLength]
  · rw [if_neg (fun h => hfits (hsum.1 h)), if_neg hfits]
    split_ifs <;> rfl

theorem readFrom_header (header : PacketHeader) :
    readFrom header.bytes = ⟨true, [header.truncated], []⟩ := by
  have htruncated := truncated_eq header []
  rw [List.append_nil] at htruncated
  unfold readFrom
  rw [if_neg (by rw [length_bytes]; exact Nat.lt_irrefl _), if_pos (length_bytes header),
    ← htruncated]

theorem readFrom_short {buffer : Bytes} (hshort : buffer.length < headerSize) :
    readFrom buffer = ⟨false, [], []⟩ := by
  unfold readFrom
  rw [if_neg (by omega), if_neg (by omega)]

end PacketHeader

/-! ## Concatenations of frames -/

open PacketHeader

/-- The buffer is a concatenation of frames, at least one. -/
def Framed (buffer : Bytes) : Prop :=
  ∃ frames : List Frame, frames ≠ [] ∧ (∀ f ∈ frames, f.Fits) ∧ stream Frame.bytes frames = buffer

/-- `ReadFrom` is right about a buffer: it returns the frames that the buffer is the
concatenation of, and nothing where it is none. -/
def InvertsFraming (buffer : Bytes) : Prop :=
  (∀ frames : List Frame, frames ≠ [] → (∀ f ∈ frames, f.Fits) →
    stream Frame.bytes frames = buffer →
      readFrom buffer = ⟨true, frames.map Frame.header, frames.map Frame.packet⟩) ∧
  (¬ Framed buffer → readFrom buffer = ⟨false, [], []⟩)

theorem Frame.Fits.unique {f g : Frame} {rest rest' : Bytes} (hf : f.Fits) (hg : g.Fits)
    (h : f.bytes ++ rest = g.bytes ++ rest') : f = g ∧ rest = rest' := by
  obtain ⟨fheader, fpacket⟩ := f
  obtain ⟨gheader, gpacket⟩ := g
  simp only [Frame.bytes, List.append_assoc] at h
  obtain ⟨hbytes, hrest⟩ := List.append_inj h
    (by rw [PacketHeader.length_bytes, PacketHeader.length_bytes])
  obtain rfl := bytes_injective hbytes
  have hlength : fpacket.length = gpacket.length := by
    have hsame := hf.symm.trans hg
    exact Int.ofNat.inj hsame
  obtain ⟨rfl, rfl⟩ := List.append_inj hrest hlength
  exact ⟨rfl, rfl⟩

theorem stream_ne_nil {frames : List Frame} (h : frames ≠ []) :
    stream Frame.bytes frames ≠ [] := by
  obtain ⟨f, fs, rfl⟩ := List.exists_cons_of_ne_nil h
  intro hnil
  have hlength := congrArg List.length hnil
  rw [stream_cons, List.length_append, Frame.length_bytes, headerSize, List.length_nil] at hlength
  omega

theorem Frame.Fits.stream_eq {f : Frame} (hf : f.Fits) {frames : List Frame}
    (hne : frames ≠ []) (hfits : ∀ g ∈ frames, g.Fits)
    (h : stream Frame.bytes frames = f.bytes) : frames = [f] := by
  obtain ⟨g, gs, rfl⟩ := List.exists_cons_of_ne_nil hne
  rw [stream_cons, ← List.append_nil f.bytes] at h
  obtain ⟨rfl, hrest⟩ := Frame.Fits.unique (hfits g List.mem_cons_self) hf h
  by_cases hgs : gs = []
  · rw [hgs]
  · exact absurd hrest (stream_ne_nil hgs)

theorem Frame.Fits.framed {f : Frame} (hf : f.Fits) : Framed f.bytes :=
  ⟨[f], by simp, by simpa using hf, by simp⟩

/-- One frame, with something in it, and a time that an `int` can hold. -/
def SingleFrame (buffer : Bytes) : Prop :=
  ∃ f : Frame, f.Fits ∧ f.packet ≠ [] ∧ truncatedSentAt f.header.sentAt = f.header.sentAt ∧
    buffer = f.bytes

theorem not_framed_of_short {buffer : Bytes} (hshort : buffer.length < headerSize) :
    ¬ Framed buffer := by
  rintro ⟨frames, hne, -, rfl⟩
  obtain ⟨f, fs, rfl⟩ := List.exists_cons_of_ne_nil hne
  rw [stream_cons, List.length_append, Frame.length_bytes] at hshort
  omega

theorem invertsFraming_iff_of_unread {buffer : Bytes} (hread : readFrom buffer = ⟨false, [], []⟩) :
    InvertsFraming buffer ↔ ¬ Framed buffer := by
  constructor
  · rintro h ⟨frames, hne, hfits, hstream⟩
    have hright := h.1 frames hne hfits hstream
    rw [hread] at hright
    simp at hright
  · intro hnot
    exact ⟨fun frames hne hfits hstream => absurd ⟨frames, hne, hfits, hstream⟩ hnot,
      fun _ => hread⟩

/-- A bare header is read without a packet, which is wrong for a frame and for no frame. -/
theorem PacketHeader.not_invertsFraming (header : PacketHeader) :
    ¬ InvertsFraming header.bytes := by
  intro h
  by_cases hframed : Framed header.bytes
  · obtain ⟨frames, hne, hfits, hstream⟩ := hframed
    have hread := h.1 frames hne hfits hstream
    rw [readFrom_header] at hread
    have hnil : frames.map Frame.packet = [] := (Reading.mk.inj hread).2.2.symm
    exact hne (List.map_eq_nil_iff.1 hnil)
  · have hread := h.2 hframed
    rw [readFrom_header] at hread
    simp at hread

theorem Frame.Fits.invertsFraming_iff {f : Frame} (hf : f.Fits) (hne : f.packet ≠ [])
    (hlength : f.bytes.length < 2 ^ 31) :
    InvertsFraming f.bytes ↔ truncatedSentAt f.header.sentAt = f.header.sentAt := by
  have hread : readFrom f.bytes = ⟨true, [f.header.truncated], [f.packet]⟩ := by
    rw [Frame.bytes, readFrom_bytes hne hlength, if_pos hf]
  constructor
  · intro h
    have hright := h.1 [f] (by simp) (by simpa using hf) (by simp)
    rw [hread] at hright
    exact congrArg sentAt (List.cons.inj (Reading.mk.inj hright).2.1).1
  · intro hsentAt
    refine ⟨fun frames hframes hall hstream => ?_, fun hnot => absurd hf.framed hnot⟩
    obtain rfl := hf.stream_eq hframes hall hstream
    rw [hread, truncated, hsentAt]
    rfl

theorem Frame.Fits.singleFrame_iff {f : Frame} (hf : f.Fits) (hne : f.packet ≠ []) :
    SingleFrame f.bytes ↔ truncatedSentAt f.header.sentAt = f.header.sentAt := by
  constructor
  · rintro ⟨g, hg, -, hsentAt, hbytes⟩
    have hstream : g.bytes ++ [] = f.bytes ++ [] := by rw [hbytes]
    rwa [(hg.unique hf hstream).1] at hsentAt
  · intro hsentAt
    exact ⟨f, hf, hne, hsentAt, rfl⟩

/-- `ReadFrom` is right exactly about single frames with something in them and a time
that an `int` can hold, and about what is neither a concatenation of frames nor as
long as a header. -/
theorem PacketHeader.readFrom_invertsFraming_iff (buffer : Bytes) (hlength : buffer.length < 2 ^ 31) :
    InvertsFraming buffer ↔ SingleFrame buffer ∨ ¬ Framed buffer ∧ buffer.length ≠ headerSize := by
  rcases Nat.lt_trichotomy buffer.length headerSize with hshort | hbare | hlong
  · -- shorter than a header: no frame
    have hnot := not_framed_of_short hshort
    exact iff_of_true ((invertsFraming_iff_of_unread (readFrom_short hshort)).2 hnot)
      (Or.inr ⟨hnot, hshort.ne⟩)
  · -- a bare header: read without a packet
    obtain ⟨header, hheader⟩ := exists_header_of_length hbare.ge
    rw [List.take_of_length_le hbare.le] at hheader
    subst hheader
    refine iff_of_false header.not_invertsFraming ?_
    rintro (⟨f, -, hne, -, hbytes⟩ | ⟨-, hsize⟩)
    · have hsize := congrArg List.length hbytes
      rw [length_bytes, Frame.length_bytes] at hsize
      exact hne (List.length_eq_zero_iff.1 (by omega))
    · exact hsize hbare
  · -- a header and more
    obtain ⟨header, hheader⟩ := exists_header_of_length hlong.le
    obtain ⟨packet, rfl⟩ : ∃ packet, buffer = header.bytes ++ packet :=
      ⟨buffer.drop headerSize, by rw [← hheader, List.take_append_drop]⟩
    have hne : packet ≠ [] := by
      rintro rfl
      simp at hlong
    by_cases hfits : Frame.Fits ⟨header, packet⟩
    · have hframed : Framed (header.bytes ++ packet) := hfits.framed
      have hright := hfits.invertsFraming_iff hne hlength
      have hsingle := hfits.singleFrame_iff hne
      rw [Frame.bytes] at hright hsingle
      rw [hright, hsingle]
      exact ⟨Or.inl, fun h => h.resolve_right fun hnot => hnot.1 hframed⟩
    · have hread := readFrom_bytes hne hlength
      rw [if_neg hfits] at hread
      have hsingle : ¬ SingleFrame (header.bytes ++ packet) := by
        rintro ⟨⟨fheader, fpacket⟩, hf, -, -, hbytes⟩
        obtain ⟨hheaders, rfl⟩ := List.append_inj hbytes (by rw [length_bytes, length_bytes])
        obtain rfl := bytes_injective hheaders
        exact hfits hf
      rw [invertsFraming_iff_of_unread hread]
      exact ⟨fun hnot => Or.inr ⟨hnot, hlong.ne'⟩, fun h => (h.resolve_left hsingle).1⟩

namespace PacketHeader

/-- One byte of data, sent at an ordinary time. -/
def oneByte : Frame := ⟨.create 1 .data .none 1700000000000, [7]⟩

theorem readFrom_invertsFraming_oneByte :
    InvertsFraming oneByte.bytes ↔
      SingleFrame oneByte.bytes ∨ ¬ Framed oneByte.bytes ∧ oneByte.bytes.length ≠ headerSize :=
  readFrom_invertsFraming_iff oneByte.bytes (by decide)

/-- The time does not survive. -/
theorem not_readFrom_invertsFraming :
    ¬ ∀ buffer : Bytes, buffer.length < 2 ^ 31 → InvertsFraming buffer := by
  intro halways
  have hread := (halways oneByte.bytes (by decide)).1 [oneByte] (by simp) (by decide) (by simp)
  have hsentAt : truncatedSentAt 1700000000000 = 1700000000000 := by
    have hcode : readFrom (oneByte.header.bytes ++ oneByte.packet) =
        if oneByte.Fits then ⟨true, [oneByte.header.truncated], [oneByte.packet]⟩
        else ⟨false, [], []⟩ := readFrom_bytes (by decide) (by decide)
    rw [if_pos (by decide)] at hcode
    rw [show oneByte.bytes = oneByte.header.bytes ++ oneByte.packet from rfl, hcode] at hread
    exact congrArg sentAt (List.cons.inj (Reading.mk.inj hread).2.1).1
  exact absurd hsentAt (by decide)

end PacketHeader

end NETConnect
