import NETConnect.Lib.LittleEndian
/-!
# The packet header

`PacketHeader` and its 18-byte binary form.  The three enumerations travel as
unsigned 16-bit integers and are cast back without a check, so each of them is a
16-bit word with named values: every word can arrive.
-/

namespace NETConnect

open Lib

/-- The content of a `byte[]`. -/
abbrev Bytes := List UInt8

/-- Exceptions that can leave a modelled function. -/
inductive Exn
  | nullReference
  | argument
  | argumentNull
  | argumentOutOfRange
  | invalidOperation
  | overflow
  | cryptographic
  | socket
  | outOfMemory
  | indexOutOfRange
  | format
  deriving DecidableEq, Repr

theorem Exn.bind_eq_ok {α β : Type} {x : Except Exn α} {f : α → Except Exn β} {b : β} :
    x >>= f = .ok b ↔ ∃ a, x = .ok a ∧ f a = .ok b := by
  cases x <;> simp [bind, Except.bind]

structure PacketActionType where
  word : BitVec 16
  deriving DecidableEq, Repr

namespace PacketActionType

def empty : PacketActionType := ⟨0⟩
def ping : PacketActionType := ⟨1⟩
def pong : PacketActionType := ⟨2⟩
def syn : PacketActionType := ⟨3⟩
def synAck : PacketActionType := ⟨4⟩
def ack : PacketActionType := ⟨5⟩
def ready : PacketActionType := ⟨6⟩
def data : PacketActionType := ⟨7⟩
def voice : PacketActionType := ⟨8⟩
def emptyEncryptedPacket : PacketActionType := ⟨9⟩
def p2pInt : PacketActionType := ⟨10⟩
def peerJoin : PacketActionType := ⟨11⟩
def peerShared : PacketActionType := ⟨12⟩
def peerLeave : PacketActionType := ⟨13⟩
def disconnect : PacketActionType := ⟨14⟩

/-- The four types the two `HandleAuthentication` loops send and react to. -/
def IsHandshake (a : PacketActionType) : Prop :=
  a = syn ∨ a = synAck ∨ a = ack ∨ a = ready

instance (a : PacketActionType) : Decidable a.IsHandshake := by
  unfold IsHandshake
  infer_instance

end PacketActionType

structure PacketEncodingType where
  word : BitVec 16
  deriving DecidableEq, Repr

namespace PacketEncodingType

def utf8 : PacketEncodingType := ⟨0⟩
def json : PacketEncodingType := ⟨1⟩
def xml : PacketEncodingType := ⟨2⟩
def binary : PacketEncodingType := ⟨3⟩

end PacketEncodingType

structure PacketEncryptionType where
  word : BitVec 16
  deriving DecidableEq, Repr

namespace PacketEncryptionType

def none : PacketEncryptionType := ⟨0⟩
def aes : PacketEncryptionType := ⟨1⟩
def rsa : PacketEncryptionType := ⟨2⟩
def chaCha20Poly1305 : PacketEncryptionType := ⟨3⟩

end PacketEncryptionType

structure PacketHeader where
  byteLength : BitVec 32
  packetAction : PacketActionType
  packetEncodingType : PacketEncodingType
  packetEncryptionType : PacketEncryptionType
  sentAt : BitVec 64
  deriving DecidableEq, Repr

namespace PacketHeader

/-- `default(PacketHeader)`: all bits zero, the field initialisers do not run. -/
def default : PacketHeader :=
  ⟨0, .empty, .utf8, .none, 0⟩

/-- The constructor with an encryption type; `sentAt` is the clock at the call. -/
def create (byteLength : BitVec 32) (packetAction : PacketActionType)
    (encryptionType : PacketEncryptionType) (sentAt : BitVec 64) : PacketHeader :=
  { byteLength, packetAction, packetEncodingType := .binary
    packetEncryptionType := encryptionType, sentAt }

def headerSize : Nat := 18

/-! ## Writing -/

/-- `BinaryPrimitives.Write…LittleEndian(buffer.Slice(offset), value)`. -/
def writeLittleEndian (buffer : Bytes) (offset width value : Nat) : Except Exn Bytes :=
  if offset + width ≤ buffer.length then
    .ok (buffer.take offset ++ leBytes width value ++ buffer.drop (offset + width))
  else .error .argumentOutOfRange

/-- The buffer after `WriteTo`; the returned span is its first `headerSize` bytes. -/
def writeTo (header : PacketHeader) (buffer : Bytes) : Except Exn Bytes := do
  let buffer ← writeLittleEndian buffer 0 4 header.byteLength.toNat
  let buffer ← writeLittleEndian buffer 4 2 header.packetAction.word.toNat
  let buffer ← writeLittleEndian buffer 6 2 header.packetEncodingType.word.toNat
  let buffer ← writeLittleEndian buffer 8 2 header.packetEncryptionType.word.toNat
  writeLittleEndian buffer 10 8 header.sentAt.toNat

/-- The 18 bytes of a header. -/
def bytes (header : PacketHeader) : Bytes :=
  leBytes 4 header.byteLength.toNat ++ (leBytes 2 header.packetAction.word.toNat ++
    (leBytes 2 header.packetEncodingType.word.toNat ++
      (leBytes 2 header.packetEncryptionType.word.toNat ++ leBytes 8 header.sentAt.toNat)))

@[simp] theorem length_bytes (header : PacketHeader) : header.bytes.length = headerSize := by
  simp [bytes, headerSize]

theorem writeLittleEndian_append (written rest : Bytes) (width value : Nat)
    (hroom : width ≤ rest.length) :
    writeLittleEndian (written ++ rest) written.length width value =
      .ok ((written ++ leBytes width value) ++ rest.drop width) := by
  rw [writeLittleEndian, if_pos (by rw [List.length_append]; omega)]
  simp [List.drop_append]

theorem writeTo_eq (header : PacketHeader) (buffer : Bytes) (hroom : headerSize ≤ buffer.length) :
    header.writeTo buffer = .ok (header.bytes ++ buffer.drop headerSize) := by
  have hlength : 18 ≤ buffer.length := hroom
  have h₀ := writeLittleEndian_append [] buffer 4 header.byteLength.toNat (by omega)
  have h₁ := writeLittleEndian_append (leBytes 4 header.byteLength.toNat) (buffer.drop 4) 2
    header.packetAction.word.toNat (by rw [List.length_drop]; omega)
  have h₂ := writeLittleEndian_append
    (leBytes 4 header.byteLength.toNat ++ leBytes 2 header.packetAction.word.toNat)
    (buffer.drop 6) 2 header.packetEncodingType.word.toNat (by rw [List.length_drop]; omega)
  have h₃ := writeLittleEndian_append
    (leBytes 4 header.byteLength.toNat ++ leBytes 2 header.packetAction.word.toNat ++
      leBytes 2 header.packetEncodingType.word.toNat)
    (buffer.drop 8) 2 header.packetEncryptionType.word.toNat (by rw [List.length_drop]; omega)
  have h₄ := writeLittleEndian_append
    (leBytes 4 header.byteLength.toNat ++ leBytes 2 header.packetAction.word.toNat ++
      leBytes 2 header.packetEncodingType.word.toNat ++
      leBytes 2 header.packetEncryptionType.word.toNat)
    (buffer.drop 10) 8 header.sentAt.toNat (by rw [List.length_drop]; omega)
  simp only [List.nil_append, List.length_nil, List.length_append, length_leBytes,
    List.drop_drop, Nat.reduceAdd] at h₀ h₁ h₂ h₃ h₄
  simp only [writeTo, h₀, h₁, h₂, h₃, h₄, bind, Except.bind]
  simp only [bytes, headerSize, List.append_assoc]

/-! ## Reading -/

/-- `BinaryPrimitives.Read…LittleEndian(buffer.Slice(offset))`. -/
def readLittleEndian (buffer : Bytes) (offset width : Nat) : Nat :=
  leValue ((buffer.drop offset).take width)

/-- `none` is the result `false`, with the default header. -/
def validateHeader (headerBytes : Bytes) : Option PacketHeader :=
  if headerBytes.length = headerSize then
    some
      { byteLength := BitVec.ofNat 32 (readLittleEndian headerBytes 0 4)
        packetAction := ⟨BitVec.ofNat 16 (readLittleEndian headerBytes 4 2)⟩
        packetEncodingType := ⟨BitVec.ofNat 16 (readLittleEndian headerBytes 6 2)⟩
        packetEncryptionType := ⟨BitVec.ofNat 16 (readLittleEndian headerBytes 8 2)⟩
        sentAt := BitVec.ofNat 64 (readLittleEndian headerBytes 10 8) }
  else none

theorem readLittleEndian_append (before after : Bytes) (width value : Nat) :
    readLittleEndian (before ++ (leBytes width value ++ after)) before.length width =
      value % 256 ^ width := by
  rw [readLittleEndian, List.drop_left, List.take_left' (length_leBytes width value),
    leValue_leBytes]

theorem ofNat_toNat_mod (w width : Nat) (v : BitVec w) (hw : 256 ^ width = 2 ^ w) :
    BitVec.ofNat w (v.toNat % 256 ^ width) = v := by
  rw [hw]
  apply BitVec.eq_of_toNat_eq
  simp

theorem validateHeader_bytes (header : PacketHeader) :
    validateHeader header.bytes = some header := by
  have h₀ := readLittleEndian_append [] (header.bytes.drop 4) 4 header.byteLength.toNat
  have h₁ := readLittleEndian_append (leBytes 4 header.byteLength.toNat) (header.bytes.drop 6) 2
    header.packetAction.word.toNat
  have h₂ := readLittleEndian_append
    (leBytes 4 header.byteLength.toNat ++ leBytes 2 header.packetAction.word.toNat)
    (header.bytes.drop 8) 2 header.packetEncodingType.word.toNat
  have h₃ := readLittleEndian_append
    (leBytes 4 header.byteLength.toNat ++ (leBytes 2 header.packetAction.word.toNat ++
      leBytes 2 header.packetEncodingType.word.toNat))
    (header.bytes.drop 10) 2 header.packetEncryptionType.word.toNat
  have h₄ := readLittleEndian_append
    (leBytes 4 header.byteLength.toNat ++ (leBytes 2 header.packetAction.word.toNat ++
      (leBytes 2 header.packetEncodingType.word.toNat ++
        leBytes 2 header.packetEncryptionType.word.toNat))) [] 8 header.sentAt.toNat
  simp only [bytes, List.nil_append, List.length_nil, List.length_append, length_leBytes,
    List.append_assoc, List.drop_append, List.drop_of_length_le, List.append_nil,
    Nat.reduceAdd, Nat.reduceSub, Nat.reduceLeDiff, List.drop_zero, Nat.sub_self,
    Nat.le_refl] at h₀ h₁ h₂ h₃ h₄
  simp only [validateHeader, length_bytes, if_true]
  simp only [bytes, h₀, h₁, h₂, h₃, h₄]
  simp only [ofNat_toNat_mod 32 4 _ (by norm_num),
    ofNat_toNat_mod 16 2 _ (by norm_num),
    ofNat_toNat_mod 64 8 _ (by norm_num)]

/-! ## Both ways -/

theorem leBytes_readLittleEndian {buffer : Bytes} {offset width w : Nat}
    (hw : 256 ^ width = 2 ^ w) (hroom : offset + width ≤ buffer.length) :
    leBytes width (BitVec.ofNat w (readLittleEndian buffer offset width)).toNat =
      (buffer.drop offset).take width := by
  have hlength : ((buffer.drop offset).take width).length = width := by
    rw [List.length_take, List.length_drop]
    omega
  have hlt := leValue_lt ((buffer.drop offset).take width)
  have hback := leBytes_leValue ((buffer.drop offset).take width)
  rw [hlength] at hlt hback
  rw [BitVec.toNat_ofNat, ← hw, readLittleEndian, Nat.mod_eq_of_lt hlt, hback]

theorem bytes_of_validateHeader {headerBytes : Bytes} {header : PacketHeader}
    (h : validateHeader headerBytes = some header) : header.bytes = headerBytes := by
  unfold validateHeader at h
  split_ifs at h with hsize
  have hlength : headerBytes.length = 18 := hsize
  obtain rfl := Option.some.inj h
  unfold bytes
  rw [leBytes_readLittleEndian (by norm_num) (by omega),
    leBytes_readLittleEndian (by norm_num) (by omega),
    leBytes_readLittleEndian (by norm_num) (by omega),
    leBytes_readLittleEndian (by norm_num) (by omega),
    leBytes_readLittleEndian (by norm_num) (by omega)]
  -- five adjacent slices
  have hcut : ∀ m n, (headerBytes.drop m).take n ++ headerBytes.drop (m + n) =
      headerBytes.drop m := by
    intro m n
    rw [← List.drop_drop, List.take_append_drop]
  calc (headerBytes.drop 0).take 4 ++ ((headerBytes.drop 4).take 2 ++
        ((headerBytes.drop 6).take 2 ++ ((headerBytes.drop 8).take 2 ++
          (headerBytes.drop 10).take 8)))
      = (headerBytes.drop 0).take 4 ++ ((headerBytes.drop 4).take 2 ++
        ((headerBytes.drop 6).take 2 ++ ((headerBytes.drop 8).take 2 ++
          headerBytes.drop 10))) := by
        have hrest : (headerBytes.drop 10).length ≤ 8 := by
          rw [List.length_drop]
          omega
        rw [List.take_of_length_le hrest]
    _ = headerBytes := by
        rw [hcut 8 2, hcut 6 2, hcut 4 2, hcut 0 4, List.drop_zero]

/-- A header survives being written into a buffer, which is left alone behind it, and
every array of 18 bytes survives being read as a header. -/
theorem writeTo_validateHeader (header : PacketHeader) (buffer : Bytes)
    (hroom : headerSize ≤ buffer.length) :
    (∃ written, header.writeTo buffer = .ok written ∧ written.length = buffer.length ∧
      written.drop headerSize = buffer.drop headerSize ∧
      validateHeader (written.take headerSize) = some header) ∧
    ∀ headerBytes : Bytes, headerBytes.length = headerSize →
      ∃ read, validateHeader headerBytes = some read ∧
        read.writeTo buffer = .ok (headerBytes ++ buffer.drop headerSize) := by
  constructor
  · refine ⟨_, writeTo_eq header buffer hroom, ?_, ?_, ?_⟩
    · rw [List.length_append, length_bytes, List.length_drop]
      omega
    · rw [List.drop_left' (length_bytes header)]
    · rw [List.take_left' (length_bytes header), validateHeader_bytes]
  · intro headerBytes hsize
    have hvalid : validateHeader headerBytes ≠ none := by
      simp [validateHeader, hsize]
    obtain ⟨read, hread⟩ := Option.ne_none_iff_exists'.1 hvalid
    refine ⟨read, hread, ?_⟩
    rw [writeTo_eq read buffer hroom, bytes_of_validateHeader hread]

/-- The marker for null data, written over a buffer that is not empty. -/
theorem writeTo_validateHeader_null :
    ∃ written,
      (create (BitVec.ofInt 32 (-1)) .ready .none 0).writeTo (List.replicate 20 7) = .ok written ∧
        written.length = (List.replicate 20 (7 : UInt8)).length ∧
        written.drop headerSize = [7, 7] ∧
        validateHeader (written.take headerSize) =
          some (create (BitVec.ofInt 32 (-1)) .ready .none 0) :=
  (writeTo_validateHeader (create (BitVec.ofInt 32 (-1)) .ready .none 0) (List.replicate 20 7)
    (by decide)).1

end PacketHeader

end NETConnect
