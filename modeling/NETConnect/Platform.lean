import NETConnect.MyExtensions.EncodingExtensions
/-!
# What the runtime provides

The objects that travel as JSON, and the part of .NET the program is built on:
the serialisers, RSA-OAEP, ChaCha20-Poly1305 and SHA-256.  A `Platform` is any
implementation of these; what a result needs of it is stated as one of the
structures of laws below.  Random values are arguments.
-/

namespace NETConnect

/-! ## Objects that travel as JSON -/

structure Guid where
  value : BitVec 128
  deriving DecidableEq, Repr

/-- `Guid.Empty`, which is also `new Guid()`. -/
def Guid.empty : Guid := ⟨0⟩

/-- An array-valued property may be null. -/
structure PacketAuthentication where
  encryptionType : PacketEncryptionType
  keyData : Option Bytes
  extraData : Option (List (Option Bytes)) := none
  deriving DecidableEq, Repr

structure PacketEncrypted where
  encryptedData : Option Bytes := none
  nonce : Option Bytes := none
  tag : Option Bytes := none
  encryptionType : PacketEncryptionType
  deriving DecidableEq, Repr

/-- A `DateTime` is its number of ticks, 100 nanoseconds each. -/
abbrev DateTime := Nat

def ticksPerSecond : Nat := 10 ^ 7

def DateTime.addSeconds (t : DateTime) (seconds : Nat) : DateTime :=
  (t + seconds * ticksPerSecond : Nat)

/-- `default(DateTime)` where a time was not set yet. -/
structure PingTracker where
  pingSentAt : DateTime := (0 : Nat)
  pingReceivedAt : DateTime := (0 : Nat)
  pongReceivedAt : DateTime := (0 : Nat)
  deriving DecidableEq, Repr

/-- `PongReceivedAt - PingSentAt`, in ticks. -/
def PingTracker.latency (p : PingTracker) : Int := (p.pongReceivedAt : Int) - (p.pingSentAt : Int)

/-- The part of a `PeerTable` that is serialised. -/
structure PeerInfo where
  peerId : Guid
  isLocal : Bool := false
  address : Option String
  port : BitVec 32
  deriving DecidableEq, Repr

/-! ## The ciphers -/

structure RSAExport where
  privateKey : Bytes
  publicKey : Bytes
  deriving DecidableEq, Repr

/-- `CryptUtils.GenerateRandomData(length)`. -/
abbrev RandomData (length : Nat) := { data : Bytes // data.length = length }

/-- What the surroundings contribute to one turn of a loop: the clock, the random
values, and whether the socket takes the bytes of a frame. -/
structure Ambient where
  sentAt : BitVec 64
  nonce : RandomData 12
  seed : Bytes
  /-- for the generation of keys -/
  entropy : Bytes
  alive : Bool
  deriving DecidableEq

/-- In every field `none` is an exception. -/
structure Platform where
  guid : JsonSerializer Guid Guid
  byteArray : JsonSerializer Bytes (Option Bytes)
  packetAuthentication : JsonSerializer PacketAuthentication (Option PacketAuthentication)
  packetEncrypted : JsonSerializer PacketEncrypted (Option PacketEncrypted)
  pingTracker : JsonSerializer PingTracker (Option PingTracker)
  peerTable : JsonSerializer PeerInfo (Option PeerInfo)
  peerTables : JsonSerializer (List PeerInfo) (Option (List (Option PeerInfo)))
  /-- `SHA.HashToString` -/
  hashToString : Bytes → String
  /-- `RSA.Create(keySize)` and its two exports -/
  rsaCreate : (keySize : Nat) → (entropy : Bytes) → Option RSAExport
  /-- `ImportSubjectPublicKeyInfo`, then `KeySize` -/
  rsaKeySize : (publicKey : Bytes) → Option Nat
  /-- `ImportSubjectPublicKeyInfo`, then `Encrypt` with OAEP-SHA256 -/
  rsaEncrypt : (publicKey data seed : Bytes) → Option Bytes
  /-- `ImportPkcs8PrivateKey`, then `Decrypt` with OAEP-SHA256 -/
  rsaDecrypt : (privateKey data : Bytes) → Option Bytes
  /-- the ciphertext and the tag -/
  chaChaEncrypt : (key nonce data : Bytes) → Option (Bytes × Bytes)
  chaChaDecrypt : (key nonce tag data : Bytes) → Option Bytes

namespace Platform

/-! ## Laws -/

variable (P : Platform)

/-- An export is one that `RSACrypt.CreateExport` made. -/
def Created (keys : RSAExport) : Prop := ∃ keySize entropy, P.rsaCreate keySize entropy = some keys

/-- A public key is not the encoding of a private one. -/
def PublicKeyOpensNothing : Prop :=
  ∀ {keys data}, P.Created keys → P.rsaDecrypt keys.publicKey data = none

/-- The empty array is imported as no public key. -/
def EmptyKeyEncryptsNothing : Prop := ∀ data seed, P.rsaEncrypt [] data seed = none

/-- The two keys of an export fit each other. -/
structure RSALaws : Prop where
  decrypt_encrypt : ∀ {keys data seed cipher}, P.Created keys →
    P.rsaEncrypt keys.publicKey data seed = some cipher →
      P.rsaDecrypt keys.privateKey cipher = some data
  /-- a ciphertext is as long as the modulus -/
  decrypt_nil : ∀ {key}, P.rsaDecrypt key [] = none
  keySize_nil : P.rsaKeySize [] = none

/-- The cipher takes exactly the keys of 32 bytes, keeps the length, and can be undone. -/
structure ChaChaLaws : Prop where
  encrypt_isSome : ∀ {key nonce data : Bytes}, nonce.length = 12 →
    ((P.chaChaEncrypt key nonce data).isSome ↔ key.length = 32)
  decrypt_encrypt : ∀ {key nonce data cipher tag}, P.chaChaEncrypt key nonce data =
    some (cipher, tag) → P.chaChaDecrypt key nonce tag cipher = some data
  length_decrypt : ∀ {key nonce tag data plain}, P.chaChaDecrypt key nonce tag data =
    some plain → plain.length = data.length

/-- What was not made with the key does not decrypt. -/
def ChaChaAuthentic : Prop :=
  ∀ {key nonce tag data plain}, P.chaChaDecrypt key nonce tag data = some plain →
    P.chaChaEncrypt key nonce plain = some (data, tag)

/-- The text of an envelope is longer than the bytes it carries in base64. -/
def EnvelopeLonger : Prop :=
  ∀ {s e d}, P.packetEncrypted.deserialize s = some (some e) → e.encryptedData = some d →
    d.length < s.length

end Platform

end NETConnect
