import NETConnect.Platform
/-!
# Keys and envelopes

`SecurityKey`, the RSA and ChaCha extensions, and `PacketEncrypted`: an envelope
names the cipher it was made with, and the key is chosen by that name.  The
extensions swallow every exception; what they return instead differs: an empty
array for RSA, null for ChaCha.
-/

namespace NETConnect

/-- The keys that are read somewhere. -/
structure SecurityKey where
  localRSAKeys : Option RSAExport := none
  remoteRSAPubKey : Option Bytes := none
  chaChaKey : Option Bytes := none
  deriving DecidableEq, Repr

namespace SecurityKey

def getSecurityKey (keys : SecurityKey) (encryptionType : PacketEncryptionType)
    (isRemote isPrivate : Bool) : Except Exn (Option Bytes) :=
  if encryptionType = .rsa then
    if isRemote then .ok keys.remoteRSAPubKey
    else match keys.localRSAKeys with
      | none => .error .nullReference
      | some localKeys => .ok (some (if isPrivate then localKeys.privateKey else localKeys.publicKey))
  else if encryptionType = .chaCha20Poly1305 then .ok keys.chaChaKey
  else .ok (some [])

end SecurityKey

namespace PacketEncrypted

variable (P : Platform)

/-! ## The ciphers -/

/-- `EncryptRSA`. -/
def encryptRSA (data publicKey seed : Bytes) : Bytes :=
  (P.rsaEncrypt publicKey data seed).getD []

/-- `DecryptRSA`.  A null key is imported as an empty one. -/
def decryptRSA (data privateKey : Option Bytes) : Bytes :=
  (data.bind fun d => P.rsaDecrypt (privateKey.getD []) d).getD []

/-- `DecryptChaCha`; null for every failure. -/
def decryptChaCha (data key nonce tag : Option Bytes) : Option Bytes := do
  P.chaChaDecrypt (← key) (← nonce) (← tag) (← data)

/-! ## Opening an envelope -/

def decrypt (e : PacketEncrypted) (key : Option Bytes) : Option Bytes :=
  if e.encryptionType = .rsa then some (decryptRSA P e.encryptedData key)
  else if e.encryptionType = .chaCha20Poly1305 then
    decryptChaCha P e.encryptedData key e.nonce e.tag
  else some []

/-- `TryDecrypt(Key, out Decrypted)`: `none` is the result `false`. -/
def tryDecrypt (e : PacketEncrypted) (key : Option Bytes) : Option Bytes :=
  match decrypt P e key with
  | none => none
  | some decrypted => if decrypted.length = 0 then none else some decrypted

/-- `TryDecrypt(Packer, out Decrypted)`. -/
def tryDecryptWith (e : PacketEncrypted) (keys : SecurityKey) : Except Exn (Option Bytes) := do
  let key ← keys.getSecurityKey e.encryptionType false false
  return tryDecrypt P e key

/-- `TryDecryptInto(Key, out data)`: `none` is the result `false`. -/
def tryDecryptInto {T : Type} (J : JsonSerializer T (Option T)) (e : PacketEncrypted)
    (key : Option Bytes) : Except Exn (Option T) := do
  let text ← toUTF8String (decrypt P e key)
  return (J.isValidJSON text).join

/-! ## Making one -/

def getAsUTF8 (e : PacketEncrypted) : Bytes := toUTF8Byte (P.packetEncrypted.toJSON e)

/-- `EncryptUT8Bytes`: the text of an envelope, in bytes. -/
def encryptUT8Bytes (io : Ambient) (data : Bytes) (key : Option Bytes)
    (encryptionType : PacketEncryptionType) : Except Exn Bytes :=
  match key with
  | none => .ok []
  | some key =>
      if encryptionType = .rsa then
        let encryptedData := some (encryptRSA P data key io.seed)
        .ok (getAsUTF8 P { encryptedData, encryptionType })
      else if encryptionType = .chaCha20Poly1305 then
        match P.chaChaEncrypt key io.nonce data with
        -- `Keys` is still null when its nonce is read
        | none => .error .nullReference
        | some (encryptedData, tag) =>
            .ok (getAsUTF8 P
              { encryptedData := some encryptedData, nonce := some io.nonce.1, tag := some tag
                encryptionType })
      else .ok (getAsUTF8 P { encryptionType })

theorem encryptUT8Bytes_chaCha {io : Ambient} {data key cipher tag : Bytes}
    (h : P.chaChaEncrypt key io.nonce data = some (cipher, tag)) :
    encryptUT8Bytes P io data (some key) .chaCha20Poly1305 =
      .ok (getAsUTF8 P
        { encryptedData := some cipher, nonce := some io.nonce.1, tag := some tag
          encryptionType := .chaCha20Poly1305 }) := by
  have hne : PacketEncryptionType.chaCha20Poly1305 ≠ .rsa := by decide
  simp only [encryptUT8Bytes, if_neg hne, if_true, h]

end PacketEncrypted

end NETConnect
