import NETConnect.Handshake.Client
import NETConnect.Handshake.Server
/-!
# The messages of the handshake

What each side answers to which message, and how the session key travels: the client
seals it for the key that a SYNAck brought, and the server opens it with its own.
-/

namespace NETConnect

open Lib SocketExtensions

/-! ## The server's answers -/

namespace BaseTCPServer

/-- The packet of a SYNAck. -/
def publicKeyText (P : Platform) (localKeys : RSAExport) : Bytes :=
  toUTF8Byte (P.packetAuthentication.toJSON
    { encryptionType := .rsa, keyData := some localKeys.publicKey })

/-- What handling a packet does to the keys, and what it is answered with. -/
inductive Answers (P : Platform) (keys : SecurityKey) (f : Frame)
    (handled : Handled Milestone) : Prop
  | nothing (keys_eq : handled.keys = keys) (replies : handled.replies = [])
  | offers (localKeys : RSAExport) (own : keys.localRSAKeys = some localKeys)
      (keys_eq : handled.keys = keys)
      (replies : ∀ g ∈ handled.replies, g.header.packetAction = .synAck ∧
        g.packet = publicKeyText P localKeys)
  | stores (localKeys : RSAExport) (keyData : Option Bytes)
      (action : f.header.packetAction = .ack) (own : keys.localRSAKeys = some localKeys)
      (stored : ∀ settings io,
        milestone P localKeys ⟨settings, io, .packet f⟩ = some (.storedKey keyData))
      (keys_eq : handled.keys = { keys with chaChaKey := keyData })
      (replies : ∀ g ∈ handled.replies, g.header.packetAction = .ack)
  | readies (action : f.header.packetAction = .ready) (keys_eq : handled.keys = keys)
      (replies : ∀ g ∈ handled.replies, g.header.packetAction = .ready)

variable {P : Platform}

theorem handleAuthenticationPacket_answers (settings : Option PeerSettings) (io : Ambient)
    (keys : SecurityKey) (f : Frame) :
    Answers P keys f (handleAuthenticationPacket P settings io keys f) := by
  unfold handleAuthenticationPacket
  split_ifs with hsyn hack hready
  · -- SYN
    split
    · exact .nothing rfl rfl
    · split
      · exact .nothing rfl rfl
      · rename_i localKeys hlocal
        exact .offers localKeys hlocal rfl fun g hg =>
          ⟨PacketHelper.action_of_mem_sendUTF8Packet P hg,
            PacketHelper.packet_of_mem_sendUTF8Packet P hg⟩
  · -- ACK
    split
    · exact .nothing rfl rfl
    · exact .nothing rfl rfl
    · exact .nothing rfl rfl
    · rename_i encrypted localKeys hjson hlocal
      split
      · exact .nothing rfl rfl
      · exact .nothing rfl rfl
      · rename_i auth hdecrypt
        refine .stores localKeys auth.keyData hack hlocal (fun settings io => ?_) rfl
          fun g hg => PacketHelper.action_of_mem_sendUTF8Packet P hg
        simp only [milestone, if_neg hsyn, if_pos hack, hjson, Option.join_some,
          Option.bind_some, hdecrypt, Option.map_some]
  · exact .readies hready rfl fun g hg => PacketHelper.action_of_mem_sendUTF8Packet P hg
  · exact .nothing rfl rfl

end BaseTCPServer

/-! ## The client's answers -/

namespace BaseTCPClient

/-- The data of an ACK. -/
def sessionKeyText (P : Platform) (key : Option Bytes) : Bytes :=
  toUTF8Byte (P.packetAuthentication.toJSON
    { encryptionType := .chaCha20Poly1305, keyData := key })

/-- The client's ACK: the session key, sealed for a public key. -/
def SealsFor (P : Platform) (key : Option Bytes) (publicKey : Bytes) (f : Frame) : Prop :=
  f.header.packetAction = .ack ∧
    ∃ io, PacketHelper.IsSealed P io publicKey .rsa (sessionKeyText P key) f

/-- What handling a packet does to the session key, and what it is answered with. -/
inductive Answers (P : Platform) (keys : SecurityKey) (f : Frame)
    (handled : Handled Milestone) : Prop
  | nothing (key_eq : handled.keys.chaChaKey = keys.chaChaKey) (replies : handled.replies = [])
  | acknowledges (auth : PacketAuthentication) (action : f.header.packetAction = .synAck)
      (read : P.packetAuthentication.isValidJSONBytes f.packet = some (some auth))
      (key_eq : handled.keys.chaChaKey = keys.chaChaKey)
      (replies : ∀ g ∈ handled.replies, ∃ publicKey, auth.keyData = some publicKey ∧
        SealsFor P keys.chaChaKey publicKey g)
  | readies (action : f.header.packetAction = .ack)
      (key_eq : handled.keys.chaChaKey = keys.chaChaKey)
      (replies : ∀ g ∈ handled.replies, g.header.packetAction = .ready)

variable {P : Platform}

theorem sessionKeyText_ne_nil (hauth : P.packetAuthentication.RoundTrips) (key : Option Bytes) :
    sessionKeyText P key ≠ [] :=
  toUTF8Byte_ne_nil (hauth.toJSON_ne_empty _)

theorem usableKey_rsa {keys : SecurityKey} {publicKey : Bytes}
    (hkey : keys.remoteRSAPubKey = some publicKey) (hne : publicKey ≠ []) :
    PacketHelper.usableKey keys .rsa = some publicKey := by
  have hpos : 0 < publicKey.length := List.length_pos_of_ne_nil hne
  unfold PacketHelper.usableKey
  rw [if_pos rfl, hkey]
  simp [Option.filter, hpos]

/-- The session key is never sent in the clear: a public key that can be imported is not
empty. -/
theorem sealsFor_of_sendEncryptedPacket (hauth : P.packetAuthentication.RoundTrips)
    {helper : PacketHelper} {io : Ambient} {publicKey : Bytes} {key : Option Bytes} {sent : Sent}
    {g : Frame} (hkey : helper.encryptionKeys.remoteRSAPubKey = some publicKey)
    (hne : publicKey ≠ [])
    (hsent : helper.sendEncryptedPacket P io (some (sessionKeyText P key)) .rsa .ack false =
      .ok sent) (hframe : sent.frame = some g) : SealsFor P key publicKey g := by
  have hseals := PacketHelper.sendEncryptedPacket_sealsOrSendsClear P helper io
    (sessionKeyText_ne_nil hauth key) .rsa .ack
  unfold PacketHelper.SealsOrSendsClear at hseals
  rw [usableKey_rsa hkey hne] at hseals
  exact ⟨PacketHelper.sendEncryptedPacket_action P helper io hsent hframe, io,
    hseals sent g hsent hframe⟩

theorem handleAuthenticationPacket_answers (rsa : P.RSALaws)
    (hauth : P.packetAuthentication.RoundTrips) (settings : Option PeerSettings) (io : Ambient)
    (keys : SecurityKey) (f : Frame) :
    Answers P keys f (handleAuthenticationPacket P settings io keys f) := by
  unfold handleAuthenticationPacket
  split_ifs with hsynAck hack hready
  · -- SYNAck
    split
    · exact .nothing rfl rfl
    · exact .nothing rfl rfl
    · rename_i auth hread
      split
      · exact .nothing rfl rfl
      · rename_i remoteKeySize hsize
        split
        · exact .nothing rfl rfl
        · rename_i localKeys _
          obtain ⟨publicKey, hkey, hne⟩ : ∃ publicKey, auth.keyData = some publicKey ∧
              publicKey ≠ [] := by
            have hnonempty : auth.keyData.getD [] ≠ [] := by
              intro hnil
              rw [hnil, rsa.keySize_nil] at hsize
              simp at hsize
            cases hkey : auth.keyData with
            | none => simp [hkey] at hnonempty
            | some publicKey => exact ⟨publicKey, rfl, by simpa [hkey] using hnonempty⟩
          simp only
          split
          · exact .nothing rfl rfl
          · rename_i sent hsent
            refine .acknowledges auth hsynAck hread rfl fun g hg => ⟨publicKey, hkey, ?_⟩
            exact sealsFor_of_sendEncryptedPacket hauth hkey hne hsent (Option.mem_toList.1 hg)
  · -- ACK
    split
    · exact .nothing rfl rfl
    · exact .nothing rfl rfl
    · split
      · exact .nothing rfl rfl
      · exact .nothing rfl rfl
      · split_ifs
        · exact .readies hack rfl fun g hg => PacketHelper.action_of_mem_sendUTF8Packet P hg
        · exact .nothing rfl rfl
  · exact .nothing rfl rfl
  · exact .nothing rfl rfl

end BaseTCPClient

/-! ## The way of the session key -/

namespace BaseTCPServer

variable {P : Platform}

/-- If the server, with these keys of its own, takes a key from the packet, it is `key`. -/
def Carries (P : Platform) (localKeys : RSAExport) (key : Bytes) (f : Frame) : Prop :=
  ∀ settings io m, milestone P localKeys ⟨settings, io, .packet f⟩ = some m →
    m = .storedKey (some key)

theorem decryptRSA_encryptRSA (rsa : P.RSALaws) {localKeys : RSAExport}
    (hcreated : P.Created localKeys) (data seed : Bytes) :
    PacketEncrypted.decryptRSA P
        (some (PacketEncrypted.encryptRSA P data localKeys.publicKey seed))
        (some localKeys.privateKey) = data ∨
      PacketEncrypted.decryptRSA P
        (some (PacketEncrypted.encryptRSA P data localKeys.publicKey seed))
        (some localKeys.privateKey) = [] := by
  unfold PacketEncrypted.decryptRSA PacketEncrypted.encryptRSA
  cases hencrypt : P.rsaEncrypt localKeys.publicKey data seed with
  | none => exact Or.inr (by simp [rsa.decrypt_nil])
  | some cipher => exact Or.inl (by simp [rsa.decrypt_encrypt hcreated hencrypt])

theorem carries_of_sealsFor (rsa : P.RSALaws) (hauth : P.packetAuthentication.RoundTrips)
    (hjson : P.packetEncrypted.RoundTrips) {localKeys : RSAExport}
    (hcreated : P.Created localKeys) {key : Bytes} {f : Frame}
    (h : BaseTCPClient.SealsFor P (some key) localKeys.publicKey f) :
    Carries P localKeys key f := by
  obtain ⟨hack, io, -, e, hpacket, hetype, ⟨-, hdata⟩ | ⟨hchacha, -⟩⟩ := h
  swap
  · exact absurd hchacha (by decide)
  have hsyn : f.header.packetAction ≠ .syn := by rw [hack]; decide
  have hread : P.packetEncrypted.isValidJSONBytes f.packet = some (some e) := by
    rw [hpacket, PacketEncrypted.getAsUTF8, hjson.isValidJSONBytes_toJSON]
  intro settings io' m hm
  simp only [milestone, if_neg hsyn, if_pos hack, hread, Option.join_some, Option.bind_some,
    PacketEncrypted.tryDecryptInto, PacketEncrypted.decrypt, if_pos hetype, hdata] at hm
  rcases decryptRSA_encryptRSA rsa hcreated (BaseTCPClient.sessionKeyText P (some key)) io.seed
    with hplain | hnothing
  · -- it opens to the text that was sealed
    rw [hplain, BaseTCPClient.sessionKeyText, toUTF8String_toUTF8Byte] at hm
    simp only [bind, Except.bind, hauth.isValidJSON_toJSON, Option.join_some, pure, Except.pure,
      Option.map_some, Option.some.injEq] at hm
    exact hm.symm
  · -- it opens to the empty text, which is no JSON
    rw [hnothing] at hm
    have hblank : P.packetAuthentication.isValidJSON (getString []) = none := rfl
    simp [bind, Except.bind, toUTF8String, hblank, pure, Except.pure] at hm

end BaseTCPServer

end NETConnect
