import NETConnect.KeyAgreement
import NETConnect.Lib.Progress
/-!
# The phases of an undisturbed handshake

What the two ends of the first connection wait for, and what they do with the message
when it is there, if their sockets work and the ciphers do what they are made for.
-/

namespace NETConnect

open Lib SocketExtensions

/-! ## Assumptions -/

/-- RSA as the program relies on it. -/
structure Platform.RSAWorks (P : Platform) : Prop where
  /-- keys of 8192 bits can be made -/
  create : ∀ entropy, ∃ keys, P.rsaCreate 8192 entropy = some keys
  keySize : ∀ {keySize entropy keys}, P.rsaCreate keySize entropy = some keys →
    P.rsaKeySize keys.publicKey = some keySize
  /-- OAEP with SHA-256 leaves room for 66 bytes fewer than the modulus has -/
  encrypt : ∀ {keySize entropy keys data} seed, P.rsaCreate keySize entropy = some keys →
    data.length + 66 ≤ keySize / 8 → ∃ cipher, P.rsaEncrypt keys.publicKey data seed = some cipher

/-- What a handshake that comes to its end takes. -/
structure Platform.Works (P : Platform) : Prop where
  rsa : P.RSALaws
  rsaWorks : P.RSAWorks
  chaCha : P.ChaChaLaws
  authentication : P.packetAuthentication.RoundTrips
  encrypted : P.packetEncrypted.RoundTrips
  /-- the text of a Guid is read as one -/
  guid : ∀ g, ∃ g', P.guid.isValidJSONBytes (toUTF8Byte (P.guid.toJSON g)) = some g'
  /-- the text of a session key goes into one RSA block -/
  short : ∀ key : RandomData 32, (BaseTCPClient.sessionKeyText P (some key.1)).length ≤ 958

/-- A frame that belongs to a handshake. -/
def Frame.IsHandshake (f : Frame) : Prop := f.header.packetAction.IsHandshake

/-- The data of an ACK, in either direction. -/
def sessionAuthentication (key : RandomData 32) : PacketAuthentication :=
  { encryptionType := .chaCha20Poly1305, keyData := some key.1 }

/-- With `opener` the envelope in the frame opens to the session key. -/
def Brings (P : Platform) (opener : Bytes) (key : RandomData 32) (f : Frame) : Prop :=
  ∃ e, P.packetEncrypted.isValidJSONBytes f.packet = some (some e) ∧
    PacketEncrypted.tryDecryptInto P P.packetAuthentication e (some opener) =
      .ok (some (sessionAuthentication key))

section Envelopes

variable {P : Platform} {io : Ambient} {key : RandomData 32}

theorem sessionText_ne_nil (works : P.Works) (key : RandomData 32) :
    toUTF8Byte (P.packetAuthentication.toJSON (sessionAuthentication key)) ≠ [] :=
  toUTF8Byte_ne_nil (works.authentication.toJSON_ne_empty _)

theorem brings_of_decrypt (works : P.Works) {opener : Bytes} {e : PacketEncrypted} {f : Frame}
    (hpacket : f.packet = PacketEncrypted.getAsUTF8 P e)
    (hopens : PacketEncrypted.decrypt P e (some opener) =
      some (toUTF8Byte (P.packetAuthentication.toJSON (sessionAuthentication key)))) :
    Brings P opener key f := by
  refine ⟨e, ?_, ?_⟩
  · rw [hpacket, PacketEncrypted.getAsUTF8, works.encrypted.isValidJSONBytes_toJSON]
  · rw [PacketEncrypted.tryDecryptInto, hopens, toUTF8String_toUTF8Byte]
    simp only [bind, Except.bind, works.authentication.isValidJSON_toJSON, Option.join_some, pure,
      Except.pure]

theorem encrypt_rsa (works : P.Works) {localKeys : RSAExport} {entropy : Bytes}
    (hcreate : P.rsaCreate 8192 entropy = some localKeys) (io : Ambient) (key : RandomData 32) :
    ∃ payload, PacketEncrypted.encryptUT8Bytes P io
        (toUTF8Byte (P.packetAuthentication.toJSON (sessionAuthentication key)))
        (some localKeys.publicKey) .rsa = .ok payload ∧
      ∀ f : Frame, f.packet = payload → Brings P localKeys.privateKey key f := by
  have hshort : (BaseTCPClient.sessionKeyText P (some key.1)).length + 66 ≤ 8192 / 8 :=
    Nat.add_le_add_right (works.short key) 66
  obtain ⟨cipher, hcipher⟩ := works.rsaWorks.encrypt io.seed hcreate hshort
  refine ⟨_, rfl, fun f hf => brings_of_decrypt works hf ?_⟩
  have hopens := works.rsa.decrypt_encrypt ⟨8192, entropy, hcreate⟩ hcipher
  simp only [PacketEncrypted.decrypt, if_true, PacketEncrypted.decryptRSA,
    PacketEncrypted.encryptRSA, Option.bind_some, Option.getD_some]
  rw [show P.rsaEncrypt localKeys.publicKey (toUTF8Byte (P.packetAuthentication.toJSON
    (sessionAuthentication key))) io.seed = some cipher from hcipher, Option.getD_some, hopens]
  rfl

theorem encrypt_chaCha (works : P.Works) (io : Ambient) (key : RandomData 32) :
    ∃ payload, PacketEncrypted.encryptUT8Bytes P io
        (toUTF8Byte (P.packetAuthentication.toJSON (sessionAuthentication key)))
        (some key.1) .chaCha20Poly1305 = .ok payload ∧
      ∀ f : Frame, f.packet = payload → Brings P key.1 key f := by
  have hsome : (P.chaChaEncrypt key.1 io.nonce (toUTF8Byte (P.packetAuthentication.toJSON
      (sessionAuthentication key)))).isSome := (works.chaCha.encrypt_isSome io.nonce.2).2 key.2
  obtain ⟨⟨cipher, tag⟩, hcipher⟩ := Option.isSome_iff_exists.1 hsome
  refine ⟨_, PacketEncrypted.encryptUT8Bytes_chaCha P hcipher,
    fun f hf => brings_of_decrypt works hf ?_⟩
  have hne : PacketEncryptionType.chaCha20Poly1305 ≠ .rsa := by decide
  simp only [PacketEncrypted.decrypt, if_neg hne, if_true, PacketEncrypted.decryptChaCha, bind,
    Option.bind_some, works.chaCha.decrypt_encrypt hcipher]

end Envelopes

/-! ## The server -/

namespace BaseTCPServer

/-- The keys of a connection, with the session key if it is stored. -/
def heldKeys (localKeys : RSAExport) (key : Option Bytes) : SecurityKey :=
  { localRSAKeys := some localKeys, chaChaKey := key }

variable {P : Platform} {s : Server} {localKeys : RSAExport} {key : Option Bytes} {f : Frame}
  {io : Ambient} {settings : Option PeerSettings}

/-- The server is in the handshake with the first client. -/
structure Serving (P : Platform) (s : Server) (localKeys : RSAExport) (key : Option Bytes) :
    Prop where
  thread : s.thread = .authenticating 0
  isAuthenticated : s.isAuthenticated = false
  accepted : 0 < s.accepted
  created : ∃ entropy, P.rsaCreate 8192 entropy = some localKeys
  keys : s.keys 0 = heldKeys localKeys key

/-- It has left it. -/
structure Served (s : Server) (key : Bytes) : Prop where
  isAuthenticated : s.isAuthenticated = true
  accepted : 0 < s.accepted
  thread : ∀ c, s.thread ≠ .authenticating c
  key : (s.keys 0).chaChaKey = some key

/-- How many steps it is away from reading SYN. -/
inductive Awaiting (P : Platform) (s : Server) : Nat → Prop
  | reading {localKeys : RSAExport} (serving : Serving P s localKeys none) : Awaiting P s 0
  | atHead {localKeys : RSAExport} (thread : s.thread = .head 0)
      (flags : s.isAuthenticating = false ∧ s.isAuthenticated = false)
      (accepted : 0 < s.accepted) (token : (s.conns 0).clientToken = false)
      (created : ∃ entropy, P.rsaCreate 8192 entropy = some localKeys)
      (keys : s.keys 0 = startKeys localKeys) : Awaiting P s 1
  | accepting (thread : s.thread = .accepting)
      (flags : s.isAuthenticating = false ∧ s.isAuthenticated = false)
      (accepted : s.accepted = 0) : Awaiting P s 2

/-! ### Its answers -/

theorem handle_syn (settings : Option PeerSettings) (key : Option Bytes)
    (halive : io.alive = true) (hsyn : f.header.packetAction = .syn)
    {peerId : Guid} (hread : P.guid.isValidJSONBytes f.packet = some peerId) :
    ∃ g, handleAuthenticationPacket P settings io (heldKeys localKeys key) f =
        ⟨heldKeys localKeys key, .ok (some (.validSYN peerId), some g)⟩ ∧
      g.header.packetAction = .synAck ∧ g.packet = publicKeyText P localKeys := by
  refine ⟨PacketHelper.frameOf io (publicKeyText P localKeys) .synAck .none, ?_, rfl, rfl⟩
  simp only [handleAuthenticationPacket, if_pos hsyn, hread, heldKeys,
    PacketHelper.sendUTF8Packet_clear, if_pos halive]
  rfl

theorem handle_ack (works : P.Works) (settings : Option PeerSettings) (key : Option Bytes)
    (halive : io.alive = true) (hack : f.header.packetAction = .ack) {k : RandomData 32}
    (hbrings : Brings P localKeys.privateKey k f) :
    ∃ g, handleAuthenticationPacket P settings io (heldKeys localKeys key) f =
        ⟨heldKeys localKeys (some k.1), .ok (some (.storedKey (some k.1)), some g)⟩ ∧
      g.header.packetAction = .ack ∧ Brings P k.1 k g := by
  obtain ⟨e, hread, hopens⟩ := hbrings
  obtain ⟨payload, hpayload, hback⟩ := encrypt_chaCha works io k
  have hne : f.header.packetAction ≠ .syn := by rw [hack]; decide
  have husable : PacketHelper.usableKey (heldKeys localKeys (some k.1)) .chaCha20Poly1305 =
      some k.1 := by
    have htype : PacketEncryptionType.chaCha20Poly1305 ≠ .rsa := by decide
    rw [PacketHelper.usableKey, if_neg htype, if_pos rfl, Option.filter_eq_some_iff]
    exact ⟨rfl, by simp [k.2]⟩
  have hselected : PacketHelper.selectedType settings true .chaCha20Poly1305 ≠ .none := by
    have hne : PacketEncryptionType.chaCha20Poly1305 ≠ .none := by decide
    simp only [PacketHelper.selectedType, if_true, if_pos hne]
    exact hne
  have hsent := PacketHelper.sendPacket_encrypted P ⟨settings, heldKeys localKeys (some k.1)⟩ io
    halive (sessionText_ne_nil works k) .ack hselected husable hpayload
  refine ⟨PacketHelper.frameOf io payload .ack .chaCha20Poly1305, ?_, rfl, hback _ rfl⟩
  simp only [handleAuthenticationPacket, if_neg hne, if_pos hack, hread, heldKeys, hopens]
  simp only [heldKeys] at hsent
  simp only [PacketHelper.sendUTF8Packet, sessionAuthentication] at hsent ⊢
  rw [hsent]
  rfl

theorem handle_ready (P : Platform) (settings : Option PeerSettings) (keys : SecurityKey)
    (halive : io.alive = true) (hready : f.header.packetAction = .ready) :
    ∃ g, handleAuthenticationPacket P settings io keys f =
        ⟨keys, .ok (some .ready, some g)⟩ ∧ g.header.packetAction = .ready := by
  refine ⟨PacketHelper.frameOf io (toUTF8Byte "<READY>") .ready .none, ?_, rfl⟩
  rw [handleAuthenticationPacket_ready P hready, PacketHelper.sendUTF8Packet_clear, if_pos halive]
  rfl

theorem handle_other (h : ¬ f.IsHandshake) (keys : SecurityKey) :
    handleAuthenticationPacket P settings io keys f = ⟨keys, .ok (none, none)⟩ := by
  have hsyn : f.header.packetAction ≠ .syn := fun hf => h (Or.inl hf)
  have hack : f.header.packetAction ≠ .ack := fun hf => h (Or.inr (Or.inr (Or.inl hf)))
  have hready : f.header.packetAction ≠ .ready := fun hf => h (Or.inr (Or.inr (Or.inr hf)))
  simp only [handleAuthenticationPacket, if_neg hsyn, if_neg hack, if_neg hready]

/-! ### Its steps -/

theorem Serving.turn (h : Serving P s localKeys key) (io : Ambient) (received : Received)
    {key' : Option Bytes} {m : Option Milestone} {reply : Option Frame}
    (hturn : Authentication.takeTurn (handleAuthenticationPacket P) (heldKeys localKeys key)
      ⟨s.self.settings, io, received⟩ = ⟨heldKeys localKeys key', .ok (m, reply)⟩) :
    let r := s.authenticate P 0 io received
    r.2.filterMap (Output.sentOn 0) = reply.toList ∧
      (m ≠ some .ready → Serving P r.1 localKeys key') ∧
      (m = some .ready → ∀ k, key' = some k → Served r.1 k) := by
  intro r
  obtain ⟨hkeys, hsent⟩ := s.authenticate_spec P 0 io received
  have hconn : (s.conns 0).keys = heldKeys localKeys key := h.keys
  rw [h.keys, hturn] at hkeys hsent
  have hkeys' : r.1.keys 0 = heldKeys localKeys key' := by rw [hkeys, Function.update_self]
  refine ⟨by rw [hsent, if_pos rfl]; rfl, fun hgoes => ?_, fun hends k hk => ?_⟩
  · have hr : r.1 = s.setConn 0 { s.conns 0 with keys := heldKeys localKeys key' } := by
      simp only [r, Server.authenticate, hconn, hturn, if_neg hgoes]
    exact ⟨by rw [hr]; exact h.thread, by rw [hr]; exact h.isAuthenticated,
      by rw [hr]; exact h.accepted, h.created, hkeys'⟩
  · have hr : r.1 = { s.setConn 0 { s.conns 0 with keys := heldKeys localKeys key' } with
        isAuthenticated := true, isAuthenticating := false, thread := .beating 0 } := by
      simp only [r, Server.authenticate, hconn, hturn, if_pos hends]
    exact ⟨by rw [hr], by rw [hr]; exact h.accepted, by rw [hr]; simp,
      by rw [hkeys']; exact hk⟩

theorem Server.keys_cancelClient (s : Server) (c : ConnId) :
    (s.setConn c { s.conns c with clientToken := true }).keys = s.keys :=
  Server.keys_setConn_self s c _ rfl

/-- In the handshake nothing else is read, and nothing else is sent. -/
theorem Serving.step (h : Serving P s localKeys key) {e : Event} {r : Server × List Output}
    (hstepped : Stepped P s e r) :
    (r.2 = [] ∧ e.received = none ∧ e.IsAccept = false ∧ e ≠ .gate ∧
        Serving P r.1 localKeys key) ∨
      ∃ io received, e = .handshake io received ∧ r = s.authenticate P 0 io received := by
  have hthread := h.thread
  cases hstepped with
  | accept hother => simp [hthread] at hother
  | gate hother => simp [hthread] at hother
  | @handshake io received c hother =>
      obtain rfl : c = 0 := by simpa [hthread, eq_comm] using hother
      exact Or.inr ⟨io, received, rfl, rfl⟩
  | beat hother => simp [hthread] at hother
  | receive hother => simp [hthread] at hother
  | cancelServer => exact Or.inl ⟨rfl, rfl, rfl, by simp, { h with }⟩
  | @cancelClient c =>
      exact Or.inl ⟨rfl, rfl, rfl, by simp,
        { h with keys := (congrFun (s.keys_cancelClient c) 0).trans h.keys }⟩
  | elsewhere => exact Or.inl ⟨rfl, rfl, rfl, by simp, { h with }⟩

/-- Up to it, every step that is taken by the thread itself brings it closer. -/
theorem Awaiting.step (works : P.Works) {left : Nat} (h : Awaiting P s (left + 1)) {e : Event}
    {r : Server × List Output} (hstepped : Stepped P s e r) (hkept : e ≠ .cancelClient 0) :
    r.2 = [] ∧ e.received = none ∧
      (Awaiting P r.1 (left + 1) ∧ e.IsAccept = false ∧ e ≠ .gate ∨ Awaiting P r.1 left) := by
  cases h with
  | @atHead localKeys thread flags accepted token created keys =>
      cases hstepped with
      | accept hother => simp [thread] at hother
      | @gate c hother =>
          obtain rfl : c = 0 := by simpa [thread, eq_comm] using hother
          have hr : s.passGate 0 =
              { s with isAuthenticating := true, thread := .authenticating 0 } := by
            simp [Server.passGate, token, flags]
          have hserving : Serving P (s.passGate 0) localKeys none := by
            rw [hr]
            exact ⟨rfl, flags.2, accepted, created, keys⟩
          exact ⟨rfl, rfl, Or.inr (.reading hserving)⟩
      | handshake hother => simp [thread] at hother
      | beat hother => simp [thread] at hother
      | receive hother => simp [thread] at hother
      | cancelServer =>
          exact ⟨rfl, rfl, Or.inl ⟨.atHead thread flags accepted token created keys, rfl, by simp⟩⟩
      | @cancelClient c =>
          have hc : (0 : ConnId) ≠ c := fun hc => hkept (by rw [hc])
          have htoken : ((s.setConn c { s.conns c with clientToken := true }).conns 0).clientToken =
              false := by
            simpa [Server.setConn, hc] using token
          have hkeys : (s.setConn c { s.conns c with clientToken := true }).keys 0 =
              startKeys localKeys :=
            (congrFun (s.keys_cancelClient c) 0).trans keys
          exact ⟨rfl, rfl,
            Or.inl ⟨.atHead thread flags accepted htoken created hkeys, rfl, by simp⟩⟩
      | elsewhere =>
          exact ⟨rfl, rfl, Or.inl ⟨.atHead thread flags accepted token created keys, rfl, by simp⟩⟩
  | accepting thread flags accepted =>
      cases hstepped with
      | @accept created entropy hother =>
          obtain ⟨localKeys, hcreate⟩ := works.rsaWorks.create entropy
          have hkeys : (s.acceptClient P created entropy).keys 0 = startKeys localKeys := by
            simp [Server.acceptClient, hcreate, Server.keys, Server.setConn, accepted]
          refine ⟨rfl, rfl, Or.inr (.atHead ?_ ?_ ?_ ?_ ⟨entropy, hcreate⟩ hkeys)⟩
          all_goals simp [Server.acceptClient, hcreate, Server.setConn, accepted, flags]
      | gate hother => simp [thread] at hother
      | handshake hother => simp [thread] at hother
      | beat hother => simp [thread] at hother
      | receive hother => simp [thread] at hother
      | cancelServer => exact ⟨rfl, rfl, Or.inl ⟨.accepting thread flags accepted, rfl, by simp⟩⟩
      | cancelClient => exact ⟨rfl, rfl, Or.inl ⟨.accepting thread flags accepted, rfl, by simp⟩⟩
      | elsewhere => exact ⟨rfl, rfl, Or.inl ⟨.accepting thread flags accepted, rfl, by simp⟩⟩

theorem Stepped.thread_ne_authenticating {e : Event} {r : Server × List Output}
    (hstepped : Stepped P s e r) (hflag : s.isAuthenticated = true)
    (hthread : ∀ c, s.thread ≠ .authenticating c) :
    r.1.isAuthenticated = true ∧ ∀ c, r.1.thread ≠ .authenticating c := by
  have hreturned : ∀ t : Server, ∀ c, t.returned ≠ .authenticating c := by
    intro t c
    unfold Server.returned
    split_ifs <;> simp
  have hafter : ∀ threw thread c, thread ≠ Thread.authenticating c →
      Server.after threw thread ≠ .authenticating c := by
    intro threw thread c hne
    cases threw with
    | none => exact hne
    | some e => simp [Server.after]
  cases hstepped with
  | accept h =>
      simp only [Server.acceptClient]
      split
      · exact ⟨hflag, by simp⟩
      · exact ⟨hflag, by simp⟩
  | gate h =>
      simp only [Server.passGate]
      split_ifs
      · exact ⟨hflag, hreturned s⟩
      · exact ⟨hflag, hthread⟩
      · exact ⟨hflag, by simp⟩
  | handshake h => exact absurd h (hthread _)
  | beat h =>
      simp only [Server.takeBeat, Server.afterBeat]
      split_ifs
      · exact ⟨hflag, fun c => hafter _ _ c (hreturned _ c)⟩
      · exact ⟨hflag, by simp⟩
  | receive h =>
      simp only [Server.takePacket]
      split
      · exact ⟨hflag, by simp⟩
      · split
        · exact ⟨hflag, by simp⟩
        · exact ⟨hflag, by simp⟩
        · exact ⟨hflag, fun c => hafter _ _ c (by simp)⟩
  | cancelServer => exact ⟨hflag, hthread⟩
  | cancelClient => exact ⟨hflag, hthread⟩
  | elsewhere => exact ⟨hflag, hthread⟩

/-- Later the server keeps the key, and sends nothing that belongs to a handshake. -/
theorem Served.step {k : Bytes} (h : Served s k) {e : Event} {r : Server × List Output}
    (hstepped : Stepped P s e r) :
    Served r.1 k ∧ ∀ f ∈ r.2.filterMap (Output.sentOn 0), ¬ f.IsHandshake := by
  have hne : ∀ io received, e ≠ .handshake io received := by
    rintro io received rfl
    cases hstepped with
    | handshake hother => exact h.thread _ hother
  obtain ⟨hflag, hthread⟩ := hstepped.thread_ne_authenticating h.isAuthenticated h.thread
  have haccepted := Session.accepted_of_stepped hstepped
  refine ⟨⟨hflag, by rw [haccepted]; exact Nat.lt_add_right _ h.accepted, hthread, ?_⟩,
    fun f hf => hstepped.sent_action hne (mem_filterMap_sentOn_iff.1 hf)⟩
  rcases hstepped.keys with hkeys | ⟨created, entropy, localKeys, -, -, -, hkeys⟩ |
    ⟨io, received, c, he, -⟩
  · rw [hkeys]
    exact h.key
  · -- another connection is accepted
    rw [hkeys, Function.update_of_ne (Nat.ne_of_lt h.accepted)]
    exact h.key
  · exact absurd he (hne io received)

end BaseTCPServer

/-! ## The client -/

namespace BaseTCPClient

variable {P : Platform} {s : Client} {key : RandomData 32} {f : Frame} {io : Ambient}
  {settings : Option PeerSettings} {keys : SecurityKey}

/-- The client has not begun. -/
structure Fresh (s : Client) : Prop where
  thread : s.thread = .head
  flags : s.isAuthenticating = false ∧ s.isAuthenticated = false
  token : s.token = false

/-- It is in the handshake. -/
structure Authenticating (s : Client) (key : RandomData 32) : Prop where
  thread : s.thread = .authenticating
  isAuthenticated : s.isAuthenticated = false
  key : s.keys.chaChaKey = some key.1

/-- It has left it. -/
structure Done (s : Client) (key : RandomData 32) : Prop where
  isAuthenticated : s.isAuthenticated = true
  thread : s.thread ≠ .authenticating
  key : s.keys.chaChaKey = some key.1

/-! ### Its answers -/

theorem handle_synAck (works : P.Works) (settings : Option PeerSettings) (halive : io.alive = true)
    (haction : f.header.packetAction = .synAck) {localKeys : RSAExport} {entropy : Bytes}
    (hcreate : P.rsaCreate 8192 entropy = some localKeys)
    (hpacket : f.packet = BaseTCPServer.publicKeyText P localKeys)
    (hkey : keys.chaChaKey = some key.1) :
    ∃ keys' g, handleAuthenticationPacket P settings io keys f = ⟨keys', .ok (none, some g)⟩ ∧
      keys'.chaChaKey = some key.1 ∧ g.header.packetAction = .ack ∧
      Brings P localKeys.privateKey key g := by
  obtain ⟨ownKeys, hown⟩ := works.rsaWorks.create io.entropy
  obtain ⟨payload, hpayload, hbrings⟩ := encrypt_rsa works hcreate io key
  have hsize := works.rsaWorks.keySize hcreate
  have hne : localKeys.publicKey ≠ [] := by
    intro hnil
    rw [hnil, works.rsa.keySize_nil] at hsize
    simp at hsize
  have husable : PacketHelper.usableKey { keys with
      remoteRSAPubKey := some localKeys.publicKey, localRSAKeys := some ownKeys } .rsa =
      some localKeys.publicKey := usableKey_rsa rfl hne
  have hsent := PacketHelper.sendEncryptedPacket_eq P ⟨settings, { keys with
    remoteRSAPubKey := some localKeys.publicKey, localRSAKeys := some ownKeys }⟩ io
    (sessionText_ne_nil works key) .rsa .ack
  rw [husable] at hsent
  simp only [hpayload, bind, Except.bind, PacketHelper.connectionSend, if_pos halive] at hsent
  refine ⟨{ keys with remoteRSAPubKey := some localKeys.publicKey, localRSAKeys := some ownKeys },
    PacketHelper.frameOf io payload .ack .rsa, ?_, hkey, rfl, hbrings _ rfl⟩
  simp only [handleAuthenticationPacket, if_pos haction, hpacket, BaseTCPServer.publicKeyText,
    works.authentication.isValidJSONBytes_toJSON, Option.getD_some, hsize, hown, hkey]
  simp only [sessionAuthentication, hkey] at hsent
  rw [hsent]
  rfl

theorem handle_ack (settings : Option PeerSettings) (halive : io.alive = true)
    (hack : f.header.packetAction = .ack) (hkey : keys.chaChaKey = some key.1)
    (hbrings : Brings P key.1 key f) :
    ∃ g, handleAuthenticationPacket P settings io keys f =
        ⟨keys, .ok (some (.acknowledged (some key.1) true), some g)⟩ ∧
      g.header.packetAction = .ready := by
  obtain ⟨e, hread, hopens⟩ := hbrings
  have hne : f.header.packetAction ≠ .synAck := by rw [hack]; decide
  refine ⟨PacketHelper.frameOf io (toUTF8Byte "<READY>") .ready .none, ?_, rfl⟩
  simp only [handleAuthenticationPacket, if_neg hne, if_pos hack, hread, hkey, hopens,
    sessionAuthentication, if_true, PacketHelper.sendUTF8Packet_clear, if_pos halive]
  rfl

theorem handle_other (h : ¬ f.IsHandshake) (keys : SecurityKey) :
    handleAuthenticationPacket P settings io keys f = ⟨keys, .ok (none, none)⟩ := by
  have hsynAck : f.header.packetAction ≠ .synAck := fun hf => h (Or.inr (Or.inl hf))
  have hack : f.header.packetAction ≠ .ack := fun hf => h (Or.inr (Or.inr (Or.inl hf)))
  have hready : f.header.packetAction ≠ .ready := fun hf => h (Or.inr (Or.inr (Or.inr hf)))
  simp only [handleAuthenticationPacket, if_neg hsynAck, if_neg hack, if_neg hready]

/-! ### Its steps -/

theorem Authenticating.turn (h : Authenticating s key) (io : Ambient) (received : Received)
    {m : Option Milestone} {reply : Option Frame}
    (hturn : Authentication.takeTurn (handleAuthenticationPacket P) s.keys
      ⟨s.settings, io, received⟩ = ⟨keys, .ok (m, reply)⟩)
    (hkey : keys.chaChaKey = some key.1) :
    let r := s.authenticate P io received
    r.2.filterMap Output.sentFrame = reply.toList ∧
      (m ≠ some .ready → Authenticating r.1 key) ∧ (m = some .ready → Done r.1 key) := by
  intro r
  obtain ⟨-, hsent, -, -⟩ := s.authenticate_spec P io received
  rw [hturn] at hsent
  refine ⟨by rw [hsent]; rfl, fun hgoes => ?_, fun hends => ?_⟩
  · have hr : r.1 = { s with keys } := by
      simp only [r, Client.authenticate, hturn, if_neg hgoes]
    rw [hr]
    exact ⟨h.thread, h.isAuthenticated, hkey⟩
  · have hr : r.1 = { s with
        keys, isAuthenticated := true, isAuthenticating := false, thread := .beating } := by
      simp only [r, Client.authenticate, hturn, if_pos hends]
    rw [hr]
    exact ⟨rfl, by simp, hkey⟩

theorem Fresh.step (works : P.Works) (h : Fresh s) {e : Event} {r : Client × List Output}
    (hstepped : Stepped P s e r) (hkept : e ≠ .cancel)
    (halive : ∀ io key, e = .gate io key → io.alive = true) :
    e.received = none ∧
      (r.2.filterMap Output.sentFrame = [] ∧ Fresh r.1 ∧ (∀ io key, e ≠ .gate io key) ∨
        ∃ key g, Authenticating r.1 key ∧ r.2.filterMap Output.sentFrame = [g] ∧
          g.header.packetAction = .syn ∧
          ∃ peerId, P.guid.isValidJSONBytes g.packet = some peerId) := by
  have hthread := h.thread
  cases hstepped with
  | @gate io key _ =>
      have hsent := PacketHelper.sendUTF8Packet_clear P
        ⟨s.settings, { s.keys with chaChaKey := some key.1 }⟩ io (P.guid.toJSON s.peerId) .syn .none
      rw [if_pos (halive io key rfl)] at hsent
      have hr : s.passGate P io key =
          ({ s with keys := { s.keys with chaChaKey := some key.1 }, isAuthenticating := true
                    thread := .authenticating },
            [.generated key, .sent (PacketHelper.frameOf io
              (toUTF8Byte (P.guid.toJSON s.peerId)) .syn .none)]) := by
        simp only [Client.passGate, h.token, h.flags, startAuthentication, hsent]
        rfl
      refine ⟨rfl, Or.inr ⟨key, PacketHelper.frameOf io (toUTF8Byte (P.guid.toJSON s.peerId)) .syn
        .none, ?_, ?_, rfl, works.guid s.peerId⟩⟩
      · rw [hr]
        exact ⟨rfl, h.flags.2, rfl⟩
      · rw [hr]
        rfl
  | handshake hother => simp [hthread] at hother
  | beat hother => simp [hthread] at hother
  | receive hother => simp [hthread] at hother
  | cancel => exact absurd rfl hkept
  | elsewhere => exact ⟨rfl, Or.inl ⟨rfl, ⟨h.thread, h.flags, h.token⟩, by simp⟩⟩

theorem Authenticating.step (h : Authenticating s key) {e : Event} {r : Client × List Output}
    (hstepped : Stepped P s e r) :
    (r.2 = [] ∧ e.received = none ∧ (∀ io key, e ≠ .gate io key) ∧ Authenticating r.1 key) ∨
      ∃ io received, e = .handshake io received ∧ r = s.authenticate P io received := by
  have hthread := h.thread
  cases hstepped with
  | gate hother => simp [hthread] at hother
  | handshake hother => exact Or.inr ⟨_, _, rfl, rfl⟩
  | beat hother => simp [hthread] at hother
  | receive hother => simp [hthread] at hother
  | cancel => exact Or.inl ⟨rfl, rfl, by simp, ⟨h.thread, h.isAuthenticated, h.key⟩⟩
  | elsewhere => exact Or.inl ⟨rfl, rfl, by simp, ⟨h.thread, h.isAuthenticated, h.key⟩⟩

theorem Done.step (h : Done s key) {e : Event} {r : Client × List Output}
    (hstepped : Stepped P s e r) :
    Done r.1 key ∧ ∀ f ∈ r.2.filterMap Output.sentFrame, ¬ f.IsHandshake := by
  cases moves_of_stepped hstepped with
  | begins _ _ before => simp [h.isAuthenticated] at before
  | turns _ _ _ before => exact absurd before h.thread
  | goesOn key_eq isAuthenticating isAuthenticated thread out sent =>
      exact ⟨⟨isAuthenticated.trans h.isAuthenticated, fun hback => h.thread (thread hback),
        (congrArg _ key_eq).trans h.key⟩, sent⟩

end BaseTCPClient

end NETConnect
