import NETConnect.Packet.PacketHelper
/-!
# What a receive loop makes of a packet

Both receive loops look at two fields: the encryption type in the header decides
whether a packet is opened at all, and the one in the envelope decides with which key.
-/

namespace NETConnect

variable (P : Platform)

/-- The data that `OnDataReceived` is raised with for a packet, if it is raised. -/
def autoDecrypt (keys : SecurityKey) (f : Frame) : Except Exn (Option Bytes) :=
  if f.header.packetAction = .empty then .ok none
  else if f.header.packetEncryptionType ≠ .none then
    match P.packetEncrypted.isValidJSONBytes f.packet with
    | none => .ok none
    -- the text `null` is valid, and its result is used
    | some none => .error .nullReference
    | some (some encrypted) => PacketEncrypted.tryDecryptWith P encrypted keys
  else .ok (some f.packet)

/-! ## Under which key -/

/-- The body of a frame is an envelope that decrypts to `data` under the session key. -/
def OpensTo (key : Option Bytes) (f : Frame) (data : Bytes) : Prop :=
  ∃ e : PacketEncrypted, P.packetEncrypted.isValidJSONBytes f.packet = some (some e) ∧
    PacketEncrypted.decryptChaCha P e.encryptedData key e.nonce e.tag = some data

/-- Whatever a frame hands to the application was sealed with the session key. -/
def HoldersOnly (keys : SecurityKey) (f : Frame) : Prop :=
  ∀ data, autoDecrypt P keys f = .ok (some data) → OpensTo P keys.chaChaKey f data

/-- One's own RSA keys, if there are any, were made by `CreateExport`. -/
def OwnKeys (keys : SecurityKey) : Prop :=
  ∀ localKeys, keys.localRSAKeys = some localKeys → P.Created localKeys

variable {P}

/-- For an RSA envelope the loops look up the public key, which opens nothing. -/
theorem tryDecryptWith_rsa (rsa : P.PublicKeyOpensNothing) {e : PacketEncrypted}
    {keys : SecurityKey} (hown : OwnKeys P keys) (hrsa : e.encryptionType = .rsa) (data : Bytes) :
    PacketEncrypted.tryDecryptWith P e keys ≠ .ok (some data) := by
  intro h
  rw [PacketEncrypted.tryDecryptWith] at h
  obtain ⟨key, hkey, h⟩ := Exn.bind_eq_ok.1 h
  replace h : PacketEncrypted.tryDecrypt P e key = some data := Except.ok.inj h
  rw [PacketEncrypted.tryDecrypt, PacketEncrypted.decrypt] at h
  rw [SecurityKey.getSecurityKey, if_pos hrsa, if_neg (by decide)] at hkey
  cases hlocal : keys.localRSAKeys with
  | none => simp [hlocal] at hkey
  | some localKeys =>
      obtain rfl : some localKeys.publicKey = key := by simpa [hlocal] using hkey
      have hnothing : PacketEncrypted.decryptRSA P e.encryptedData (some localKeys.publicKey) =
          [] := by
        cases hdata : e.encryptedData with
        | none => rfl
        | some d => simp [PacketEncrypted.decryptRSA, rsa (hown localKeys hlocal)]
      simp [hrsa, hnothing] at h

theorem tryDecryptWith_eq_ok (rsa : P.PublicKeyOpensNothing) {e : PacketEncrypted} {keys : SecurityKey}
    {data : Bytes} (hown : OwnKeys P keys)
    (h : PacketEncrypted.tryDecryptWith P e keys = .ok (some data)) :
    PacketEncrypted.decryptChaCha P e.encryptedData keys.chaChaKey e.nonce e.tag = some data := by
  have hrsa : e.encryptionType ≠ .rsa := fun hrsa => tryDecryptWith_rsa rsa hown hrsa data h
  rw [PacketEncrypted.tryDecryptWith] at h
  obtain ⟨key, hkey, h⟩ := Exn.bind_eq_ok.1 h
  replace h : PacketEncrypted.tryDecrypt P e key = some data := Except.ok.inj h
  rw [PacketEncrypted.tryDecrypt, PacketEncrypted.decrypt, if_neg hrsa] at h
  rw [SecurityKey.getSecurityKey, if_neg hrsa] at hkey
  by_cases hchacha : e.encryptionType = .chaCha20Poly1305
  · rw [if_pos hchacha] at h hkey
    obtain rfl : keys.chaChaKey = key := Except.ok.inj hkey
    split at h
    · simp at h
    · rename_i decrypted hdecrypted
      split_ifs at h
      obtain rfl := Option.some.inj h
      exact hdecrypted
  · simp [hchacha] at h

/-- The length of what is opened is the length of what was in the envelope, so a text
never opens to itself. -/
theorem not_opensTo_packet (laws : P.ChaChaLaws) (hlonger : P.EnvelopeLonger)
    (key : Option Bytes) (f : Frame) : ¬ OpensTo P key f f.packet := by
  rintro ⟨e, hjson, hdecrypt⟩
  simp only [PacketEncrypted.decryptChaCha, bind, Option.bind_eq_some_iff] at hdecrypt
  obtain ⟨key, -, nonce, -, tag, -, data, hdata, hplain⟩ := hdecrypt
  have hlength := laws.length_decrypt hplain
  rw [JsonSerializer.isValidJSONBytes, JsonSerializer.isValidJSON] at hjson
  split_ifs at hjson
  have htext := hlonger hjson hdata
  have hbytes := length_getString_le f.packet
  omega

theorem holdersOnly_iff (rsa : P.PublicKeyOpensNothing) (chaCha : P.ChaChaLaws)
    (hlonger : P.EnvelopeLonger) {keys : SecurityKey} (hown : OwnKeys P keys) (f : Frame) :
    HoldersOnly P keys f ↔
      f.header.packetAction = .empty ∨ f.header.packetEncryptionType ≠ .none := by
  constructor
  · intro h
    by_contra hclear
    obtain ⟨hempty, hnone⟩ := not_or.1 hclear
    have hraised : autoDecrypt P keys f = .ok (some f.packet) := by
      rw [autoDecrypt, if_neg hempty, if_neg hnone]
    exact not_opensTo_packet chaCha hlonger keys.chaChaKey f (h f.packet hraised)
  · rintro hlabelled data hraised
    rw [autoDecrypt] at hraised
    by_cases hempty : f.header.packetAction = .empty
    · simp [hempty] at hraised
    · rw [if_neg hempty, if_pos (hlabelled.resolve_left hempty)] at hraised
      split at hraised
      · simp at hraised
      · simp at hraised
      · rename_i e hjson
        exact ⟨e, hjson, tryDecryptWith_eq_ok rsa hown hraised⟩

/-- With RSA keys of one's own at hand, what throws is the text `null` for an envelope. -/
theorem autoDecrypt_error_iff {keys : SecurityKey} (hlocal : keys.localRSAKeys ≠ none)
    (f : Frame) :
    (∃ e, autoDecrypt P keys f = .error e) ↔
      f.header.packetAction ≠ .empty ∧ f.header.packetEncryptionType ≠ .none ∧
        P.packetEncrypted.isValidJSONBytes f.packet = some none := by
  obtain ⟨localKeys, hlocal⟩ := Option.ne_none_iff_exists'.1 hlocal
  have hopens : ∀ encrypted, ∃ result,
      PacketEncrypted.tryDecryptWith P encrypted keys = .ok result := by
    intro encrypted
    simp only [PacketEncrypted.tryDecryptWith, SecurityKey.getSecurityKey, hlocal]
    split_ifs <;> exact ⟨_, rfl⟩
  rw [autoDecrypt]
  by_cases hempty : f.header.packetAction = .empty
  · simp [hempty]
  rw [if_neg hempty]
  by_cases htype : f.header.packetEncryptionType = .none
  · simp [htype]
  rw [if_pos htype]
  rcases hread : P.packetEncrypted.isValidJSONBytes f.packet with _ | _ | encrypted
  · simp
  · simp [hempty, htype]
  · obtain ⟨result, hresult⟩ := hopens encrypted
    simp [hresult]

/-! ## The two ends of a session -/

theorem autoDecrypt_eq_of_labelled {keys : SecurityKey} {f : Frame} {e : PacketEncrypted}
    (hjson : P.packetEncrypted.RoundTrips) (haction : f.header.packetAction ≠ .empty)
    (htype : f.header.packetEncryptionType ≠ .none)
    (hpacket : f.packet = PacketEncrypted.getAsUTF8 P e) :
    autoDecrypt P keys f = PacketEncrypted.tryDecryptWith P e keys := by
  rw [autoDecrypt, if_neg haction, if_pos htype, hpacket, PacketEncrypted.getAsUTF8,
    hjson.isValidJSONBytes_toJSON]

theorem autoDecrypt_of_isSealed (laws : P.ChaChaLaws) (hjson : P.packetEncrypted.RoundTrips)
    {io : Ambient} {keys : SecurityKey} {key data : Bytes} {f : Frame}
    (hkey : keys.chaChaKey = some key) (hdata : data ≠ [])
    (haction : f.header.packetAction ≠ .empty)
    (hsealed : PacketHelper.IsSealed P io key .chaCha20Poly1305 data f) :
    autoDecrypt P keys f = .ok (some data) := by
  obtain ⟨htype, e, hpacket, hetype, ⟨hrsa, -⟩ | ⟨-, hnonce, cipher, tag, hcipher, hed, htag⟩⟩ :=
    hsealed
  · exact absurd hrsa (by decide)
  have hplain : PacketEncrypted.decryptChaCha P e.encryptedData (some key) e.nonce e.tag =
      some data := by
    rw [hed, hnonce, htag]
    exact laws.decrypt_encrypt hcipher
  have hlength : ¬ data.length = 0 := fun h => hdata (List.length_eq_zero_iff.1 h)
  have hnrsa : PacketEncryptionType.chaCha20Poly1305 ≠ .rsa := by decide
  rw [autoDecrypt_eq_of_labelled hjson haction (by rw [htype]; decide) hpacket]
  have hopened : PacketEncrypted.tryDecrypt P e (some key) = some data := by
    rw [PacketEncrypted.tryDecrypt, PacketEncrypted.decrypt, hetype, if_neg hnrsa, if_pos rfl,
      hplain]
    simp [hlength]
  simp only [PacketEncrypted.tryDecryptWith, SecurityKey.getSecurityKey, hetype, if_neg hnrsa,
    if_true, hkey]
  exact congrArg Except.ok hopened

/-! ## Packets for the holder of an RSA key -/

/-- The sender knows the public key of the receiver. -/
structure Addresses (P : Platform) (sender : PacketHelper) (receiver : SecurityKey)
    (keys : RSAExport) : Prop where
  created : P.Created keys
  localKeys : receiver.localRSAKeys = some keys
  remoteKey : sender.encryptionKeys.remoteRSAPubKey = some keys.publicKey

/-- The receive loop raises `OnDataReceived` for the packet, with the data that was sent. -/
def ReadByAddressee (P : Platform) (sender : PacketHelper) (io : Ambient) (receiver : SecurityKey)
    (data : Bytes) (type : PacketActionType) : Prop :=
  ∃ f, (sender.sendPacket P io (some data) type true .rsa).frame = some f ∧
    autoDecrypt P receiver f = .ok (some data)

theorem sendPacket_rsa_sealed {sender : PacketHelper} {io : Ambient} {receiver : SecurityKey}
    {keys : RSAExport} {data : Bytes} {type : PacketActionType} {f : Frame}
    (h : Addresses P sender receiver keys) (hkey : keys.publicKey ≠ [])
    (hframe : (sender.sendPacket P io (some data) type true .rsa).frame = some f) :
    PacketHelper.IsSealed P io keys.publicKey .rsa data f := by
  have hrsa : PacketEncryptionType.rsa ≠ .none := by decide
  have hselected : PacketHelper.selectedType sender.settings true .rsa ≠ .none := hrsa
  rcases eq_or_ne data [] with rfl | hdata
  · rw [PacketHelper.sendPacket_empty P sender io type hselected] at hframe
    simp [Sent.nothing] at hframe
  · have husable : PacketHelper.usableKey sender.encryptionKeys .rsa = some keys.publicKey := by
      rw [PacketHelper.usableKey, if_pos rfl, h.remoteKey, Option.filter_eq_some_iff]
      exact ⟨rfl, by simpa [List.length_pos_iff] using hkey⟩
    exact PacketHelper.sendPacket_isSealed P sender io hdata hselected husable hframe

theorem autoDecrypt_of_isSealed_rsa (rsa : P.PublicKeyOpensNothing)
    (hjson : P.packetEncrypted.RoundTrips) {io : Ambient} {keys : SecurityKey}
    (hown : OwnKeys P keys) {key data : Bytes} {f : Frame}
    (hsealed : PacketHelper.IsSealed P io key .rsa data f) (plain : Bytes) :
    autoDecrypt P keys f ≠ .ok (some plain) := by
  obtain ⟨hlabel, e, hpacket, htype, -⟩ := hsealed
  by_cases haction : f.header.packetAction = .empty
  · rw [autoDecrypt, if_pos haction]
    simp
  · rw [autoDecrypt_eq_of_labelled hjson haction (by rw [hlabel]; decide) hpacket]
    exact tryDecryptWith_rsa rsa hown htype plain

theorem Addresses.ownKeys {sender : PacketHelper} {receiver : SecurityKey} {keys : RSAExport}
    (h : Addresses P sender receiver keys) : OwnKeys P receiver := by
  intro localKeys hlocal
  rw [h.localKeys] at hlocal
  rw [← Option.some.inj hlocal]
  exact h.created

/-- No packet that is encrypted for the receiver is read by it: the loop looks for the
public key, and the private one would be needed. -/
theorem not_readByAddressee (P : Platform) (hpublic : P.PublicKeyOpensNothing)
    (hempty : P.EmptyKeyEncryptsNothing) (hjson : P.packetEncrypted.RoundTrips)
    (sender : PacketHelper) (io : Ambient) (receiver : SecurityKey) (keys : RSAExport)
    (h : Addresses P sender receiver keys) (data : Bytes) (type : PacketActionType)
    (hshort : P.rsaEncrypt keys.publicKey data io.seed ≠ none) :
    ¬ ReadByAddressee P sender io receiver data type := by
  rintro ⟨f, hframe, hraised⟩
  have hkey : keys.publicKey ≠ [] := by
    intro hnil
    rw [hnil] at hshort
    exact hshort (hempty data io.seed)
  have hsealed := sendPacket_rsa_sealed h hkey hframe
  exact autoDecrypt_of_isSealed_rsa hpublic hjson h.ownKeys hsealed data hraised

def someKeys : RSAExport := ⟨1 :: Lib.leBytes 4 2048, 0 :: Lib.leBytes 4 2048⟩

theorem addresses_someKeys : Addresses Reference.reference
    ⟨some {}, { remoteRSAPubKey := some someKeys.publicKey }⟩ { localRSAKeys := some someKeys }
    someKeys :=
  ⟨⟨2048, [], by decide⟩, rfl, rfl⟩

theorem not_readByAddressee_someKeys : ¬ ReadByAddressee Reference.reference
    ⟨some {}, { remoteRSAPubKey := some someKeys.publicKey }⟩ PacketHelper.quiet
    { localRSAKeys := some someKeys } [104, 105] .data :=
  not_readByAddressee Reference.reference Reference.reference_publicKeyOpensNothing
    (fun _ _ => rfl) Reference.packetEncrypted_roundTrips _ PacketHelper.quiet _ someKeys
    addresses_someKeys [104, 105] .data (by decide)

/-- The packet is written, and the loop throws it away. -/
theorem not_always_readByAddressee :
    ¬ ∀ (P : Platform) (sender : PacketHelper) (io : Ambient) (receiver : SecurityKey)
        (keys : RSAExport) (data : Bytes) (type : PacketActionType), P.RSALaws →
        P.PublicKeyOpensNothing → P.EmptyKeyEncryptsNothing → P.packetEncrypted.RoundTrips →
        Addresses P sender receiver keys → P.rsaEncrypt keys.publicKey data io.seed ≠ none →
        data ≠ [] → type ≠ .empty → io.alive = true →
          ReadByAddressee P sender io receiver data type := by
  intro halways
  obtain ⟨f, hframe, hraised⟩ := halways Reference.reference _ PacketHelper.quiet _ someKeys
    [104, 105] .data Reference.reference_rsaLaws Reference.reference_publicKeyOpensNothing
    (fun _ _ => rfl) Reference.packetEncrypted_roundTrips addresses_someKeys (by decide)
    (by decide) (by decide) rfl
  have hsealed := sendPacket_rsa_sealed addresses_someKeys (by decide) hframe
  exact autoDecrypt_of_isSealed_rsa Reference.reference_publicKeyOpensNothing
    Reference.packetEncrypted_roundTrips addresses_someKeys.ownKeys hsealed _ hraised

end NETConnect
