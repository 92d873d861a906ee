import NETConnect.Packet.PacketHelper
/-!
# Encrypting and sending in one call

`TryEncryptSend` leaves it to `EncryptUT8Bytes` to notice that the data cannot be
encrypted.  That one notices a missing key only: a failure of RSA comes out of it as an
envelope around an empty array, and one of ChaCha as an exception.
-/

namespace NETConnect

namespace PacketEncrypted

variable (P : Platform) (helper : PacketHelper) (io : Ambient)

/-- `TryEncryptSend`: its result, and the frame if one was written. -/
def tryEncryptSend (unencryptedData : Option Bytes) (encryptionType : PacketEncryptionType)
    (actionType : PacketActionType) : Except Exn (Bool × Option Frame) := do
  let unencryptedData := unencryptedData.getD []
  let data : Option Bytes ←
    if encryptionType = .rsa then
      (encryptUT8Bytes P io unencryptedData helper.encryptionKeys.remoteRSAPubKey
        encryptionType).map some
    else if encryptionType = .chaCha20Poly1305 then
      (encryptUT8Bytes P io unencryptedData helper.encryptionKeys.chaChaKey encryptionType).map some
    else .ok none
  match data with
  | some data =>
      let sent ← helper.sendEncryptedPacket P io (some data) encryptionType actionType true
      return (decide (0 < sent.bytesSent), sent.frame)
  | none => return (false, none)

/-! ## What the result should say -/

/-- The key that is used for an encryption type, whatever it is worth. -/
def installedKey (keys : SecurityKey) (encryptionType : PacketEncryptionType) : Option Bytes :=
  if encryptionType = .rsa then keys.remoteRSAPubKey
  else if encryptionType = .chaCha20Poly1305 then keys.chaChaKey
  else none

/-- The cipher takes the data under this key. -/
def Takes (encryptionType : PacketEncryptionType) (key data : Bytes) : Prop :=
  encryptionType = .rsa ∧ P.rsaEncrypt key data io.seed ≠ none ∨
    encryptionType = .chaCha20Poly1305 ∧ P.chaChaEncrypt key io.nonce data ≠ none

/-- There is a key, and the cipher takes the data under it. -/
def CanEncrypt (keys : SecurityKey) (encryptionType : PacketEncryptionType) (data : Bytes) :
    Prop :=
  ∃ key, installedKey keys encryptionType = some key ∧ Takes P io encryptionType key data

/-- The envelope opens to the data under the key that fits the one it was made with. -/
def OpensForAddressee (encryptionType : PacketEncryptionType) (key : Bytes) (e : PacketEncrypted)
    (data : Bytes) : Prop :=
  encryptionType = .rsa ∧
      (∀ keys, P.Created keys → keys.publicKey = key →
        e.encryptedData.bind (P.rsaDecrypt keys.privateKey) = some data) ∨
    encryptionType = .chaCha20Poly1305 ∧
      decryptChaCha P e.encryptedData (some key) e.nonce e.tag = some data

/-- The result is `true` only if one frame with such an envelope was written, and where
the data cannot be encrypted nothing is written and the result is `false`. -/
structure TellsTruth (data : Bytes) (encryptionType : PacketEncryptionType)
    (actionType : PacketActionType) (r : Except Exn (Bool × Option Frame)) : Prop where
  sent : ∀ frame, r = .ok (true, frame) → ∃ f e key, frame = some f ∧
    f.header.packetAction = actionType ∧ f.header.packetEncryptionType = encryptionType ∧
    P.packetEncrypted.isValidJSONBytes f.packet = some (some e) ∧
    e.encryptionType = encryptionType ∧
    installedKey helper.encryptionKeys encryptionType = some key ∧
    OpensForAddressee P encryptionType key e data
  failed : ¬ CanEncrypt P io helper.encryptionKeys encryptionType data → r = .ok (false, none)

variable {P helper io} {data key : Bytes} {encryptionType : PacketEncryptionType}

theorem installedKey_type {keys : SecurityKey}
    (h : installedKey keys encryptionType = some key) :
    encryptionType = .rsa ∨ encryptionType = .chaCha20Poly1305 := by
  unfold installedKey at h
  split_ifs at h with hrsa hchacha
  · exact Or.inl hrsa
  · exact Or.inr hchacha

theorem tryEncryptSend_of_no_key {actionType : PacketActionType} {unencryptedData : Option Bytes}
    (h : installedKey helper.encryptionKeys encryptionType = none) :
    tryEncryptSend P helper io unencryptedData encryptionType actionType = .ok (false, none) := by
  have hnothing : ∀ type : PacketEncryptionType,
      helper.sendEncryptedPacket P io (some []) type actionType true = .ok .nothing :=
    fun _ => rfl
  unfold installedKey at h
  unfold tryEncryptSend
  by_cases hrsa : encryptionType = .rsa
  · rw [if_pos hrsa] at h ⊢
    rw [h, encryptUT8Bytes]
    simp [bind, Except.bind, Except.map, hnothing, Sent.nothing, pure, Except.pure]
  · rw [if_neg hrsa] at h ⊢
    by_cases hchacha : encryptionType = .chaCha20Poly1305
    · rw [if_pos hchacha] at h ⊢
      rw [h, encryptUT8Bytes]
      simp [bind, Except.bind, Except.map, hnothing, Sent.nothing, pure, Except.pure]
    · rw [if_neg hchacha]
      rfl

theorem tryEncryptSend_of_key {actionType : PacketActionType} {unencryptedData : Option Bytes}
    (h : installedKey helper.encryptionKeys encryptionType = some key) :
    tryEncryptSend P helper io unencryptedData encryptionType actionType = (do
      let data ← encryptUT8Bytes P io (unencryptedData.getD []) (some key) encryptionType
      let sent ← helper.sendEncryptedPacket P io (some data) encryptionType actionType true
      return (decide (0 < sent.bytesSent), sent.frame)) := by
  unfold installedKey at h
  unfold tryEncryptSend
  split_ifs at h with hrsa hchacha
  · rw [if_pos hrsa, h]
    cases encryptUT8Bytes P io (unencryptedData.getD []) (some key) encryptionType <;> rfl
  · rw [if_neg hrsa, if_pos hchacha, h]
    cases encryptUT8Bytes P io (unencryptedData.getD []) (some key) encryptionType <;> rfl

theorem sendEnvelope (hjson : P.packetEncrypted.RoundTrips) (e : PacketEncrypted)
    (actionType : PacketActionType) :
    (do
      let sent ← helper.sendEncryptedPacket P io (some (getAsUTF8 P e)) encryptionType actionType
        true
      return (decide (0 < sent.bytesSent), sent.frame) : Except Exn (Bool × Option Frame)) =
    if io.alive then
      .ok (true, some (PacketHelper.frameOf io (getAsUTF8 P e) actionType encryptionType))
    else .error .socket := by
  have hne : getAsUTF8 P e ≠ [] := toUTF8Byte_ne_nil (hjson.toJSON_ne_empty e)
  have hlength : ¬ (getAsUTF8 P e).length = 0 := fun h => hne (List.length_eq_zero_iff.1 h)
  simp only [PacketHelper.sendEncryptedPacket, if_neg hlength, if_true,
    PacketHelper.connectionSend]
  cases io.alive with
  | false => rfl
  | true =>
      have hpos : 0 < (Sent.whole (PacketHelper.frameOf io (getAsUTF8 P e) actionType
          encryptionType)).bytesSent := by
        simp only [Sent.whole, Frame.length_bytes, PacketHeader.headerSize]
        omega
      simp only [if_true, Except.map, bind, Except.bind, pure, Except.pure, hpos, decide_true]
      rfl

theorem encryptUT8Bytes_of_takes (rsa : P.RSALaws) (laws : P.ChaChaLaws)
    (h : Takes P io encryptionType key data) :
    ∃ e, encryptUT8Bytes P io data (some key) encryptionType = .ok (getAsUTF8 P e) ∧
      e.encryptionType = encryptionType ∧ OpensForAddressee P encryptionType key e data := by
  rcases h with ⟨rfl, htakes⟩ | ⟨rfl, htakes⟩
  · obtain ⟨cipher, hcipher⟩ := Option.ne_none_iff_exists'.1 htakes
    refine ⟨_, rfl, rfl, Or.inl ⟨rfl, ?_⟩⟩
    rintro keys hcreated rfl
    rw [Option.bind_some, encryptRSA, hcipher]
    exact rsa.decrypt_encrypt hcreated hcipher
  · obtain ⟨⟨cipher, tag⟩, hcipher⟩ := Option.ne_none_iff_exists'.1 htakes
    exact ⟨_, encryptUT8Bytes_chaCha P hcipher, rfl, Or.inr ⟨rfl, laws.decrypt_encrypt hcipher⟩⟩

/-- Where it does not, RSA leaves an empty array in an envelope, and ChaCha throws. -/
theorem encryptUT8Bytes_of_not_takes
    (htype : encryptionType = .rsa ∨ encryptionType = .chaCha20Poly1305)
    (h : ¬ Takes P io encryptionType key data) :
    (∃ e, encryptUT8Bytes P io data (some key) encryptionType = .ok (getAsUTF8 P e)) ∨
      encryptUT8Bytes P io data (some key) encryptionType = .error .nullReference := by
  rcases htype with rfl | rfl
  · exact Or.inl ⟨_, rfl⟩
  · right
    have hfails : P.chaChaEncrypt key io.nonce data = none := by
      by_contra hsome
      exact h (Or.inr ⟨rfl, hsome⟩)
    have hne : PacketEncryptionType.chaCha20Poly1305 ≠ .rsa := by decide
    simp only [encryptUT8Bytes, if_neg hne, if_true, hfails]

/-- `TryEncryptSend` tells the truth exactly if there is no key for the encryption type,
or one under which the cipher takes the data. -/
theorem tryEncryptSend_tellsTruth_iff (P : Platform) (rsa : P.RSALaws) (laws : P.ChaChaLaws)
    (hjson : P.packetEncrypted.RoundTrips) (helper : PacketHelper) (io : Ambient)
    (unencryptedData : Option Bytes) (encryptionType : PacketEncryptionType)
    (actionType : PacketActionType) :
    TellsTruth P helper io (unencryptedData.getD []) encryptionType actionType
        (tryEncryptSend P helper io unencryptedData encryptionType actionType) ↔
      installedKey helper.encryptionKeys encryptionType = none ∨
        CanEncrypt P io helper.encryptionKeys encryptionType (unencryptedData.getD []) := by
  cases hkey : installedKey helper.encryptionKeys encryptionType with
  | none =>
      rw [tryEncryptSend_of_no_key hkey]
      exact iff_of_true ⟨fun frame h => by simp at h, fun _ => rfl⟩ (Or.inl rfl)
  | some key =>
      rw [tryEncryptSend_of_key hkey]
      have hcan : CanEncrypt P io helper.encryptionKeys encryptionType (unencryptedData.getD []) ↔
          Takes P io encryptionType key (unencryptedData.getD []) := by
        rw [CanEncrypt, hkey]
        constructor
        · rintro ⟨key', heq, htakes⟩
          rwa [Option.some.inj heq]
        · exact fun htakes => ⟨key, rfl, htakes⟩
      rw [hcan]
      by_cases htakes : Takes P io encryptionType key (unencryptedData.getD [])
      · obtain ⟨e, hencrypt, htype, hopens⟩ := encryptUT8Bytes_of_takes rsa laws htakes
        refine iff_of_true ⟨fun frame h => ?_, fun h => ?_⟩ (Or.inr htakes)
        · rw [hencrypt] at h
          replace h := (sendEnvelope hjson e actionType).symm.trans h
          split_ifs at h
          obtain ⟨-, rfl⟩ := Prod.mk.inj (Except.ok.inj h)
          refine ⟨_, e, key, rfl, rfl, rfl, ?_, htype, hkey, hopens⟩
          exact hjson.isValidJSONBytes_toJSON e
        · exact absurd (hcan.2 htakes) h
      · refine iff_of_false (fun h => ?_) (by simp [htakes])
        have hfailed := h.failed (fun hable => htakes (hcan.1 hable))
        rcases encryptUT8Bytes_of_not_takes (installedKey_type hkey) htakes with
          ⟨e, hencrypt⟩ | hthrows
        · rw [hencrypt] at hfailed
          replace hfailed := (sendEnvelope hjson e actionType).symm.trans hfailed
          split_ifs at hfailed
          simp at hfailed
        · rw [hthrows] at hfailed
          simp [bind, Except.bind] at hfailed

theorem tryEncryptSend_tellsTruth_iff_chaCha :
    TellsTruth Reference.reference ⟨some {}, { chaChaKey := some (List.replicate 32 7) }⟩
      PacketHelper.quiet [104, 105] .chaCha20Poly1305 .data
      (tryEncryptSend Reference.reference ⟨some {}, { chaChaKey := some (List.replicate 32 7) }⟩
        PacketHelper.quiet (some [104, 105]) .chaCha20Poly1305 .data) :=
  (tryEncryptSend_tellsTruth_iff Reference.reference Reference.reference_rsaLaws
    Reference.reference_chaChaLaws Reference.packetEncrypted_roundTrips _ PacketHelper.quiet
    (some [104, 105]) .chaCha20Poly1305 .data).2
    (Or.inr ⟨_, rfl, Or.inr ⟨rfl, by decide⟩⟩)

/-- A ChaCha key of 16 bytes. -/
theorem not_tryEncryptSend_tellsTruth :
    ¬ ∀ (P : Platform) (helper : PacketHelper) (io : Ambient) (unencryptedData : Option Bytes)
        (encryptionType : PacketEncryptionType) (actionType : PacketActionType),
        P.RSALaws → P.ChaChaLaws → P.packetEncrypted.RoundTrips →
          TellsTruth P helper io (unencryptedData.getD []) encryptionType actionType
            (tryEncryptSend P helper io unencryptedData encryptionType actionType) := by
  intro halways
  have h := halways Reference.reference ⟨some {}, { chaChaKey := some (List.replicate 16 7) }⟩
    PacketHelper.quiet (some [104, 105]) .chaCha20Poly1305 .data Reference.reference_rsaLaws
    Reference.reference_chaChaLaws Reference.packetEncrypted_roundTrips
  have hcannot : ¬ CanEncrypt Reference.reference PacketHelper.quiet
      { chaChaKey := some (List.replicate 16 7) } .chaCha20Poly1305 [104, 105] := by
    rintro ⟨key, hkey, ⟨hrsa, -⟩ | ⟨-, htakes⟩⟩
    · exact absurd hrsa (by decide)
    · obtain rfl := Option.some.inj hkey
      exact htakes (by decide)
  have hthrows : tryEncryptSend Reference.reference
      ⟨some {}, { chaChaKey := some (List.replicate 16 7) }⟩ PacketHelper.quiet (some [104, 105])
      .chaCha20Poly1305 .data = .error .nullReference := by decide
  exact absurd (hthrows.symm.trans (h.failed hcannot)) (by simp)

end PacketEncrypted

end NETConnect
