import NETConnect.Packet.SocketExtensions
import NETConnect.Reference
/-!
# Sending packets

`SendPacket` chooses a cipher from its arguments or the settings, and
`SendEncryptedPacket` looks up the key for it.  `SendPacket` turns every exception
into the return value −1; `SendEncryptedPacket` lets it through.
-/

namespace NETConnect

open Lib

structure PeerSettings where
  isEncryptionEnabled : Bool := true
  encryptionType : PacketEncryptionType := .chaCha20Poly1305
  deriving DecidableEq, Repr

/-- What a call sent: its return value, and the frame if one was written. -/
structure Sent where
  bytesSent : Int
  frame : Option Frame
  deriving DecidableEq, Repr

namespace Sent

def nothing : Sent := ⟨-1, none⟩

def whole (f : Frame) : Sent := ⟨f.bytes.length, some f⟩

end Sent

/-- `Self.Settings` and `EncryptionKeys`, the state a `PacketHelper` reads. -/
structure PacketHelper where
  settings : Option PeerSettings
  encryptionKeys : SecurityKey
  deriving DecidableEq, Repr

namespace PacketHelper

variable (P : Platform) (helper : PacketHelper) (io : Ambient)

/-- The frame that carries `data` as it is. -/
def frameOf (data : Bytes) (actionType : PacketActionType)
    (encryptionType : PacketEncryptionType) : Frame :=
  ⟨.create (BitVec.ofNat 32 data.length) actionType encryptionType io.sentAt, data⟩

/-- `Connection.Send(data, actionType, encryptionType)`, as a frame. -/
def connectionSend (data : Option Bytes) (actionType : PacketActionType)
    (encryptionType : PacketEncryptionType) : Except Exn Frame :=
  match data with
  | none => .error .nullReference
  | some d =>
      if io.alive then .ok (frameOf io d actionType encryptionType) else .error .socket

/-- The frame stands for the bytes that `Send` hands to the socket. -/
theorem send_eq_connectionSend (data : Option Bytes) (actionType : PacketActionType)
    (encryptionType : PacketEncryptionType) (halive : io.alive = true) :
    SocketExtensions.send data actionType encryptionType io.sentAt =
      (connectionSend io data actionType encryptionType).map Frame.bytes := by
  cases data with
  | none =>
      -- the header is written, and then the length of the data is read
      have hroom : PacketHeader.headerSize ≤
          (List.replicate (PacketHeader.headerSize + 0) (0 : UInt8)).length := by simp
      simp only [SocketExtensions.send, PacketHeader.writeTo_eq _ _ hroom, bind, Except.bind]
      rfl
  | some d => rw [SocketExtensions.send_some, connectionSend, if_pos halive]; rfl

def sendEncryptedPacket (data : Option Bytes) (encryptionType : PacketEncryptionType)
    (actionType : PacketActionType) (isAlreadyEncryptedData : Bool) : Except Exn Sent :=
  match data with
  | none => .ok .nothing
  | some data =>
      if data.length = 0 then .ok .nothing
      else if isAlreadyEncryptedData then
        (connectionSend io (some data) actionType encryptionType).map .whole
      else
        let key : Option Bytes :=
          if encryptionType = .rsa then helper.encryptionKeys.remoteRSAPubKey
          else if encryptionType = .chaCha20Poly1305 then helper.encryptionKeys.chaChaKey
          else some []
        if 0 < (key.getD []).length then do
          let data ← PacketEncrypted.encryptUT8Bytes P io data key encryptionType
          (connectionSend io (some data) actionType encryptionType).map .whole
        else (connectionSend io (some data) actionType .none).map .whole

/-- The `try` of `SendPacket`. -/
def trySendPacket (data : Option Bytes) (type : PacketActionType) (isEncryptionEnabled : Bool)
    (encryptionType : PacketEncryptionType) : Except Exn Sent :=
  let sendClear := (connectionSend io data type .none).map Sent.whole
  if isEncryptionEnabled then
    if encryptionType ≠ .none then
      sendEncryptedPacket P helper io data encryptionType type false
    else match helper.settings with
      | some settings =>
          if settings.isEncryptionEnabled then
            if settings.encryptionType ≠ .none then
              sendEncryptedPacket P helper io data settings.encryptionType type false
            else sendClear
          else sendClear
      | none => sendClear
  else sendClear

def sendPacket (data : Option Bytes) (type : PacketActionType) (isEncryptionEnabled : Bool)
    (encryptionType : PacketEncryptionType) : Sent :=
  match trySendPacket P helper io data type isEncryptionEnabled encryptionType with
  | .ok sent => sent
  | .error _ => .nothing

def sendUTF8Packet (utf8Data : String) (type : PacketActionType) (isEncryptionEnabled : Bool)
    (encryptionType : PacketEncryptionType) : Sent :=
  sendPacket P helper io (some (toUTF8Byte utf8Data)) type isEncryptionEnabled encryptionType

theorem sendUTF8Packet_clear (utf8Data : String) (type : PacketActionType)
    (encryptionType : PacketEncryptionType) :
    sendUTF8Packet P helper io utf8Data type false encryptionType =
      if io.alive then .whole (frameOf io (toUTF8Byte utf8Data) type .none) else .nothing := by
  simp only [sendUTF8Packet, sendPacket, trySendPacket, connectionSend]
  cases io.alive <;> rfl

/-! ## Which cipher, which key -/

/-- The encryption type that `SendPacket` selects. -/
def selectedType (settings : Option PeerSettings) (isEncryptionEnabled : Bool)
    (encryptionType : PacketEncryptionType) : PacketEncryptionType :=
  if isEncryptionEnabled then
    if encryptionType ≠ .none then encryptionType
    else match settings with
      | some settings => if settings.isEncryptionEnabled then settings.encryptionType else .none
      | none => .none
  else .none

/-- The installed key for an encryption type, if there is one and it is not empty. -/
def usableKey (keys : SecurityKey) (encryptionType : PacketEncryptionType) : Option Bytes :=
  (if encryptionType = .rsa then keys.remoteRSAPubKey
    else if encryptionType = .chaCha20Poly1305 then keys.chaChaKey else none).filter
    fun key => 0 < key.length

theorem trySendPacket_eq (data : Option Bytes) (type : PacketActionType)
    (isEncryptionEnabled : Bool) (encryptionType : PacketEncryptionType) :
    trySendPacket P helper io data type isEncryptionEnabled encryptionType =
      let selected := selectedType helper.settings isEncryptionEnabled encryptionType
      if selected = .none then (connectionSend io data type .none).map .whole
      else sendEncryptedPacket P helper io data selected type false := by
  unfold trySendPacket selectedType
  cases isEncryptionEnabled with
  | false => simp
  | true =>
      by_cases htype : encryptionType = .none
      · rcases helper.settings with _ | settings
        · simp [htype]
        · cases henabled : settings.isEncryptionEnabled <;>
            by_cases hsettings : settings.encryptionType = .none <;> simp [*]
      · simp [htype]

theorem sendEncryptedPacket_eq {data : Bytes} (hdata : data ≠ [])
    (encryptionType : PacketEncryptionType) (actionType : PacketActionType) :
    sendEncryptedPacket P helper io (some data) encryptionType actionType false =
      match usableKey helper.encryptionKeys encryptionType with
      | some key => do
          let payload ← PacketEncrypted.encryptUT8Bytes P io data (some key) encryptionType
          (connectionSend io (some payload) actionType encryptionType).map .whole
      | none => (connectionSend io (some data) actionType .none).map .whole := by
  have hlength : ¬ data.length = 0 := fun h => hdata (List.length_eq_zero_iff.1 h)
  have hkey : ∀ key : Option Bytes, (if 0 < (key.getD []).length then do
        let payload ← PacketEncrypted.encryptUT8Bytes P io data key encryptionType
        (connectionSend io (some payload) actionType encryptionType).map Sent.whole
      else (connectionSend io (some data) actionType .none).map .whole) =
      match key.filter fun key => 0 < key.length with
      | some key => do
          let payload ← PacketEncrypted.encryptUT8Bytes P io data (some key) encryptionType
          (connectionSend io (some payload) actionType encryptionType).map .whole
      | none => (connectionSend io (some data) actionType .none).map .whole := by
    rintro (_ | key)
    · rfl
    · cases key with
      | nil => rfl
      | cons b bs => simp [Option.filter]
  simp only [sendEncryptedPacket, hlength, if_false, Bool.false_eq_true, usableKey]
  rw [hkey]
  split_ifs <;> rfl

theorem sendPacket_whole_or (data : Option Bytes) (type : PacketActionType)
    (isEncryptionEnabled : Bool) (encryptionType : PacketEncryptionType) :
    (∃ f, sendPacket P helper io data type isEncryptionEnabled encryptionType = .whole f) ∨
      sendPacket P helper io data type isEncryptionEnabled encryptionType = .nothing := by
  have hconnection : ∀ data encryptionType sent,
      (connectionSend io data type encryptionType).map Sent.whole = .ok sent →
        ∃ f, sent = .whole f := by
    intro data encryptionType sent hsent
    cases hframe : connectionSend io data type encryptionType with
    | error e => simp [hframe, Except.map] at hsent
    | ok f => exact ⟨f, by simpa [hframe, Except.map] using hsent.symm⟩
  rw [sendPacket, trySendPacket_eq]
  split
  · rename_i sent hsent
    simp only at hsent
    split_ifs at hsent
    · exact Or.inl (hconnection _ _ _ hsent)
    rcases data with _ | data
    · exact Or.inr (Except.ok.inj hsent).symm
    rcases eq_or_ne data [] with rfl | hdata
    · exact Or.inr (Except.ok.inj hsent).symm
    rw [sendEncryptedPacket_eq P helper io hdata] at hsent
    split at hsent
    · obtain ⟨payload, -, hsent⟩ := Exn.bind_eq_ok.1 hsent
      exact Or.inl (hconnection _ _ _ hsent)
    · exact Or.inl (hconnection _ _ _ hsent)
  · exact Or.inr rfl

/-! ## No silent downgrade while there is a key -/

/-- The frame is labelled with the cipher, and its payload is the text of an
envelope around what the cipher made of the data under the key. -/
def IsSealed (key : Bytes) (encryptionType : PacketEncryptionType) (data : Bytes)
    (f : Frame) : Prop :=
  f.header.packetEncryptionType = encryptionType ∧
    ∃ e : PacketEncrypted, f.packet = PacketEncrypted.getAsUTF8 P e ∧
      e.encryptionType = encryptionType ∧
      (encryptionType = .rsa ∧
          e.encryptedData = some (PacketEncrypted.encryptRSA P data key io.seed) ∨
        encryptionType = .chaCha20Poly1305 ∧ e.nonce = some io.nonce.1 ∧
          ∃ cipher tag, P.chaChaEncrypt key io.nonce data = some (cipher, tag) ∧
            e.encryptedData = some cipher ∧ e.tag = some tag)

theorem usableKey_type {keys : SecurityKey} {encryptionType : PacketEncryptionType} {key : Bytes}
    (h : usableKey keys encryptionType = some key) :
    encryptionType = .rsa ∨ encryptionType = .chaCha20Poly1305 := by
  unfold usableKey at h
  split_ifs at h with hrsa hchacha
  · exact Or.inl hrsa
  · exact Or.inr hchacha
  · simp at h

theorem connectionSend_ok {data : Bytes} {actionType : PacketActionType}
    {encryptionType : PacketEncryptionType} {sent : Sent} {f : Frame}
    (h : (connectionSend io (some data) actionType encryptionType).map Sent.whole = .ok sent)
    (hframe : sent.frame = some f) :
    f = frameOf io data actionType encryptionType := by
  rw [connectionSend] at h
  split_ifs at h
  · obtain rfl := Except.ok.inj h
    exact (Option.some.inj hframe).symm
  · simp [Except.map] at h

theorem isSealed_of_encrypt {key data payload : Bytes} {encryptionType : PacketEncryptionType}
    {actionType : PacketActionType} {sent : Sent} {f : Frame}
    (htype : encryptionType = .rsa ∨ encryptionType = .chaCha20Poly1305)
    (hencrypt : PacketEncrypted.encryptUT8Bytes P io data (some key) encryptionType = .ok payload)
    (hsend : (connectionSend io (some payload) actionType encryptionType).map Sent.whole =
      .ok sent) (hframe : sent.frame = some f) :
    IsSealed P io key encryptionType data f := by
  obtain rfl := connectionSend_ok io hsend hframe
  refine ⟨rfl, ?_⟩
  rw [PacketEncrypted.encryptUT8Bytes] at hencrypt
  rcases htype with rfl | rfl
  · obtain rfl := Except.ok.inj hencrypt
    exact ⟨_, rfl, rfl, Or.inl ⟨rfl, rfl⟩⟩
  · rw [if_neg (by decide), if_pos rfl] at hencrypt
    split at hencrypt
    · simp at hencrypt
    · rename_i cipher tag hcipher
      obtain rfl := Except.ok.inj hencrypt
      exact ⟨_, rfl, rfl, Or.inr ⟨rfl, rfl, cipher, tag, hcipher, rfl, rfl⟩⟩

/-- What is guaranteed of a call that is to encrypt: with a usable key every frame
it writes is sealed; without one the data is sent in the clear. -/
def SealsOrSendsClear (data : Bytes) (encryptionType : PacketEncryptionType)
    (actionType : PacketActionType) (r : Except Exn Sent) : Prop :=
  match usableKey helper.encryptionKeys encryptionType with
  | some key => ∀ sent f, r = .ok sent → sent.frame = some f →
      IsSealed P io key encryptionType data f
  | none => r = (connectionSend io (some data) actionType .none).map .whole

theorem sendEncryptedPacket_sealsOrSendsClear {data : Bytes} (hdata : data ≠ [])
    (encryptionType : PacketEncryptionType) (actionType : PacketActionType) :
    SealsOrSendsClear P helper io data encryptionType actionType
      (sendEncryptedPacket P helper io (some data) encryptionType actionType false) := by
  unfold SealsOrSendsClear
  rw [sendEncryptedPacket_eq P helper io hdata]
  split
  · rename_i key hkey
    intro sent f hsent hframe
    obtain ⟨payload, hencrypt, hsend⟩ := Exn.bind_eq_ok.1 hsent
    exact isSealed_of_encrypt P io (usableKey_type hkey) hencrypt hsend hframe
  · rfl

theorem sendPacket_frame {data : Option Bytes} {type : PacketActionType}
    {isEncryptionEnabled : Bool} {encryptionType : PacketEncryptionType} {f : Frame}
    (h : (sendPacket P helper io data type isEncryptionEnabled encryptionType).frame = some f) :
    ∃ sent, trySendPacket P helper io data type isEncryptionEnabled encryptionType = .ok sent ∧
      sent.frame = some f := by
  rw [sendPacket] at h
  split at h
  · rename_i sent hsent
    exact ⟨sent, hsent, h⟩
  · simp [Sent.nothing] at h

theorem sendEncryptedPacket_action {data : Option Bytes} {encryptionType : PacketEncryptionType}
    {actionType : PacketActionType} {isAlreadyEncryptedData : Bool} {sent : Sent} {f : Frame}
    (h : sendEncryptedPacket P helper io data encryptionType actionType isAlreadyEncryptedData =
      .ok sent) (hframe : sent.frame = some f) : f.header.packetAction = actionType := by
  have hsend : ∀ {payload encryptionType},
      (connectionSend io (some payload) actionType encryptionType).map Sent.whole = .ok sent →
        f.header.packetAction = actionType := by
    intro payload encryptionType hsent
    rw [connectionSend_ok io hsent hframe]
    rfl
  cases data with
  | none =>
      obtain rfl := Except.ok.inj h
      simp [Sent.nothing] at hframe
  | some data =>
      rcases eq_or_ne data [] with rfl | hdata
      · obtain rfl := Except.ok.inj h
        simp [Sent.nothing] at hframe
      cases isAlreadyEncryptedData with
      | true =>
          have hlength : ¬ data.length = 0 := fun h => hdata (List.length_eq_zero_iff.1 h)
          simp only [sendEncryptedPacket, if_neg hlength, if_true] at h
          exact hsend h
      | false =>
          rw [sendEncryptedPacket_eq P helper io hdata] at h
          split at h
          · obtain ⟨payload, -, hsent⟩ := Exn.bind_eq_ok.1 h
            exact hsend hsent
          · exact hsend h

theorem sendPacket_action {data : Option Bytes} {type : PacketActionType}
    {isEncryptionEnabled : Bool} {encryptionType : PacketEncryptionType} {f : Frame}
    (h : (sendPacket P helper io data type isEncryptionEnabled encryptionType).frame = some f) :
    f.header.packetAction = type := by
  obtain ⟨sent, hsent, hframe⟩ := sendPacket_frame P helper io h
  rw [trySendPacket_eq] at hsent
  simp only at hsent
  split_ifs at hsent
  · cases data with
    | none => simp [connectionSend, Except.map] at hsent
    | some data =>
        rw [connectionSend_ok io hsent hframe]
        rfl
  · exact sendEncryptedPacket_action P helper io hsent hframe

theorem action_of_mem_sendUTF8Packet {helper : PacketHelper} {io : Ambient} {utf8Data : String}
    {type : PacketActionType} {isEncryptionEnabled : Bool}
    {encryptionType : PacketEncryptionType} {g : Frame}
    (h : g ∈ (helper.sendUTF8Packet P io utf8Data type isEncryptionEnabled
      encryptionType).frame.toList) : g.header.packetAction = type := by
  apply sendPacket_action P helper io
  exact Option.mem_toList.1 h

theorem packet_of_mem_sendUTF8Packet {helper : PacketHelper} {io : Ambient} {utf8Data : String}
    {type : PacketActionType} {encryptionType : PacketEncryptionType} {g : Frame}
    (h : g ∈ (helper.sendUTF8Packet P io utf8Data type false encryptionType).frame.toList) :
    g.packet = toUTF8Byte utf8Data := by
  rw [sendUTF8Packet_clear] at h
  split_ifs at h
  · obtain rfl := Option.some.inj (Option.mem_toList.1 h)
    rfl
  · simp [Sent.nothing] at h

/-- Neither entry point writes the data in the clear while the key of the selected
cipher is installed, and both do when it is not. -/
theorem sendPacket_sealsOrSendsClear (data : Bytes) (hdata : data ≠ []) :
    (∀ encryptionType actionType,
      SealsOrSendsClear P helper io data encryptionType actionType
        (sendEncryptedPacket P helper io (some data) encryptionType actionType false)) ∧
    ∀ type isEncryptionEnabled encryptionType,
      let selected := selectedType helper.settings isEncryptionEnabled encryptionType
      let sent := sendPacket P helper io (some data) type isEncryptionEnabled encryptionType
      selected ≠ .none →
        match usableKey helper.encryptionKeys selected with
        | some key => ∀ f, sent.frame = some f → IsSealed P io key selected data f
        | none => sent = if io.alive then .whole (frameOf io data type .none) else .nothing := by
  refine ⟨fun encryptionType actionType =>
    sendEncryptedPacket_sealsOrSendsClear P helper io hdata encryptionType actionType, ?_⟩
  intro type isEncryptionEnabled encryptionType selected sent hselected
  have htry : trySendPacket P helper io (some data) type isEncryptionEnabled encryptionType =
      sendEncryptedPacket P helper io (some data) selected type false := by
    rw [trySendPacket_eq, if_neg hselected]
  have hseals := sendEncryptedPacket_sealsOrSendsClear P helper io hdata selected type
  rw [← htry, SealsOrSendsClear] at hseals
  split at hseals
  · intro f hframe
    obtain ⟨sent', hsent, hframe'⟩ := sendPacket_frame P helper io hframe
    exact hseals sent' f hsent hframe'
  · change sendPacket P helper io (some data) type isEncryptionEnabled encryptionType = _
    rw [sendPacket, hseals, connectionSend]
    cases io.alive <;> rfl

/-- A socket that works, at some time and with some randomness. -/
def quiet : Ambient := ⟨0, ⟨List.replicate 12 0, rfl⟩, [], [], true⟩

theorem sendPacket_sealsOrSendsClear_chaCha :
    ∃ f, (sendPacket Reference.reference ⟨some {}, { chaChaKey := some (List.replicate 32 7) }⟩
        quiet (some [104, 105]) .data true .none).frame = some f ∧
      IsSealed Reference.reference quiet (List.replicate 32 7) .chaCha20Poly1305 [104, 105] f := by
  have h := (sendPacket_sealsOrSendsClear Reference.reference
    ⟨some {}, { chaChaKey := some (List.replicate 32 7) }⟩ quiet [104, 105] (by decide)).2
    .data true .none (by decide)
  exact ⟨_, rfl, h _ rfl⟩

/-- The cipher is asked for before there is a key for it. -/
theorem not_sendPacket_sealed :
    ¬ ∀ (P : Platform) (helper : PacketHelper) (io : Ambient) (data : Bytes)
        (type : PacketActionType) (isEncryptionEnabled : Bool)
        (encryptionType : PacketEncryptionType), data ≠ [] →
        selectedType helper.settings isEncryptionEnabled encryptionType ≠ .none →
        (∀ f, (sendPacket P helper io (some data) type isEncryptionEnabled encryptionType).frame =
          some f → f.packet ≠ data) ∧
        (usableKey helper.encryptionKeys
            (selectedType helper.settings isEncryptionEnabled encryptionType) = none →
          sendPacket P helper io (some data) type isEncryptionEnabled encryptionType =
            .nothing) := by
  intro halways
  have h := (halways Reference.reference ⟨some {}, {}⟩ quiet [104, 105] .data true
    .chaCha20Poly1305 (by decide) (by decide)).1
  exact h _ rfl rfl

/-! ## What a call sends -/

theorem sendPacket_null (type : PacketActionType) (isEncryptionEnabled : Bool)
    (encryptionType : PacketEncryptionType) :
    sendPacket P helper io none type isEncryptionEnabled encryptionType = .nothing := by
  rw [sendPacket, trySendPacket_eq]
  by_cases hselected : selectedType helper.settings isEncryptionEnabled encryptionType = .none
  · simp only [if_pos hselected]
    rfl
  · simp only [if_neg hselected]
    rfl

/-- With a cipher selected an empty array is not sent at all. -/
theorem sendPacket_empty (type : PacketActionType) {isEncryptionEnabled : Bool}
    {encryptionType : PacketEncryptionType}
    (hselected : selectedType helper.settings isEncryptionEnabled encryptionType ≠ .none) :
    sendPacket P helper io (some []) type isEncryptionEnabled encryptionType = .nothing := by
  rw [sendPacket, trySendPacket_eq]
  simp only [if_neg hselected]
  rfl

theorem sendPacket_clear (halive : io.alive = true) (data : Bytes) (type : PacketActionType)
    {isEncryptionEnabled : Bool} {encryptionType : PacketEncryptionType}
    (hselected : selectedType helper.settings isEncryptionEnabled encryptionType = .none) :
    sendPacket P helper io (some data) type isEncryptionEnabled encryptionType =
      .whole (frameOf io data type .none) := by
  rw [sendPacket, trySendPacket_eq]
  simp only [if_pos hselected, connectionSend, if_pos halive]
  rfl

/-- With a cipher selected and no key for it the data goes as it is. -/
theorem sendPacket_keyless (halive : io.alive = true) {data : Bytes} (hdata : data ≠ [])
    (type : PacketActionType) {isEncryptionEnabled : Bool}
    {encryptionType : PacketEncryptionType}
    (hselected : selectedType helper.settings isEncryptionEnabled encryptionType ≠ .none)
    (hkey : usableKey helper.encryptionKeys
      (selectedType helper.settings isEncryptionEnabled encryptionType) = none) :
    sendPacket P helper io (some data) type isEncryptionEnabled encryptionType =
      .whole (frameOf io data type .none) := by
  rw [sendPacket, trySendPacket_eq]
  simp only [if_neg hselected, sendEncryptedPacket_eq P helper io hdata, hkey, connectionSend,
    if_pos halive]
  rfl

theorem sendPacket_encrypted (halive : io.alive = true) {data payload key : Bytes}
    (hdata : data ≠ []) (type : PacketActionType) {isEncryptionEnabled : Bool}
    {encryptionType : PacketEncryptionType}
    (hselected : selectedType helper.settings isEncryptionEnabled encryptionType ≠ .none)
    (hkey : usableKey helper.encryptionKeys
      (selectedType helper.settings isEncryptionEnabled encryptionType) = some key)
    (hencrypt : PacketEncrypted.encryptUT8Bytes P io data (some key)
      (selectedType helper.settings isEncryptionEnabled encryptionType) = .ok payload) :
    sendPacket P helper io (some data) type isEncryptionEnabled encryptionType =
      .whole (frameOf io payload type
        (selectedType helper.settings isEncryptionEnabled encryptionType)) := by
  rw [sendPacket, trySendPacket_eq]
  simp only [if_neg hselected, sendEncryptedPacket_eq P helper io hdata, hkey, hencrypt, bind,
    Except.bind, connectionSend, if_pos halive]
  rfl

theorem alive_of_sendPacket {data : Option Bytes} {type : PacketActionType}
    {isEncryptionEnabled : Bool} {encryptionType : PacketEncryptionType} {f : Frame}
    (h : (sendPacket P helper io data type isEncryptionEnabled encryptionType).frame = some f) :
    io.alive = true := by
  cases data with
  | none =>
      rw [sendPacket_null] at h
      simp [Sent.nothing] at h
  | some data =>
      obtain ⟨sent, hsent, hframe⟩ := sendPacket_frame P helper io h
      by_contra hdead
      have hfails : ∀ data type encryptionType, (connectionSend io (some data) type
          encryptionType).map Sent.whole = .error .socket := by
        intro data type encryptionType
        rw [connectionSend, if_neg hdead]
        rfl
      rw [trySendPacket_eq] at hsent
      simp only [hfails] at hsent
      split_ifs at hsent
      rcases eq_or_ne data [] with rfl | hdata
      · obtain rfl := Except.ok.inj hsent
        simp [Sent.nothing] at hframe
      · rw [sendEncryptedPacket_eq P helper io hdata] at hsent
        split at hsent
        · obtain ⟨payload, -, hsent⟩ := Exn.bind_eq_ok.1 hsent
          simp [hfails] at hsent
        · simp [hfails] at hsent

theorem sendPacket_isSealed {data key : Bytes} (hdata : data ≠ []) {type : PacketActionType}
    {isEncryptionEnabled : Bool} {encryptionType : PacketEncryptionType} {f : Frame}
    (hselected : selectedType helper.settings isEncryptionEnabled encryptionType ≠ .none)
    (hkey : usableKey helper.encryptionKeys
      (selectedType helper.settings isEncryptionEnabled encryptionType) = some key)
    (hframe : (sendPacket P helper io (some data) type isEncryptionEnabled encryptionType).frame =
      some f) :
    IsSealed P io key (selectedType helper.settings isEncryptionEnabled encryptionType) data f := by
  obtain ⟨sent, hsent, hframe⟩ := sendPacket_frame P helper io hframe
  rw [trySendPacket_eq, if_neg hselected] at hsent
  have hseals := sendEncryptedPacket_sealsOrSendsClear P helper io hdata
    (selectedType helper.settings isEncryptionEnabled encryptionType) type
  rw [SealsOrSendsClear, hkey] at hseals
  exact hseals sent f hsent hframe

/-! ## One call, one frame -/

/-- There is a key for the cipher, and it is one. -/
def HasValidKey (keys : SecurityKey) (encryptionType : PacketEncryptionType) : Prop :=
  encryptionType = .rsa ∧ (∃ key, keys.remoteRSAPubKey = some key ∧ P.rsaKeySize key ≠ none) ∨
    encryptionType = .chaCha20Poly1305 ∧ ∃ key, keys.chaChaKey = some key ∧ key.length = 32

/-- A complete frame for the data: its header announces the length of its body, which is
the data itself where there is none or no cipher is selected, and else an envelope of it
under the key of the cipher. -/
structure IsFrameFor (selected : PacketEncryptionType) (data : Bytes) (type : PacketActionType)
    (f : Frame) : Prop where
  action : f.header.packetAction = type
  byteLength : f.header.byteLength = BitVec.ofNat 32 f.packet.length
  body : if selected = .none ∨ data = [] then
      f.header.packetEncryptionType = .none ∧ f.packet = data
    else ∃ key, usableKey helper.encryptionKeys selected = some key ∧
      IsSealed P io key selected data f

/-- A call writes one complete frame to a socket that works, a bare header if there is no
data, and reports nothing but a failure of the socket. -/
structure WritesOneFrame (data : Option Bytes) (type : PacketActionType)
    (isEncryptionEnabled : Bool) (encryptionType : PacketEncryptionType) : Prop where
  written : ∀ io : Ambient, io.alive = true →
    ∃ f, sendPacket P helper io data type isEncryptionEnabled encryptionType = .whole f ∧
      IsFrameFor P helper io (selectedType helper.settings isEncryptionEnabled encryptionType)
        (data.getD []) type f
  failed : ∀ io : Ambient,
    (sendPacket P helper io data type isEncryptionEnabled encryptionType).bytesSent = -1 →
      io.alive = false

theorem usableKey_of_hasValidKey (rsa : P.RSALaws) {keys : SecurityKey}
    {encryptionType : PacketEncryptionType} (h : HasValidKey P keys encryptionType) :
    ∃ key, usableKey keys encryptionType = some key ∧
      (encryptionType = .rsa ∨ encryptionType = .chaCha20Poly1305 ∧ key.length = 32) := by
  rcases h with ⟨rfl, key, hkey, hsize⟩ | ⟨rfl, key, hkey, hlength⟩
  · refine ⟨key, ?_, Or.inl rfl⟩
    have hne : key ≠ [] := by
      rintro rfl
      exact hsize rsa.keySize_nil
    rw [usableKey, if_pos rfl, hkey, Option.filter_eq_some_iff]
    exact ⟨rfl, by simpa [List.length_pos_iff] using hne⟩
  · refine ⟨key, ?_, Or.inr ⟨rfl, hlength⟩⟩
    have htype : PacketEncryptionType.chaCha20Poly1305 ≠ .rsa := by decide
    rw [usableKey, if_neg htype, if_pos rfl, hkey, Option.filter_eq_some_iff]
    exact ⟨rfl, by simp [hlength]⟩

/-- A valid key encrypts every data, if only to an empty array. -/
theorem encryptUT8Bytes_of_hasValidKey (laws : P.ChaChaLaws) {key : Bytes}
    {encryptionType : PacketEncryptionType}
    (h : encryptionType = .rsa ∨ encryptionType = .chaCha20Poly1305 ∧ key.length = 32)
    (data : Bytes) :
    ∃ payload, PacketEncrypted.encryptUT8Bytes P io data (some key) encryptionType =
      .ok payload := by
  rcases h with rfl | ⟨rfl, hlength⟩
  · exact ⟨_, rfl⟩
  · have hcipher : (P.chaChaEncrypt key io.nonce data).isSome :=
      (laws.encrypt_isSome io.nonce.2).2 hlength
    obtain ⟨⟨cipher, tag⟩, hcipher⟩ := Option.isSome_iff_exists.1 hcipher
    exact ⟨_, PacketEncrypted.encryptUT8Bytes_chaCha P hcipher⟩

theorem bytesSent_whole_ne (f : Frame) : (Sent.whole f).bytesSent ≠ -1 := by
  simp only [Sent.whole, ne_eq]
  omega

theorem not_writesOneFrame {data : Option Bytes} {type : PacketActionType}
    {isEncryptionEnabled : Bool} {encryptionType : PacketEncryptionType}
    (halive : io.alive = true)
    (h : sendPacket P helper io data type isEncryptionEnabled encryptionType = .nothing) :
    ¬ WritesOneFrame P helper data type isEncryptionEnabled encryptionType := by
  intro hwrites
  have hdead := hwrites.failed io (by rw [h]; rfl)
  rw [halive] at hdead
  exact absurd hdead (by decide)

theorem writesOneFrame_of_whole {data : Option Bytes} {type : PacketActionType}
    {isEncryptionEnabled : Bool} {encryptionType : PacketEncryptionType}
    (h : ∀ io : Ambient, io.alive = true →
      ∃ f, sendPacket P helper io data type isEncryptionEnabled encryptionType = .whole f ∧
        IsFrameFor P helper io (selectedType helper.settings isEncryptionEnabled encryptionType)
          (data.getD []) type f) :
    WritesOneFrame P helper data type isEncryptionEnabled encryptionType := by
  refine ⟨h, fun io hfailed => ?_⟩
  by_contra halive
  obtain ⟨f, hsent, -⟩ := h io (by simpa using halive)
  rw [hsent] at hfailed
  exact bytesSent_whole_ne f hfailed

theorem isFrameFor_clear {selected : PacketEncryptionType} (data : Bytes)
    (type : PacketActionType) (hselected : selected = .none) :
    IsFrameFor P helper io selected data type (frameOf io data type .none) where
  action := rfl
  byteLength := rfl
  body := by
    rw [if_pos (Or.inl hselected)]
    exact ⟨rfl, rfl⟩

theorem isFrameFor_encrypted {data payload key : Bytes} (hdata : data ≠ [])
    (type : PacketActionType) {isEncryptionEnabled : Bool}
    {encryptionType : PacketEncryptionType}
    (hselected : selectedType helper.settings isEncryptionEnabled encryptionType ≠ .none)
    (hkey : usableKey helper.encryptionKeys
      (selectedType helper.settings isEncryptionEnabled encryptionType) = some key)
    (hsent : sendPacket P helper io (some data) type isEncryptionEnabled encryptionType =
      .whole (frameOf io payload type
        (selectedType helper.settings isEncryptionEnabled encryptionType))) :
    IsFrameFor P helper io (selectedType helper.settings isEncryptionEnabled encryptionType) data
      type (frameOf io payload type
        (selectedType helper.settings isEncryptionEnabled encryptionType)) where
  action := rfl
  byteLength := rfl
  body := by
    rw [if_neg (not_or.2 ⟨hselected, hdata⟩)]
    exact ⟨key, hkey, sendPacket_isSealed P helper io hdata hselected hkey
      (by rw [hsent]; rfl)⟩

/-- A call writes one frame exactly if it has data, and more than the empty array where a
cipher is selected. -/
theorem sendPacket_writesOneFrame_iff (P : Platform) (rsa : P.RSALaws) (laws : P.ChaChaLaws)
    (helper : PacketHelper) (data : Option Bytes) (type : PacketActionType)
    (isEncryptionEnabled : Bool) (encryptionType : PacketEncryptionType)
    (hkey : selectedType helper.settings isEncryptionEnabled encryptionType = .none ∨
      HasValidKey P helper.encryptionKeys
        (selectedType helper.settings isEncryptionEnabled encryptionType)) :
    WritesOneFrame P helper data type isEncryptionEnabled encryptionType ↔
      data ≠ none ∧ (data ≠ some [] ∨
        selectedType helper.settings isEncryptionEnabled encryptionType = .none) := by
  cases data with
  | none =>
      exact iff_of_false
        (not_writesOneFrame P helper quiet rfl (sendPacket_null P helper quiet _ _ _)) (by simp)
  | some data =>
      by_cases hselected :
          selectedType helper.settings isEncryptionEnabled encryptionType = .none
      · refine iff_of_true (writesOneFrame_of_whole P helper fun io halive => ?_)
          ⟨by simp, Or.inr hselected⟩
        exact ⟨_, sendPacket_clear P helper io halive data type hselected,
          isFrameFor_clear P helper io data type hselected⟩
      · obtain ⟨key, husable, hvalid⟩ :=
          usableKey_of_hasValidKey P rsa (hkey.resolve_left hselected)
        rcases eq_or_ne data [] with rfl | hdata
        · exact iff_of_false
            (not_writesOneFrame P helper quiet rfl
              (sendPacket_empty P helper quiet type hselected)) (by simp [hselected])
        · refine iff_of_true (writesOneFrame_of_whole P helper fun io halive => ?_)
            ⟨by simp, Or.inl (by simpa using hdata)⟩
          obtain ⟨payload, hencrypt⟩ := encryptUT8Bytes_of_hasValidKey P io laws hvalid data
          have hsent := sendPacket_encrypted P helper io halive hdata type hselected husable
            hencrypt
          exact ⟨_, hsent, isFrameFor_encrypted P helper io hdata type hselected husable hsent⟩

theorem sendPacket_writesOneFrame_iff_chaCha : WritesOneFrame Reference.reference
    ⟨some {}, { chaChaKey := some (List.replicate 32 7) }⟩ (some [104, 105]) .data true .none :=
  (sendPacket_writesOneFrame_iff Reference.reference Reference.reference_rsaLaws
    Reference.reference_chaChaLaws ⟨some {}, { chaChaKey := some (List.replicate 32 7) }⟩
    (some [104, 105]) .data true .none (Or.inr (Or.inr ⟨rfl, _, rfl, by decide⟩))).2
    ⟨by decide, Or.inl (by decide)⟩

/-- A ping without data, on an authenticated connection. -/
theorem not_sendPacket_writesOneFrame :
    ¬ ∀ (P : Platform) (helper : PacketHelper) (data : Option Bytes) (type : PacketActionType)
        (isEncryptionEnabled : Bool) (encryptionType : PacketEncryptionType),
        P.RSALaws → P.ChaChaLaws →
        (selectedType helper.settings isEncryptionEnabled encryptionType = .none ∨
          HasValidKey P helper.encryptionKeys
            (selectedType helper.settings isEncryptionEnabled encryptionType)) →
        WritesOneFrame P helper data type isEncryptionEnabled encryptionType := by
  intro halways
  refine not_writesOneFrame Reference.reference
    ⟨some {}, { chaChaKey := some (List.replicate 32 7) }⟩ quiet rfl ?_
    (halways Reference.reference _ (some []) .ping true .none Reference.reference_rsaLaws
      Reference.reference_chaChaLaws (Or.inr (Or.inr ⟨rfl, _, rfl, by decide⟩)))
  rfl

end PacketHelper

end NETConnect
