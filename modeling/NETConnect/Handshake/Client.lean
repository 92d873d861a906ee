import NETConnect.Handshake.Loop
/-!
# The client's handshake

The beginning and the `switch` of `BaseTCPClient.HandleAuthentication`.  The client
makes the session key, sends it under the server's RSA key, and is to see it come
back under the key itself.
-/

namespace NETConnect

open Lib SocketExtensions

namespace BaseTCPClient

/-- What a message of the handshake amounted to. -/
inductive Milestone
  /-- an ACK that decrypts, and whether its key was found to be the client's own, in
  which case Ready is sent -/
  | acknowledged (keyData : Option Bytes) (isOwn : Bool)
  | ready
  deriving DecidableEq, Repr

variable (P : Platform)

/-- `ToHashString` of a `byte[]`; null serialises to the empty text. -/
def toHashString (data : Option Bytes) : String :=
  P.hashToString (toUTF8Byte (match data with
    | some data => P.byteArray.toJSON data
    | none => ""))

/-- `HandleAuthentication` up to its loop: the key is made, and SYN is sent. -/
def startAuthentication (settings : Option PeerSettings) (io : Ambient) (peerId : Guid)
    (keys : SecurityKey) (key : RandomData 32) : SecurityKey × Option Frame :=
  let keys := { keys with chaChaKey := some key.1 }
  (keys, (PacketHelper.sendUTF8Packet P ⟨settings, keys⟩ io (P.guid.toJSON peerId) .syn false
    .none).frame)

/-- The `switch` of `HandleAuthentication`. -/
def handleAuthenticationPacket (settings : Option PeerSettings) (io : Ambient)
    (keys : SecurityKey) (f : Frame) : Handled Milestone :=
  if f.header.packetAction = .synAck then
    match P.packetAuthentication.isValidJSONBytes f.packet with
    | none => ⟨keys, .ok (none, none)⟩
    | some none => ⟨keys, .error .nullReference⟩
    | some (some auth) =>
        let keys := { keys with remoteRSAPubKey := auth.keyData }
        match P.rsaKeySize (auth.keyData.getD []) with
        | none => ⟨keys, .error .cryptographic⟩
        | some remoteKeySize =>
            match P.rsaCreate remoteKeySize io.entropy with
            | none => ⟨keys, .error .cryptographic⟩
            | some localKeys =>
                let keys := { keys with localRSAKeys := some localKeys }
                let auth : PacketAuthentication :=
                  { encryptionType := .chaCha20Poly1305, keyData := keys.chaChaKey }
                match PacketHelper.sendEncryptedPacket P ⟨settings, keys⟩ io
                  (some (toUTF8Byte (P.packetAuthentication.toJSON auth))) .rsa .ack false with
                | .error e => ⟨keys, .error e⟩
                | .ok sent => ⟨keys, .ok (none, sent.frame)⟩
  else if f.header.packetAction = .ack then
    match P.packetEncrypted.isValidJSONBytes f.packet with
    | none => ⟨keys, .ok (none, none)⟩
    | some none => ⟨keys, .error .nullReference⟩
    | some (some encrypted) =>
        match PacketEncrypted.tryDecryptInto P P.packetAuthentication encrypted
          keys.chaChaKey with
        | .error e => ⟨keys, .error e⟩
        | .ok none => ⟨keys, .ok (none, none)⟩
        | .ok (some auth) =>
            if toHashString P auth.keyData = toHashString P keys.chaChaKey then
              let sent := PacketHelper.sendUTF8Packet P ⟨settings, keys⟩ io "<READY>" .ready
                false .none
              ⟨keys, .ok (some (.acknowledged auth.keyData true), sent.frame)⟩
            else ⟨keys, .ok (some (.acknowledged auth.keyData false), none)⟩
  else if f.header.packetAction = .ready then ⟨keys, .ok (some .ready, none)⟩
  else ⟨keys, .ok (none, none)⟩

/-- The loop of `HandleAuthentication`. -/
def authentication : Machine Authentication Turn Milestone :=
  Authentication.loop (handleAuthenticationPacket P) .ready

/-! ## What a message amounts to, by itself -/

/-- What a frame amounts to for a client whose session key is `key`. -/
def milestone (key : Bytes) (turn : Turn) : Option Milestone :=
  match turn.received with
  | .threw _ => none
  | .packet f =>
      if f.header.packetAction = .ack then
        (P.packetEncrypted.isValidJSONBytes f.packet).join.bind fun encrypted =>
          match PacketEncrypted.tryDecryptInto P P.packetAuthentication encrypted (some key) with
          | .ok auth => auth.map fun auth => .acknowledged auth.keyData
              (decide (toHashString P auth.keyData = toHashString P (some key)))
          | .error _ => none
      else if f.header.packetAction = .ready then some .ready
      else none

theorem handleAuthenticationPacket_spec (settings : Option PeerSettings) (io : Ambient)
    (f : Frame) {keys : SecurityKey} {key : Bytes} (hkey : keys.chaChaKey = some key) :
    let handled := handleAuthenticationPacket P settings io keys f
    handled.keys.chaChaKey = some key ∧
      ∀ m reply, handled.outcome = .ok (m, reply) →
        m = milestone P key ⟨settings, io, .packet f⟩ := by
  intro handled
  simp only [handled, handleAuthenticationPacket, milestone]
  split_ifs with hsynAck hack hready hack hready
  · -- a SYNAck is no acknowledgement
    rw [hsynAck] at hack
    exact absurd hack (by decide)
  · rw [hsynAck] at hready
    exact absurd hready (by decide)
  · split
    · exact ⟨hkey, fun m reply h => by simpa using (Prod.mk.inj (Except.ok.inj h)).1.symm⟩
    · exact ⟨hkey, fun m reply h => by simp at h⟩
    · split
      · exact ⟨hkey, fun m reply h => by simp at h⟩
      · split
        · exact ⟨hkey, fun m reply h => by simp at h⟩
        · split
          · exact ⟨hkey, fun m reply h => by simp at h⟩
          · exact ⟨hkey, fun m reply h => by simpa using (Prod.mk.inj (Except.ok.inj h)).1.symm⟩
  · -- ACK
    cases hjson : P.packetEncrypted.isValidJSONBytes f.packet with
    | none => exact ⟨hkey, fun m reply h => by simpa using (Prod.mk.inj (Except.ok.inj h)).1.symm⟩
    | some parsed =>
        cases parsed with
        | none => exact ⟨hkey, fun m reply h => by simp at h⟩
        | some encrypted =>
            simp only [Option.join_some, Option.bind_some, hkey]
            cases hdecrypt : PacketEncrypted.tryDecryptInto P P.packetAuthentication encrypted
                (some key) with
            | error e => exact ⟨hkey, fun m reply h => by simp at h⟩
            | ok found =>
                cases found with
                | none =>
                    exact ⟨hkey, fun m reply h => by
                      simpa using (Prod.mk.inj (Except.ok.inj h)).1.symm⟩
                | some auth =>
                    simp only [Option.map_some]
                    split_ifs with hhash
                    · refine ⟨hkey, ?_⟩
                      rintro m reply ⟨⟩
                      rw [decide_eq_true hhash]
                    · refine ⟨hkey, ?_⟩
                      rintro m reply ⟨⟩
                      rw [decide_eq_false hhash]
  · refine ⟨hkey, ?_⟩
    rintro m reply ⟨⟩
    rfl
  · refine ⟨hkey, ?_⟩
    rintro m reply ⟨⟩
    rfl

/-! ## The loop -/

/-- The keys the loop starts from. -/
def startKeys (key : RandomData 32) : SecurityKey := { chaChaKey := some key.1 }

theorem milestone_of_empty {key : Bytes} {turn : Turn} (h : turn.action = .empty) :
    milestone P key turn = none := by
  obtain ⟨settings, io, received⟩ := turn
  cases received with
  | threw e => rfl
  | packet f =>
      have haction : f.header.packetAction = .empty := h
      simp only [milestone, haction]
      rfl

theorem authentication_run {key : RandomData 32} {turns : List Turn} {t : Authentication}
    {os : List Milestone}
    (h : (authentication P).run { keys := startKeys key } turns = some (t, os))
    (hthrew : t.threw = none) :
    os = turns.filterMap (milestone P key.1) ∧ t.keys.chaChaKey = some key.1 := by
  refine Authentication.loop_run (I := fun keys _ => keys.chaChaKey = some key.1)
    ?_ (fun turn => milestone_of_empty P) rfl h hthrew
  rintro ⟨settings, io, received⟩ keys ms f m reply hkey rfl houtcome
  obtain ⟨hkey', hspec⟩ :=
    handleAuthenticationPacket_spec P settings io f hkey
  exact ⟨hspec m reply houtcome, hkey'⟩

/-! ## What authentication takes -/

/-- If the client counts itself as authenticated, an ACK has come that decrypted under
its key to that key, and Ready was sent in reply. -/
def Confirmed (key : RandomData 32) (s : Authentication) (ms : List Milestone) : Prop :=
  s.isAuthenticated = true → .acknowledged (some key.1) true ∈ ms

/-- A frame that confirms the key: an ACK whose payload decrypts under it to it. -/
def Confirms (key : RandomData 32) (turn : Turn) : Prop :=
  ∃ f encrypted auth, turn.received = .packet f ∧ f.header.packetAction = .ack ∧
    P.packetEncrypted.isValidJSONBytes f.packet = some (some encrypted) ∧
    PacketEncrypted.tryDecryptInto P P.packetAuthentication encrypted (some key.1) =
      .ok (some auth) ∧ auth.keyData = some key.1

/-- The server keeps to the order of messages: each Ready that the loop reads comes
after a frame that confirms the key. -/
def ReadyAfterConfirmation (key : RandomData 32) (turns : List Turn) : Prop :=
  ∀ pre turn post t os, turns = pre ++ turn :: post →
    (authentication P).run { keys := startKeys key } pre = some (t, os) → t.Running →
    turn.action = .ready → ∃ ack ∈ pre, Confirms P key ack

theorem milestone_eq_acknowledged_iff {key : RandomData 32} {turn : Turn} :
    milestone P key.1 turn = some (.acknowledged (some key.1) true) ↔ Confirms P key turn := by
  obtain ⟨settings, io, received⟩ := turn
  constructor
  · intro h
    cases received with
    | threw e => simp [milestone] at h
    | packet f =>
        simp only [milestone] at h
        split_ifs at h with hack
        · obtain ⟨encrypted, hjson, h⟩ := Option.bind_eq_some_iff.1 h
          split at h
          · rename_i found hdecrypt
            obtain ⟨auth, rfl, hauth⟩ := Option.map_eq_some_iff.1 h
            exact ⟨f, encrypted, auth, rfl, hack, Option.join_eq_some_iff.1 hjson, hdecrypt,
              (Milestone.acknowledged.inj hauth).1⟩
          · simp at h
        · simp at h
  · rintro ⟨f, encrypted, auth, hreceived, hack, hjson, hdecrypt, hkey⟩
    obtain rfl : received = .packet f := hreceived
    simp only [milestone, if_pos hack, hjson, Option.join_some, Option.bind_some, hdecrypt,
      Option.map_some, hkey, decide_true]

theorem milestone_eq_ready_iff (key : Bytes) {turn : Turn} :
    milestone P key turn = some .ready ↔ turn.action = .ready := by
  obtain ⟨settings, io, received⟩ := turn
  cases received with
  | threw e => exact iff_of_false (by simp [milestone]) (by simp [Turn.action]; decide)
  | packet f =>
      simp only [milestone, Turn.action]
      split_ifs with hack hready
      · rw [hack]
        refine iff_of_false (fun h => ?_) (by decide)
        obtain ⟨encrypted, -, h⟩ := Option.bind_eq_some_iff.1 h
        split at h <;> simp at h
      · exact iff_of_true rfl hready
      · exact iff_of_false (by simp) hready

/-- A Ready is accepted whatever came before. -/
theorem handleAuthenticationPacket_ready {settings : Option PeerSettings} {io : Ambient}
    {keys : SecurityKey} {f : Frame} (h : f.header.packetAction = .ready) :
    handleAuthenticationPacket P settings io keys f = ⟨keys, .ok (some .ready, none)⟩ := by
  simp only [handleAuthenticationPacket, h]
  rfl

/-- The client has its key confirmed before it counts itself as authenticated exactly
if the server sends no Ready that the client reads before the confirmation. -/
theorem authentication_confirmed_iff (key : RandomData 32) (turns : List Turn) :
    (authentication P).Throughout (Confirmed key) { keys := startKeys key } turns ↔
      ReadyAfterConfirmation P key turns := by
  constructor
  · intro h pre turn post t os hsplit hrun hrunning hready
    obtain ⟨rfl, -⟩ := authentication_run P hrun hrunning.2
    obtain ⟨f, hreceived, haction⟩ := turn.packet_of_action hready (by decide)
    have hstep := Authentication.loop_ready Milestone.ready hrunning hreceived
      (by rw [haction]; decide)
      (congrArg Handled.outcome (handleAuthenticationPacket_ready P haction))
    have hmem := h (pre ++ [turn]) post _ _ (by rw [hsplit]; simp) (Machine.run_snoc hrun hstep)
      rfl
    rcases List.mem_append.1 hmem with hmem | hmem
    · obtain ⟨ack, hack, hmilestone⟩ := List.mem_filterMap.1 hmem
      exact ⟨ack, hack, (milestone_eq_acknowledged_iff P).1 hmilestone⟩
    · simp at hmem
  · intro h pre post t os hsplit hrun hauthenticated
    obtain ⟨pre', turn, v, os', f, reply, rfl, hrun', hrunning, rfl, hreceived, houtcome, -⟩ :=
      Authentication.loop_authenticated hrun hauthenticated
    obtain ⟨rfl, hkey⟩ := authentication_run P hrun' hrunning.2
    obtain ⟨-, hspec⟩ := handleAuthenticationPacket_spec P turn.settings turn.io f
      hkey
    have hready : turn.action = .ready := by
      refine (milestone_eq_ready_iff P key.1).1 ?_
      rw [hspec _ reply houtcome, ← hreceived]
    obtain ⟨ack, hack, hconfirms⟩ := h pre' turn post v _ (by rw [hsplit]; simp) hrun' hrunning
      hready
    exact List.mem_append_left _ (List.mem_filterMap.2
      ⟨ack, hack, (milestone_eq_acknowledged_iff P).2 hconfirms⟩)

/-- A Ready out of nowhere. -/
def bareReady : Turn :=
  ⟨some {}, PacketHelper.quiet, .packet ⟨.create 0 .ready .none 0, []⟩⟩

/-- It is the first frame the client reads, and the client believes it. -/
theorem not_authentication_confirmed :
    ¬ ∀ (P : Platform) (key : RandomData 32) (turns : List Turn),
        (authentication P).Throughout (Confirmed key) { keys := startKeys key } turns := by
  intro halways
  have h := (halways Reference.reference ⟨List.replicate 32 7, rfl⟩ [bareReady]).last rfl rfl
  have hnone : Milestone.acknowledged (some (List.replicate 32 7)) true ∈ [Milestone.ready] := h
  simp at hnone

end BaseTCPClient

end NETConnect
