import NETConnect.Handshake.Loop
/-!
# The server's handshake

The `switch` of `BaseTCPServer.HandleAuthentication`.  Every message is accepted at
any time: nothing remembers which ones came before.
-/

namespace NETConnect

open Lib SocketExtensions

namespace BaseTCPServer

/-- What a message of the handshake amounted to. -/
inductive Milestone
  | validSYN (peerId : Guid)
  | storedKey (keyData : Option Bytes)
  | ready
  deriving DecidableEq, Repr

variable (P : Platform)

/-- The `switch` of `HandleAuthentication`. -/
def handleAuthenticationPacket (settings : Option PeerSettings) (io : Ambient)
    (keys : SecurityKey) (f : Frame) : Handled Milestone :=
  if f.header.packetAction = .syn then
    match P.guid.isValidJSONBytes f.packet with
    | none => ⟨keys, .ok (none, none)⟩
    | some peerId =>
        match keys.localRSAKeys with
        | none => ⟨keys, .error .nullReference⟩
        | some localKeys =>
            let auth : PacketAuthentication :=
              { encryptionType := .rsa, keyData := some localKeys.publicKey }
            let sent := PacketHelper.sendUTF8Packet P ⟨settings, keys⟩ io
              (P.packetAuthentication.toJSON auth) .synAck false .none
            ⟨keys, .ok (some (.validSYN peerId), sent.frame)⟩
  else if f.header.packetAction = .ack then
    match P.packetEncrypted.isValidJSONBytes f.packet, keys.localRSAKeys with
    | none, _ => ⟨keys, .ok (none, none)⟩
    -- the text `null`, or no keys of one's own
    | some none, _ | some (some _), none => ⟨keys, .error .nullReference⟩
    | some (some encrypted), some localKeys =>
        match PacketEncrypted.tryDecryptInto P P.packetAuthentication encrypted
          (some localKeys.privateKey) with
        | .error e => ⟨keys, .error e⟩
        | .ok none => ⟨keys, .ok (none, none)⟩
        | .ok (some auth) =>
            let keys := { keys with chaChaKey := auth.keyData }
            let sent := PacketHelper.sendUTF8Packet P ⟨settings, keys⟩ io
              (P.packetAuthentication.toJSON auth) .ack true .chaCha20Poly1305
            ⟨keys, .ok (some (.storedKey auth.keyData), sent.frame)⟩
  else if f.header.packetAction = .ready then
    let sent := PacketHelper.sendUTF8Packet P ⟨settings, keys⟩ io "<READY>" .ready false .none
    ⟨keys, .ok (some .ready, sent.frame)⟩
  else ⟨keys, .ok (none, none)⟩

/-- `HandleAuthentication`. -/
def authentication : Machine Authentication Turn Milestone :=
  Authentication.loop (handleAuthenticationPacket P) .ready

/-! ## What a message amounts to, by itself -/

/-- What a frame amounts to on a connection whose own keys are `localKeys`. -/
def milestone (localKeys : RSAExport) (turn : Turn) : Option Milestone :=
  match turn.received with
  | .threw _ => none
  | .packet f =>
      if f.header.packetAction = .syn then
        (P.guid.isValidJSONBytes f.packet).map .validSYN
      else if f.header.packetAction = .ack then
        (P.packetEncrypted.isValidJSONBytes f.packet).join.bind fun encrypted =>
          match PacketEncrypted.tryDecryptInto P P.packetAuthentication encrypted
            (some localKeys.privateKey) with
          | .ok auth => auth.map fun auth => .storedKey auth.keyData
          | .error _ => none
      else if f.header.packetAction = .ready then some .ready
      else none

/-- The key that is installed after a message. -/
def Milestone.install (m : Milestone) (key : Option Bytes) : Option Bytes :=
  match m with
  | .storedKey keyData => keyData
  | _ => key

/-- The key that the messages of a handshake leave installed. -/
def installed (ms : List Milestone) : Option Bytes :=
  ms.foldl (fun key m => m.install key) none

theorem installed_append (ms ms' : List Milestone) :
    installed (ms ++ ms') = ms'.foldl (fun key m => m.install key) (installed ms) :=
  List.foldl_append

theorem storedKey_mem_of_installed {ms : List Milestone} {key : Bytes}
    (h : installed ms = some key) : .storedKey (some key) ∈ ms := by
  induction ms using List.reverseRecOn with
  | nil => simp [installed] at h
  | append_singleton ms m ih =>
      rw [installed_append] at h
      cases m with
      | storedKey keyData =>
          obtain rfl : keyData = some key := h
          exact List.mem_append_right _ List.mem_cons_self
      | validSYN peerId => exact List.mem_append_left _ (ih h)
      | ready => exact List.mem_append_left _ (ih h)

theorem handleAuthenticationPacket_spec (settings : Option PeerSettings) (io : Ambient)
    (f : Frame) {keys : SecurityKey} {localKeys : RSAExport}
    (hlocal : keys.localRSAKeys = some localKeys) :
    let handled := handleAuthenticationPacket P settings io keys f
    handled.keys.localRSAKeys = some localKeys ∧
      handled.keys.remoteRSAPubKey = keys.remoteRSAPubKey ∧
      ∀ m reply, handled.outcome = .ok (m, reply) →
        m = milestone P localKeys ⟨settings, io, .packet f⟩ ∧
          handled.keys.chaChaKey = m.toList.foldl (fun key m => m.install key) keys.chaChaKey := by
  intro handled
  simp only [handled, handleAuthenticationPacket, milestone, hlocal]
  split_ifs
  · -- SYN
    split <;> rename_i hjson
    · refine ⟨hlocal, rfl, ?_⟩
      rintro m reply ⟨⟩
      exact ⟨by rw [hjson]; rfl, rfl⟩
    · refine ⟨hlocal, rfl, ?_⟩
      rintro m reply ⟨⟩
      exact ⟨by rw [hjson]; rfl, rfl⟩
  · -- ACK
    cases hjson : P.packetEncrypted.isValidJSONBytes f.packet with
    | none =>
        refine ⟨hlocal, rfl, ?_⟩
        rintro m reply ⟨⟩
        exact ⟨rfl, rfl⟩
    | some parsed =>
        cases parsed with
        | none => exact ⟨hlocal, rfl, fun m reply h => by simp at h⟩
        | some encrypted =>
            simp only [Option.join_some, Option.bind_some]
            cases hdecrypt : PacketEncrypted.tryDecryptInto P P.packetAuthentication encrypted
                (some localKeys.privateKey) with
            | error e => exact ⟨hlocal, rfl, fun m reply h => by simp at h⟩
            | ok found =>
                cases found with
                | none =>
                    refine ⟨hlocal, rfl, ?_⟩
                    rintro m reply ⟨⟩
                    exact ⟨rfl, rfl⟩
                | some auth =>
                    refine ⟨rfl, rfl, ?_⟩
                    rintro m reply ⟨⟩
                    exact ⟨rfl, rfl⟩
  · -- Ready
    refine ⟨hlocal, rfl, ?_⟩
    rintro m reply ⟨⟩
    exact ⟨rfl, rfl⟩
  · refine ⟨hlocal, rfl, ?_⟩
    rintro m reply ⟨⟩
    exact ⟨rfl, rfl⟩

theorem handleAuthenticationPacket_localRSAKeys (settings : Option PeerSettings) (io : Ambient)
    (keys : SecurityKey) (f : Frame) :
    (handleAuthenticationPacket P settings io keys f).keys.localRSAKeys = keys.localRSAKeys := by
  unfold handleAuthenticationPacket
  split_ifs
  · split
    · rfl
    · split <;> rfl
  · split
    · rfl
    · rfl
    · rfl
    · split <;> rfl
  · rfl
  · rfl

/-! ## The loop -/

/-- The connection as `HandleClientConnected` sets it up: own keys, nothing else. -/
def startKeys (localKeys : RSAExport) : SecurityKey := { localRSAKeys := some localKeys }

theorem milestone_of_empty {localKeys : RSAExport} {turn : Turn} (h : turn.action = .empty) :
    milestone P localKeys turn = none := by
  obtain ⟨settings, io, received⟩ := turn
  cases received with
  | threw e => rfl
  | packet f =>
      have haction : f.header.packetAction = .empty := h
      simp only [milestone, haction]
      rfl

theorem authentication_run {localKeys : RSAExport} {turns : List Turn} {t : Authentication}
    {os : List Milestone}
    (h : (authentication P).run { keys := startKeys localKeys } turns = some (t, os))
    (hthrew : t.threw = none) :
    os = turns.filterMap (milestone P localKeys) ∧ t.keys.localRSAKeys = some localKeys ∧
      t.keys.chaChaKey = installed os := by
  refine Authentication.loop_run
    (I := fun keys ms => keys.localRSAKeys = some localKeys ∧ keys.chaChaKey = installed ms)
    ?_ (fun turn => milestone_of_empty P) ⟨rfl, rfl⟩ h hthrew
  rintro ⟨settings, io, received⟩ keys ms f m reply ⟨hlocal, hkey⟩ rfl houtcome
  obtain ⟨hlocal', -, hspec⟩ :=
    handleAuthenticationPacket_spec P settings io f hlocal
  obtain ⟨hm, hkey'⟩ := hspec m reply houtcome
  exact ⟨hm, hlocal', by rw [hkey', hkey, installed_append]⟩

/-! ## What authentication takes -/

/-- A SYN with a Guid, and after it an ACK with a key. -/
def KeyReceived (ms : List Milestone) : Prop :=
  ∃ peerId key, [.validSYN peerId, .storedKey (some key)].Sublist ms

/-- If the connection counts as authenticated, the handshake was made and a key that
came in it is installed. -/
def Earned (s : Authentication) (ms : List Milestone) : Prop :=
  s.isAuthenticated = true →
    KeyReceived ms ∧ ∃ key, s.keys.chaChaKey = some key ∧ .storedKey (some key) ∈ ms

/-- The other side keeps to the order of messages: each Ready that the loop reads
comes after a SYN with a Guid and an ACK with a key, and the last ACK before it that
decrypts carries a key. -/
def ReadyAfterKey (localKeys : RSAExport) (turns : List Turn) : Prop :=
  ∀ pre turn post t os, turns = pre ++ turn :: post →
    (authentication P).run { keys := startKeys localKeys } pre = some (t, os) → t.Running →
    turn.action = .ready →
      KeyReceived (pre.filterMap (milestone P localKeys)) ∧
        installed (pre.filterMap (milestone P localKeys)) ≠ none

theorem KeyReceived.of_append_ready {ms : List Milestone} (h : KeyReceived (ms ++ [.ready])) :
    KeyReceived ms := by
  obtain ⟨peerId, key, hsub⟩ := h
  refine ⟨peerId, key, ?_⟩
  obtain ⟨l₁, l₂, hl, h₁, h₂⟩ := List.sublist_append_iff.1 hsub
  have hnil : l₂ = [] := by
    rcases List.sublist_singleton.1 h₂ with rfl | rfl
    · rfl
    · have hlast := congrArg List.getLast? hl
      simp at hlast
  rw [hnil, List.append_nil] at hl
  rw [hl]
  exact h₁

theorem milestone_eq_ready_iff (localKeys : RSAExport) {turn : Turn} :
    milestone P localKeys turn = some .ready ↔ turn.action = .ready := by
  obtain ⟨settings, io, received⟩ := turn
  cases received with
  | threw e => exact iff_of_false (by simp [milestone]) (by simp [Turn.action]; decide)
  | packet f =>
      simp only [milestone, Turn.action]
      split_ifs with hsyn hack hready
      · rw [hsyn]
        refine iff_of_false (fun h => ?_) (by decide)
        simp at h
      · rw [hack]
        refine iff_of_false (fun h => ?_) (by decide)
        obtain ⟨encrypted, -, h⟩ := Option.bind_eq_some_iff.1 h
        split at h <;> simp at h
      · exact iff_of_true rfl hready
      · exact iff_of_false (by simp) hready

/-- A Ready is accepted whatever came before. -/
theorem handleAuthenticationPacket_ready {settings : Option PeerSettings} {io : Ambient}
    {keys : SecurityKey} {f : Frame} (h : f.header.packetAction = .ready) :
    handleAuthenticationPacket P settings io keys f =
      ⟨keys, .ok (some .ready, (PacketHelper.sendUTF8Packet P ⟨settings, keys⟩ io "<READY>"
        .ready false .none).frame)⟩ := by
  simp only [handleAuthenticationPacket, h]
  rfl

/-- The server is not talked past its handshake exactly if nobody tries: if every
Ready that it reads is sent at its place. -/
theorem authentication_earned_iff (localKeys : RSAExport) (turns : List Turn) :
    (authentication P).Throughout Earned { keys := startKeys localKeys } turns ↔
      ReadyAfterKey P localKeys turns := by
  constructor
  · intro h pre turn post t os hsplit hrun hrunning hready
    obtain ⟨rfl, -, hkey⟩ := authentication_run P hrun hrunning.2
    obtain ⟨f, hreceived, haction⟩ := turn.packet_of_action hready (by decide)
    have hstep := Authentication.loop_ready Milestone.ready hrunning hreceived
      (by rw [haction]; decide)
      (congrArg Handled.outcome (handleAuthenticationPacket_ready P haction))
    rw [handleAuthenticationPacket_ready P haction] at hstep
    obtain ⟨hreceived, key, hinstalled, -⟩ :=
      h (pre ++ [turn]) post _ _ (by rw [hsplit]; simp) (Machine.run_snoc hrun hstep) rfl
    refine ⟨hreceived.of_append_ready, ?_⟩
    rw [← hkey, hinstalled]
    simp
  · intro h pre post t os hsplit hrun hauthenticated
    obtain ⟨pre', turn, v, os', f, reply, rfl, hrun', hrunning, rfl, hreceived, houtcome, hkeys⟩ :=
      Authentication.loop_authenticated hrun hauthenticated
    obtain ⟨rfl, hlocal, hkey⟩ := authentication_run P hrun' hrunning.2
    obtain ⟨-, -, hspec⟩ := handleAuthenticationPacket_spec P turn.settings
      turn.io f hlocal
    obtain ⟨hm, hkey'⟩ := hspec _ reply houtcome
    have hready : turn.action = .ready := by
      refine (milestone_eq_ready_iff P localKeys).1 ?_
      rw [hm, ← hreceived]
    obtain ⟨⟨peerId, key, hsub⟩, hinstalled⟩ := h pre' turn post v _ (by rw [hsplit]; simp)
      hrun' hrunning hready
    obtain ⟨key', hkey''⟩ := Option.ne_none_iff_exists'.1 hinstalled
    refine ⟨⟨peerId, key, hsub.trans (List.sublist_append_left _ _)⟩, key', ?_,
      List.mem_append_left _ (storedKey_mem_of_installed hkey'')⟩
    rw [hkeys, hkey', hkey]
    exact hkey''

/-- A Ready out of nowhere. -/
def bareReady : Turn :=
  ⟨some {}, PacketHelper.quiet, .packet ⟨.create 0 .ready .none 0, []⟩⟩

/-- It is the first frame the server reads, and it authenticates the connection. -/
theorem not_authentication_earned :
    ¬ ∀ (P : Platform) (localKeys : RSAExport) (turns : List Turn),
        (authentication P).Throughout Earned { keys := startKeys localKeys } turns := by
  intro halways
  obtain ⟨-, key, hkey, -⟩ := (halways Reference.reference ⟨[], []⟩ [bareReady]).last rfl rfl
  have hnone : none = some key := hkey
  simp at hnone

end BaseTCPServer

end NETConnect
