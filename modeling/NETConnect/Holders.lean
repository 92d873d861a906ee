import NETConnect.Delivery
/-!
# Who can reach the application

On an authenticated connection whose settings require ChaCha20-Poly1305 the receive
loops still hand over what comes in the clear, and nothing else that was not sealed
with the session key.
-/

namespace NETConnect

open Lib SocketExtensions

/-- The settings ask for encryption with ChaCha20-Poly1305. -/
def RequiresChaCha (settings : Option PeerSettings) : Prop :=
  ∃ p, settings = some p ∧ p.isEncryptionEnabled = true ∧
    p.encryptionType = .chaCha20Poly1305

variable {P : Platform}

theorem ownKeys_of_none {keys : SecurityKey} (h : keys.localRSAKeys = none) : OwnKeys P keys := by
  intro localKeys hlocal
  simp [h] at hlocal

theorem ownKeys_of_created {keys : SecurityKey} {localKeys : RSAExport} {keySize : Nat}
    {entropy : Bytes} (h : keys.localRSAKeys = some localKeys)
    (hcreate : P.rsaCreate keySize entropy = some localKeys) : OwnKeys P keys := by
  intro localKeys' hlocal
  obtain rfl : localKeys = localKeys' := by simpa [h] using hlocal
  exact ⟨keySize, entropy, hcreate⟩

/-! ## The server -/

namespace BaseTCPServer

theorem ownKeys_of_run {self : Peer} {es : List Event} {s : Server} {os : List Output}
    (h : (server P).run (start self) es = some (s, os)) (c : ConnId) : OwnKeys P (s.keys c) := by
  revert c
  apply Machine.state_invariant (I := fun s => ∀ c, OwnKeys P (s.keys c)) _ _ h
  · intro s e t o hown hstep c
    rcases (server_step_iff.1 hstep).keys with hsame |
      ⟨created, entropy, localKeys, -, -, hcreate, hnew⟩ | ⟨io, received, c', -, -, hturn⟩
    · rw [show t.keys = s.keys from hsame]
      exact hown c
    · rw [show t.keys = _ from hnew]
      rcases eq_or_ne c s.accepted with rfl | hne
      · rw [Function.update_self]
        exact ownKeys_of_created rfl hcreate
      · rw [Function.update_of_ne hne]
        exact hown c
    · rw [show t.keys = _ from hturn]
      rcases eq_or_ne c c' with rfl | hne
      · rw [Function.update_self]
        apply Authentication.takeTurn_keys (s.keys c) _ (hown c)
        intro f _ localKeys hlocal
        rw [handleAuthenticationPacket_localRSAKeys] at hlocal
        exact hown c localKeys hlocal
      · rw [Function.update_of_ne hne]
        exact hown c
  · exact fun c => ownKeys_of_none rfl

/-- The server hands a frame over only as what it opens to under the session key. -/
def HandsOverOpened (P : Platform) (s : Server) (c : ConnId) (f : Frame) : Prop :=
  ∀ io utcNow t o header data,
    (server P).step s (.receive io utcNow (.packet f)) = some (t, o) →
      .delivered c header data ∈ o → OpensTo P (s.keys c).chaChaKey f data

theorem delivered_mem_takePacket_iff {s : Server} {c : ConnId} {io : Ambient} {utcNow : DateTime}
    {f : Frame} {header : PacketHeader} {data : Bytes} :
    .delivered c header data ∈ (s.takePacket P c io utcNow (.packet f)).2 ↔
      f.header = header ∧ autoDecrypt P (s.keys c) f = .ok (some data) := by
  unfold Server.takePacket Server.keys
  cases hdecrypt : autoDecrypt P (s.conns c).keys f with
  | error e => simp [hdecrypt]
  | ok opened =>
      cases opened with
      | none => simp [hdecrypt]
      | some data' =>
          simp only [hdecrypt, Server.afterRaise, List.mem_cons, Output.delivered.injEq, List.mem_map,
            Except.ok.injEq, Option.some.injEq]
          constructor
          · rintro (⟨-, rfl, rfl⟩ | ⟨f', -, h⟩)
            · exact ⟨rfl, rfl⟩
            · simp at h
          · rintro ⟨rfl, rfl⟩
            exact Or.inl ⟨trivial, rfl, rfl⟩

theorem handsOverOpened_iff_holdersOnly {s : Server} {c : ConnId} {f : Frame}
    (h : s.thread = .receiving c) : HandsOverOpened P s c f ↔ HoldersOnly P (s.keys c) f := by
  constructor
  · intro hopened data hraised
    exact hopened PacketHelper.quiet (0 : Nat) _ _ f.header data (server_step_iff.2 (.receive h))
      (delivered_mem_takePacket_iff.2 ⟨rfl, hraised⟩)
  · intro hholders io utcNow t o header data hstep hmem
    rw [server_step_iff.2 (.receive h)] at hstep
    obtain ⟨-, rfl⟩ := Prod.mk.inj (Option.some.inj hstep)
    exact hholders data (delivered_mem_takePacket_iff.1 hmem).2

end BaseTCPServer

/-! ## The client -/

namespace BaseTCPClient

theorem handleAuthenticationPacket_ownKeys {settings : Option PeerSettings} {io : Ambient}
    {keys : SecurityKey} {f : Frame} (hown : OwnKeys P keys) :
    OwnKeys P (handleAuthenticationPacket P settings io keys f).keys := by
  unfold handleAuthenticationPacket
  split_ifs
  · split
    · exact hown
    · exact hown
    · split
      · exact hown
      · split
        · exact hown
        · rename_i hcreate
          simp only
          split <;> exact ownKeys_of_created rfl hcreate
  · split
    · exact hown
    · exact hown
    · split
      · exact hown
      · exact hown
      · split_ifs <;> exact hown
  · exact hown
  · exact hown

theorem ownKeys_of_stepped {s : Client} {e : Event} {r : Client × List Output}
    (h : Stepped P s e r) (hown : OwnKeys P s.keys) : OwnKeys P r.1.keys := by
  cases h with
  | gate h =>
      simp only [Client.passGate]
      split_ifs <;> exact hown
  | handshake h =>
      have hturn : ∀ turn,
          OwnKeys P (Authentication.takeTurn (handleAuthenticationPacket P) s.keys turn).keys :=
        fun turn => Authentication.takeTurn_keys s.keys turn hown
          fun f _ => handleAuthenticationPacket_ownKeys hown
      simp only [Client.authenticate]
      split
      · exact hturn _
      · split_ifs <;> exact hturn _
  | beat h =>
      rw [Client.takeBeat, Client.afterBeat_keys]
      exact hown
  | receive h =>
      simp only [Client.takePacket]
      split
      · exact hown
      · split
        · exact hown
        · exact hown
        · split <;> exact hown
  | cancel => exact hown
  | elsewhere => exact hown

theorem ownKeys_of_run {peerId : Guid} {settings : Option PeerSettings}
    {created : DateTime × DateTime} {es : List Event} {s : Client} {os : List Output}
    (h : (client P).run (start peerId settings created) es = some (s, os)) :
    OwnKeys P s.keys :=
  Machine.state_invariant (I := fun s => OwnKeys P s.keys)
    (fun _ _ _ _ hown hstep => ownKeys_of_stepped (client_step_iff.1 hstep) hown)
    (ownKeys_of_none rfl) h

/-- The client hands a frame over only as what it opens to under the session key. -/
def HandsOverOpened (P : Platform) (s : Client) (f : Frame) : Prop :=
  ∀ io utcNow t o header data,
    (client P).step s (.receive io utcNow (.packet f)) = some (t, o) →
      .delivered header data ∈ o → OpensTo P s.keys.chaChaKey f data

theorem delivered_mem_takePacket_iff {s : Client} {io : Ambient} {utcNow : DateTime} {f : Frame}
    {header : PacketHeader} {data : Bytes} :
    .delivered header data ∈ (s.takePacket P io utcNow (.packet f)).2 ↔
      f.header = header ∧ autoDecrypt P s.keys f = .ok (some data) := by
  unfold Client.takePacket
  cases hdecrypt : autoDecrypt P s.keys f with
  | error e => simp [hdecrypt]
  | ok opened =>
      cases opened with
      | none => simp [hdecrypt]
      | some data' =>
          simp only [hdecrypt]
          split
          · simp [eq_comm]
          · simp [eq_comm]

theorem handsOverOpened_iff_holdersOnly {s : Client} {f : Frame} (h : s.thread = .receiving) :
    HandsOverOpened P s f ↔ HoldersOnly P s.keys f := by
  constructor
  · intro hopened data hraised
    exact hopened PacketHelper.quiet (0 : Nat) _ _ f.header data (client_step_iff.2 (.receive h))
      (delivered_mem_takePacket_iff.2 ⟨rfl, hraised⟩)
  · intro hholders io utcNow t o header data hstep hmem
    rw [client_step_iff.2 (.receive h)] at hstep
    obtain ⟨-, rfl⟩ := Prod.mk.inj (Option.some.inj hstep)
    exact hholders data (delivered_mem_takePacket_iff.1 hmem).2

end BaseTCPClient

/-! ## Both loops -/

/-- In every reachable state, on both ends, a frame is handed over only as what it opens
to under the session key exactly if its header does not say that it is in the clear. -/
theorem handsOverOpened_iff (P : Platform) (rsa : P.PublicKeyOpensNothing)
    (chaCha : P.ChaChaLaws) (hlonger : P.EnvelopeLonger) (self peerId settings created)
    (es : List BaseTCPServer.Event) (es' : List BaseTCPClient.Event) :
    (BaseTCPServer.server P).Throughout (fun s _ => ∀ c f, s.thread = .receiving c →
        RequiresChaCha s.self.settings →
          (BaseTCPServer.HandsOverOpened P s c f ↔
            f.header.packetAction = .empty ∨ f.header.packetEncryptionType ≠ .none))
      (BaseTCPServer.start self) es ∧
    (BaseTCPClient.client P).Throughout (fun s _ => ∀ f, s.thread = .receiving →
        RequiresChaCha s.settings →
          (BaseTCPClient.HandsOverOpened P s f ↔
            f.header.packetAction = .empty ∨ f.header.packetEncryptionType ≠ .none))
      (BaseTCPClient.start peerId settings created) es' := by
  constructor
  · intro pre post s os hsplit hrun c f hthread _
    rw [BaseTCPServer.handsOverOpened_iff_holdersOnly hthread]
    exact holdersOnly_iff rsa chaCha hlonger (BaseTCPServer.ownKeys_of_run hrun c) f
  · intro pre post s os hsplit hrun f hthread _
    rw [BaseTCPClient.handsOverOpened_iff_holdersOnly hthread]
    exact holdersOnly_iff rsa chaCha hlonger (BaseTCPClient.ownKeys_of_run hrun) f

namespace BaseTCPServer

def plainFrame : Frame := ⟨.create 1 .data .none 0, [7]⟩

theorem run_ready : ∃ s os,
    (server Reference.reference).run (start { peerId := .empty })
        (honestHandshake ++ [beatAt 0 false]) = some (s, os) ∧
      s.thread = .receiving 0 ∧ s.self.settings = some {} := by
  obtain ⟨s, os, hrun, hloop, hbeat, hsettings⟩ := run_honestHandshake
  obtain ⟨t, o, hstep, -, ht, -, -, hself⟩ :=
    hloop.takeBeat (r := calmRound none) (not_lost_calmRound hbeat none)
  exact ⟨t, os ++ o, Machine.run_snoc hrun hstep, ht.thread, by rw [hself, hsettings]⟩

end BaseTCPServer

theorem handsOverOpened_iff_plainFrame : ∃ s os,
    (BaseTCPServer.server Reference.reference).run (BaseTCPServer.start { peerId := .empty })
        (BaseTCPServer.honestHandshake ++ [BaseTCPServer.beatAt 0 false]) = some (s, os) ∧
      ¬ BaseTCPServer.HandsOverOpened Reference.reference s 0 BaseTCPServer.plainFrame := by
  obtain ⟨s, os, hrun, hthread, hsettings⟩ := BaseTCPServer.run_ready
  refine ⟨s, os, hrun, fun hopened => ?_⟩
  have h := (handsOverOpened_iff Reference.reference Reference.reference_publicKeyOpensNothing
    Reference.reference_chaChaLaws Reference.reference_envelopeLonger { peerId := .empty } .empty
    (some {}) ((0 : Nat), (0 : Nat)) _ []).1.last hrun 0
    BaseTCPServer.plainFrame hthread ⟨{}, hsettings, rfl, rfl⟩
  exact absurd (h.1 hopened) (by decide)

/-- One byte in the clear after an honest handshake. -/
theorem not_handsOverOpened :
    ¬ ∀ (P : Platform) (self : Peer) (es : List BaseTCPServer.Event), P.PublicKeyOpensNothing →
        P.ChaChaLaws → P.ChaChaAuthentic → P.EnvelopeLonger →
        (BaseTCPServer.server P).Throughout (fun s _ => ∀ c f, s.thread = .receiving c →
            RequiresChaCha s.self.settings → BaseTCPServer.HandsOverOpened P s c f)
          (BaseTCPServer.start self) es := by
  intro halways
  obtain ⟨s, os, hrun, hthread, hsettings⟩ := BaseTCPServer.run_ready
  have h := (halways Reference.reference _ _ Reference.reference_publicKeyOpensNothing
    Reference.reference_chaChaLaws Reference.reference_chaChaAuthentic
    Reference.reference_envelopeLonger).last hrun 0
    BaseTCPServer.plainFrame hthread ⟨{}, hsettings, rfl, rfl⟩
  rw [BaseTCPServer.handsOverOpened_iff_holdersOnly hthread] at h
  exact not_opensTo_packet Reference.reference_chaChaLaws Reference.reference_envelopeLonger _
    BaseTCPServer.plainFrame (h [7] rfl)

end NETConnect
