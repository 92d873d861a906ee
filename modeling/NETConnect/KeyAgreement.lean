import NETConnect.Handshake.Exchange
import NETConnect.Session
/-!
# Agreement on the session key

A client that counts itself as authenticated has heard Ready from the server, which
answers Ready with Ready, which the client sends after an ACK, which the server sends
after it has stored the key.  The invariant says this of the frames that are under way.
-/

namespace NETConnect

open Lib SocketExtensions

/-! ## One connection -/

/-- Both ends of one connection, and its channels. -/
structure Link where
  serverKeys : SecurityKey
  client : BaseTCPClient.Client
  toServer : List Frame
  toClient : List Frame

/-- The key was generated, and the server holds it. -/
def Agreed (key : Option (RandomData 32)) (serverKeys : SecurityKey) : Prop :=
  ∃ k, key = some k ∧ serverKeys.chaChaKey = some k.1

section Invariant

variable (P : Platform) (key : Option (RandomData 32))

/-- A SYNAck brings the server's public key; ACK and Ready are sent in agreement. -/
structure GoodForClient (serverKeys : SecurityKey) (f : Frame) : Prop where
  synAck : f.header.packetAction = .synAck → ∃ localKeys,
    serverKeys.localRSAKeys = some localKeys ∧ f.packet = BaseTCPServer.publicKeyText P localKeys
  agreed : f.header.packetAction = .ack ∨ f.header.packetAction = .ready → Agreed key serverKeys

/-- An ACK carries the key of the client; Ready is sent in agreement. -/
structure GoodForServer (serverKeys : SecurityKey) (f : Frame) : Prop where
  ack : f.header.packetAction = .ack → ∃ localKeys k,
    serverKeys.localRSAKeys = some localKeys ∧ key = some k ∧
      BaseTCPServer.Carries P localKeys k.1 f
  agreed : f.header.packetAction = .ready → Agreed key serverKeys

/-- The invariant of a connection; `key` is what its client has generated. -/
structure Sound (l : Link) : Prop where
  own : OwnKeys P l.serverKeys
  clientKey : l.client.keys.chaChaKey = key.map Subtype.val
  begun : key.isSome = (l.client.isAuthenticating || l.client.isAuthenticated)
  authenticating : l.client.thread = .authenticating → l.client.isAuthenticating = true
  serverKey : l.serverKeys.chaChaKey = none ∨ Agreed key l.serverKeys
  toServer : ∀ f ∈ l.toServer, GoodForServer P key l.serverKeys f
  toClient : ∀ f ∈ l.toClient, GoodForClient P key l.serverKeys f
  agreed : l.client.isAuthenticated = true → Agreed key l.serverKeys

/-- A step of one end, or of the network, that is no part of a handshake. -/
structure Quiet (l l' : Link) : Prop where
  serverKeys : l'.serverKeys = l.serverKeys
  clientKey : l'.client.keys.chaChaKey = l.client.keys.chaChaKey
  isAuthenticating : l'.client.isAuthenticating = l.client.isAuthenticating
  isAuthenticated : l'.client.isAuthenticated = l.client.isAuthenticated
  thread : l'.client.thread = .authenticating → l.client.thread = .authenticating
  toServer : ∀ f ∈ l'.toServer, f ∈ l.toServer ∨ ¬ f.header.packetAction.IsHandshake
  toClient : ∀ f ∈ l'.toClient, f ∈ l.toClient ∨ ¬ f.header.packetAction.IsHandshake

end Invariant

variable {P : Platform} {key : Option (RandomData 32)} {serverKeys : SecurityKey} {f : Frame}
  {l l' : Link}

theorem goodForClient_of_not_isHandshake (h : ¬ f.header.packetAction.IsHandshake) :
    GoodForClient P key serverKeys f where
  synAck haction := absurd (Or.inr (Or.inl haction)) h
  agreed haction := absurd (Or.inr (Or.inr haction)) h

theorem goodForServer_of_not_isHandshake (h : ¬ f.header.packetAction.IsHandshake) :
    GoodForServer P key serverKeys f where
  ack haction := absurd (Or.inr (Or.inr (Or.inl haction))) h
  agreed haction := absurd (Or.inr (Or.inr (Or.inr haction))) h

theorem Sound.quiet (h : Sound P key l) (hquiet : Quiet l l') : Sound P key l' where
  own := by
    rw [hquiet.serverKeys]
    exact h.own
  clientKey := hquiet.clientKey.trans h.clientKey
  begun := by
    rw [hquiet.isAuthenticating, hquiet.isAuthenticated]
    exact h.begun
  authenticating hthread := by
    rw [hquiet.isAuthenticating]
    exact h.authenticating (hquiet.thread hthread)
  serverKey := by
    rw [hquiet.serverKeys]
    exact h.serverKey
  toServer f hf := by
    rw [hquiet.serverKeys]
    exact (hquiet.toServer f hf).elim (h.toServer f) goodForServer_of_not_isHandshake
  toClient f hf := by
    rw [hquiet.serverKeys]
    exact (hquiet.toClient f hf).elim (h.toClient f) goodForClient_of_not_isHandshake
  agreed hauthenticated := by
    rw [hquiet.isAuthenticated] at hauthenticated
    rw [hquiet.serverKeys]
    exact h.agreed hauthenticated

/-- Before the key was generated, or before the connection was accepted, there is no
agreement. -/
theorem not_agreed_of_serverKeys : ¬ Agreed key {} := by
  rintro ⟨k, -, hstored⟩
  simp at hstored

/-! ## The turns of a handshake -/

theorem takeFrom_spec {channel rest : List Frame} {received : Received}
    (h : Session.takeFrom channel received = some rest) :
    (∀ f ∈ rest, f ∈ channel) ∧
      ∀ f, received = .packet f → f.header.packetAction ≠ .empty → f ∈ channel := by
  cases received with
  | threw e =>
      obtain rfl := Option.some.inj h
      exact ⟨fun f hf => hf, fun f hf => by simp at hf⟩
  | packet g =>
      cases channel with
      | nil =>
          simp only [Session.takeFrom] at h
          split_ifs at h with hnothing
          obtain rfl := Option.some.inj h
          refine ⟨fun f hf => hf, ?_⟩
          rintro f ⟨⟩ hne
          rw [hnothing] at hne
          exact absurd rfl hne
      | cons g' rest' =>
          simp only [Session.takeFrom] at h
          split_ifs at h with hhead hnothing
          · obtain rfl := Option.some.inj h
            refine ⟨fun f hf => List.mem_cons_of_mem _ hf, ?_⟩
            rintro f ⟨⟩ -
            rw [hhead]
            exact List.mem_cons_self
          · obtain rfl := Option.some.inj h
            refine ⟨fun f hf => hf, ?_⟩
            rintro f ⟨⟩ hne
            rw [hnothing] at hne
            exact absurd rfl hne

/-- The server's end, after a turn. -/
def Link.serverTurn (P : Platform) (l : Link) (turn : Turn) (rest : List Frame) : Link :=
  let handled := Authentication.takeTurn (BaseTCPServer.handleAuthenticationPacket P) l.serverKeys
    turn
  { l with
    serverKeys := handled.keys
    toServer := rest
    toClient := l.toClient ++ handled.replies }

theorem GoodForServer.stores (hgood : GoodForServer P key serverKeys f)
    (haction : f.header.packetAction = .ack) {localKeys : RSAExport} {keyData : Option Bytes}
    (hown : serverKeys.localRSAKeys = some localKeys)
    (hstored : ∀ settings io,
      BaseTCPServer.milestone P localKeys ⟨settings, io, .packet f⟩ = some (.storedKey keyData)) :
    ∃ k, key = some k ∧ keyData = some k.1 := by
  obtain ⟨localKeys', k, hown', hkey, hcarries⟩ := hgood.ack haction
  obtain rfl : localKeys' = localKeys := by simpa [hown] using hown'.symm
  refine ⟨k, hkey, ?_⟩
  simpa using hcarries none PacketHelper.quiet _ (hstored none PacketHelper.quiet)

theorem Sound.answered (h : Sound P key l) {gs : List Frame}
    (hgs : ∀ g ∈ gs, GoodForClient P key l.serverKeys g) :
    Sound P key { l with toClient := l.toClient ++ gs } :=
  { h with toClient := fun g hg => (List.mem_append.1 hg).elim (h.toClient g) (hgs g) }

theorem Sound.stored (h : Sound P key l) {k : RandomData 32} (hkey : key = some k) :
    Sound P key { l with serverKeys := { l.serverKeys with chaChaKey := some k.1 } } := by
  have hagreed : Agreed key { l.serverKeys with chaChaKey := some k.1 } := ⟨k, hkey, rfl⟩
  refine { h with serverKey := Or.inr hagreed, toServer := fun f hf => ?_
                  toClient := fun f hf => ?_, agreed := fun _ => hagreed }
  · exact ⟨(h.toServer f hf).ack, fun _ => hagreed⟩
  · exact ⟨(h.toClient f hf).synAck, fun _ => hagreed⟩

theorem Sound.serverTurn (h : Sound P key l) {turn : Turn} {rest : List Frame}
    (hrest : Session.takeFrom l.toServer turn.received = some rest) :
    Sound P key (l.serverTurn P turn rest) := by
  obtain ⟨hsub, hread⟩ := takeFrom_spec hrest
  have hbefore : Sound P key { l with toServer := rest } :=
    h.quiet ⟨rfl, rfl, rfl, rfl, id, fun f hf => Or.inl (hsub f hf), fun f hf => Or.inl hf⟩
  unfold Link.serverTurn
  rcases Authentication.takeTurn_cases (BaseTCPServer.handleAuthenticationPacket P)
    l.serverKeys turn with ⟨hkeys, hreplies⟩ | ⟨f, hreceived, hne, hturn⟩
  · simp only [hkeys, hreplies, List.append_nil]
    exact hbefore
  have hgood := h.toServer f (hread f hreceived hne)
  simp only [hturn]
  cases BaseTCPServer.handleAuthenticationPacket_answers (P := P) turn.settings turn.io
      l.serverKeys f with
  | nothing keys_eq replies =>
      simp only [keys_eq, replies, List.append_nil]
      exact hbefore
  | offers localKeys own keys_eq replies =>
      simp only [keys_eq]
      apply hbefore.answered
      intro g hg
      obtain ⟨haction, hpacket⟩ := replies g hg
      refine ⟨fun _ => ⟨localKeys, own, hpacket⟩, fun hother => ?_⟩
      rw [haction] at hother
      exact absurd hother (by decide)
  | stores localKeys keyData action own stored keys_eq replies =>
      obtain ⟨k, hkey, rfl⟩ := hgood.stores action own stored
      simp only [keys_eq]
      apply (hbefore.stored hkey).answered
      intro g hg
      refine ⟨fun hother => ?_, fun _ => ⟨k, hkey, rfl⟩⟩
      rw [replies g hg] at hother
      exact absurd hother (by decide)
  | readies action keys_eq replies =>
      simp only [keys_eq]
      apply hbefore.answered
      intro g hg
      refine ⟨fun hother => ?_, fun _ => hgood.agreed action⟩
      rw [replies g hg] at hother
      exact absurd hother (by decide)

/-- The client's end, after a turn. -/
def Link.clientTurn (P : Platform) (l : Link) (io : Ambient) (received : Received)
    (rest : List Frame) : Link :=
  let r := l.client.authenticate P io received
  { l with
    client := r.1
    toServer := l.toServer ++ r.2.filterMap BaseTCPClient.Output.sentFrame
    toClient := rest }

theorem Sound.clientAnswers (rsa : P.RSALaws) (hauth : P.packetAuthentication.RoundTrips)
    (hjson : P.packetEncrypted.RoundTrips) (h : Sound P key l) {k : RandomData 32}
    (hkey : key = some k) {turn : Turn} {rest : List Frame}
    (hrest : Session.takeFrom l.toClient turn.received = some rest) :
    let handled := Authentication.takeTurn (BaseTCPClient.handleAuthenticationPacket P)
      l.client.keys turn
    handled.keys.chaChaKey = l.client.keys.chaChaKey ∧
      ∀ g ∈ handled.replies, GoodForServer P key l.serverKeys g := by
  intro handled
  rcases Authentication.takeTurn_cases (BaseTCPClient.handleAuthenticationPacket P)
    l.client.keys turn with ⟨hkeys, hreplies⟩ | ⟨f, hreceived, hne, hturn⟩
  · exact ⟨congrArg _ hkeys, fun g hg => by simp [handled, hreplies] at hg⟩
  have hgood := h.toClient f ((takeFrom_spec hrest).2 f hreceived hne)
  simp only [handled, hturn]
  cases BaseTCPClient.handleAuthenticationPacket_answers rsa hauth turn.settings turn.io
      l.client.keys f with
  | nothing key_eq replies => exact ⟨key_eq, fun g hg => by simp [replies] at hg⟩
  | acknowledges auth action read key_eq replies =>
      refine ⟨key_eq, fun g hg => ⟨fun _ => ?_, fun hother => ?_⟩⟩
      · obtain ⟨localKeys, hlocal, hpacket⟩ := hgood.synAck action
        obtain ⟨publicKey, hpublic, hseals⟩ := replies g hg
        -- the public key is the server's
        rw [hpacket, BaseTCPServer.publicKeyText, hauth.isValidJSONBytes_toJSON] at read
        obtain rfl : localKeys.publicKey = publicKey := by
          rw [← Option.some.inj (Option.some.inj read)] at hpublic
          exact Option.some.inj hpublic
        rw [h.clientKey, hkey] at hseals
        exact ⟨localKeys, k, hlocal, hkey, BaseTCPServer.carries_of_sealsFor rsa hauth hjson
          (h.own localKeys hlocal) hseals⟩
      · obtain ⟨publicKey, -, haction, -⟩ := replies g hg
        rw [haction] at hother
        exact absurd hother (by decide)
  | readies action key_eq replies =>
      refine ⟨key_eq, fun g hg => ⟨fun hother => ?_, fun _ => hgood.agreed (Or.inl action)⟩⟩
      rw [replies g hg] at hother
      exact absurd hother (by decide)

theorem agreed_of_ready (h : Sound P key l) {k : RandomData 32} (hkey : key = some k)
    {turn : Turn} {rest : List Frame} {reply : Option Frame}
    (hrest : Session.takeFrom l.toClient turn.received = some rest)
    (hready : (Authentication.takeTurn (BaseTCPClient.handleAuthenticationPacket P)
      l.client.keys turn).outcome = .ok (some .ready, reply)) : Agreed key l.serverKeys := by
  rcases Authentication.takeTurn_ok hready with ⟨-, hnone, -⟩ | ⟨f, hreceived, hne, hturn⟩
  · simp at hnone
  · rw [hturn] at hready
    have hclient : l.client.keys.chaChaKey = some k.1 := by
      rw [h.clientKey, hkey]
      rfl
    have hmilestone := (BaseTCPClient.handleAuthenticationPacket_spec P turn.settings turn.io f
      hclient).2 _ _ hready
    have haction : f.header.packetAction = .ready :=
      (BaseTCPClient.milestone_eq_ready_iff P k.1).1 hmilestone.symm
    exact (h.toClient f ((takeFrom_spec hrest).2 f hreceived hne)).agreed (Or.inr haction)

theorem Sound.clientTurn (rsa : P.RSALaws) (hauth : P.packetAuthentication.RoundTrips)
    (hjson : P.packetEncrypted.RoundTrips) (h : Sound P key l)
    (hthread : l.client.thread = .authenticating) (io : Ambient) {received : Received}
    {rest : List Frame} (hrest : Session.takeFrom l.toClient received = some rest) :
    Sound P key (l.clientTurn P io received rest) := by
  obtain ⟨k, hkey⟩ : ∃ k, key = some k := by
    apply Option.isSome_iff_exists.1
    rw [h.begun, h.authenticating hthread, Bool.true_or]
  have hrest' : Session.takeFrom l.toClient
      (⟨l.client.settings, io, received⟩ : Turn).received = some rest := hrest
  obtain ⟨hkeys, hanswers⟩ := h.clientAnswers rsa hauth hjson hkey hrest'
  obtain ⟨hclient, hsent, -, hflags⟩ := l.client.authenticate_spec P io received
  have hclientKey : (l.client.authenticate P io received).1.keys.chaChaKey =
      key.map Subtype.val := by
    rw [hclient, hkeys, h.clientKey]
  have htoServer : ∀ f ∈ l.toServer ++
      (l.client.authenticate P io received).2.filterMap BaseTCPClient.Output.sentFrame,
        GoodForServer P key l.serverKeys f := by
    rw [hsent]
    exact fun f hf => (List.mem_append.1 hf).elim (h.toServer f) (hanswers f)
  have htoClient : ∀ f ∈ rest, GoodForClient P key l.serverKeys f :=
    fun f hf => h.toClient f ((takeFrom_spec hrest).1 f hf)
  rcases hflags with ⟨hing, hed, hthread'⟩ | ⟨reply, hready, hing, hed, hthread'⟩
  · exact
      { own := h.own, clientKey := hclientKey
        begun := by
          change key.isSome = ((l.client.authenticate P io received).1.isAuthenticating ||
            (l.client.authenticate P io received).1.isAuthenticated)
          rw [hing, hed]
          exact h.begun
        authenticating := fun _ => hing.trans (h.authenticating hthread)
        serverKey := h.serverKey, toServer := htoServer, toClient := htoClient
        agreed := fun hauthenticated => h.agreed (hed.symm.trans hauthenticated) }
  · have hagreed := agreed_of_ready h hkey hrest' hready
    exact
      { own := h.own, clientKey := hclientKey
        begun := by
          change key.isSome = ((l.client.authenticate P io received).1.isAuthenticating ||
            (l.client.authenticate P io received).1.isAuthenticated)
          rw [hing, hed, hkey]
          rfl
        authenticating := fun hback => by
          rw [show (l.clientTurn P io received rest).client.thread = .beating from hthread'] at hback
          simp at hback
        serverKey := h.serverKey, toServer := htoServer, toClient := htoClient
        agreed := fun _ => hagreed }

/-! ## The beginning of a connection -/

theorem Sound.accepted (h : Sound P key l) (hfresh : l.serverKeys = {}) {localKeys : RSAExport}
    (hcreated : P.Created localKeys) :
    Sound P key { l with serverKeys := BaseTCPServer.startKeys localKeys } where
  own localKeys' hlocal := by
    obtain rfl : localKeys = localKeys' := Option.some.inj hlocal
    exact hcreated
  clientKey := h.clientKey
  begun := h.begun
  authenticating := h.authenticating
  serverKey := Or.inl rfl
  toServer f hf := by
    have hgood := h.toServer f hf
    rw [hfresh] at hgood
    refine ⟨fun hack => ?_, fun hready => absurd (hgood.agreed hready) not_agreed_of_serverKeys⟩
    obtain ⟨localKeys', k, hlocal, -⟩ := hgood.ack hack
    simp at hlocal
  toClient f hf := by
    have hgood := h.toClient f hf
    rw [hfresh] at hgood
    refine ⟨fun hsynAck => ?_, fun hother => absurd (hgood.agreed hother) not_agreed_of_serverKeys⟩
    obtain ⟨localKeys', hlocal, -⟩ := hgood.synAck hsynAck
    simp at hlocal
  agreed hauthenticated := by
    have hagreed := h.agreed hauthenticated
    rw [hfresh] at hagreed
    exact absurd hagreed not_agreed_of_serverKeys

theorem not_agreed_none : ¬ Agreed none serverKeys := by
  rintro ⟨k, hnone, -⟩
  simp at hnone

theorem Sound.begins (h : Sound P none l) {k : RandomData 32} {client : BaseTCPClient.Client}
    {sent : List Frame} (hkey : client.keys.chaChaKey = some k.1)
    (hing : client.isAuthenticating = true) (hed : client.isAuthenticated = false)
    (hsyn : ∀ f ∈ sent, f.header.packetAction = .syn) :
    Sound P (some k) { l with client, toServer := l.toServer ++ sent } where
  own := h.own
  clientKey := hkey
  begun := by
    change true = (client.isAuthenticating || client.isAuthenticated)
    rw [hing]
    rfl
  authenticating _ := hing
  serverKey := Or.inl (h.serverKey.resolve_right not_agreed_none)
  toServer f hf := by
    rcases List.mem_append.1 hf with hold | hnew
    · have hgood := h.toServer f hold
      refine ⟨fun hack => ?_, fun hready => absurd (hgood.agreed hready) not_agreed_none⟩
      obtain ⟨localKeys, k', -, hnone, -⟩ := hgood.ack hack
      simp at hnone
    · refine ⟨fun hack => ?_, fun hready => ?_⟩
      · rw [hsyn f hnew] at hack
        exact absurd hack (by decide)
      · rw [hsyn f hnew] at hready
        exact absurd hready (by decide)
  toClient f hf := by
    have hgood := h.toClient f hf
    exact ⟨hgood.synAck, fun hother => absurd (hgood.agreed hother) not_agreed_none⟩
  agreed hauthenticated := by
    rw [show client.isAuthenticated = true from hauthenticated] at hed
    simp at hed

theorem sound_connected (peerId : Guid) (settings : Option PeerSettings)
    (created : DateTime × DateTime) :
    Sound P none ⟨{}, BaseTCPClient.start peerId settings created, [], []⟩ where
  own := by
    intro localKeys hlocal
    simp at hlocal
  clientKey := rfl
  begun := rfl
  authenticating hthread := by simp [BaseTCPClient.start] at hthread
  serverKey := Or.inl rfl
  toServer f hf := by simp at hf
  toClient f hf := by simp at hf
  agreed hauthenticated := by simp [BaseTCPClient.start] at hauthenticated

/-! ## All connections -/

namespace Session

def link (s : Session) (c : ConnId) : Link :=
  ⟨s.server.keys c, s.clients c, s.toServer c, s.toClient c⟩

/-- What the client of connection `c` has generated. -/
def Generated (os : List Output) (c : ConnId) (key : Option (RandomData 32)) : Prop :=
  ∀ k, .client c (.generated k) ∈ os ↔ key = some k

/-- The invariant of a session. -/
structure Invariant (P : Platform) (s : Session) (os : List Output) : Prop where
  accepted : s.server.accepted ≤ s.connected
  fresh : ∀ c, s.server.accepted ≤ c → s.server.keys c = {}
  known : ∀ c o, .client c o ∈ os → c < s.connected
  sound : ∀ c, ∃ key, Generated os c key ∧ Sound P key (s.link c)

variable {P : Platform} {s t : Session} {os : List Output}

theorem readFrom_subset {channel rest : List Frame} {received : Option Received}
    (h : readFrom channel received = some rest) : ∀ f ∈ rest, f ∈ channel := by
  cases received with
  | none =>
      obtain rfl := Option.some.inj h
      exact fun f hf => hf
  | some received => exact (takeFrom_spec h).1

/-! ### Steps of the server -/

theorem stepServer_spec {e : BaseTCPServer.Event} {o : List BaseTCPServer.Output}
    (h : s.stepServer P e = some (t, o)) :
    BaseTCPServer.Stepped P s.server e (t.server, o) ∧
      (e.IsAccept = true → s.server.accepted < s.connected) ∧
      t.clients = s.clients ∧ t.connected = s.connected ∧
      (∀ c, t.toClient c = s.toClient c ++ o.filterMap (BaseTCPServer.Output.sentOn c)) ∧
      (∀ c, s.server.thread.serving = some c →
        readFrom (s.toServer c) e.received = some (t.toServer c)) ∧
      ∀ c, s.server.thread.serving ≠ some c → t.toServer c = s.toServer c := by
  unfold stepServer at h
  split_ifs at h with hnobody
  simp only [bind, Option.bind_eq_some_iff, pure, Option.some.injEq, Prod.mk.injEq,
    Prod.exists] at h
  obtain ⟨toServer, hread, server, o', hstep, rfl, rfl⟩ := h
  refine ⟨BaseTCPServer.server_step_iff.1 hstep, fun haccept => ?_, rfl, rfl, fun c => rfl, ?_, ?_⟩
  · exact Nat.lt_of_not_le fun hle => hnobody ⟨haccept, hle⟩
  all_goals unfold serverReads at hread
  · intro c hserving
    rw [hserving] at hread
    obtain ⟨rest, hrest, rfl⟩ := Option.map_eq_some_iff.1 hread
    rw [hrest]
    exact congrArg some (Function.update_self c rest s.toServer).symm
  · intro c hserving
    cases hother : s.server.thread.serving with
    | none =>
        rw [hother] at hread
        obtain rfl := Option.some.inj hread
        rfl
    | some c' =>
        rw [hother] at hread hserving
        obtain ⟨rest, -, rfl⟩ := Option.map_eq_some_iff.1 hread
        exact Function.update_of_ne (fun hc => hserving (congrArg some hc.symm)) _ _

theorem stepServer_subset {e : BaseTCPServer.Event} {o : List BaseTCPServer.Output}
    (h : s.stepServer P e = some (t, o)) (c : ConnId) :
    ∀ f ∈ t.toServer c, f ∈ s.toServer c := by
  obtain ⟨-, -, -, -, -, hserved, hother⟩ := stepServer_spec h
  by_cases hserving : s.server.thread.serving = some c
  · exact readFrom_subset (hserved c hserving)
  · rw [hother c hserving]
    exact fun f hf => hf

theorem quiet_of_stepServer {e : BaseTCPServer.Event} {o : List BaseTCPServer.Output}
    (h : s.stepServer P e = some (t, o)) {c : ConnId}
    (hsent : ∀ f ∈ o.filterMap (BaseTCPServer.Output.sentOn c),
      ¬ f.header.packetAction.IsHandshake) :
    Quiet (s.link c) { t.link c with serverKeys := s.server.keys c } := by
  obtain ⟨-, -, hclients, -, htoClient, -, -⟩ := stepServer_spec h
  have hclient : (t.link c).client = (s.link c).client := congrFun hclients c
  refine ⟨rfl, ?_, ?_, ?_, ?_, fun f hf => Or.inl (stepServer_subset h c f hf), fun f hf => ?_⟩
  · rw [hclient]
  · rw [hclient]
  · rw [hclient]
  · rw [hclient]
    exact id
  · rw [show ({ t.link c with serverKeys := s.server.keys c } : Link).toClient = _ from
      htoClient c] at hf
    exact (List.mem_append.1 hf).imp_right (hsent f)

/-- The connection keeps its invariant, whatever the server does. -/
theorem sound_of_stepServer (hinv : Invariant P s os) {e : BaseTCPServer.Event}
    {o : List BaseTCPServer.Output} (h : s.stepServer P e = some (t, o)) {c : ConnId}
    {key : Option (RandomData 32)} (hsound : Sound P key (s.link c)) :
    Sound P key (t.link c) := by
  obtain ⟨hstepped, -, hclients, -, htoClient, hserved, -⟩ := stepServer_spec h
  have hquiet := quiet_of_stepServer h (c := c)
  by_cases hturn : ∃ io received, e = .handshake io received
  · obtain ⟨io, received, rfl⟩ := hturn
    generalize hr : (t.server, o) = r at hstepped
    cases hstepped with
    | @handshake _ _ c' hthread =>
        obtain ⟨hkeys, hsent⟩ := s.server.authenticate_spec P c' io received
        rw [← hr] at hkeys hsent
        rcases eq_or_ne c c' with rfl | hne
        · -- the connection that is served
          have hserving : s.server.thread.serving = some c := by rw [hthread]; rfl
          have hlink : t.link c = (s.link c).serverTurn P
              ⟨s.server.self.settings, io, received⟩ (t.toServer c) := by
            unfold Link.serverTurn
            simp only [link, htoClient, hclients, hkeys, hsent, Function.update_self, if_true]
          rw [hlink]
          exact hsound.serverTurn (hserved c hserving)
        · have hkept : t.server.keys c = s.server.keys c := by
            rw [hkeys, Function.update_of_ne hne]
          have hlink := hsound.quiet (hquiet fun f hf => by
            rw [hsent c, if_neg hne] at hf
            simp at hf)
          rw [← hkept] at hlink
          exact hlink
  · have hne : ∀ io received, e ≠ .handshake io received :=
      fun io received he => hturn ⟨io, received, he⟩
    have hlink := hsound.quiet (hquiet fun f hf =>
      hstepped.sent_action hne (BaseTCPServer.mem_filterMap_sentOn_iff.1 hf))
    rcases hstepped.keys with hsame | ⟨created, entropy, localKeys, rfl, -, hcreate, hnew⟩ |
      ⟨io, received, c', he, -⟩
    · rw [← show t.server.keys c = s.server.keys c from congrFun hsame c] at hlink
      exact hlink
    · -- a connection is accepted
      rcases eq_or_ne c s.server.accepted with rfl | hother
      · have hkeys : t.server.keys s.server.accepted = BaseTCPServer.startKeys localKeys := by
          rw [show t.server.keys = _ from hnew, Function.update_self]
        have haccepted := hlink.accepted (hinv.fresh _ (Nat.le_refl _)) ⟨8192, entropy, hcreate⟩
        rw [← hkeys] at haccepted
        exact haccepted
      · rw [← show t.server.keys c = s.server.keys c by
          rw [show t.server.keys = _ from hnew, Function.update_of_ne hother]] at hlink
        exact hlink
    · exact absurd he (hne io received)

theorem takeTurn_of_fresh {turn : Turn} :
    (Authentication.takeTurn (BaseTCPServer.handleAuthenticationPacket P) {} turn).keys = {} := by
  apply Authentication.takeTurn_keys (I := fun keys => keys = {}) {} turn rfl
  intro f _
  cases BaseTCPServer.handleAuthenticationPacket_answers (P := P) turn.settings turn.io {} f with
  | nothing keys_eq replies => exact keys_eq
  | offers localKeys own keys_eq replies => exact keys_eq
  | stores localKeys keyData action own stored keys_eq replies => simp at own
  | readies action keys_eq replies => exact keys_eq

theorem accepted_of_stepped {server : BaseTCPServer.Server} {e : BaseTCPServer.Event}
    {r : BaseTCPServer.Server × List BaseTCPServer.Output}
    (h : BaseTCPServer.Stepped P server e r) :
    r.1.accepted = server.accepted + e.IsAccept.toNat := by
  cases h with
  | accept h =>
      simp only [BaseTCPServer.Server.acceptClient]
      split <;> rfl
  | gate h =>
      simp only [BaseTCPServer.Server.passGate]
      split_ifs <;> rfl
  | handshake h =>
      simp only [BaseTCPServer.Server.authenticate]
      split
      · rfl
      · split_ifs <;> rfl
  | beat h =>
      simp only [BaseTCPServer.Server.takeBeat, BaseTCPServer.Server.afterBeat]
      split_ifs <;> rfl
  | receive h =>
      simp only [BaseTCPServer.Server.takePacket]
      split
      · rfl
      · split <;> rfl
  | cancelServer => rfl
  | cancelClient => rfl
  | elsewhere => rfl

theorem Invariant.server (hinv : Invariant P s os) {e : BaseTCPServer.Event}
    {o : List BaseTCPServer.Output} (h : s.stepServer P e = some (t, o)) :
    Invariant P t (os ++ o.map .server) := by
  obtain ⟨hstepped, haccept, hclients, hconnected, -, -, -⟩ := stepServer_spec h
  have hold : ∀ c x, Output.client c x ∈ os ++ o.map .server ↔ .client c x ∈ os := by
    intro c x
    simp
  have haccepted : t.server.accepted = s.server.accepted + e.IsAccept.toNat :=
    accepted_of_stepped hstepped
  constructor
  · rw [haccepted, hconnected]
    cases hlt : e.IsAccept with
    | true => exact haccept hlt
    | false => exact hinv.accepted
  · intro c hc
    have hle : s.server.accepted ≤ c := by omega
    rcases hstepped.keys with hsame | ⟨created, entropy, localKeys, rfl, -, -, hnew⟩ |
      ⟨io, received, c', -, -, hturn⟩
    · rw [show t.server.keys = _ from hsame]
      exact hinv.fresh c hle
    · have hne : c ≠ s.server.accepted := by
        have hone : (BaseTCPServer.Event.accept created entropy).IsAccept.toNat = 1 := rfl
        omega
      rw [show t.server.keys = _ from hnew, Function.update_of_ne hne]
      exact hinv.fresh c hle
    · rw [show t.server.keys = _ from hturn]
      rcases eq_or_ne c c' with rfl | hne
      · rw [Function.update_self, hinv.fresh c hle]
        exact takeTurn_of_fresh
      · rw [Function.update_of_ne hne]
        exact hinv.fresh c hle
  · intro c x hx
    rw [hconnected]
    exact hinv.known c x ((hold c x).1 hx)
  · intro c
    obtain ⟨key, hgenerated, hsound⟩ := hinv.sound c
    exact ⟨key, fun k => (hold c _).trans (hgenerated k), sound_of_stepServer hinv h hsound⟩

/-! ### Steps of the clients -/

theorem stepClient_spec {c : ConnId} {e : BaseTCPClient.Event} {o : List BaseTCPClient.Output}
    (h : s.stepClient P c e = some (t, o)) :
    BaseTCPClient.Stepped P (s.clients c) e (t.clients c, o) ∧
      (∀ c', c' ≠ c → t.link c' = s.link c') ∧ t.server = s.server ∧ t.connected = s.connected ∧
      readFrom (s.toClient c) e.received = some (t.toClient c) ∧
      t.toServer c = s.toServer c ++ o.filterMap BaseTCPClient.Output.sentFrame := by
  unfold stepClient at h
  simp only [bind, Option.bind_eq_some_iff, pure, Option.some.injEq, Prod.mk.injEq,
    Prod.exists] at h
  obtain ⟨toClient, hread, client, o', hstep, rfl, rfl⟩ := h
  refine ⟨?_, fun c' hne => ?_, rfl, rfl, ?_, ?_⟩
  · simp only [Function.update_self]
    exact BaseTCPClient.client_step_iff.1 hstep
  · simp only [link, Function.update_of_ne hne]
  · simp only [Function.update_self]
    exact hread
  · simp only [Function.update_self]

theorem sound_of_stepClient (rsa : P.RSALaws) (hauth : P.packetAuthentication.RoundTrips)
    (hjson : P.packetEncrypted.RoundTrips) {c : ConnId} {e : BaseTCPClient.Event}
    {o : List BaseTCPClient.Output} (h : s.stepClient P c e = some (t, o))
    {key : Option (RandomData 32)} (hsound : Sound P key (s.link c)) :
    ∃ key', (∀ k, key' = some k ↔ key = some k ∨ .generated k ∈ o) ∧
      Sound P key' (t.link c) := by
  obtain ⟨hstepped, -, hserver, -, hread, hwrite⟩ := stepClient_spec h
  have hkeys : t.server.keys c = s.server.keys c := by rw [hserver]
  cases BaseTCPClient.moves_of_stepped hstepped with
  | begins k sent before stored after out syn silent =>
      obtain rfl : key = none := by
        have hbegun := hsound.begun
        rw [show (s.link c).client = s.clients c from rfl, before.1, before.2] at hbegun
        simpa using hbegun
      rw [silent] at hread
      have hnext := hsound.begins stored after.1 after.2 syn
      refine ⟨some k, fun k' => ?_, ?_⟩
      · rw [show o = _ from out]
        simp [eq_comm]
      · have hlink : t.link c = { s.link c with
            client := t.clients c, toServer := (s.link c).toServer ++ sent } := by
          have hframes : o.filterMap BaseTCPClient.Output.sentFrame = sent := by
            rw [show o = _ from out, List.filterMap_cons_none rfl,
              BaseTCPClient.filterMap_sentFrame]
          simp only [link, hkeys, hwrite, hframes, ← Option.some.inj hread]
        rw [hlink]
        exact hnext
  | turns io received event before next =>
      subst event
      have hnext := hsound.clientTurn rsa hauth hjson before io hread
      have hclient : t.clients c = ((s.clients c).authenticate P io received).1 :=
        congrArg Prod.fst next
      have hout : o = ((s.clients c).authenticate P io received).2 := congrArg Prod.snd next
      have hlink : t.link c = (s.link c).clientTurn P io received (t.toClient c) := by
        unfold Link.clientTurn
        simp only [link, hkeys, hwrite, hclient, hout]
      have hnone := ((s.clients c).authenticate_spec P io received).2.2.1
      refine ⟨key, fun k => ?_, ?_⟩
      · rw [hout]
        simp [hnone k]
      · rw [hlink]
        exact hnext
  | goesOn key_eq isAuthenticating isAuthenticated thread out sent =>
      refine ⟨key, fun k => ?_, ?_⟩
      · exact ⟨Or.inl, fun hk => hk.resolve_right fun hmem => out _ hmem k rfl⟩
      · refine hsound.quiet ⟨hkeys, congrArg _ key_eq, isAuthenticating, isAuthenticated, thread,
          fun f hf => ?_, fun f hf => Or.inl (readFrom_subset hread f hf)⟩
        rw [show (t.link c).toServer = _ from hwrite] at hf
        exact (List.mem_append.1 hf).imp_right (sent f)

theorem Invariant.client (rsa : P.RSALaws) (hauth : P.packetAuthentication.RoundTrips)
    (hjson : P.packetEncrypted.RoundTrips) (hinv : Invariant P s os) {c : ConnId}
    (hc : c < s.connected) {e : BaseTCPClient.Event} {o : List BaseTCPClient.Output}
    (h : s.stepClient P c e = some (t, o)) : Invariant P t (os ++ o.map (.client c)) := by
  obtain ⟨-, hother, hserver, hconnected, -, -⟩ := stepClient_spec h
  have hmem : ∀ c' x, Output.client c' x ∈ os ++ o.map (.client c) ↔
      .client c' x ∈ os ∨ c' = c ∧ x ∈ o := by
    intro c' x
    simp only [List.mem_append, List.mem_map, Output.client.injEq]
    constructor
    · rintro (hold | ⟨y, hy, rfl, rfl⟩)
      · exact Or.inl hold
      · exact Or.inr ⟨rfl, hy⟩
    · rintro (hold | ⟨rfl, hx⟩)
      · exact Or.inl hold
      · exact Or.inr ⟨x, hx, rfl, rfl⟩
  constructor
  · rw [hserver, hconnected]
    exact hinv.accepted
  · rw [hserver]
    exact hinv.fresh
  · intro c' x hx
    rw [hconnected]
    rcases (hmem c' x).1 hx with hold | ⟨rfl, -⟩
    · exact hinv.known c' x hold
    · exact hc
  · intro c'
    obtain ⟨key, hgenerated, hsound⟩ := hinv.sound c'
    rcases eq_or_ne c' c with rfl | hne
    · obtain ⟨key', hkey', hsound'⟩ := sound_of_stepClient rsa hauth hjson h hsound
      refine ⟨key', fun k => ?_, hsound'⟩
      rw [hmem, hkey', hgenerated k]
      simp
    · refine ⟨key, fun k => ?_, ?_⟩
      · rw [hmem, hgenerated k]
        simp [hne]
      · rw [hother c' hne]
        exact hsound

/-! ### The network -/

theorem Invariant.connect (hinv : Invariant P s os) (peerId : Guid)
    (settings : Option PeerSettings) (created : DateTime × DateTime) :
    Invariant P (s.connect peerId settings created) os := by
  refine ⟨Nat.le_succ_of_le hinv.accepted, hinv.fresh,
    fun c x hx => Nat.lt_succ_of_lt (hinv.known c x hx), fun c => ?_⟩
  rcases eq_or_ne c s.connected with rfl | hne
  · -- nothing has happened on the new connection
    refine ⟨none, fun k => ?_, ?_⟩
    · refine iff_of_false (fun hmem => ?_) (by simp)
      exact Nat.lt_irrefl _ (hinv.known _ _ hmem)
    · have hlink : (s.connect peerId settings created).link s.connected =
          ⟨{}, BaseTCPClient.start peerId settings created, [], []⟩ := by
        simp only [link, Session.connect, Function.update_self, hinv.fresh _ hinv.accepted]
      rw [hlink]
      exact sound_connected peerId settings created
  · have hlink : (s.connect peerId settings created).link c = s.link c := by
      simp only [link, Session.connect, Function.update_of_ne hne]
    rw [hlink]
    exact hinv.sound c

/-- A frame of another thread does not matter, on whichever channel. -/
theorem Invariant.also (hinv : Invariant P s os) {toServer toClient : ConnId → List Frame}
    (htoServer : ∀ c, ∀ f ∈ toServer c,
      f ∈ s.toServer c ∨ ¬ f.header.packetAction.IsHandshake)
    (htoClient : ∀ c, ∀ f ∈ toClient c,
      f ∈ s.toClient c ∨ ¬ f.header.packetAction.IsHandshake) :
    Invariant P { s with toServer, toClient } os := by
  refine ⟨hinv.accepted, hinv.fresh, hinv.known, fun c => ?_⟩
  obtain ⟨key, hgenerated, hsound⟩ := hinv.sound c
  exact ⟨key, hgenerated, hsound.quiet ⟨rfl, rfl, rfl, rfl, id, htoServer c, htoClient c⟩⟩

theorem mem_update_append {channels : ConnId → List Frame} {c c' : ConnId} {f g : Frame}
    (hf : ¬ f.header.packetAction.IsHandshake)
    (hg : g ∈ Function.update channels c (channels c ++ [f]) c') :
    g ∈ channels c' ∨ ¬ g.header.packetAction.IsHandshake := by
  rcases eq_or_ne c' c with rfl | hne
  · rw [Function.update_self] at hg
    rcases List.mem_append.1 hg with hold | hnew
    · exact Or.inl hold
    · rw [List.mem_singleton.1 hnew]
      exact Or.inr hf
  · rw [Function.update_of_ne hne] at hg
    exact Or.inl hg

theorem invariant_start (P : Platform) (self : Peer) : Invariant P (start self) [] where
  accepted := Nat.le_refl 0
  fresh _ _ := rfl
  known c o hmem := by simp at hmem
  sound c := ⟨none, fun k => by simp, sound_connected .empty none ((0 : Nat), (0 : Nat))⟩

theorem Invariant.step (rsa : P.RSALaws) (hauth : P.packetAuthentication.RoundTrips)
    (hjson : P.packetEncrypted.RoundTrips) (hinv : Invariant P s os) {e : Event}
    {o : List Output} (h : (session P).step s e = some (t, o)) : Invariant P t (os ++ o) := by
  cases e with
  | connect peerId settings created =>
      obtain ⟨rfl, rfl⟩ := Prod.mk.inj (Option.some.inj h)
      rw [List.append_nil]
      exact hinv.connect peerId settings created
  | server e =>
      obtain ⟨⟨t', o'⟩, hstep, hr⟩ := Option.map_eq_some_iff.1 h
      obtain ⟨rfl, rfl⟩ := Prod.mk.inj hr
      exact hinv.server hstep
  | client c e =>
      simp only [session] at h
      split_ifs at h with hc
      obtain ⟨⟨t', o'⟩, hstep, hr⟩ := Option.map_eq_some_iff.1 h
      obtain ⟨rfl, rfl⟩ := Prod.mk.inj hr
      exact hinv.client rsa hauth hjson hc hstep
  | alsoToServer c f =>
      simp only [session] at h
      split_ifs at h with hf
      obtain ⟨rfl, rfl⟩ := Prod.mk.inj (Option.some.inj h)
      rw [List.append_nil]
      exact hinv.also (fun c' g hg => mem_update_append hf.2 hg) fun c' g hg => Or.inl hg
  | alsoToClient c f =>
      simp only [session] at h
      split_ifs at h with hf
      obtain ⟨rfl, rfl⟩ := Prod.mk.inj (Option.some.inj h)
      rw [List.append_nil]
      exact hinv.also (fun c' g hg => Or.inl hg) fun c' g hg => mem_update_append hf.2 hg

/-! ## The result -/

/-- For every client that counts itself as authenticated, the server holds exactly the
key that the client has generated. -/
def KeysAgree (s : Session) (os : List Output) : Prop :=
  ∀ c, (s.clients c).isAuthenticated = true → ∃ key : RandomData 32,
    (∀ key', .client c (.generated key') ∈ os ↔ key' = key) ∧
      (s.server.keys c).chaChaKey = some key.1

theorem Invariant.keysAgree (hinv : Invariant P s os) : KeysAgree s os := by
  intro c hauthenticated
  obtain ⟨key, hgenerated, hsound⟩ := hinv.sound c
  obtain ⟨k, hkey, hstored⟩ := hsound.agreed hauthenticated
  refine ⟨k, fun k' => ?_, hstored⟩
  rw [hgenerated k', hkey, Option.some.injEq]
  exact eq_comm

/-- In every interleaving, whatever the other threads send, the two ends of an
authenticated connection hold the same key. -/
theorem throughout_keysAgree (P : Platform) (rsa : P.RSALaws)
    (hauth : P.packetAuthentication.RoundTrips) (hjson : P.packetEncrypted.RoundTrips)
    (self : Peer) (es : List Event) :
    (session P).Throughout KeysAgree (start self) es := by
  intro pre post t os _ hrun
  have hinv : Invariant P t ([] ++ os) := Machine.invariant
    (fun _ _ _ _ _ hI hstep => hI.step rsa hauth hjson hstep) (invariant_start P self) hrun
  exact hinv.keysAgree

/-- The server reads what has come first on the first connection. -/
def serverTurn (s : Session) : Event :=
  .server (.handshake PacketHelper.quiet (.packet ((s.toServer 0).headD .nothing)))

def clientTurn (s : Session) : Event :=
  .client 0 (.handshake PacketHelper.quiet (.packet ((s.toClient 0).headD .nothing)))

/-- One client connects and authenticates, while a thread of it sends data. -/
def honestSession : List (Session → Event) :=
  [fun _ => .connect .empty (some {}) ((0 : Nat), (0 : Nat)),
    fun _ => .server (.accept ((0 : Nat), (0 : Nat)) []),
    fun _ => .client 0 (.gate PacketHelper.quiet ⟨List.replicate 32 7, rfl⟩),
    fun _ => .alsoToServer 0 ⟨.create 1 .data .none 0, [7]⟩,
    fun _ => .server .gate, serverTurn, clientTurn, serverTurn, serverTurn, clientTurn,
    serverTurn, clientTurn]

theorem throughout_keysAgree_honestSession : ∃ es s os,
    (session Reference.reference).play (start { peerId := .empty }) honestSession =
        some (es, s, os) ∧
      (s.clients 0).isAuthenticated = true ∧ ∃ key : RandomData 32,
        .client 0 (.generated key) ∈ os ∧ (s.server.keys 0).chaChaKey = some key.1 := by
  have hend : ∃ r ∈ (session Reference.reference).play (start { peerId := .empty }) honestSession,
      (r.2.1.clients 0).isAuthenticated = true := by decide +kernel
  obtain ⟨⟨es, s, os⟩, hplay, hauthenticated⟩ := hend
  refine ⟨es, s, os, hplay, hauthenticated, ?_⟩
  obtain ⟨key, hgenerated, hstored⟩ := (throughout_keysAgree Reference.reference
    Reference.reference_rsaLaws Reference.packetAuthentication_roundTrips
    Reference.packetEncrypted_roundTrips { peerId := .empty } es).last (Machine.run_of_play hplay) 0
    hauthenticated
  exact ⟨key, (hgenerated key).2 rfl, hstored⟩

end Session

end NETConnect
