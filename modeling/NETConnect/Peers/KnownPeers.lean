import NETConnect.Peers.Entries
import NETConnect.PingLog
/-!
# The lists of known peers

A node that connects to another one sends it the list of the peers that it knows, and
the server answers with its own.  Only a packet that names a single peer changes the
table of a server, and of these no node sends any.
-/

namespace NETConnect

open Lib SocketExtensions

/-- Only the handles may differ. -/
def Peer.SameTable (self self' : Peer) : Prop := self' = { self with clients := self'.clients }

namespace Peer

variable {self self' self'' : Peer}

theorem SameTable.refl (self : Peer) : self.SameTable self := rfl

theorem SameTable.connectedPeers (h : self.SameTable self') :
    self'.connectedPeers = self.connectedPeers := by rw [h]

theorem SameTable.peerId (h : self.SameTable self') : self'.peerId = self.peerId := by rw [h]

theorem SameTable.numbered (h : self.SameTable self') (hnumbered : self.Numbered) :
    self'.Numbered := by
  refine hnumbered.shrinks ?_ (by rw [h])
  rw [h.connectedPeers]

theorem findPeerById_eq_none {ids : ConnId → Guid} {id : Guid} (h : id ∉ self.ids) :
    self.findPeerById ids id = none := by
  have hnone : self.connectedPeers.find? (fun x => x.info.peerId = id) = none := by
    refine List.find?_eq_none.2 fun x hx hid => h ?_
    exact List.mem_map.2 ⟨x, hx, by simpa using hid⟩
  rw [findPeerById, hnone]
  rfl

theorem removeClient_of_not_mem {P : Platform} {keys : ConnId → SecurityKey}
    {ids : ConnId → Guid} {io : ConnId → Ambient} {id : Guid} (h : id ∉ self.ids) :
    self.removeClient P keys ids io id = (self, [], none) := by
  unfold removeClient
  rw [findPeerById_eq_none h]
  split
  · simp_all
  · rfl

end Peer

/-! ## The ends -/

variable {P : Platform} {key : Option (RandomData 32)}

/-- A packet that is a list of peers, or of another kind. -/
def NamesNobody (P : Platform) (header : PacketHeader) (data : Bytes) : Prop :=
  header.packetAction = .peerJoin → P.peerTable.isValidJSON (getString data) = none

namespace BaseTCPServer

variable {s : Server} {e : Event} {r : Server × List Output} {c : ConnId} {f : Frame}

theorem handleDataReceived_namesNobody {self : Peer} (hnumbered : self.Numbered) (site : Site)
    (conn : Connection) {header : PacketHeader} {data : Bytes}
    (h : NamesNobody P header data) :
    (handleDataReceived P site self c conn header data).self = self ∧
      (handleDataReceived P site self c conn header data).conn.id = conn.id := by
  have hcleaned : ({ self with connectedPeers := Peer.distinct self.connectedPeers } : Peer) =
      self := hnumbered.cleaned_eq
  unfold handleDataReceived handleAction
  split_ifs with hbeat hvoice hrunning hjoin
  · split <;> exact ⟨rfl, rfl⟩
  · exact ⟨rfl, rfl⟩
  · exact ⟨rfl, rfl⟩
  · simp only [h hjoin, Peer.addPeers, hcleaned]
    split
    · split <;> exact ⟨rfl, rfl⟩
    · exact ⟨rfl, rfl⟩
  · exact ⟨rfl, rfl⟩

/-- A server that removes nobody and adds nobody. -/
structure Keeps (s : Server) (r : Server × List Output) : Prop where
  table : s.self.SameTable r.1.self
  /-- no handle has the id of a peer -/
  ids : ∀ c, (r.1.conns c).id = .empty
  stays : ∀ c f, .sent c f ∈ r.2 → f.header.packetAction ≠ .peerLeave

theorem setConn_id (hids : ∀ c, (s.conns c).id = .empty) {conn : Connection}
    (hconn : conn.id = .empty) (c' : ConnId) : ((s.setConn c conn).conns c').id = .empty := by
  rcases eq_or_ne c' c with rfl | hne
  · simpa [Server.setConn] using hconn
  · simpa [Server.setConn, hne] using hids c'

theorem Server.acceptClient_keeps (hids : ∀ c, (s.conns c).id = .empty)
    (created : DateTime × DateTime) (entropy : Bytes) :
    Keeps s (s.acceptClient P created entropy, []) := by
  refine ⟨?_, fun c => ?_, by simp⟩
  · simp only [Server.acceptClient]
    split <;> rfl
  · simp only [Server.acceptClient]
    split
    · exact hids c
    · exact setConn_id (s := { s with accepted := s.accepted + 1 }) hids rfl c

theorem Server.authenticate_keeps (hids : ∀ c, (s.conns c).id = .empty) (c : ConnId)
    (io : Ambient) (received : Received) : Keeps s (s.authenticate P c io received) := by
  refine ⟨?_, fun c' => ?_, fun c' f hf => ?_⟩
  · simp only [Server.authenticate]
    split
    · rfl
    · split_ifs <;> rfl
  · simp only [Server.authenticate]
    split
    · exact setConn_id hids (by exact hids c) c'
    · split_ifs <;> exact setConn_id hids (by exact hids c) c'
  · rw [← mem_filterMap_sentOn_iff, (s.authenticate_spec P c io received).2 c'] at hf
    split_ifs at hf
    · rintro hleave
      have hmessage := isHandshake_of_replies hf
      rw [hleave] at hmessage
      exact absurd hmessage (by decide)
    · simp at hf

/-- The cleanup after a lost connection looks for a peer with the id of its handle. -/
theorem Server.afterBeat_keeps (hnobody : Guid.empty ∉ s.self.ids)
    (hids : ∀ c, (s.conns c).id = .empty) {others : ConnId → Ambient} {beat : Beat}
    (hping : ∀ f ∈ (beat.ping.bind Sent.frame).toList, f.header.packetAction = .ping) :
    Keeps s (s.afterBeat P c others beat) := by
  have hsent : ∀ c' f, .sent c' f ∈ (beat.ping.bind Sent.frame).toList.map (Output.sent c) →
      f.header.packetAction ≠ .peerLeave := by
    intro c' f hf
    obtain ⟨g, hg, hsent⟩ := List.mem_map.1 hf
    obtain ⟨-, rfl⟩ := Output.sent.inj hsent
    rw [hping g hg]
    decide
  unfold Server.afterBeat
  simp only
  split_ifs
  · have hremoved : ∀ keys ids,
        s.self.removeClient P keys ids others (s.conns c).id = (s.self, [], none) := fun keys ids =>
      Peer.removeClient_of_not_mem (by rwa [hids c])
    simp only [Server.setConn, hremoved, List.map_nil, List.append_nil]
    exact ⟨rfl, setConn_id hids (by exact hids c), hsent⟩
  · exact ⟨rfl, setConn_id hids (by exact hids c), hsent⟩

theorem Server.takePacket_keeps (hnumbered : s.self.Numbered)
    (hids : ∀ c, (s.conns c).id = .empty) {io : Ambient} {utcNow : DateTime}
    {received : Received} (hnames : ∀ f data, received = .packet f →
      autoDecrypt P (s.keys c) f = .ok (some data) → NamesNobody P f.header data) :
    Keeps s (s.takePacket P c io utcNow received) := by
  refine ⟨?_, fun c' => ?_, fun c' f hf => ?_⟩
  · simp only [Server.takePacket]
    split
    · rfl
    · rename_i f
      split
      · rfl
      · rfl
      · rename_i data hopens
        simp only [Server.afterRaise]
        rw [(handleDataReceived_namesNobody hnumbered _ _ (hnames f data rfl hopens)).1]
        rfl
  · simp only [Server.takePacket]
    split
    · exact hids c'
    · rename_i f
      split
      · exact hids c'
      · exact hids c'
      · rename_i data hopens
        refine setConn_id hids ?_ c'
        rw [(handleDataReceived_namesNobody hnumbered _ _ (hnames f data rfl hopens)).2]
        exact hids c
  · rcases Server.takePacket_sent hf with hpong | hjoin
    · rw [hpong]
      decide
    · rw [hjoin]
      decide

theorem Stepped.keeps (h : Stepped P s e r) (hnumbered : s.self.Numbered)
    (hnobody : Guid.empty ∉ s.self.ids) (hids : ∀ c, (s.conns c).id = .empty)
    (hnames : ∀ c f data, s.thread.serving = some c → e.received = some (.packet f) →
      autoDecrypt P (s.keys c) f = .ok (some data) → NamesNobody P f.header data)
    (hupdate : ∀ update hasOnPeerConnected isAudioRunning,
      e = .elsewhere update hasOnPeerConnected isAudioRunning → update s.self = s.self) :
    Keeps s r := by
  cases h with
  | accept h => exact Server.acceptClient_keeps hids _ _
  | @gate c h =>
      have hpassed : (s.passGate c).self = s.self ∧ (s.passGate c).conns = s.conns := by
        simp only [Server.passGate]
        split_ifs <;> exact ⟨rfl, rfl⟩
      refine ⟨by rw [hpassed.1]; rfl, fun c' => ?_, by simp⟩
      rw [hpassed.2]
      exact hids c'
  | handshake h => exact Server.authenticate_keeps hids _ _ _
  | beat h =>
      exact Server.afterBeat_keeps hnobody hids fun f hf => HeartBeat.trySendHeartBeat_action hf
  | @receive io utcNow received c h =>
      refine Server.takePacket_keeps hnumbered hids fun f data hreceived hopens => ?_
      exact hnames c f data (by rw [h]; rfl) (by rw [Event.received, hreceived]) hopens
  | cancelServer => exact ⟨rfl, hids, by simp⟩
  | @cancelClient c => exact ⟨rfl, setConn_id hids (by exact hids c), by simp⟩
  | elsewhere => exact ⟨by rw [hupdate _ _ _ rfl]; rfl, hids, by simp⟩

end BaseTCPServer

theorem BaseTCPClient.Stepped.sent_ne_peerJoin (rsa : P.RSALaws)
    (hauth : P.packetAuthentication.RoundTrips) {s : Client} {e : Event}
    {r : Client × List Output} (h : Stepped P s e r) {f : Frame}
    (hf : f ∈ r.2.filterMap Output.sentFrame) : f.header.packetAction ≠ .peerJoin := by
  intro haction
  cases h with
  | gate h =>
      rw [Client.passGate_sent hf] at haction
      exact absurd haction (by decide)
  | @handshake io received h =>
      rw [(s.authenticate_spec P io received).2.1] at hf
      have hmessage := isHandshake_of_replies rsa hauth hf
      rw [haction] at hmessage
      exact absurd hmessage (by decide)
  | beat h =>
      rw [Client.takeBeat, Client.afterBeat_eq (HeartBeat.trySendHeartBeat_result ..),
        filterMap_sentFrame] at hf
      rw [HeartBeat.trySendHeartBeat_action hf] at haction
      exact absurd haction (by decide)
  | receive h =>
      rw [Client.takePacket_sent hf] at haction
      exact absurd haction (by decide)
  | cancel => simp at hf
  | elsewhere => simp at hf

/-! ## A server and its clients -/

/-- A list of peers is an array in JSON, and no object. -/
def Platform.ListsAreArrays (P : Platform) : Prop :=
  ∀ infos, ∃ text, P.peerTables.serialize infos = some text ∧ text ≠ "" ∧
    P.peerTable.deserialize text = none

/-- The frame that `SendPacket` wrote for a list of peers. -/
def IsList (P : Platform) (key : Option (RandomData 32)) (f : Frame) : Prop :=
  ∃ infos, Session.WrittenFor P key (.peerJoin, toUTF8Byte (P.peerTables.toJSON infos)) f

theorem Platform.ListsAreArrays.toUTF8Byte_ne_nil (h : P.ListsAreArrays) (infos : List PeerInfo) :
    toUTF8Byte (P.peerTables.toJSON infos) ≠ [] := by
  obtain ⟨text, hserialize, hne, -⟩ := h infos
  rw [JsonSerializer.toJSON, hserialize]
  exact NETConnect.toUTF8Byte_ne_nil hne

theorem IsList.namesNobody (hpublic : P.PublicKeyOpensNothing) (chaCha : P.ChaChaLaws)
    (hjson : P.packetEncrypted.RoundTrips) (hlists : P.ListsAreArrays) {keys : SecurityKey}
    (hkeys : MayHold key keys) (hown : OwnKeys P keys) {f : Frame} (h : IsList P key f)
    {data : Bytes} (hopens : autoDecrypt P keys f = .ok (some data)) :
    NamesNobody P f.header data := by
  intro _
  obtain ⟨infos, hwritten⟩ := h
  obtain ⟨text, hserialize, -, hread⟩ := hlists infos
  have hdata := hwritten.opened hpublic chaCha hjson hkeys hown hopens
  rw [hdata, JsonSerializer.toJSON, hserialize, Option.getD_some, getString_toUTF8Byte,
    JsonSerializer.isValidJSON, hread, ite_self]

namespace Session

variable {s t : Session} {os o : List Output}

/-- The packets of peers that are under way to the server are lists. -/
structure Peaceful (P : Platform) (s : Session) (os : List Output) : Prop where
  sound : Invariant P s os
  own : ∀ c, OwnKeys P (s.clients c).keys
  ids : ∀ c, (s.server.conns c).id = .empty
  lists : ∀ c key, Generated os c key → ∀ f ∈ s.toServer c,
    f.header.packetAction = .peerJoin → IsList P key f
  stays : ∀ c f, .server (.sent c f) ∈ os → f.header.packetAction ≠ .peerLeave

/-- Nobody else sends peers to the server, or changes its table. -/
def LeavesPeers : Event → Prop
  | .alsoToServer _ f => f.header.packetAction ≠ .peerJoin
  | .server (.elsewhere update _ _) => ∀ self, update self = self
  | _ => True

theorem peaceful_start (P : Platform) (self : Peer) : Peaceful P (start self) [] where
  sound := invariant_start P self
  own _ := ownKeys_of_none rfl
  ids _ := rfl
  lists _ _ _ f hf := by simp [start] at hf
  stays _ _ h := by simp at h

theorem toServer_of_step (rsa : P.RSALaws) (hauth : P.packetAuthentication.RoundTrips)
    {e : Event} (hleaves : LeavesPeers e) (hstep : (session P).step s e = some (t, o))
    {c : ConnId} {f : Frame} (hf : f ∈ t.toServer c) :
    f ∈ s.toServer c ∨ f.header.packetAction ≠ .peerJoin := by
  cases seen_of_step hstep c with
  | made number next => simp [next, number, Session.connect] at hf
  | server stepped clients reads =>
      obtain ⟨taken, htakes⟩ := reads
      rw [htakes.channel_eq]
      exact Or.inl (List.mem_append_right _ hf)
  | client stepped server reads writes =>
      rw [writes] at hf
      exact (List.mem_append.1 hf).imp_right (stepped.sent_ne_peerJoin rsa hauth)
  | alsoToServer number server clients toServer =>
      rw [toServer] at hf
      refine (List.mem_append.1 hf).imp_right fun hnew => ?_
      rw [List.mem_singleton.1 hnew]
      exact hleaves
  | alsoToClient number server clients toServer =>
      rw [toServer] at hf
      exact Or.inl hf
  | elsewhere server link =>
      rw [show t.toServer c = s.toServer c from congrArg Link.toServer link] at hf
      exact Or.inl hf

theorem Peaceful.keeps (laws : CarriageLaws P) (hlists : P.ListsAreArrays) (h : Peaceful P s os)
    (hnumbered : s.server.self.Numbered) (hnobody : Guid.empty ∉ s.server.self.ids)
    {e : BaseTCPServer.Event} (hleaves : LeavesPeers (.server e))
    {o : List BaseTCPServer.Output} (hstep : s.stepServer P e = some (t, o)) :
    BaseTCPServer.Keeps s.server (t.server, o) := by
  obtain ⟨hstepped, -, -, -, -, hreads, -⟩ := stepServer_spec hstep
  refine hstepped.keeps hnumbered hnobody h.ids ?_ ?_
  · intro c f data hserving hreceived hopens haction
    obtain ⟨key, hgenerated, hsound⟩ := h.sound.sound c
    have hread := hreads c hserving
    rw [hreceived] at hread
    rcases takeFrom_packet hread with hchannel | ⟨rfl, -, -⟩
    · have hlist : IsList P key f := by
        refine h.lists c key hgenerated f ?_ haction
        rw [hchannel]
        exact List.mem_cons_self
      exact hlist.namesNobody laws.publicKey laws.chaCha laws.encrypted hlists hsound.serverKey
        hsound.own hopens haction
    · exact absurd haction (by decide)
  · rintro update hasOnPeerConnected isAudioRunning rfl
    exact hleaves s.server.self

theorem Peaceful.step (laws : CarriageLaws P) (hlists : P.ListsAreArrays) (h : Peaceful P s os)
    (hnumbered : s.server.self.Numbered) (hnobody : Guid.empty ∉ s.server.self.ids) {e : Event}
    (hleaves : LeavesPeers e) (hstep : (session P).step s e = some (t, o)) :
    Peaceful P t (os ++ o) ∧ s.server.self.SameTable t.server.self := by
  suffices hkeeps : (∀ c, (t.server.conns c).id = .empty) ∧
      (∀ c f, .server (.sent c f) ∈ o → f.header.packetAction ≠ .peerLeave) ∧
      s.server.self.SameTable t.server.self by
    obtain ⟨hids, hstays, htable⟩ := hkeeps
    refine ⟨⟨h.sound.step laws.rsa laws.authentication laws.encrypted hstep,
      ownKeys_of_step h.own hstep, hids, ?_, ?_⟩, htable⟩
    · intro c key hgenerated f hf haction
      obtain ⟨key₀, hgenerated₀, -⟩ := h.sound.sound c
      rcases toServer_of_step laws.rsa laws.authentication hleaves hstep hf with hold | hother
      · obtain ⟨infos, hwritten⟩ := h.lists c key₀ hgenerated₀ f hold haction
        exact ⟨infos, hwritten.mono (hgenerated₀.mono hgenerated)⟩
      · exact absurd haction hother
    · intro c f hf
      rcases List.mem_append.1 hf with hold | hnew
      · exact h.stays c f hold
      · exact hstays c f hnew
  rcases step_server_or hstep with ⟨e, o, rfl, rfl, hserver⟩ | ⟨hserver, -, hsilent⟩
  · obtain ⟨htable, hids, hstays⟩ := h.keeps laws hlists hnumbered hnobody hleaves hserver
    refine ⟨hids, fun c f hf => ?_, htable⟩
    obtain ⟨x, hx, hsent⟩ := List.mem_map.1 hf
    obtain rfl := Output.server.inj hsent
    exact hstays c f hx
  · refine ⟨fun c => ?_, fun c f hf => absurd hf (hsilent _), ?_⟩
    · rw [hserver]
      exact h.ids c
    · rw [hserver]
      exact .refl _

end Session

end NETConnect
