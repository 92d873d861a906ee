import NETConnect.SecureChannel
import NETConnect.Traffic
/-!
# What is sent after the handshake arrives

Once a client counts itself as authenticated the server does so too, and neither of them
reads in a handshake again.  What either end sends from then on is raised at the other
end, or is still under way.
-/

namespace NETConnect

open Lib SocketExtensions

variable {P : Platform} {c : ConnId} {f : Frame}

/-! ## The ends leave the handshake for good -/

namespace BaseTCPServer

variable {s t : Server} {e : Event} {o : List Output} {r : Server × List Output}

theorem Moves.isAuthenticated (h : Moves s e t o) (hflag : s.isAuthenticated = true) :
    t.isAuthenticated = true := by
  cases h with
  | admits created entropy event before thread accepted flag silent => exact flag.trans hflag
  | authenticates c before thread accepted flag out mem => exact flag
  | delivers c header data before thread accepted flag out => exact flag.trans hflag
  | goesOn thread past accepted flag out => exact flag.trans hflag

theorem Stepped.settled (h : Stepped P s e r)
    (hsettled : s.isAuthenticated = true → ∀ c, s.thread ≠ .authenticating c)
    (hflag : r.1.isAuthenticated = true) (c : ConnId) : r.1.thread ≠ .authenticating c := by
  cases hbefore : s.isAuthenticated with
  | true => exact (h.thread_ne_authenticating hbefore (hsettled hbefore)).2 c
  | false =>
      cases moves_of_stepped h with
      | authenticates c' before thread accepted flag out mem => rw [thread]; simp
      | admits created entropy event before thread accepted flag silent =>
          simp [flag, hbefore] at hflag
      | delivers c' header data before thread accepted flag out => simp [flag, hbefore] at hflag
      | goesOn thread past accepted flag out => simp [flag, hbefore] at hflag

theorem exists_ready_of_replies {keys : SecurityKey} {turn : Turn}
    (hf : f ∈ (Authentication.takeTurn (handleAuthenticationPacket P) keys turn).replies)
    (haction : f.header.packetAction = .ready) :
    ∃ reply, (Authentication.takeTurn (handleAuthenticationPacket P) keys turn).outcome =
      .ok (some .ready, reply) := by
  rcases Authentication.takeTurn_cases (handleAuthenticationPacket P) keys turn with
    ⟨-, hnone⟩ | ⟨g, -, -, hturn⟩
  · simp [hnone] at hf
  · rw [hturn] at hf ⊢
    cases handleAuthenticationPacket_answers (P := P) turn.settings turn.io keys g with
    | nothing keys_eq replies => simp [replies] at hf
    | offers localKeys own keys_eq replies =>
        rw [(replies f hf).1] at haction
        exact absurd haction (by decide)
    | stores localKeys keyData action own stored keys_eq replies =>
        rw [replies f hf] at haction
        exact absurd haction (by decide)
    | readies action keys_eq replies => exact ⟨_, by rw [handleAuthenticationPacket_ready P action]⟩

theorem Stepped.readies (h : Stepped P s e r) (hf : f ∈ r.2.filterMap (Output.sentOn c))
    (haction : f.header.packetAction = .ready) : r.1.isAuthenticated = true := by
  by_cases hturn : ∃ io received, e = .handshake io received
  · obtain ⟨io, received, rfl⟩ := hturn
    cases h with
    | @handshake _ _ c' h =>
        rw [(s.authenticate_spec P c' io received).2 c] at hf
        split_ifs at hf
        · obtain ⟨reply, houtcome⟩ := exists_ready_of_replies hf haction
          simp only [Server.keys] at houtcome
          simp only [Server.authenticate, houtcome, if_true]
        · simp at hf
  · have hne : ∀ io received, e ≠ .handshake io received :=
      fun io received he => hturn ⟨io, received, he⟩
    refine absurd (Or.inr (Or.inr (Or.inr haction))) (h.sent_action hne (c := c) ?_)
    exact mem_filterMap_sentOn_iff.1 hf

end BaseTCPServer

namespace BaseTCPClient

variable {s : Client} {e : Event} {r : Client × List Output}

theorem Stepped.settled (h : Stepped P s e r)
    (hsettled : s.isAuthenticated = true → s.thread ≠ .authenticating)
    (hflag : r.1.isAuthenticated = true) : r.1.thread ≠ .authenticating := by
  cases moves_of_stepped h with
  | begins key sent before stored after out syn silent => simp [after.2] at hflag
  | turns io received event before next =>
      rw [show r.1 = _ from congrArg Prod.fst next] at hflag ⊢
      obtain ⟨-, -, -, ⟨-, hsame, -⟩ | ⟨reply, -, -, -, hthread⟩⟩ :=
        s.authenticate_spec P io received
      · exact absurd before (hsettled (hsame.symm.trans hflag))
      · rw [hthread]
        simp
  | goesOn key isAuthenticating isAuthenticated thread out sent =>
      exact fun hback => hsettled (isAuthenticated.symm.trans hflag) (thread hback)

theorem action_of_ready {settings : Option PeerSettings} {io : Ambient} {keys : SecurityKey}
    {reply : Option Frame}
    (h : (handleAuthenticationPacket P settings io keys f).outcome = .ok (some .ready, reply)) :
    f.header.packetAction = .ready := by
  unfold handleAuthenticationPacket at h
  split_ifs at h with hsynAck hack hready
  · split at h
    · simp at h
    · simp at h
    · split at h
      · simp at h
      · split at h
        · simp at h
        · simp only at h
          split at h <;> simp at h
  · split at h
    · simp at h
    · simp at h
    · split at h
      · simp at h
      · simp at h
      · split_ifs at h <;> simp at h
  · exact hready
  · simp at h

theorem Stepped.readied (h : Stepped P s e r) (hbefore : s.isAuthenticated = false)
    (hafter : r.1.isAuthenticated = true) :
    ∃ f, e.received = some (.packet f) ∧ f.header.packetAction = .ready := by
  cases moves_of_stepped h with
  | begins key sent before stored after out syn silent => simp [after.2] at hafter
  | goesOn key isAuthenticating isAuthenticated thread out sent =>
      simp [isAuthenticated, hbefore] at hafter
  | turns io received event before next =>
      rw [show r.1 = _ from congrArg Prod.fst next] at hafter
      obtain ⟨-, -, -, ⟨-, hsame, -⟩ | ⟨reply, houtcome, -⟩⟩ := s.authenticate_spec P io received
      · simp [hsame, hbefore] at hafter
      · rcases Authentication.takeTurn_ok houtcome with ⟨-, hnone, -⟩ | ⟨f, hreceived, -, hturn⟩
        · simp at hnone
        · rw [hturn] at houtcome
          obtain rfl : received = .packet f := hreceived
          exact ⟨f, by rw [event]; rfl, action_of_ready houtcome⟩

end BaseTCPClient

namespace Session

variable {s t : Session} {e : Event} {o : List Output}

/-- The flags of a connection. -/
structure Settled (s : Session) (c : ConnId) : Prop where
  server : s.server.isAuthenticated = true → ∀ c, s.server.thread ≠ .authenticating c
  client : (s.clients c).isAuthenticated = true → (s.clients c).thread ≠ .authenticating
  ready : ∀ f ∈ s.toClient c, f.header.packetAction = .ready → s.server.isAuthenticated = true
  answered : (s.clients c).isAuthenticated = true → s.server.isAuthenticated = true

theorem settled_start (self : Peer) (c : ConnId) : Settled (start self) c where
  server h := by simp [start, BaseTCPServer.start] at h
  client h := by simp [start, BaseTCPClient.start] at h
  ready f h := by simp [start] at h
  answered h := by simp [start, BaseTCPClient.start] at h

theorem Settled.step (h : Settled s c) (hstep : (session P).step s e = some (t, o)) :
    Settled t c := by
  cases seen_of_step hstep c with
  | @made peerId settings created number next =>
      have hclient : t.clients c = BaseTCPClient.start peerId settings created := by
        rw [next, number]
        exact Function.update_self ..
      have hchannel : t.toClient c = [] := by
        rw [next, number]
        exact Function.update_self ..
      refine ⟨fun hflag => ?_, fun hflag => ?_, fun f hf => ?_, fun hflag => ?_⟩
      · rw [next] at hflag ⊢
        exact h.server hflag
      · simp [hclient, BaseTCPClient.start] at hflag
      · simp [hchannel] at hf
      · simp [hclient, BaseTCPClient.start] at hflag
  | server stepped clients reads writes =>
      have hkeeps := (BaseTCPServer.moves_of_stepped stepped).isAuthenticated
      refine ⟨stepped.settled h.server, ?_, fun f hf haction => ?_, fun hflag => ?_⟩
      · rw [clients]
        exact h.client
      · rw [writes] at hf
        rcases List.mem_append.1 hf with hold | hnew
        · exact hkeeps (h.ready f hold haction)
        · exact stepped.readies hnew haction
      · rw [clients] at hflag
        exact hkeeps (h.answered hflag)
  | client stepped server reads writes =>
      obtain ⟨taken, htakes⟩ := reads
      refine ⟨?_, stepped.settled h.client, fun f hf => ?_, fun hflag => ?_⟩
      · rw [server]
        exact h.server
      · rw [server]
        apply h.ready
        rw [htakes.channel_eq]
        exact List.mem_append_right _ hf
      · rw [server]
        cases hbefore : (s.clients c).isAuthenticated with
        | true => exact h.answered hbefore
        | false =>
            -- it has just read Ready
            obtain ⟨f, hreceived, haction⟩ := stepped.readied hbefore hflag
            rcases htakes.taken_or f hreceived with rfl | rfl
            · exact h.ready f (by rw [htakes.channel_eq]; simp) haction
            · exact absurd haction (by decide)
  | alsoToServer number server clients toServer toClient =>
      exact ⟨by rw [server]; exact h.server, by rw [clients]; exact h.client,
        by rw [server, toClient]; exact h.ready, by rw [server, clients]; exact h.answered⟩
  | alsoToClient number server clients toServer toClient message =>
      refine ⟨by rw [server]; exact h.server, by rw [clients]; exact h.client,
        fun f hf haction => ?_, by rw [server, clients]; exact h.answered⟩
      rw [server]
      rw [toClient] at hf
      rcases List.mem_append.1 hf with hold | hnew
      · exact h.ready f hold haction
      · rw [List.mem_singleton.1 hnew] at haction
        exact absurd (Or.inr (Or.inr (Or.inr haction))) message
  | elsewhere server link silent =>
      have hclient : t.clients c = s.clients c := congrArg Link.client link
      have hchannel : t.toClient c = s.toClient c := congrArg Link.toClient link
      exact ⟨by rw [server]; exact h.server, by rw [hclient]; exact h.client,
        by rw [server, hchannel]; exact h.ready, by rw [server, hclient]; exact h.answered⟩

/-! ## An authenticated connection -/

/-- Both ends of the connection have left the handshake, with the key of the client. -/
structure Live (P : Platform) (c : ConnId) (key : RandomData 32) (s : Session)
    (os : List Output) : Prop where
  sound : Invariant P s os
  generated : .client c (.generated key) ∈ os
  settled : Settled s c
  authenticated : (s.clients c).isAuthenticated = true

variable {key : RandomData 32} {os : List Output}

theorem Live.step (laws : CarriageLaws P) (h : Live P c key s os)
    (hstep : (session P).step s e = some (t, o)) : Live P c key t (os ++ o) where
  sound := h.sound.step laws.rsa laws.authentication laws.encrypted hstep
  generated := List.mem_append_left _ h.generated
  settled := h.settled.step hstep
  authenticated :=
    (isAuthenticated_of_step ⟨h.sound.known c _ h.generated, h.authenticated⟩ hstep).2

theorem Live.holdsKey (h : Live P c key s os) : HoldsKey s c key := by
  obtain ⟨key', hgenerated, hholds⟩ := h.sound.holdsKey h.authenticated
  rwa [(hgenerated key).1 h.generated]

theorem Live.agreed (h : Live P c key s os) (x : End) :
    Agreed (some key) (helper x s c).encryptionKeys := by
  cases x with
  | server => exact ⟨key, rfl, h.holdsKey.2⟩
  | client => exact ⟨key, rfl, h.holdsKey.1⟩

theorem Live.not_inHandshake (h : Live P c key s os) (x : End) : ¬ InHandshake x s c := by
  cases x with
  | server => exact h.settled.server (h.settled.answered h.authenticated) c
  | client => exact h.settled.client h.authenticated

end Session

theorem PacketHelper.type_of_sendPacket {helper : PacketHelper} {io : Ambient} {data : Bytes}
    {type : PacketActionType} {isEncryptionEnabled : Bool} {encryptionType : PacketEncryptionType}
    (hdata : data ≠ []) (h : (helper.sendPacket P io (some data) type isEncryptionEnabled
      encryptionType).frame = some f) :
    f.header.packetEncryptionType = .none ∨ f.header.packetEncryptionType =
      selectedType helper.settings isEncryptionEnabled encryptionType := by
  have halive := alive_of_sendPacket P helper io h
  by_cases hselected : selectedType helper.settings isEncryptionEnabled encryptionType = .none
  · rw [sendPacket_clear P helper io halive _ _ hselected] at h
    obtain rfl := Option.some.inj h
    exact Or.inl rfl
  cases hkey : usableKey helper.encryptionKeys
      (selectedType helper.settings isEncryptionEnabled encryptionType) with
  | none =>
      rw [sendPacket_keyless P helper io halive hdata _ hselected hkey] at h
      obtain rfl := Option.some.inj h
      exact Or.inl rfl
  | some key => exact Or.inr (sendPacket_isSealed P helper io hdata hselected hkey h).1

/-! ## Traffic -/

namespace Traffic

variable {s t : Session} {x y : Session.End} {e : Event} {os o before : List Output}
  {key : RandomData 32} {packet : Packet}

/-- A packet is not sent with RSA: nothing ever opens that. -/
def AvoidsRSA (x : Session.End) (c : ConnId) (s : Session) (e : Event) : Prop :=
  ∀ io packet isEncryptionEnabled encryptionType,
    e = .send x c io packet isEncryptionEnabled encryptionType →
      PacketHelper.selectedType (Session.helper x s c).settings isEncryptionEnabled
        encryptionType ≠ .rsa

/-- A frame stands for a packet, and can be opened. -/
def OpensTo (P : Platform) (key : RandomData 32) (f : Frame) (packet : Packet) : Prop :=
  StandsFor P (some key) f packet ∧ f.header.packetEncryptionType ≠ .rsa

/-- The connection is authenticated, `os` is what has happened since, and what an end has
sent since then arrives. -/
structure Arriving (P : Platform) (x : Session.End) (c : ConnId) (key : RandomData 32)
    (before : List Output) (s : Session) (os : List Output) : Prop where
  live : Session.Live P c key s (sessionOutputs (before ++ os))
  arrives : Arrives (OpensTo P key) (underWay x s c) (raisedAt x.other c os) (sentFrom x c os)

theorem Arriving.session (laws : Session.CarriageLaws P) (h : Arriving P x c key before s os)
    {e : Session.Event} {o : List Session.Output} (hown : e.IsOwn = true)
    (hstep : (Session.session P).step s e = some (t, o)) :
    Arriving P x c key before t (os ++ o.map .session) where
  live := by
    rw [← List.append_assoc, sessionOutputs_append]
    exact h.live.step laws hstep
  arrives := by
    rw [raisedAt_append, sentFrom_append]
    rcases Session.transfers_of_step laws.rsa laws.authentication hown hstep c with
      ⟨y, htransfers⟩ | ⟨-, hnew, -⟩
    · have harrives := h.arrives
      rcases passes_or_takes htransfers x with ⟨hunderWay, hnone⟩ | ⟨f, hunderWay, hraised⟩
      · rw [hunderWay, hnone, List.append_nil]
        exact harrives
      · rw [hunderWay] at harrives
        rw [hraised]
        refine harrives.takes fun packet ⟨hwritten, htype⟩ => ?_
        have haction : f.header.packetAction = packet.1 := hwritten.action
        have hempty : f.header.packetAction ≠ .empty := by
          have happlication : f ∈ underWay x s c := by
            rw [hunderWay]
            exact List.mem_cons_self
          have h := (List.mem_filter.1 happlication).2
          exact (of_decide_eq_true h).2.1
        have hopens := Session.WrittenFor.opens laws.chaCha laws.encrypted hwritten
          (h.live.agreed x.other) hempty htype
        rw [raisedFor, if_neg (h.live.not_inHandshake x.other),
          BaseTCPServer.opened_of_eq_ok hopens, haction]
    · -- the connection is there already
      have hknown := h.live.sound.known c _ h.live.generated
      exact absurd hnew (Nat.ne_of_lt hknown)

theorem Arriving.sends (laws : Session.CarriageLaws P) (h : Arriving P x c key before s os)
    {c' : ConnId} {io : Ambient} {isEncryptionEnabled : Bool}
    {encryptionType : PacketEncryptionType} (hdata : packet.2 ≠ [])
    (havoids : AvoidsRSA x c s (.send y c' io packet isEncryptionEnabled encryptionType))
    (hframe : ((Session.helper y s c').sendPacket P io (some packet.2) packet.1
      isEncryptionEnabled encryptionType).frame = some f)
    (hstep : (Session.session P).step s (Session.also y c' f) = some (t, [])) :
    Arriving P x c key before t (os ++ [.sent y c' packet]) := by
  obtain ⟨-, -, -, hwritten⟩ := Session.step_also hstep
  have hlive := h.live.step laws hstep
  rw [List.append_nil] at hlive
  refine ⟨by rwa [← List.append_assoc, sessionOutputs_sent], ?_⟩
  rw [underWay_also hwritten, raisedAt_sent, sentFrom_sent,
    PacketHelper.sendPacket_action P _ _ hframe]
  split_ifs with hhere
  · obtain ⟨rfl, rfl, -⟩ := hhere
    have hstands := Session.writtenFor_of_mayHold (Or.inr (h.live.agreed x)) hdata hframe
    refine h.arrives.sends ⟨hstands, ?_⟩
    rcases PacketHelper.type_of_sendPacket hdata hframe with hclear | hselected
    · rw [hclear]
      decide
    · rw [hselected]
      exact havoids _ _ _ _ rfl
  · rw [List.append_nil, List.append_nil]
    exact h.arrives

theorem Arriving.step (laws : Session.CarriageLaws P) (h : Arriving P x c key before s os)
    {o : List Output} (havoids : AvoidsRSA x c s e) (hstep : (traffic P).step s e = some (t, o)) :
    Arriving P x c key before t (os ++ o) := by
  cases stepped_of_step hstep with
  | session own step => exact h.session laws own step
  | sends data_ne frame step => exact h.sends laws data_ne havoids frame step
  | fails =>
      rw [List.append_nil]
      exact h

/-! ## Runs -/

theorem settled_of_run {self : Peer} {es : List Event} (c : ConnId)
    (hrun : (traffic P).run (.start self) es = some (s, os)) : Session.Settled s c := by
  refine Machine.state_invariant (I := fun s => Session.Settled s c) ?_
    (Session.settled_start self c) hrun
  intro s e t o h hstep
  cases stepped_of_step hstep with
  | session own step => exact h.step step
  | sends data_ne frame step => exact h.step step
  | fails => exact h

/-- What an end has sent was raised at the other end, in order, each packet once and as it
was, with nothing behind it; or it is under way, in order and behind everything else. -/
def Arrived (P : Platform) (x : Session.End) (c : ConnId) (key : RandomData 32) (s : Session)
    (os : List Output) : Prop :=
  ∃ raised pending frames, sentFrom x c os = raised ++ pending ∧ raised <:+ raisedAt x.other c os ∧
    frames <:+ underWay x s c ∧ List.Forall₂ (OpensTo P key) frames pending

/-- Once a client counts itself as authenticated, everything arrives that either end of
its connection sends from then on. -/
theorem sent_arrives (P : Platform) (laws : Session.CarriageLaws P) (self : Peer)
    (es es' : List Event) (s t : Session) (os os' : List Output)
    (hrun : (traffic P).run (.start self) es = some (s, os))
    (hlater : (traffic P).run s es' = some (t, os')) (c : ConnId)
    (hauthenticated : (s.clients c).isAuthenticated = true) (x : Session.End)
    (havoids : (traffic P).Along (AvoidsRSA x c) s es') :
    ∃ key, Session.HoldsKey t c key ∧ Arrived P x c key t os' := by
  have hcarrying : Carrying P s ([] ++ os) := Machine.invariant
    (fun _ _ _ _ _ hI hstep => hI.step laws hstep) (carrying_start P self) hrun
  obtain ⟨key, hgenerated, -⟩ := hcarrying.sound.holdsKey hauthenticated
  have hlive : Session.Live P c key s (sessionOutputs (os ++ [])) := by
    rw [List.append_nil]
    exact ⟨hcarrying.sound, (hgenerated key).2 rfl, settled_of_run c hrun, hauthenticated⟩
  have h : Arriving P x c key os t ([] ++ os') := havoids.invariant
    (fun _ _ _ _ _ hI hG hstep => hI.step laws hG hstep) ⟨hlive, arrives_start _ _⟩ hlater
  obtain ⟨older, newer, raised, pending, hunderWay, hall, hsent, hraised, -⟩ := h.arrives
  refine ⟨key, h.live.holdsKey, raised, pending, newer, hsent, hraised, ?_, hall⟩
  rw [hunderWay]
  exact List.suffix_append older newer

theorem avoidsRSA_ofSession (x : Session.End) (c : ConnId) (s : Session) (e : Session.Event) :
    AvoidsRSA x c s (ofSession e) := by
  rintro io packet isEncryptionEnabled encryptionType he
  cases e with
  | alsoToServer c' f =>
      obtain ⟨-, -, -, -, rfl, rfl⟩ := Event.send.inj he
      change PacketEncryptionType.none ≠ .rsa
      decide
  | _ => simp [ofSession] at he

theorem sent_arrives_exchange : ∃ es es' s t os os',
    (traffic Reference.reference).run (.start Session.unsealed) es = some (s, os) ∧
      (traffic Reference.reference).run s es' = some (t, os') ∧
      (PacketActionType.data, [7]) ∈ raisedAt .server 0 os' ∧
      ∃ key, Session.HoldsKey t 0 key ∧ Arrived Reference.reference .client 0 key t os' := by
  obtain ⟨es, es', s, t, os, os', hrun, hauthenticated, hrun', hmem⟩ := exists_exchange
  have havoids : (traffic Reference.reference).Along (AvoidsRSA .client 0) s
      (es'.map ofSession) := by
    refine Machine.along_iff.2 fun pre e post u _ hsplit _ => ?_
    have he : e ∈ es'.map ofSession := by
      rw [hsplit]
      exact List.mem_append_right _ List.mem_cons_self
    obtain ⟨e', -, rfl⟩ := List.mem_map.1 he
    exact avoidsRSA_ofSession .client 0 u e'
  exact ⟨_, _, s, t, os, os', hrun, hrun', hmem, sent_arrives Reference.reference
    Session.carriageLaws_reference Session.unsealed _ _ s t os os' hrun hrun' 0 hauthenticated
    .client havoids⟩

end Traffic

end NETConnect
