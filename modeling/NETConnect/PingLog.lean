import NETConnect.Handshake.Conversation
import NETConnect.Holders
import NETConnect.Pongs
import NETConnect.Seen
/-!
# The log of the pings

Both ends of a connection send pings, and each notes the pongs that it receives.  The two
clocks need not agree: what an end notes about the sending of a ping has gone out and has
come back to it.
-/

namespace NETConnect

open Lib SocketExtensions

variable {P : Platform} {key : Option (RandomData 32)}

/-! ## The clock of an end -/

/-- The readings of the clock that are taken after a ping is sent, and for a packet. -/
def BaseTCPServer.Event.clock : BaseTCPServer.Event → List DateTime
  | .beat clock _ _ _ => [clock.ping.1]
  | .receive _ utcNow _ => [utcNow]
  | _ => []

def BaseTCPClient.Event.clock : BaseTCPClient.Event → List DateTime
  | .beat clock _ _ => [clock.ping.1]
  | .receive _ utcNow _ => [utcNow]
  | _ => []

theorem BaseTCPServer.Event.mem_clock {e : BaseTCPServer.Event} {now : DateTime}
    (h : e.utcNow = some now) : now ∈ e.clock := by
  cases e with
  | receive io utcNow received =>
      rw [← Option.some.inj h]
      exact List.mem_singleton_self _
  | _ => simp [Event.utcNow] at h

theorem BaseTCPClient.Event.mem_clock {e : BaseTCPClient.Event} {now : DateTime}
    (h : e.utcNow = some now) : now ∈ e.clock := by
  cases e with
  | receive io utcNow received =>
      rw [← Option.some.inj h]
      exact List.mem_singleton_self _
  | _ => simp [Event.utcNow] at h

namespace Session

variable {s t : Session} {os o : List Output} {x y : End} {c : ConnId} {e : Event}
  {made : List DateTime}

def End.other : End → End
  | .server => .client
  | .client => .server

@[simp] theorem End.other_other (x : End) : x.other.other = x := by cases x <;> rfl

theorem End.eq_or_other (x y : End) : x = y ∨ x = y.other := by
  cases x <;> cases y <;> simp [End.other]

/-- `PingLog` at an end of a connection. -/
def pingLog : End → Session → ConnId → List PingTracker
  | .server, s, c => s.server.pingLog c
  | .client, s, c => (s.clients c).heartBeat.pingLog

/-- The channel that an end writes. -/
def written : End → Session → ConnId → List Frame
  | .server, s, c => s.toClient c
  | .client, s, c => s.toServer c

/-- The frame that an output of an end puts on a connection. -/
def Output.sentBy : End → ConnId → Output → Option Frame :=
  Output.observed BaseTCPServer.Output.sentOn BaseTCPClient.Output.sentFrame

/-- When an end has sent its pings. -/
def pingsOf (x : End) (c : ConnId) (os : List Output) : List DateTime :=
  (os.filterMap (Output.sentBy x c)).filterMap Frame.pingTime

theorem pingsOf_append (x : End) (c : ConnId) (os o : List Output) :
    pingsOf x c (os ++ o) = pingsOf x c os ++ pingsOf x c o := by
  rw [pingsOf, List.filterMap_append, List.filterMap_append]
  rfl

theorem pingsOf_server (x : End) (c : ConnId) (o : List BaseTCPServer.Output) :
    pingsOf x c (o.map .server) = match x with
      | .server => (o.filterMap (BaseTCPServer.Output.sentOn c)).filterMap Frame.pingTime
      | .client => [] := by
  rw [pingsOf, Output.sentBy, observed_server]
  cases x <;> rfl

theorem pingsOf_client (x : End) (c : ConnId) (o : List BaseTCPClient.Output) :
    pingsOf x c (o.map (.client c)) = match x with
      | .server => []
      | .client => (o.filterMap BaseTCPClient.Output.sentFrame).filterMap Frame.pingTime := by
  rw [pingsOf, Output.sentBy, observed_client]
  cases x <;> rfl

/-- The readings of the clock of an end. -/
def clockOf : End → ConnId → Event → List DateTime
  | .server, _, .server e => e.clock
  | .client, c, .client c' e => if c' = c then e.clock else []
  | _, _, _ => []

/-- The time that a ping of an end says, if the step sends one. -/
def stampOf : End → ConnId → Event → Option DateTime
  | .server, _, .server e => e.stamp
  | .client, c, .client c' e => if c' = c then e.stamp else none
  | _, _, _ => none

/-! ## One step -/

/-- One end of a connection takes a step: it may read what has come first, and sends some
frames. -/
structure TurnOf (P : Platform) (key : Option (RandomData 32)) (x : End) (c : ConnId) (e : Event)
    (s t : Session) (o : List Output) : Prop where
  log : pingLog x.other t c = pingLog x.other s c
  silent : pingsOf x.other c o = []
  turn : ∃ taken now sent, written x.other s c = taken.toList ++ written x.other t c ∧
    written x t c = written x s c ++ sent ∧ pingsOf x c o = sent.filterMap Frame.pingTime ∧
    (∀ n, now = some n → n ∈ clockOf x c e) ∧
    Beats P key (pingLog x s c) taken now (pingLog x t c) sent
  stamp : ∀ u ∈ pingsOf x c o, stampOf x c e = some u

/-- What an end has noted, and the pings and pongs that are under way for it, are a part
of the pings that it made. -/
def InStepAt (P : Platform) (key : Option (RandomData 32)) (x : End) (s : Session) (c : ConnId)
    (made : List DateTime) : Prop :=
  (pingEcho P key).InStep ((pingLog x s c).map PingTracker.pingSentAt) (written x s c)
    (written x.other s c) made

/-- Whoever takes the step: what an end has noted or has under way stays a part of the
pings that it made. -/
theorem TurnOf.inStepAt (h : TurnOf P key y c e s t o) (hin : InStepAt P key x s c made) :
    InStepAt P key x t c (made ++ pingsOf x c o) := by
  obtain ⟨hlog, hsilent, ⟨taken, now, sent, hreads, hwrites, hsent, -, hbeats⟩, -⟩ := h
  have hpassed : (written y.other t c).Sublist (taken.toList ++ written y.other t c) :=
    List.sublist_append_right _ _
  unfold InStepAt at hin ⊢
  rcases End.eq_or_other x y with rfl | rfl
  · -- the end whose pings are counted
    rw [hreads] at hin
    rw [hwrites, hsent]
    generalize pingLog x t c = log' at hbeats ⊢
    cases hbeats with
    | passes sublist silent =>
        exact (hin.of_sublist (sublist.map _) (List.Sublist.refl _) hpassed).calls sent
    | @replies f g _ took ping pong answers =>
        exact (hin.of_sublist (List.Sublist.refl _) (List.Sublist.refl _) hpassed).calls [g]
    | notes took pong answers received =>
        subst took
        rw [List.map_append, List.append_nil, List.filterMap_nil, List.append_nil]
        exact hin.notes pong answers
  · -- the other one
    rw [End.other_other] at hin ⊢
    rw [hreads] at hin
    rw [hlog, hwrites, hsilent, List.append_nil]
    generalize pingLog y t c = log' at hbeats
    cases hbeats with
    | passes sublist silent =>
        exact (hin.of_sublist (List.Sublist.refl _) hpassed (List.Sublist.refl _)).passes silent
    | replies took ping pong answers =>
        subst took
        exact hin.replies ping pong answers
    | notes took pong answers received =>
        rw [List.append_nil]
        exact hin.of_sublist (List.Sublist.refl _) hpassed (List.Sublist.refl _)

/-- The log of an end stays, or a pong is noted in a step that sends no ping. -/
theorem TurnOf.pingLog_cases (h : TurnOf P key y c e s t o) (x : End) :
    (pingLog x t c).Sublist (pingLog x s c) ∨ ∃ ping, pingLog x t c = pingLog x s c ++ [ping] ∧
      ping.pongReceivedAt ∈ clockOf x c e ∧ pingsOf x c o = [] := by
  obtain ⟨hlog, -, ⟨taken, now, sent, -, -, hsent, hnow, hbeats⟩, -⟩ := h
  rcases End.eq_or_other x y with rfl | rfl
  · rw [hsent]
    generalize pingLog x t c = log' at hbeats ⊢
    cases hbeats with
    | passes sublist silent => exact Or.inl sublist
    | replies took ping pong answers => exact Or.inl (List.Sublist.refl _)
    | @notes f ping took pong answers received =>
        exact Or.inr ⟨ping, rfl, hnow _ received, rfl⟩
  · rw [hlog]
    exact Or.inl (List.Sublist.refl _)

theorem Beats.of_takes {channel rest sent : List Frame} {received : Option Received}
    {taken : Option Frame} {log log' : List PingTracker} {now : Option DateTime}
    (h : Takes channel rest received taken)
    (hbeats : Beats P key log (packetOf received) now log' sent) :
    Beats P key log taken now log' sent := by
  have htaken : ∀ f, packetOf received = some f → taken = some f ∨ f = .nothing := by
    intro f hf
    match received, hf with
    | some (.packet g), hf =>
        obtain rfl : g = f := Option.some.inj hf
        exact h.taken_or g rfl
  cases hbeats with
  | passes sublist silent => exact .passes sublist silent
  | replies took ping pong answers =>
      rcases htaken _ took with rfl | rfl
      · exact .replies rfl ping pong answers
      · simp [Frame.pingTime_of_action (f := Frame.nothing) (by decide)] at ping
  | notes took pong answers received =>
      rcases htaken _ took with rfl | rfl
      · exact .notes rfl pong answers received
      · exact absurd pong (by decide)

section Steps

variable (hpublic : P.PublicKeyOpensNothing) (chaCha : P.ChaChaLaws)
  (hjson : P.packetEncrypted.RoundTrips) (hping : P.pingTracker.RoundTrips)

include hpublic chaCha hjson hping in
theorem turnOf_server {e : BaseTCPServer.Event} {o : List BaseTCPServer.Output}
    (hstepped : BaseTCPServer.Stepped P s.server e (t.server, o)) (hclients : t.clients = s.clients)
    {taken : Option Frame} (htakes : Takes (s.toServer c) (t.toServer c)
      (if s.server.thread.serving = some c then e.received else none) taken)
    (hwrites : t.toClient c = s.toClient c ++ o.filterMap (BaseTCPServer.Output.sentOn c))
    (hkeys : MayHold key (s.server.keys c)) (hown : OwnKeys P (s.server.keys c)) :
    TurnOf P key .server c (.server e) s t (o.map .server) := by
  have hbeats := hstepped.beats hpublic chaCha hjson hping c hkeys hown
  have hpacket : (if s.server.thread.serving = some c then packetOf e.received else none) =
      packetOf (if s.server.thread.serving = some c then e.received else none) := by
    split_ifs <;> rfl
  rw [hpacket] at hbeats
  refine ⟨?_, pingsOf_server .client c o, ⟨taken, e.utcNow, _, htakes.channel_eq, hwrites,
    pingsOf_server .server c o, fun _ hn => BaseTCPServer.Event.mem_clock hn,
    Beats.of_takes htakes hbeats⟩, ?_⟩
  · simp only [End.other, pingLog, hclients]
  · intro u hu
    rw [pingsOf_server] at hu
    obtain ⟨f, hf, hu⟩ := List.mem_filterMap.1 hu
    exact hstepped.stamp hf hu

include hpublic chaCha hjson hping in
theorem turnOf_client (rsa : P.RSALaws) (hauth : P.packetAuthentication.RoundTrips)
    {e : BaseTCPClient.Event} {o : List BaseTCPClient.Output}
    (hstepped : BaseTCPClient.Stepped P (s.clients c) e (t.clients c, o))
    (hserver : t.server = s.server) {taken : Option Frame}
    (htakes : Takes (s.toClient c) (t.toClient c) e.received taken)
    (hwrites : t.toServer c = s.toServer c ++ o.filterMap BaseTCPClient.Output.sentFrame)
    (hkeys : MayHold key (s.clients c).keys) (hown : OwnKeys P (s.clients c).keys) :
    TurnOf P key .client c (.client c e) s t (o.map (.client c)) := by
  have hbeats := hstepped.beats hpublic chaCha hjson hping rsa hauth hkeys hown
  have hpings : pingsOf .client c (o.map (.client c)) =
      (o.filterMap BaseTCPClient.Output.sentFrame).filterMap Frame.pingTime :=
    pingsOf_client .client c o
  refine ⟨?_, pingsOf_client .server c o, ⟨taken, e.utcNow, _, htakes.channel_eq, hwrites,
    hpings, ?_, Beats.of_takes htakes hbeats⟩, ?_⟩
  · simp only [End.other, pingLog, hserver]
  · intro n hn
    simp only [clockOf, if_true]
    exact BaseTCPClient.Event.mem_clock hn
  · intro u hu
    rw [hpings] at hu
    obtain ⟨f, hf, hu⟩ := List.mem_filterMap.1 hu
    simp only [stampOf, if_true]
    exact hstepped.stamp rsa hauth hf hu

theorem turnOf_also {fs : List Frame}
    (hfs : ∀ f ∈ fs, f.header.packetAction ≠ .ping ∧ f.header.packetAction ≠ .pong)
    (hlog : ∀ y, pingLog y t c = pingLog y s c) (hwrites : written x t c = written x s c ++ fs)
    (hreads : written x.other t c = written x.other s c) (hsilent : ∀ y, pingsOf y c o = []) :
    TurnOf P key x c e s t o where
  log := hlog _
  silent := hsilent _
  turn := by
    have hnone : fs.filterMap Frame.pingTime = [] := List.filterMap_eq_nil_iff.2 fun f hf =>
      Frame.pingTime_of_action (hfs f hf).1
    refine ⟨none, none, fs, hreads.symm, hwrites, by rw [hsilent, hnone], by simp, ?_⟩
    rw [hlog]
    exact .passes (List.Sublist.refl _) fun f hf => Frame.isPong_of_action (hfs f hf).2
  stamp u hu := by simp [hsilent] at hu

/-- The other threads leave pings and pongs to the heartbeat. -/
def LeavesPings : Event → Prop
  | .alsoToServer _ f | .alsoToClient _ f =>
      f.header.packetAction ≠ .ping ∧ f.header.packetAction ≠ .pong
  | _ => True

include hpublic chaCha hjson hping in
theorem turnOf_of_step (rsa : P.RSALaws) (hauth : P.packetAuthentication.RoundTrips)
    (hsound : Sound P key (s.link c)) (hown : OwnKeys P (s.clients c).keys)
    (hleaves : LeavesPings e) (hstep : (session P).step s e = some (t, o)) :
    (∃ y, TurnOf P key y c e s t o) ∨ o = [] ∧ c = s.connected ∧
      ∃ peerId settings created, t = s.connect peerId settings created := by
  have hsingle : ∀ {f : Frame}, f.header.packetAction ≠ .ping ∧ f.header.packetAction ≠ .pong →
      ∀ g ∈ [f], g.header.packetAction ≠ .ping ∧ g.header.packetAction ≠ .pong := by
    rintro f hf g hg
    rwa [List.mem_singleton.1 hg]
  cases seen_of_step hstep c with
  | @made peerId settings created number next =>
      exact Or.inr ⟨rfl, number, peerId, settings, created, next⟩
  | server stepped clients reads writes =>
      obtain ⟨taken, htakes⟩ := reads
      exact Or.inl ⟨_, turnOf_server hpublic chaCha hjson hping stepped clients htakes writes
        hsound.serverKey hsound.own⟩
  | client stepped server reads writes =>
      obtain ⟨taken, htakes⟩ := reads
      exact Or.inl ⟨_, turnOf_client hpublic chaCha hjson hping rsa hauth stepped server htakes
        writes hsound.mayHold hown⟩
  | alsoToServer number server clients toServer toClient =>
      refine Or.inl ⟨.client, turnOf_also (hsingle hleaves) (fun y => ?_) toServer
        (congrFun toClient c) fun _ => rfl⟩
      cases y <;> simp only [pingLog, server, clients]
  | alsoToClient number server clients toServer toClient =>
      refine Or.inl ⟨.server, turnOf_also (hsingle hleaves) (fun y => ?_) toClient
        (congrFun toServer c) fun _ => rfl⟩
      cases y <;> simp only [pingLog, server, clients]
  | elsewhere server link silent =>
      have hwritten : ∀ y, written y t c = written y s c := fun y => by
        cases y with
        | server => exact congrArg Link.toClient link
        | client => exact congrArg Link.toServer link
      have hnone : ∀ f ∈ ([] : List Frame),
          f.header.packetAction ≠ .ping ∧ f.header.packetAction ≠ .pong :=
        List.forall_mem_nil _
      refine Or.inl ⟨.client, turnOf_also hnone (fun y => ?_)
        (by rw [hwritten, List.append_nil]) (hwritten _) fun y => ?_⟩
      · cases y with
        | server => simp only [pingLog, server]
        | client => exact congrArg (fun l => (Link.client l).heartBeat.pingLog) link
      · rw [pingsOf, Output.sentBy, observed_elsewhere silent]
        rfl

end Steps

theorem pingLog_connect (x : End) (peerId : Guid) (settings : Option PeerSettings)
    (created : DateTime × DateTime) :
    (pingLog x (s.connect peerId settings created) s.connected).Sublist
      (pingLog x s s.connected) := by
  cases x with
  | server => exact List.Sublist.refl _
  | client => simp [pingLog, Session.connect, BaseTCPClient.start, HeartBeat.create]

theorem InStepAt.connect (hin : InStepAt P key x s s.connected made) (peerId : Guid)
    (settings : Option PeerSettings) (created : DateTime × DateTime) :
    InStepAt P key x (s.connect peerId settings created) s.connected made := by
  refine hin.of_sublist ((pingLog_connect x peerId settings created).map _) ?_ ?_
  all_goals cases x <;> simp [written, End.other, Session.connect]

theorem InStepAt.mono {key' : Option (RandomData 32)} (hin : InStepAt P key x s c made)
    (hkey : ∀ k, key = some k → key' = some k) : InStepAt P key' x s c made :=
  Echo.InStep.mono hin fun _ _ ⟨ping, hsent, hwritten⟩ => ⟨ping, hsent, hwritten.mono hkey⟩

/-! ## Runs -/

/-- The invariant behind the logs. -/
structure Echoing (P : Platform) (s : Session) (os : List Output) : Prop where
  sound : Invariant P s os
  own : ∀ c, OwnKeys P (s.clients c).keys
  inStep : ∀ c key, Generated os c key → ∀ x, InStepAt P key x s c (pingsOf x c os)

theorem echoing_start (P : Platform) (self : Peer) : Echoing P (start self) [] where
  sound := invariant_start P self
  own _ := ownKeys_of_none rfl
  inStep _ _ _ x := by cases x <;> exact Echo.inStep_nil _

theorem ownKeys_of_step {e : Event} (hown : ∀ c, OwnKeys P (s.clients c).keys)
    (hstep : (session P).step s e = some (t, o)) (c : ConnId) : OwnKeys P (t.clients c).keys := by
  cases seen_of_step hstep c with
  | made number next =>
      rw [next, number]
      simp only [Session.connect, Function.update_self]
      exact ownKeys_of_none rfl
  | server stepped clients =>
      rw [clients]
      exact hown c
  | client stepped => exact BaseTCPClient.ownKeys_of_stepped stepped (hown c)
  | alsoToServer number server clients =>
      rw [clients]
      exact hown c
  | alsoToClient number server clients =>
      rw [clients]
      exact hown c
  | elsewhere server link =>
      rw [show t.clients c = s.clients c from congrArg Link.client link]
      exact hown c

/-- What a session relies on to carry what is sent. -/
structure CarriageLaws (P : Platform) : Prop where
  rsa : P.RSALaws
  publicKey : P.PublicKeyOpensNothing
  chaCha : P.ChaChaLaws
  authentication : P.packetAuthentication.RoundTrips
  encrypted : P.packetEncrypted.RoundTrips

/-- What the results about pings rely on. -/
structure PingLaws (P : Platform) : Prop extends CarriageLaws P where
  tracker : P.pingTracker.RoundTrips

theorem Echoing.step (laws : PingLaws P) (h : Echoing P s os) {e : Event}
    (hleaves : LeavesPings e) (hstep : (session P).step s e = some (t, o)) :
    Echoing P t (os ++ o) where
  sound := h.sound.step laws.rsa laws.authentication laws.encrypted hstep
  own := ownKeys_of_step h.own hstep
  inStep c key hgenerated x := by
    obtain ⟨key₀, hgenerated₀, hsound⟩ := h.sound.sound c
    rw [pingsOf_append]
    refine InStepAt.mono ?_ (hgenerated₀.mono hgenerated)
    have hin := h.inStep c key₀ hgenerated₀ x
    rcases turnOf_of_step laws.publicKey laws.chaCha laws.encrypted laws.tracker laws.rsa
      laws.authentication hsound (h.own c) hleaves hstep with
      ⟨y, hturn⟩ | ⟨rfl, rfl, peerId, settings, created, rfl⟩
    · exact hturn.inStepAt hin
    · rw [show pingsOf x s.connected [] = [] from rfl, List.append_nil]
      exact hin.connect peerId settings created

/-- Each end of each connection has noted pings that it has sent on this connection
itself, each at most once, and in the order in which they were sent. -/
def LogsOwnPings (s : Session) (os : List Output) : Prop :=
  ∀ x c, ((pingLog x s c).map PingTracker.pingSentAt).Sublist (pingsOf x c os)

theorem Echoing.logsOwnPings (h : Echoing P s os) : LogsOwnPings s os := by
  intro x c
  obtain ⟨key, hgenerated, -⟩ := h.sound.sound c
  exact (h.inStep c key hgenerated x).noted_sublist

theorem echoing_of_run (laws : PingLaws P) {self : Peer} {es : List Event}
    (hleaves : ∀ e ∈ es, LeavesPings e) (hrun : (session P).run (start self) es = some (s, os)) :
    Echoing P s os := by
  have halong : (session P).Along (fun _ e => LeavesPings e) (start self) es := by
    refine Machine.along_iff.2 fun pre e post _ _ hsplit _ => hleaves e ?_
    rw [hsplit]
    exact List.mem_append_right _ List.mem_cons_self
  exact halong.invariant (h := []) (fun _ _ _ _ _ hI hG hstep => hI.step laws hG hstep)
    (echoing_start P self) hrun

theorem throughout_logsOwnPings (P : Platform) (laws : PingLaws P) (self : Peer)
    (es : List Event) (hleaves : ∀ e ∈ es, LeavesPings e) :
    (session P).Throughout LogsOwnPings (start self) es := by
  intro pre post t os hsplit hrun
  refine (echoing_of_run laws (fun e he => hleaves e ?_) hrun).logsOwnPings
  rw [hsplit]
  exact List.mem_append_left _ he

theorem carriageLaws_reference : CarriageLaws Reference.reference where
  rsa := Reference.reference_rsaLaws
  publicKey := Reference.reference_publicKeyOpensNothing
  chaCha := Reference.reference_chaChaLaws
  authentication := Reference.packetAuthentication_roundTrips
  encrypted := Reference.packetEncrypted_roundTrips

theorem pingLaws_reference : PingLaws Reference.reference :=
  ⟨carriageLaws_reference, Reference.pingTracker_roundTrips⟩

theorem exists_pinged : ∃ es s os,
    (session Reference.reference).play (start unsealed) (unsealedSession ++ pingRound) =
        some (es, s, os) ∧
      pingLog .server s 0 = [⟨readingAt 10, readingAt 5, readingAt 11⟩] := by
  obtain ⟨⟨es, s, os⟩, hplay, -, ⟨⟨es', s', os'⟩, hplay', hlog⟩, -⟩ := unsealedSession_end
  exact ⟨es ++ es', s', os ++ os', Machine.play_append hplay hplay', hlog⟩

theorem leavesPings_pinged :
    ∀ choose ∈ unsealedSession ++ pingRound, ∀ s, LeavesPings (choose s) := by
  simp [unsealedSession, serverTurn, clientTurn, pingRound, LeavesPings]

theorem throughout_logsOwnPings_pinged : ∃ es s os,
    (session Reference.reference).run (start unsealed) es = some (s, os) ∧
      readingAt 10 ∈ pingsOf .server 0 os := by
  obtain ⟨es, s, os, hplay, hlog⟩ := exists_pinged
  have hlogs := (throughout_logsOwnPings Reference.reference pingLaws_reference
    unsealed es (Machine.forall_of_play hplay leavesPings_pinged)).last
    (Machine.run_of_play hplay)
  have hsublist := hlogs .server 0
  rw [hlog] at hsublist
  exact ⟨es, s, os, Machine.run_of_play hplay, hsublist.subset List.mem_cons_self⟩

/-! ## Latencies -/

/-- The clock of an end does not go back, and a ping says no time after the reading that
follows it. -/
structure OwnClock (x : End) (c : ConnId) (es : List Event) : Prop where
  ordered : (es.flatMap (clockOf x c)).Pairwise (· ≤ ·)
  stamped : ∀ e ∈ es, ∀ u, stampOf x c e = some u → ∀ now ∈ clockOf x c e, u ≤ now

theorem OwnClock.of_append {es es' : List Event} (h : OwnClock x c (es ++ es')) :
    OwnClock x c es where
  ordered := by
    have hordered := h.ordered
    rw [List.flatMap_append] at hordered
    exact (List.pairwise_append.1 hordered).1
  stamped e he := h.stamped e (List.mem_append_left _ he)

theorem exists_mem_clockOf {u : DateTime} (h : stampOf x c e = some u) :
    ∃ now, now ∈ clockOf x c e := by
  cases x with
  | server =>
      cases e with
      | server e =>
          cases e with
          | beat clock isGracefulShutdown io others => exact ⟨_, List.mem_singleton_self _⟩
          | _ => simp [stampOf, BaseTCPServer.Event.stamp] at h
      | _ => simp [stampOf] at h
  | client =>
      cases e with
      | client c' e =>
          simp only [stampOf] at h
          split_ifs at h with hc
          cases e with
          | beat clock isGracefulShutdown io =>
              exact ⟨clock.ping.1, by simp [clockOf, hc, BaseTCPClient.Event.clock]⟩
          | _ => simp [BaseTCPClient.Event.stamp] at h
      | _ => simp [stampOf] at h

theorem TurnOf.stampOf (h : TurnOf P key y c e s t o) {u : DateTime} (hu : u ∈ pingsOf x c o) :
    Session.stampOf x c e = some u := by
  rcases End.eq_or_other x y with rfl | rfl
  · exact h.stamp u hu
  · rw [h.silent] at hu
    simp at hu

/-- What was sent was sent by the clock, and came back later by it. -/
structure Timed (x : End) (c : ConnId) (es : List Event) (s : Session) (os : List Output) :
    Prop where
  pings : ∀ u ∈ pingsOf x c os, ∃ now ∈ es.flatMap (clockOf x c), u ≤ now
  latencies : ∀ ping ∈ pingLog x s c, 0 ≤ ping.latency

theorem Timed.step (laws : PingLaws P) {es : List Event} (h : Timed x c es s os)
    (hechoing : Echoing P s os) (hclock : OwnClock x c (es ++ [e])) (hleaves : LeavesPings e)
    (hstep : (session P).step s e = some (t, o)) : Timed x c (es ++ [e]) t (os ++ o) := by
  obtain ⟨key, -, hsound⟩ := hechoing.sound.sound c
  have hreadings : (es ++ [e]).flatMap (clockOf x c) =
      es.flatMap (clockOf x c) ++ clockOf x c e := by
    simp
  rcases turnOf_of_step laws.publicKey laws.chaCha laws.encrypted laws.tracker laws.rsa
    laws.authentication hsound (hechoing.own c) hleaves hstep with
    ⟨y, hturn⟩ | ⟨rfl, rfl, peerId, settings, created, rfl⟩
  · constructor
    · intro u hu
      rw [pingsOf_append] at hu
      rw [hreadings]
      rcases List.mem_append.1 hu with hold | hnew
      · obtain ⟨now, hnow, hle⟩ := h.pings u hold
        exact ⟨now, List.mem_append_left _ hnow, hle⟩
      · have hstamp := hturn.stampOf hnew
        obtain ⟨now, hnow⟩ := exists_mem_clockOf hstamp
        exact ⟨now, List.mem_append_right _ hnow,
          hclock.stamped e (List.mem_append_right _ List.mem_cons_self) u hstamp now hnow⟩
    · intro ping hping
      rcases hturn.pingLog_cases x with hsublist | ⟨noted, hlog, hnow, hnone⟩
      · exact h.latencies ping (hsublist.subset hping)
      rw [hlog] at hping
      rcases List.mem_append.1 hping with hold | hnew
      · exact h.latencies ping hold
      · -- the pong that is noted in this step
        obtain rfl := List.mem_singleton.1 hnew
        have hmade : ping.pingSentAt ∈ pingsOf x c (os ++ o) := by
          refine ((hechoing.step laws hleaves hstep).logsOwnPings x c).subset ?_
          rw [hlog]
          simp
        rw [pingsOf_append, hnone, List.append_nil] at hmade
        obtain ⟨now, hbefore, hle⟩ := h.pings _ hmade
        have hordered := hclock.ordered
        rw [hreadings] at hordered
        have hlater : now ≤ ping.pongReceivedAt :=
          (List.pairwise_append.1 hordered).2.2 now hbefore _ hnow
        exact Int.sub_nonneg_of_le (Int.ofNat_le.2 (le_trans hle hlater))
  · constructor
    · intro u hu
      obtain ⟨now, hnow, hle⟩ := h.pings u (by simpa using hu)
      rw [hreadings]
      exact ⟨now, List.mem_append_left _ hnow, hle⟩
    · intro ping hping
      exact h.latencies ping ((pingLog_connect x peerId settings created).subset hping)

/-- By the clock of the end that has sent the ping alone no latency is negative, however
the clocks of the others are set. -/
theorem latency_nonneg (P : Platform) (laws : PingLaws P) (self : Peer) (es : List Event)
    (hleaves : ∀ e ∈ es, LeavesPings e) (s : Session) (os : List Output)
    (hrun : (session P).run (start self) es = some (s, os)) (x : End) (c : ConnId)
    (hclock : OwnClock x c es) : ∀ ping ∈ pingLog x s c, 0 ≤ ping.latency := by
  have htimed : Timed x c es s os := by
    induction es using List.reverseRecOn generalizing s os with
    | nil =>
        obtain ⟨rfl, rfl⟩ := Prod.mk.inj (Option.some.inj hrun)
        constructor
        · intro u hu
          simp [pingsOf] at hu
        · intro ping hping
          cases x <;> simp [pingLog, start, BaseTCPServer.Server.pingLog, BaseTCPServer.start,
            BaseTCPClient.start, HeartBeat.create] at hping
    | append_singleton es e ih =>
        obtain ⟨u, before, o, hbefore, hlast, rfl⟩ := Machine.run_append_iff.1 hrun
        have hearlier : ∀ e' ∈ es, LeavesPings e' :=
          fun e' he' => hleaves e' (List.mem_append_left _ he')
        exact (ih hearlier u before hbefore hclock.of_append).step laws
          (echoing_of_run laws hearlier hbefore) hclock
          (hleaves e (List.mem_append_right _ List.mem_cons_self))
          (Machine.run_singleton_iff.1 hlast)
  exact htimed.latencies

theorem latency_nonneg_pinged : ∃ es s os,
    (session Reference.reference).run (start unsealed) es = some (s, os) ∧
      pingLog .server s 0 = [⟨readingAt 10, readingAt 5, readingAt 11⟩] ∧
      0 ≤ PingTracker.latency ⟨readingAt 10, readingAt 5, readingAt 11⟩ := by
  obtain ⟨es, s, os, hplay, hlog⟩ := exists_pinged
  have hclock : OwnClock .server 0 es := by
    constructor
    · rw [Machine.flatMap_of_play hplay (start unsealed)]
      · decide
      · simp [unsealedSession, serverTurn, clientTurn, pingRound, clockOf,
          BaseTCPServer.Event.clock]
    · have hstamp : (sendingAt 10).stamp = some (readingAt 10) := by decide
      refine Machine.forall_of_play hplay ?_
      simp [unsealedSession, serverTurn, clientTurn, pingRound, clockOf, stampOf, pollAt, hstamp,
        BaseTCPServer.Event.clock, BaseTCPServer.Event.stamp]
  have hlatencies := latency_nonneg Reference.reference pingLaws_reference unsealed es
    (Machine.forall_of_play hplay leavesPings_pinged) s os (Machine.run_of_play hplay) .server 0
    hclock
  refine ⟨es, s, os, Machine.run_of_play hplay, hlog, hlatencies _ ?_⟩
  rw [hlog]
  exact List.mem_cons_self

end Session

end NETConnect
