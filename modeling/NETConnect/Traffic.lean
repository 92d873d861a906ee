import NETConnect.Lib.Channel
import NETConnect.PingLog
import NETConnect.Reading
/-!
# What is raised was sent

Both ends of every connection send what the application gives them, on the channels that
carry the handshake, the heartbeat and the lists of peers as well.  A packet may be lost
in a handshake, or be refused.  It is never raised twice, out of order, changed, or on
another connection.
-/

namespace NETConnect

open Lib SocketExtensions

/-- Neither the ends send it by themselves, nor does it stand for nothing. -/
def PacketActionType.IsApplication (action : PacketActionType) : Prop :=
  ¬ action.IsHandshake ∧ action ≠ .empty ∧ action ≠ .ping ∧ action ≠ .pong ∧
    action ≠ .peerJoin ∧ action ≠ .peerLeave

instance (action : PacketActionType) : Decidable action.IsApplication :=
  inferInstanceAs (Decidable (_ ∧ _))

variable {P : Platform} {key : Option (RandomData 32)} {c : ConnId} {f : Frame}

/-! ## What the ends raise and send -/

/-- What is raised in a step of an end, for what it receives. -/
def raisedFor (P : Platform) (keys : SecurityKey) (isAuthenticating : Prop)
    [Decidable isAuthenticating] : Option Received → List Packet
  | some (.packet f) => if isAuthenticating then [] else BaseTCPServer.opened P keys f
  | _ => []

theorem raisedFor_of_isAuthenticating {keys : SecurityKey} {isAuthenticating : Prop}
    [Decidable isAuthenticating] (h : isAuthenticating) (received : Option Received) :
    raisedFor P keys isAuthenticating received = [] := by
  match received with
  | none => rfl
  | some (.threw e) => rfl
  | some (.packet f) => exact if_pos h

namespace BaseTCPServer

variable {s : Server} {e : Event} {r : Server × List Output}

theorem handsOn_eq_none {x : Output} (h : x.IsSent) : Output.handsOn c x = none := by
  cases x <;> simp [Output.IsSent, Output.handsOn] at h ⊢

theorem Stepped.handsOn_eq_nil (h : Stepped P s e r) (hthread : s.thread ≠ .receiving c) :
    r.2.filterMap (Output.handsOn c) = [] := by
  cases moves_of_stepped h with
  | admits created entropy event before thread accepted flag silent => rw [silent]; rfl
  | authenticates c' before thread accepted flag out mem =>
      refine List.filterMap_eq_nil_iff.2 fun x hx => ?_
      rcases out x hx with hsent | rfl
      · exact handsOn_eq_none hsent
      · rfl
  | delivers c' header data before thread accepted flag out =>
      refine List.filterMap_eq_nil_iff.2 fun x hx => ?_
      rcases out x hx with hsent | rfl
      · exact handsOn_eq_none hsent
      · refine if_neg fun hc => hthread ?_
        rw [before, hc]
  | goesOn thread past accepted flag out => exact filterMap_handsOn_of_isSent out

theorem Stepped.handsOn_eq (h : Stepped P s e r) (c : ConnId) :
    r.2.filterMap (Output.handsOn c) = raisedFor P (s.keys c) (s.thread = .authenticating c)
      (if s.thread.serving = some c then e.received else none) := by
  by_cases hthread : s.thread = .receiving c
  · have hserving : s.thread.serving = some c := by rw [hthread]; rfl
    have hother : s.thread ≠ .authenticating c := by rw [hthread]; simp
    rw [if_pos hserving]
    cases h with
    | @receive io utcNow received c' h =>
        obtain rfl : c' = c := by simpa [hthread] using h.symm
        cases received with
        | threw e => rfl
        | packet f =>
            rw [(Server.takePacket_spec io utcNow f).2]
            exact (if_neg hother).symm
    | accept h => simp [hthread] at h
    | gate h => simp [hthread] at h
    | handshake h => simp [hthread] at h
    | beat h => simp [hthread] at h
    | cancelServer => rfl
    | cancelClient => rfl
    | elsewhere => rfl
  · rw [h.handsOn_eq_nil hthread]
    by_cases hauthenticating : s.thread = .authenticating c
    · rw [raisedFor_of_isAuthenticating hauthenticating]
    · -- elsewhere nothing is received
      have hnone : (if s.thread.serving = some c then e.received else none) = none := by
        split_ifs with hserving
        · cases h with
          | receive h =>
              rw [h] at hserving
              obtain rfl := Option.some.inj hserving
              exact absurd h hthread
          | handshake h =>
              rw [h] at hserving
              obtain rfl := Option.some.inj hserving
              exact absurd h hauthenticating
          | _ => rfl
        · rfl
      rw [hnone]
      rfl

theorem Stepped.not_isApplication (h : Stepped P s e r)
    (hf : f ∈ r.2.filterMap (Output.sentOn c)) : ¬ f.header.packetAction.IsApplication := by
  rintro ⟨hmessage, -, hping, hpong, hjoin, hleave⟩
  have hsent : .sent c f ∈ r.2 := mem_filterMap_sentOn_iff.1 hf
  cases h with
  | accept h => simp at hf
  | gate h => simp at hf
  | @handshake io received c' h =>
      rw [(s.authenticate_spec P c' io received).2 c] at hf
      split_ifs at hf
      · exact hmessage (isHandshake_of_replies hf)
      · simp at hf
  | beat h =>
      rcases Server.afterBeat_sent hsent with hmem | hleft
      · exact hping (HeartBeat.trySendHeartBeat_action hmem)
      · exact hleave hleft
  | receive h =>
      rcases Server.takePacket_sent hsent with hreply | hreply
      · exact hpong hreply
      · exact hjoin hreply
  | cancelServer => simp at hf
  | cancelClient => simp at hf
  | elsewhere => simp at hf

end BaseTCPServer

namespace BaseTCPClient

variable {s : Client} {e : Event} {r : Client × List Output}

theorem Client.takePacket_handsOn (s : Client) (io : Ambient) (utcNow : DateTime) (f : Frame) :
    (s.takePacket P io utcNow (.packet f)).2.filterMap Output.handsOn =
      BaseTCPServer.opened P s.keys f := by
  unfold Client.takePacket BaseTCPServer.opened
  simp only
  cases autoDecrypt P s.keys f with
  | error e => rfl
  | ok found =>
      cases found with
      | none => rfl
      | some data =>
          have hhere : Output.handsOn (.delivered f.header data) =
              some (f.header.packetAction, data) := rfl
          simp only
          split
          · exact List.filterMap_cons_some hhere
          · rw [List.filterMap_cons_some hhere, filterMap_handsOn_sent]

theorem Client.authenticate_handsOn (s : Client) (io : Ambient) (received : Received) :
    (s.authenticate P io received).2.filterMap Output.handsOn = [] := by
  simp only [Client.authenticate]
  split
  · rfl
  · split_ifs
    · rw [List.filterMap_append, filterMap_handsOn_sent]
      rfl
    · exact filterMap_handsOn_sent _

theorem Client.passGate_handsOn (s : Client) (io : Ambient) (k : RandomData 32) :
    (s.passGate P io k).2.filterMap Output.handsOn = [] := by
  unfold Client.passGate
  split_ifs
  · rfl
  · rfl
  · rfl
  · exact filterMap_handsOn_sent _

theorem Stepped.handsOn_eq (h : Stepped P s e r) :
    r.2.filterMap Output.handsOn =
      raisedFor P s.keys (s.thread = .authenticating) e.received := by
  cases h with
  | gate h => exact s.passGate_handsOn _ _
  | handshake h =>
      rw [raisedFor_of_isAuthenticating h]
      exact s.authenticate_handsOn _ _
  | beat h =>
      rw [Client.takeBeat, Client.afterBeat_eq (HeartBeat.trySendHeartBeat_result ..)]
      exact filterMap_handsOn_sent _
  | @receive io utcNow received h =>
      cases received with
      | threw e => rfl
      | packet f =>
          rw [s.takePacket_handsOn]
          exact (if_neg (by rw [h]; simp)).symm
  | cancel => rfl
  | elsewhere => rfl

theorem Stepped.not_isApplication (rsa : P.RSALaws) (hauth : P.packetAuthentication.RoundTrips)
    (h : Stepped P s e r) (hf : f ∈ r.2.filterMap Output.sentFrame) :
    ¬ f.header.packetAction.IsApplication := by
  rintro ⟨hmessage, -, hping, hpong, -, -⟩
  cases h with
  | gate h => exact hmessage (Or.inl (Client.passGate_sent hf))
  | @handshake io received h =>
      rw [(s.authenticate_spec P io received).2.1] at hf
      exact hmessage (isHandshake_of_replies rsa hauth hf)
  | beat h =>
      rw [Client.takeBeat, Client.afterBeat_eq (HeartBeat.trySendHeartBeat_result ..),
        filterMap_sentFrame] at hf
      exact hping (HeartBeat.trySendHeartBeat_action hf)
  | receive h => exact hpong (Client.takePacket_sent hf)
  | cancel => simp at hf
  | elsewhere => simp at hf

end BaseTCPClient

namespace Session

variable {s t : Session} {os o : List Output} {e : Event} {x y : End} {packet : Packet}

/-- The packet that an output raises at an end of a connection. -/
def Output.raised : End → ConnId → Output → Option Packet :=
  Output.observed BaseTCPServer.Output.handsOn BaseTCPClient.Output.handsOn

/-- `PacketHelper` of an end of a connection. -/
def helper : End → Session → ConnId → PacketHelper
  | .server, s, c => ⟨s.server.self.settings, s.server.keys c⟩
  | .client, s, c => ⟨(s.clients c).settings, (s.clients c).keys⟩

/-- What the end reads it reads in `HandleAuthentication`. -/
def InHandshake : End → Session → ConnId → Prop
  | .server, s, c => s.server.thread = .authenticating c
  | .client, s, c => (s.clients c).thread = .authenticating

instance : Decidable (InHandshake x s c) := by
  cases x <;> exact inferInstanceAs (Decidable (_ = _))

/-- An event that is not another thread sending. -/
def Event.IsOwn : Event → Bool
  | .alsoToServer _ _ | .alsoToClient _ _ => false
  | _ => true

/-- One end of a connection takes a step: it may take what has come first, and raise it,
and sends something of its own. -/
structure Transfers (P : Platform) (y : End) (c : ConnId) (s t : Session) (o : List Output) :
    Prop where
  silent : o.filterMap (Output.raised y.other c) = []
  reads : ∃ taken : Option Frame, written y.other s c = taken.toList ++ written y.other t c ∧
    o.filterMap (Output.raised y c) =
      raisedFor P (helper y s c).encryptionKeys (InHandshake y s c) (taken.map .packet)
  writes : ∃ sent, written y t c = written y s c ++ sent ∧
    ∀ f ∈ sent, ¬ f.header.packetAction.IsApplication

theorem raisedFor_of_takes {channel rest : List Frame} {received : Option Received}
    {taken : Option Frame} (h : Takes channel rest received taken) (keys : SecurityKey)
    (isAuthenticating : Prop) [Decidable isAuthenticating] :
    raisedFor P keys isAuthenticating received =
      raisedFor P keys isAuthenticating (taken.map .packet) := by
  cases htaken : taken with
  | some f => rw [h.received_eq f htaken]; rfl
  | none =>
      match received, h with
      | none, _ => rfl
      | some (.threw e), _ => rfl
      | some (.packet f), h =>
          obtain rfl : f = .nothing := (h.taken_or f rfl).resolve_left (by simp [htaken])
          exact ite_self []

theorem transfers_of_step (rsa : P.RSALaws) (hauth : P.packetAuthentication.RoundTrips)
    (hown : e.IsOwn = true) (hstep : (session P).step s e = some (t, o)) (c : ConnId) :
    (∃ y, Transfers P y c s t o) ∨ o = [] ∧ c = s.connected ∧ ∀ x, written x t c = [] := by
  cases seen_of_step hstep c with
  | made number next =>
      refine Or.inr ⟨rfl, number, fun x => ?_⟩
      rw [next, number]
      cases x <;> exact Function.update_self ..
  | server stepped clients reads writes =>
      obtain ⟨taken, htakes⟩ := reads
      refine Or.inl ⟨.server, observed_server _, ⟨taken, htakes.channel_eq, ?_⟩, _, writes,
        fun f hf => stepped.not_isApplication hf⟩
      rw [← raisedFor_of_takes htakes]
      exact (observed_server _).trans (stepped.handsOn_eq c)
  | client stepped server reads writes =>
      obtain ⟨taken, htakes⟩ := reads
      refine Or.inl ⟨.client, observed_client _, ⟨taken, htakes.channel_eq, ?_⟩, _, writes,
        fun f hf => stepped.not_isApplication rsa hauth hf⟩
      rw [← raisedFor_of_takes htakes]
      exact (observed_client _).trans stepped.handsOn_eq
  | alsoToServer => simp [Event.IsOwn] at hown
  | alsoToClient => simp [Event.IsOwn] at hown
  | elsewhere server link silent =>
      refine Or.inl ⟨.client, observed_elsewhere silent, ⟨none, ?_, observed_elsewhere silent⟩,
        [], ?_, by simp⟩
      · exact (congrArg Link.toClient link).symm
      · exact (congrArg Link.toServer link).trans (List.append_nil _).symm

/-- Another thread of an end sends a frame. -/
def also : End → ConnId → Frame → Event
  | .server, c, f => .alsoToClient c f
  | .client, c, f => .alsoToServer c f

theorem step_also {c' : ConnId} (h : (session P).step s (also y c' f) = some (t, o)) :
    o = [] ∧ t.server = s.server ∧ t.clients = s.clients ∧ ∀ x c,
      written x t c = written x s c ++ if x = y ∧ c = c' then [f] else [] := by
  have hupdate : ∀ (channels : ConnId → List Frame) c,
      Function.update channels c' (channels c' ++ [f]) c =
        channels c ++ if c = c' then [f] else [] := by
    intro channels c
    rcases eq_or_ne c c' with rfl | hne
    · simp
    · simp [hne]
  cases y
  all_goals
    simp only [session, also] at h
    split_ifs at h
    obtain ⟨rfl, rfl⟩ := Prod.mk.inj (Option.some.inj h)
    refine ⟨rfl, rfl, rfl, fun x c => ?_⟩
    cases x <;> simp [written, hupdate]

end Session

/-! ## The machine -/

namespace Traffic

inductive Event
  | session (e : Session.Event)
  /-- another thread of an end calls `SendPacket` -/
  | send (x : Session.End) (c : ConnId) (io : Ambient) (packet : Packet)
      (isEncryptionEnabled : Bool) (encryptionType : PacketEncryptionType)

inductive Output
  | session (o : Session.Output)
  /-- `SendPacket` has written a frame -/
  | sent (x : Session.End) (c : ConnId) (packet : Packet)
  deriving DecidableEq

/-- The end has a connection of this number. -/
def IsOpen (s : Session) : Session.End → ConnId → Prop
  | .server, c => c < s.server.accepted
  | .client, c => c < s.connected

instance {s : Session} {x : Session.End} {c : ConnId} : Decidable (IsOpen s x c) := by
  cases x <;> exact inferInstanceAs (Decidable (_ < _))

/-- The packets that are sent have data, and are no part of a handshake. -/
def traffic (P : Platform) : Machine Session Event Output where
  step s e :=
    match e with
    | .session e =>
        if e.IsOwn then ((Session.session P).step s e).map fun r => (r.1, r.2.map .session)
        else none
    | .send x c io packet isEncryptionEnabled encryptionType =>
        if IsOpen s x c ∧ ¬ packet.1.IsHandshake ∧ packet.2 ≠ [] then
          match ((Session.helper x s c).sendPacket P io (some packet.2) packet.1
            isEncryptionEnabled encryptionType).frame with
          | none => some (s, [])
          | some f =>
              ((Session.session P).step s (Session.also x c f)).map
                fun r => (r.1, [.sent x c packet])
        else none

/-- What a step can do. -/
inductive Stepped (P : Platform) (s : Session) : Event → Session × List Output → Prop
  | session {e t o} (own : e.IsOwn = true) (step : (Session.session P).step s e = some (t, o)) :
      Stepped P s (.session e) (t, o.map .session)
  | sends {x : Session.End} {c : ConnId} {io : Ambient} {packet : Packet}
      {isEncryptionEnabled : Bool} {encryptionType : PacketEncryptionType} {f : Frame} {t : Session}
      (data_ne : packet.2 ≠ [])
      (frame : ((Session.helper x s c).sendPacket P io (some packet.2) packet.1
        isEncryptionEnabled encryptionType).frame = some f)
      (step : (Session.session P).step s (Session.also x c f) = some (t, [])) :
      Stepped P s (.send x c io packet isEncryptionEnabled encryptionType) (t, [.sent x c packet])
  /-- nothing could be written -/
  | fails {x : Session.End} {c : ConnId} {io : Ambient} {packet : Packet}
      {isEncryptionEnabled : Bool} {encryptionType : PacketEncryptionType} :
      Stepped P s (.send x c io packet isEncryptionEnabled encryptionType) (s, [])

variable {s t : Session} {e : Event} {os : List Output} {o : List Session.Output}
  {x y : Session.End} {packet : Packet}

theorem stepped_of_step {r : Session × List Output} (h : (traffic P).step s e = some r) :
    Stepped P s e r := by
  cases e with
  | session e =>
      simp only [traffic] at h
      split_ifs at h with hown
      obtain ⟨⟨t, o⟩, hstep, rfl⟩ := Option.map_eq_some_iff.1 h
      exact .session hown hstep
  | send x c io packet isEncryptionEnabled encryptionType =>
      simp only [traffic] at h
      split_ifs at h with hcond
      split at h
      · obtain rfl := Option.some.inj h
        exact .fails
      · rename_i f hframe
        obtain ⟨⟨t, o⟩, hstep, rfl⟩ := Option.map_eq_some_iff.1 h
        obtain rfl : o = [] := (Session.step_also hstep).1
        exact .sends hcond.2.2 hframe hstep

/-! ## What was raised and sent -/

def Output.ofSession : Output → Option Session.Output
  | .session o => some o
  | .sent _ _ _ => none

def Output.raised (x : Session.End) (c : ConnId) : Output → Option Packet
  | .session o => o.raised x c
  | .sent _ _ _ => none

def Output.sentFrom (x : Session.End) (c : ConnId) : Output → Option Packet
  | .session _ => none
  | .sent x' c' packet => if x = x' ∧ c = c' then some packet else none

def sessionOutputs (os : List Output) : List Session.Output := os.filterMap Output.ofSession

/-- Those of the application among some packets. -/
def applications (packets : List Packet) : List Packet :=
  packets.filter fun packet => decide packet.1.IsApplication

/-- What `OnDataReceived` was raised with at an end of a connection. -/
def raisedAt (x : Session.End) (c : ConnId) (os : List Output) : List Packet :=
  applications (os.filterMap (Output.raised x c))

def sentFrom (x : Session.End) (c : ConnId) (os : List Output) : List Packet :=
  applications (os.filterMap (Output.sentFrom x c))

/-- The frames that an end has under way for the application. -/
def underWay (x : Session.End) (s : Session) (c : ConnId) : List Frame :=
  (Session.written x s c).filter fun f => decide f.header.packetAction.IsApplication

theorem sessionOutputs_append (os : List Output) (o : List Session.Output) :
    sessionOutputs (os ++ o.map .session) = sessionOutputs os ++ o := by
  rw [sessionOutputs, List.filterMap_append, List.filterMap_map]
  exact congrArg _ List.filterMap_some

theorem raisedAt_append (x : Session.End) (c : ConnId) (os : List Output)
    (o : List Session.Output) : raisedAt x c (os ++ o.map .session) =
      raisedAt x c os ++ applications (o.filterMap (Session.Output.raised x c)) := by
  rw [raisedAt, List.filterMap_append, List.filterMap_map]
  exact List.filter_append ..

theorem sentFrom_append (x : Session.End) (c : ConnId) (os : List Output)
    (o : List Session.Output) : sentFrom x c (os ++ o.map .session) = sentFrom x c os := by
  have hnone : (o.map Output.session).filterMap (Output.sentFrom x c) = [] := by
    rw [List.filterMap_map]
    exact List.filterMap_eq_nil_iff.2 fun _ _ => rfl
  rw [sentFrom, List.filterMap_append, hnone, List.append_nil]
  rfl

/-! ## One step -/

/-- A frame stands for the packet for which it was written. -/
def StandsFor (P : Platform) (key : Option (RandomData 32)) (f : Frame) (packet : Packet) : Prop :=
  Session.WrittenFor P key packet f

theorem raisedFor_packet (P : Platform) (keys : SecurityKey) (isAuthenticating : Prop)
    [Decidable isAuthenticating] (f : Frame) :
    raisedFor P keys isAuthenticating (some (.packet f)) = [] ∨
      ∃ data, autoDecrypt P keys f = .ok (some data) ∧
        raisedFor P keys isAuthenticating (some (.packet f)) = [(f.header.packetAction, data)] := by
  simp only [raisedFor, BaseTCPServer.opened]
  split_ifs
  · exact Or.inl rfl
  · split
    · exact Or.inr ⟨_, ‹_›, rfl⟩
    · exact Or.inl rfl

theorem applications_nil : applications [] = [] := rfl

theorem applications_raisedFor (P : Platform) (keys : SecurityKey) (isAuthenticating : Prop)
    [Decidable isAuthenticating] (f : Frame) :
    applications (raisedFor P keys isAuthenticating (some (.packet f))) =
      if f.header.packetAction.IsApplication then
        raisedFor P keys isAuthenticating (some (.packet f)) else [] := by
  rcases raisedFor_packet P keys isAuthenticating f with hnone | ⟨data, -, hone⟩
  · rw [hnone]
    exact (ite_self []).symm
  · rw [hone]
    split_ifs with happlication
    · exact List.filter_cons_of_pos (by simpa using happlication)
    · exact List.filter_cons_of_neg (by simpa using happlication)

/-- What an end has under way for the application stays, or the other end takes the first
of it, and raises nothing else. -/
theorem passes_or_takes (h : Session.Transfers P y c s t o) (x : Session.End) :
    underWay x t c = underWay x s c ∧
        applications (o.filterMap (Session.Output.raised x.other c)) = [] ∨
      ∃ f, underWay x s c = f :: underWay x t c ∧
        applications (o.filterMap (Session.Output.raised x.other c)) =
          raisedFor P (Session.helper x.other s c).encryptionKeys
            (Session.InHandshake x.other s c) (some (.packet f)) := by
  obtain ⟨hsilent, ⟨taken, hreads, hraised⟩, added, hwrites, hadded⟩ := h
  rcases Session.End.eq_or_other x y with rfl | rfl
  · -- the end that writes the channel
    have hnone : added.filter (fun f => decide f.header.packetAction.IsApplication) = [] :=
      List.filter_eq_nil_iff.2 fun f hf => by simpa using hadded f hf
    refine Or.inl ⟨?_, by rw [hsilent]; rfl⟩
    rw [underWay, hwrites, List.filter_append, hnone, List.append_nil]
    rfl
  · -- the end that reads it
    rw [Session.End.other_other, hraised]
    cases taken with
    | none => exact Or.inl ⟨congrArg (List.filter _) hreads.symm, rfl⟩
    | some f =>
        have hunderWay : underWay y.other s c = (f :: Session.written y.other t c).filter
            fun f => decide f.header.packetAction.IsApplication := congrArg (List.filter _) hreads
        rw [Option.map_some, applications_raisedFor, hunderWay]
        split_ifs with happlication
        · exact Or.inr ⟨f, List.filter_cons_of_pos (by simpa using happlication), rfl⟩
        · exact Or.inl ⟨(List.filter_cons_of_neg (by simpa using happlication)).symm, rfl⟩

/-- Each channel carries what its end sends to the other end. -/
structure Carrying (P : Platform) (s : Session) (os : List Output) : Prop where
  sound : Session.Invariant P s (sessionOutputs os)
  own : ∀ c, OwnKeys P (s.clients c).keys
  carries : ∀ x c key, Session.Generated (sessionOutputs os) c key →
    Carries (StandsFor P key) (underWay x s c) (raisedAt x.other c os) (sentFrom x c os)

theorem carrying_start (P : Platform) (self : Peer) : Carrying P (.start self) [] where
  sound := Session.invariant_start P self
  own _ := ownKeys_of_none rfl
  carries x _ _ _ := by cases x <;> exact carries_nil _

theorem mayHold_helper {s : Session} (hsound : Sound P key (s.link c)) (x : Session.End) :
    MayHold key (Session.helper x s c).encryptionKeys := by
  cases x with
  | server => exact hsound.serverKey
  | client => exact hsound.mayHold

theorem ownKeys_helper {s : Session} (hsound : Sound P key (s.link c))
    (hown : OwnKeys P (s.clients c).keys) (x : Session.End) :
    OwnKeys P (Session.helper x s c).encryptionKeys := by
  cases x with
  | server => exact hsound.own
  | client => exact hown

theorem Carrying.session (laws : Session.CarriageLaws P) (h : Carrying P s os)
    {e : Session.Event} (hown : e.IsOwn = true)
    (hstep : (Session.session P).step s e = some (t, o)) :
    Carrying P t (os ++ o.map .session) where
  sound := by
    rw [sessionOutputs_append]
    exact h.sound.step laws.rsa laws.authentication laws.encrypted hstep
  own := Session.ownKeys_of_step h.own hstep
  carries x c key' hgenerated' := by
    rw [sessionOutputs_append] at hgenerated'
    obtain ⟨key, hgenerated, hsound⟩ := h.sound.sound c
    have hcarries := h.carries x c key hgenerated
    rw [raisedAt_append, sentFrom_append]
    have hmono : ∀ f packet, StandsFor P key f packet → StandsFor P key' f packet :=
      fun _ _ hwritten => Session.WrittenFor.mono hwritten (hgenerated.mono hgenerated')
    refine Carries.mono ?_ hmono
    rcases Session.transfers_of_step laws.rsa laws.authentication hown hstep c with
      ⟨y, htransfers⟩ | ⟨rfl, -, hnew⟩
    · rcases passes_or_takes htransfers x with ⟨hunderWay, hnone⟩ | ⟨f, hunderWay, hraised⟩
      · rw [hunderWay, hnone, List.append_nil]
        exact hcarries
      · rw [hunderWay] at hcarries
        rw [hraised]
        refine hcarries.takes ?_
        rcases raisedFor_packet P (Session.helper x.other s c).encryptionKeys
          (Session.InHandshake x.other s c) f with hnone | ⟨data, hopens, hone⟩
        · exact Or.inl hnone
        · refine Or.inr fun packet hwritten => ?_
          have hdata := Session.WrittenFor.opened laws.publicKey laws.chaCha laws.encrypted hwritten
            (mayHold_helper hsound x.other) (ownKeys_helper hsound (h.own c) x.other) hopens
          have haction : f.header.packetAction = packet.1 := hwritten.action
          rw [hone, hdata, haction]
    · -- the channels of a new connection are empty
      rw [underWay, hnew, List.filterMap_nil, applications_nil, List.append_nil]
      exact hcarries.cleared

theorem underWay_also {c' : ConnId} (hwritten : ∀ x c, Session.written x t c =
    Session.written x s c ++ if x = y ∧ c = c' then [f] else []) (x : Session.End) (c : ConnId) :
    underWay x t c = underWay x s c ++
      if x = y ∧ c = c' ∧ f.header.packetAction.IsApplication then [f] else [] := by
  rw [underWay, hwritten, List.filter_append, ← underWay]
  congr 1
  by_cases hhere : x = y ∧ c = c'
  · simp [hhere, List.filter_cons]
  · rw [if_neg hhere, if_neg fun h => hhere ⟨h.1, h.2.1⟩]
    rfl

theorem raisedAt_sent (x : Session.End) (c : ConnId) (os : List Output) (y : Session.End)
    (c' : ConnId) (packet : Packet) :
    raisedAt x c (os ++ [.sent y c' packet]) = raisedAt x c os := by
  rw [raisedAt, List.filterMap_append]
  exact congrArg applications (List.append_nil _)

theorem sentFrom_sent (x : Session.End) (c : ConnId) (os : List Output) (y : Session.End)
    (c' : ConnId) (packet : Packet) : sentFrom x c (os ++ [.sent y c' packet]) =
      sentFrom x c os ++ if x = y ∧ c = c' ∧ packet.1.IsApplication then [packet] else [] := by
  rw [sentFrom, List.filterMap_append, applications, List.filter_append]
  congr 1
  by_cases hhere : x = y ∧ c = c'
  · simp [Output.sentFrom, hhere, List.filter_cons]
  · rw [if_neg fun h => hhere ⟨h.1, h.2.1⟩]
    simp [Output.sentFrom, hhere]

theorem sessionOutputs_sent (os : List Output) (y : Session.End) (c' : ConnId)
    (packet : Packet) : sessionOutputs (os ++ [.sent y c' packet]) = sessionOutputs os := by
  rw [sessionOutputs, List.filterMap_append]
  exact List.append_nil _

theorem Carrying.sends (laws : Session.CarriageLaws P) (h : Carrying P s os) {c' : ConnId}
    {io : Ambient} {isEncryptionEnabled : Bool} {encryptionType : PacketEncryptionType}
    (hdata : packet.2 ≠ [])
    (hframe : ((Session.helper y s c').sendPacket P io (some packet.2) packet.1
      isEncryptionEnabled encryptionType).frame = some f)
    (hstep : (Session.session P).step s (Session.also y c' f) = some (t, [])) :
    Carrying P t (os ++ [.sent y c' packet]) := by
  obtain ⟨-, hserver, hclients, hwritten⟩ := Session.step_also hstep
  have hsound := h.sound.step laws.rsa laws.authentication laws.encrypted hstep
  rw [List.append_nil] at hsound
  refine ⟨by rwa [sessionOutputs_sent], fun c => by rw [hclients]; exact h.own c, ?_⟩
  intro x c key hgenerated
  rw [sessionOutputs_sent] at hgenerated
  have hcarries := h.carries x c key hgenerated
  rw [underWay_also hwritten, raisedAt_sent, sentFrom_sent,
    PacketHelper.sendPacket_action P _ _ hframe]
  split_ifs with hhere
  · obtain ⟨rfl, rfl, -⟩ := hhere
    obtain ⟨key', hgenerated', hsound⟩ := h.sound.sound c
    obtain rfl : key = key' := hgenerated.unique hgenerated'
    exact hcarries.sends
      (Session.writtenFor_of_mayHold (mayHold_helper hsound x) hdata hframe)
  · rw [List.append_nil, List.append_nil]
    exact hcarries

theorem Carrying.step (laws : Session.CarriageLaws P) (h : Carrying P s os) {o : List Output}
    (hstep : (traffic P).step s e = some (t, o)) : Carrying P t (os ++ o) := by
  cases stepped_of_step hstep with
  | session own step => exact h.session laws own step
  | sends data_ne frame step => exact h.sends laws data_ne frame step
  | fails =>
      rw [List.append_nil]
      exact h

/-! ## Runs -/

/-- What an end of a connection has raised is a part of what the other end has sent on
it: in order, each packet at most once and as it was. -/
def Carried (_ : Session) (os : List Output) : Prop :=
  ∀ x c, (raisedAt x.other c os).Sublist (sentFrom x c os)

/-- In every interleaving of the two ends of any number of connections and of the threads
that send on them. -/
theorem throughout_carried (P : Platform) (laws : Session.CarriageLaws P) (self : Peer)
    (es : List Event) : (traffic P).Throughout Carried (.start self) es := by
  intro pre post t os hsplit hrun x c
  have h : Carrying P t ([] ++ os) := Machine.invariant
    (fun _ _ _ _ _ hI hstep => hI.step laws hstep) (carrying_start P self) hrun
  obtain ⟨key, hgenerated, -⟩ := h.sound.sound c
  exact (h.carries x c key hgenerated).sublist

/-! ### Runs of a session -/

/-- What another thread of a client sends it sends with `SendPacket`, as it is. -/
def ofSession : Session.Event → Event
  | .alsoToServer c f =>
      .send .client c PacketHelper.quiet (f.header.packetAction, f.packet) false .none
  | e => .session e

/-- Only the clients have other threads, and what they send is written so. -/
def IsPlain : Session.Event → Prop
  | .alsoToServer _ f => f.packet ≠ [] ∧
      PacketHelper.frameOf PacketHelper.quiet f.packet f.header.packetAction .none = f
  | .alsoToClient _ _ => False
  | _ => True

theorem step_ofSession {e : Session.Event} (hplain : IsPlain e)
    (hstep : (Session.session P).step s e = some (t, o)) :
    ∃ os, (traffic P).step s (ofSession e) = some (t, os) ∧ sessionOutputs os = o := by
  have hown : e.IsOwn = true → (traffic P).step s (.session e) = some (t, o.map .session) := by
    intro hown
    simp only [traffic, hown, if_true, hstep, Option.map_some]
  have houtputs : sessionOutputs (o.map .session) = o := sessionOutputs_append [] o
  cases e with
  | alsoToServer c f =>
      obtain ⟨hdata, hframe⟩ := hplain
      have hsent : ((Session.helper .client s c).sendPacket P PacketHelper.quiet (some f.packet)
          f.header.packetAction false .none).frame = some f := by
        rw [PacketHelper.sendPacket_clear P _ _ rfl _ _ rfl, hframe]
        rfl
      have hnext : (Session.session P).step s (Session.also .client c f) = some (t, o) := hstep
      have hopen : IsOpen s .client c ∧ ¬ f.header.packetAction.IsHandshake ∧ f.packet ≠ [] := by
        simp only [Session.session] at hstep
        split_ifs at hstep with hcond
        exact ⟨hcond.1, hcond.2, hdata⟩
      refine ⟨[.sent .client c (f.header.packetAction, f.packet)], ?_,
        (Session.step_also hnext).1.symm⟩
      simp only [traffic, ofSession, if_pos hopen, hsent, hnext, Option.map_some]
  | alsoToClient c f => exact hplain.elim
  | connect peerId settings created => exact ⟨_, hown rfl, houtputs⟩
  | server e => exact ⟨_, hown rfl, houtputs⟩
  | client c e => exact ⟨_, hown rfl, houtputs⟩

theorem run_ofSession {es : List Session.Event} (hplain : ∀ e ∈ es, IsPlain e)
    (hrun : (Session.session P).run s es = some (t, o)) :
    ∃ os, (traffic P).run s (es.map ofSession) = some (t, os) ∧ sessionOutputs os = o := by
  induction es generalizing s o with
  | nil =>
      obtain ⟨rfl, rfl⟩ := Prod.mk.inj (Option.some.inj hrun)
      exact ⟨[], rfl, rfl⟩
  | cons e es ih =>
      obtain ⟨u, o₁, o₂, hstep, hrest, rfl⟩ := Machine.run_cons_iff.1 hrun
      obtain ⟨hhead, htail⟩ := List.forall_mem_cons.1 hplain
      obtain ⟨os₁, hstep', rfl⟩ := step_ofSession hhead hstep
      obtain ⟨os₂, hrest', rfl⟩ := ih htail hrest
      exact ⟨os₁ ++ os₂, Machine.run_cons_iff.2 ⟨u, os₁, os₂, hstep', hrest', rfl⟩,
        List.filterMap_append⟩

theorem mem_raisedAt {z : Session.Output} (h : z ∈ sessionOutputs os)
    (hraised : z.raised x c = some packet) (happlication : packet.1.IsApplication) :
    packet ∈ raisedAt x c os := by
  obtain ⟨w, hw, hz⟩ := List.mem_filterMap.1 h
  cases w with
  | session z' =>
      obtain rfl : z' = z := Option.some.inj hz
      exact List.mem_filter.2 ⟨List.mem_filterMap.2 ⟨_, hw, hraised⟩, by simpa using happlication⟩
  | sent x' c' packet' => simp [Output.ofSession] at hz

theorem isPlain_unsealedSession : ∀ choose ∈ Session.unsealedSession ++ Session.dataRound, ∀ s,
    IsPlain (choose s) := by
  intro choose hchoose s
  simp only [Session.unsealedSession, Session.dataRound, List.cons_append, List.nil_append,
    List.mem_cons, List.not_mem_nil, or_false] at hchoose
  rcases hchoose with rfl | rfl | rfl | rfl | rfl | rfl | rfl | rfl | rfl | rfl | rfl | rfl | rfl
  all_goals trivial

theorem exists_exchange : ∃ (es es' : List Session.Event) (s t : Session) (os os' : List Output),
    (traffic Reference.reference).run (.start Session.unsealed) (es.map ofSession) =
        some (s, os) ∧
      (s.clients 0).isAuthenticated = true ∧
      (traffic Reference.reference).run s (es'.map ofSession) = some (t, os') ∧
      (PacketActionType.data, [7]) ∈ raisedAt .server 0 os' := by
  obtain ⟨⟨es, s, os⟩, hplay, ⟨-, hauthenticated, -⟩, -, ⟨es', t, os'⟩, hplay', hmem⟩ :=
    Session.unsealedSession_end
  have hplain := Machine.forall_of_play (Machine.play_append hplay hplay') isPlain_unsealedSession
  obtain ⟨hbefore, hafter⟩ := List.forall_mem_append.1 hplain
  obtain ⟨sent, hrun, -⟩ := run_ofSession hbefore (Machine.run_of_play hplay)
  obtain ⟨sent', hrun', houtputs⟩ := run_ofSession hafter (Machine.run_of_play hplay')
  refine ⟨es, es', s, t, sent, sent', hrun, hauthenticated, hrun', ?_⟩
  exact mem_raisedAt (houtputs.symm ▸ hmem) rfl (by decide)

theorem throughout_carried_exchange : ∃ es s os,
    (traffic Reference.reference).run (.start Session.unsealed) es = some (s, os) ∧
      (PacketActionType.data, [7]) ∈ sentFrom .client 0 os := by
  obtain ⟨es, es', s, t, os, os', hrun, -, hrun', hmem⟩ := exists_exchange
  have hboth := Machine.run_append_iff.2 ⟨s, os, os', hrun, hrun', rfl⟩
  have hcarried := (throughout_carried Reference.reference Session.carriageLaws_reference
    Session.unsealed _).last hboth .client 0
  refine ⟨_, t, os ++ os', hboth, hcarried.subset ?_⟩
  rw [raisedAt, List.filterMap_append, applications, List.filter_append]
  exact List.mem_append_right _ hmem

end Traffic

end NETConnect
