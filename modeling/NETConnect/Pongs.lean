import NETConnect.EarlyPackets
import NETConnect.Lib.Echo
import NETConnect.Pacing
/-!
# Pings and pongs

An end answers a ping with a pong that says when the ping was sent, and notes a pong that
it receives in `PingLog`.  This is what the steps of the server and of a client have to do
with that.
-/

namespace NETConnect

open Lib SocketExtensions

/-- The time that is written in a ping. -/
def Frame.pingTime (f : Frame) : Option DateTime :=
  if f.header.packetAction = .ping then
    (HeartBeat.fromUnixTimeMilliseconds f.header.sentAt.toInt).toOption
  else none

def Frame.isPong (f : Frame) : Bool := decide (f.header.packetAction = .pong)

theorem Frame.pingTime_of_action {f : Frame} (h : f.header.packetAction ≠ .ping) :
    f.pingTime = none := if_neg h

theorem Frame.isPong_of_action {f : Frame} (h : f.header.packetAction ≠ .pong) :
    f.isPong = false := decide_eq_false h

theorem Frame.isPong_of_isHandshake {f : Frame} (h : f.header.packetAction.IsHandshake) :
    f.isPong = false := by
  apply Frame.isPong_of_action
  rintro hpong
  rw [hpong] at h
  exact absurd h (by decide)

/-- The frame was written as the pong for the ping that was sent at `t`. -/
def IsPongFor (P : Platform) (key : Option (RandomData 32)) (f : Frame) (t : DateTime) : Prop :=
  ∃ ping : PingTracker, ping.pingSentAt = t ∧
    Session.WrittenFor P key (.pong, toUTF8Byte (P.pingTracker.toJSON ping)) f

/-- Pings are the calls, and pongs the answers. -/
def pingEcho (P : Platform) (key : Option (RandomData 32)) : Echo Frame DateTime :=
  ⟨Frame.pingTime, Frame.isPong, IsPongFor P key⟩

/-- An end has no session key yet, or the one of the connection. -/
def MayHold (key : Option (RandomData 32)) (keys : SecurityKey) : Prop :=
  keys.chaChaKey = none ∨ Agreed key keys

variable {P : Platform} {key : Option (RandomData 32)}

theorem Sound.mayHold {l : Link} (h : Sound P key l) : MayHold key l.client.keys := by
  have hstored := h.clientKey
  cases key with
  | none => exact Or.inl hstored
  | some k => exact Or.inr ⟨k, rfl, hstored⟩

/-! ## Writing and opening -/

namespace Session

variable {key' : Option (RandomData 32)} {keys : SecurityKey} {packet : Packet} {f : Frame}

theorem WrittenFor.mono (h : WrittenFor P key packet f)
    (hkey : ∀ k, key = some k → key' = some k) : WrittenFor P key' packet f := by
  have hmark : Marks P key f (some packet) := by
    rintro _ ⟨⟩
    exact h
  exact hmark.mono hkey packet rfl

theorem writtenFor_of_mayHold {settings : Option PeerSettings} {io : Ambient}
    {isEncryptionEnabled : Bool} {encryptionType : PacketEncryptionType}
    (hkeys : MayHold key keys) (hdata : packet.2 ≠ [])
    (h : (PacketHelper.sendPacket P ⟨settings, keys⟩ io (some packet.2) packet.1
      isEncryptionEnabled encryptionType).frame = some f) : WrittenFor P key packet f := by
  rcases hkeys with hnone | ⟨k, rfl, hstored⟩
  · have hwritten : WrittenFor P none packet f := writtenFor_of_sendPacket hnone hdata h
    exact hwritten.mono (by simp)
  · exact writtenFor_of_sendPacket hstored hdata h

/-- If the other end opens the frame at all, it opens it to what was sent. -/
theorem WrittenFor.opened (hpublic : P.PublicKeyOpensNothing) (chaCha : P.ChaChaLaws)
    (hjson : P.packetEncrypted.RoundTrips) (h : WrittenFor P key packet f)
    (hkeys : MayHold key keys) (hown : OwnKeys P keys) {data : Bytes}
    (hopens : autoDecrypt P keys f = .ok (some data)) : data = packet.2 := by
  have haction : f.header.packetAction ≠ .empty := by
    intro hempty
    rw [autoDecrypt, if_pos hempty] at hopens
    simp at hopens
  have htype : f.header.packetEncryptionType ≠ .rsa := fun htype =>
    h.not_opens_rsa hpublic hjson hown htype data hopens
  rcases hkeys with hnone | hagreed
  · rcases h.content with ⟨hclear, hpacket⟩ | ⟨io, k, -, hsealed⟩ | ⟨io, publicKey, hsealed⟩
    · rw [autoDecrypt, if_neg haction, if_neg (by simp [hclear]), hpacket] at hopens
      exact (Option.some.inj (Except.ok.inj hopens)).symm
    · -- without a key nothing is opened
      obtain ⟨hlabel, e, hpacket, -⟩ := hsealed
      rw [autoDecrypt_eq_of_labelled hjson haction (by rw [hlabel]; decide) hpacket] at hopens
      have hdecrypt := tryDecryptWith_eq_ok hpublic hown hopens
      rw [hnone] at hdecrypt
      simp [PacketEncrypted.decryptChaCha] at hdecrypt
    · exact absurd hsealed.1 htype
  · rw [h.opens chaCha hjson hagreed haction htype] at hopens
    exact (Option.some.inj (Except.ok.inj hopens)).symm

end Session

/-! ## One step -/

/-- What a step of an end does to its log, with the packet that it takes, the time at
which it does, and the frames that it sends. -/
inductive Beats (P : Platform) (key : Option (RandomData 32)) (log : List PingTracker)
    (taken : Option Frame) (now : Option DateTime) : List PingTracker → List Frame → Prop
  | passes {log' sent} (sublist : log'.Sublist log) (silent : ∀ f ∈ sent, f.isPong = false) :
      Beats P key log taken now log' sent
  | replies {f g t} (took : taken = some f) (ping : f.pingTime = some t)
      (pong : g.isPong = true) (answers : IsPongFor P key g t) : Beats P key log taken now log [g]
  | notes {f ping} (took : taken = some f) (pong : f.isPong = true)
      (answers : ∀ t, IsPongFor P key f t → ping.pingSentAt = t)
      (received : now = some ping.pongReceivedAt) :
      Beats P key log taken now (log ++ [ping]) []

theorem beats_nothing {log : List PingTracker} {taken : Option Frame} {now : Option DateTime} :
    Beats P key log taken now log [] :=
  .passes (List.Sublist.refl log) (by simp)

namespace HeartBeat

theorem beats_of_handle (hpublic : P.PublicKeyOpensNothing) (chaCha : P.ChaChaLaws)
    (hjson : P.packetEncrypted.RoundTrips) (hping : P.pingTracker.RoundTrips)
    {keys : SecurityKey} (hkeys : MayHold key keys) (hown : OwnKeys P keys)
    {settings : Option PeerSettings} {io : Ambient} {hb hb' : HeartBeat} {utcNow : DateTime}
    {f : Frame} {data : Bytes} {reply : Option Frame}
    (hopens : autoDecrypt P keys f = .ok (some data))
    (h : hb.handleHeartBeatActions P ⟨settings, keys⟩ io utcNow f.header data = .ok (hb', reply)) :
    Beats P key hb.pingLog (some f) (some utcNow) hb'.pingLog reply.toList := by
  unfold handleHeartBeatActions at h
  split_ifs at h with haction hpong
  · -- a ping is answered
    obtain ⟨pingSentAt, htime, h⟩ := Exn.bind_eq_ok.1 h
    obtain ⟨rfl, hreply⟩ := Prod.mk.inj (Except.ok.inj h)
    cases reply with
    | none => exact beats_nothing
    | some g =>
        have hpong : g.isPong = true :=
          decide_eq_true (PacketHelper.action_of_mem_sendUTF8Packet P (Option.mem_toList.2 hreply))
        have hwritten : Session.WrittenFor P key (.pong, toUTF8Byte (P.pingTracker.toJSON
            { pingSentAt, pingReceivedAt := utcNow })) g :=
          Session.writtenFor_of_mayHold hkeys (toUTF8Byte_ne_nil (hping.toJSON_ne_empty _)) hreply
        have htaken : f.pingTime = some pingSentAt := by
          rw [Frame.pingTime, if_pos haction, htime]
          rfl
        exact .replies rfl htaken hpong ⟨_, rfl, hwritten⟩
  · -- a pong is noted
    split at h
    · obtain ⟨rfl, rfl⟩ := Prod.mk.inj (Except.ok.inj h)
      exact beats_nothing
    · simp at h
    · rename_i ping hread
      obtain ⟨rfl, rfl⟩ := Prod.mk.inj (Except.ok.inj h)
      refine .notes rfl (decide_eq_true hpong) ?_ rfl
      rintro t ⟨sent, rfl, hwritten⟩
      rw [hwritten.opened hpublic chaCha hjson hkeys hown hopens,
        hping.isValidJSONBytes_toJSON] at hread
      rw [← Option.some.inj (Option.some.inj hread)]
  · obtain ⟨rfl, rfl⟩ := Prod.mk.inj (Except.ok.inj h)
    exact beats_nothing

end HeartBeat

/-! ## The steps of the ends -/

/-- What `ReceivePacket` returned in a step, if it was called and returned. -/
def packetOf : Option Received → Option Frame
  | some (.packet f) => some f
  | _ => none

section Ends

variable (hpublic : P.PublicKeyOpensNothing) (chaCha : P.ChaChaLaws)
  (hjson : P.packetEncrypted.RoundTrips) (hping : P.pingTracker.RoundTrips)

namespace HeartBeat

theorem trySendHeartBeat_pingLog (P : Platform) (helper : PacketHelper) (io : Ambient)
    (hb : HeartBeat) (clock : PollClock) (isGracefulShutdown : Bool) :
    (trySendHeartBeat P helper io hb clock isGracefulShutdown).heartBeat.pingLog = hb.pingLog := by
  have hbegun : ((hb.begun clock.first).setLastBeat clock.ping).pingLog = hb.pingLog ∧
      (hb.begun clock.first).pingLog = hb.pingLog := by
    unfold begun
    split_ifs <;> exact ⟨rfl, rfl⟩
  rcases trySendHeartBeat_cases P helper io hb clock isGracefulShutdown with
    ⟨-, -, -, hsame⟩ | ⟨-, -, -, hafter⟩
  · rw [hsame]
  · rw [hafter]
    split_ifs
    · exact hbegun.1
    · exact hbegun.2

end HeartBeat

namespace BaseTCPServer

variable {s : Server} {e : Event} {c : ConnId} {r : Server × List Output}

def Event.utcNow : Event → Option DateTime
  | .receive _ utcNow _ => some utcNow
  | _ => none

def Server.pingLog (s : Server) (c : ConnId) : List PingTracker := (s.conns c).heartBeat.pingLog

theorem Server.pingLog_setConn (s : Server) (c' : ConnId) (conn : Connection) (c : ConnId) :
    (s.setConn c' conn).pingLog c = if c = c' then conn.heartBeat.pingLog else s.pingLog c := by
  simp only [Server.pingLog, Server.setConn]
  split_ifs with hc
  · rw [hc, Function.update_self]
  · rw [Function.update_of_ne hc]

theorem Server.pingLog_setConn_self (s : Server) {c' : ConnId} (conn : Connection)
    (hlog : conn.heartBeat.pingLog = s.pingLog c') (c : ConnId) :
    (s.setConn c' conn).pingLog c = s.pingLog c := by
  rw [Server.pingLog_setConn]
  split_ifs with hc
  · rw [hlog, hc]
  · rfl

theorem isHandshake_of_replies {settings : Option PeerSettings} {io : Ambient}
    {keys : SecurityKey} {received : Received} {f : Frame}
    (h : f ∈ (Authentication.takeTurn (handleAuthenticationPacket P) keys
      ⟨settings, io, received⟩).replies) : f.header.packetAction.IsHandshake := by
  rcases Authentication.takeTurn_cases (handleAuthenticationPacket P) keys
    ⟨settings, io, received⟩ with ⟨-, hnone⟩ | ⟨g, -, -, hturn⟩
  · rw [hnone] at h
    simp at h
  · rw [hturn] at h
    cases handleAuthenticationPacket_answers (P := P) settings io keys g with
    | nothing keys_eq replies => simp [replies] at h
    | offers localKeys own keys_eq replies => exact Or.inr (Or.inl (replies f h).1)
    | stores localKeys keyData action own stored keys_eq replies =>
        exact Or.inr (Or.inr (Or.inl (replies f h)))
    | readies action keys_eq replies => exact Or.inr (Or.inr (Or.inr (replies f h)))

/-- What a poll sends is its ping, or tells the other peers that one has left. -/
theorem Server.afterBeat_sent {others : ConnId → Ambient} {beat : Beat} {c' : ConnId} {f : Frame}
    (h : .sent c' f ∈ (s.afterBeat P c others beat).2) :
    f ∈ (beat.ping.bind Sent.frame).toList ∨ f.header.packetAction = .peerLeave := by
  have hown : .sent c' f ∈ (beat.ping.bind Sent.frame).toList.map (Output.sent c) →
      f ∈ (beat.ping.bind Sent.frame).toList := by
    intro hmem
    obtain ⟨g, hg, hsent⟩ := List.mem_map.1 hmem
    obtain ⟨-, rfl⟩ := Output.sent.inj hsent
    exact hg
  unfold Server.afterBeat at h
  simp only at h
  split_ifs at h
  · rcases List.mem_append.1 h with hmem | hmem
    · exact Or.inl (hown hmem)
    · obtain ⟨l, hl, hsent⟩ := List.mem_map.1 hmem
      obtain ⟨-, rfl⟩ := Output.sent.inj hsent
      exact Or.inr (Peer.removeClient_action hl)
  · exact Or.inl (hown h)

theorem Server.pingLog_afterBeat {others : ConnId → Ambient} {beat : Beat}
    (hlog : beat.heartBeat.pingLog = s.pingLog c) (c' : ConnId) :
    (s.afterBeat P c others beat).1.pingLog c' = s.pingLog c' := by
  unfold Server.afterBeat
  simp only
  split_ifs
  · exact s.pingLog_setConn_self _ hlog c'
  · exact s.pingLog_setConn_self _ hlog c'

include hpublic chaCha hjson hping in
theorem beats_handleDataReceived (site : Site) (self : Peer) {conn : Connection} {f : Frame}
    {data : Bytes} (hkeys : MayHold key conn.keys) (hown : OwnKeys P conn.keys)
    (hopens : autoDecrypt P conn.keys f = .ok (some data)) :
    Beats P key conn.heartBeat.pingLog (some f) (some site.utcNow)
      (handleDataReceived P site self c conn f.header data).conn.heartBeat.pingLog
      (handleDataReceived P site self c conn f.header data).sent.toList := by
  have hjoin : ∀ self entries, ∀ g ∈ (Peer.sendKnownPeers P site self conn entries).toList,
      g.isPong = false := by
    intro self entries g hg
    apply Frame.isPong_of_action
    rw [Peer.sendKnownPeers_action (Option.mem_toList.1 hg)]
    decide
  unfold handleDataReceived handleAction
  split_ifs
  · split
    · rename_i hhandled
      exact HeartBeat.beats_of_handle hpublic chaCha hjson hping hkeys hown hopens hhandled
    · exact beats_nothing
  · exact beats_nothing
  · exact beats_nothing
  · simp only [Peer.addPeer, Peer.addPeers]
    split
    · split <;> exact .passes (List.Sublist.refl _) (hjoin _ _)
    · split
      · split
        · exact beats_nothing
        · exact .passes (List.Sublist.refl _) (hjoin _ _)
      · exact beats_nothing
  · exact beats_nothing

theorem Server.pingLog_authenticate (P : Platform) (s : Server) (c' : ConnId) (io : Ambient)
    (received : Received) (c : ConnId) :
    (s.authenticate P c' io received).1.pingLog c = s.pingLog c := by
  simp only [Server.authenticate]
  split
  · exact s.pingLog_setConn_self _ (by rfl) c
  · split_ifs
    · exact s.pingLog_setConn_self _ (by rfl) c
    · exact s.pingLog_setConn_self _ (by rfl) c

theorem Server.pingLog_acceptClient (P : Platform) (s : Server) (created : DateTime × DateTime)
    (entropy : Bytes) (c : ConnId) :
    ((s.acceptClient P created entropy).pingLog c).Sublist (s.pingLog c) := by
  cases hkeys : P.rsaCreate 8192 entropy with
  | none =>
      simp only [Server.acceptClient, hkeys]
      exact List.Sublist.refl _
  | some localKeys =>
      have hlog : (s.acceptClient P created entropy).pingLog c = (s.setConn s.accepted
          { keys := startKeys localKeys, heartBeat := .create created.1 created.2 }).pingLog c := by
        simp only [Server.acceptClient, hkeys]
        rfl
      rw [hlog, Server.pingLog_setConn]
      split_ifs
      · exact List.nil_sublist _
      · exact List.Sublist.refl _

theorem Server.pingLog_afterRaise (c' : ConnId) (header : PacketHeader) (data : Bytes)
    (raised : Raised) (c : ConnId) :
    (s.afterRaise c' header data raised).1.pingLog c =
      if c = c' then raised.conn.heartBeat.pingLog else s.pingLog c :=
  s.pingLog_setConn c' raised.conn c

include hpublic chaCha hjson hping in
theorem Server.beats_takePacket (io : Ambient) (utcNow : DateTime) (received : Received)
    (c' : ConnId) (hkeys : MayHold key (s.keys c)) (hown : OwnKeys P (s.keys c)) :
    Beats P key (s.pingLog c) (if c' = c then packetOf (some received) else none) (some utcNow)
      ((s.takePacket P c' io utcNow received).1.pingLog c)
      ((s.takePacket P c' io utcNow received).2.filterMap (Output.sentOn c)) := by
  cases received with
  | threw ex => exact beats_nothing
  | packet f =>
      cases hopens : autoDecrypt P (s.conns c').keys f with
      | error ex =>
          simp only [Server.takePacket, hopens]
          exact beats_nothing
      | ok opened =>
          cases opened with
          | none =>
              simp only [Server.takePacket, hopens]
              exact beats_nothing
          | some data =>
              rw [Server.takePacket_of_opens hopens, Server.pingLog_afterRaise]
              simp only [Server.afterRaise]
              rw [List.filterMap_cons_none rfl, filterMap_sentOn_map]
              rcases eq_or_ne c c' with rfl | hne
              · simp only [if_true]
                exact beats_handleDataReceived hpublic chaCha hjson hping (s.site io utcNow) s.self
                  hkeys hown hopens
              · simp only [if_neg hne]
                exact beats_nothing

include hpublic chaCha hjson hping in
theorem Stepped.beats (h : Stepped P s e r) (c : ConnId) (hkeys : MayHold key (s.keys c))
    (hown : OwnKeys P (s.keys c)) :
    Beats P key (s.pingLog c)
      (if s.thread.serving = some c then packetOf e.received else none) e.utcNow
      (r.1.pingLog c) (r.2.filterMap (Output.sentOn c)) := by
  cases h with
  | accept h =>
      refine .passes (s.pingLog_acceptClient P _ _ c) (by simp)
  | @gate c' h =>
      have hlog : (s.passGate c').pingLog c = s.pingLog c := by
        simp only [Server.passGate]
        split_ifs <;> rfl
      rw [hlog]
      exact beats_nothing
  | @handshake io received c' h =>
      rw [Server.pingLog_authenticate, (s.authenticate_spec P c' io received).2 c]
      split_ifs
      all_goals first
        | exact .passes (List.Sublist.refl _) fun f hf =>
            Frame.isPong_of_isHandshake (isHandshake_of_replies hf)
        | exact beats_nothing
  | beat h =>
      refine .passes ?_ fun f hf => ?_
      · rw [Server.takeBeat, Server.pingLog_afterBeat (HeartBeat.trySendHeartBeat_pingLog ..)]
      · apply Frame.isPong_of_action
        rcases Server.afterBeat_sent (mem_filterMap_sentOn_iff.1 hf) with hmem | hleave
        · rw [HeartBeat.trySendHeartBeat_action hmem]
          decide
        · rw [hleave]
          decide
  | @receive io utcNow received c' h =>
      have hserving : s.thread.serving = some c ↔ c' = c := by
        rw [h]
        exact Option.some_inj
      simp only [hserving]
      exact Server.beats_takePacket hpublic chaCha hjson hping io utcNow received c' hkeys hown
  | cancelServer => exact beats_nothing
  | @cancelClient c' =>
      have hlog : (s.setConn c' { s.conns c' with clientToken := true }).pingLog c =
          s.pingLog c := s.pingLog_setConn_self _ (by rfl) c
      rw [hlog]
      exact beats_nothing
  | elsewhere => exact beats_nothing

end BaseTCPServer

namespace BaseTCPClient

variable {s : Client} {e : Event} {r : Client × List Output}

def Event.utcNow : Event → Option DateTime
  | .receive _ utcNow _ => some utcNow
  | _ => none

theorem isHandshake_of_replies (rsa : P.RSALaws) (hauth : P.packetAuthentication.RoundTrips)
    {settings : Option PeerSettings} {io : Ambient} {keys : SecurityKey} {received : Received}
    {f : Frame} (h : f ∈ (Authentication.takeTurn (handleAuthenticationPacket P) keys
      ⟨settings, io, received⟩).replies) : f.header.packetAction.IsHandshake := by
  rcases Authentication.takeTurn_cases (handleAuthenticationPacket P) keys
    ⟨settings, io, received⟩ with ⟨-, hnone⟩ | ⟨g, -, -, hturn⟩
  · rw [hnone] at h
    simp at h
  · rw [hturn] at h
    cases handleAuthenticationPacket_answers rsa hauth settings io keys g with
    | nothing key_eq replies => simp [replies] at h
    | acknowledges auth action read key_eq replies =>
        obtain ⟨publicKey, -, hseals⟩ := replies f h
        exact Or.inr (Or.inr (Or.inl hseals.1))
    | readies action key_eq replies => exact Or.inr (Or.inr (Or.inr (replies f h)))

include hpublic chaCha hjson hping in
theorem Client.beats_takePacket (io : Ambient) (utcNow : DateTime) (received : Received)
    (hkeys : MayHold key s.keys) (hown : OwnKeys P s.keys) :
    Beats P key s.heartBeat.pingLog (packetOf (some received)) (some utcNow)
      (s.takePacket P io utcNow received).1.heartBeat.pingLog
      ((s.takePacket P io utcNow received).2.filterMap Output.sentFrame) := by
  cases received with
  | threw ex => exact beats_nothing
  | packet f =>
      simp only [Client.takePacket]
      split
      · exact beats_nothing
      · exact beats_nothing
      · rename_i data hopens
        split
        · exact beats_nothing
        · rename_i heartBeat reply hhandled
          simp only
          rw [List.filterMap_cons_none rfl, filterMap_sentFrame]
          unfold handleOnDataReceived at hhandled
          split_ifs at hhandled
          · obtain ⟨rfl, rfl⟩ := Prod.mk.inj (Except.ok.inj hhandled)
            exact beats_nothing
          · exact HeartBeat.beats_of_handle hpublic chaCha hjson hping hkeys hown hopens hhandled
          · obtain ⟨rfl, rfl⟩ := Prod.mk.inj (Except.ok.inj hhandled)
            exact beats_nothing

theorem Client.passGate_sent {io : Ambient} {k : RandomData 32} {f : Frame}
    (h : f ∈ (s.passGate P io k).2.filterMap Output.sentFrame) :
    f.header.packetAction = .syn := by
  unfold Client.passGate at h
  split_ifs at h
  · simp at h
  · simp at h
  · simp at h
  · rw [List.filterMap_cons_none rfl, filterMap_sentFrame] at h
    exact PacketHelper.action_of_mem_sendUTF8Packet P h

theorem Client.beats_passGate (s : Client) (io : Ambient) (k : RandomData 32) :
    Beats P key s.heartBeat.pingLog none none (s.passGate P io k).1.heartBeat.pingLog
      ((s.passGate P io k).2.filterMap Output.sentFrame) := by
  have hlog : (s.passGate P io k).1.heartBeat = s.heartBeat := by
    unfold Client.passGate
    split_ifs <;> rfl
  rw [hlog]
  refine .passes (List.Sublist.refl _) fun f hf => ?_
  apply Frame.isPong_of_action
  rw [Client.passGate_sent hf]
  decide

theorem Client.beats_authenticate (rsa : P.RSALaws) (hauth : P.packetAuthentication.RoundTrips)
    (s : Client) (io : Ambient) (received : Received) :
    Beats P key s.heartBeat.pingLog (packetOf (some received)) none
      (s.authenticate P io received).1.heartBeat.pingLog
      ((s.authenticate P io received).2.filterMap Output.sentFrame) := by
  have hlog : (s.authenticate P io received).1.heartBeat = s.heartBeat := by
    simp only [Client.authenticate]
    split
    · rfl
    · split_ifs <;> rfl
  rw [hlog, (s.authenticate_spec P io received).2.1]
  exact .passes (List.Sublist.refl _) fun f hf =>
    Frame.isPong_of_isHandshake (isHandshake_of_replies rsa hauth hf)

theorem Client.beats_afterBeat {s : Client} {beat : Beat}
    (hresult : (beat.result && beat.isDisconnected) = false)
    (hlog : beat.heartBeat.pingLog = s.heartBeat.pingLog)
    (hping : ∀ f ∈ (beat.ping.bind Sent.frame).toList, f.header.packetAction = .ping) :
    Beats P key s.heartBeat.pingLog none none (s.afterBeat beat).1.heartBeat.pingLog
      ((s.afterBeat beat).2.filterMap Output.sentFrame) := by
  rw [Client.afterBeat_eq hresult, filterMap_sentFrame]
  refine .passes ?_ fun f hf => ?_
  · rw [hlog]
  · apply Frame.isPong_of_action
    rw [hping f hf]
    decide

include hpublic chaCha hjson hping in
theorem Stepped.beats (rsa : P.RSALaws) (hauth : P.packetAuthentication.RoundTrips)
    (h : Stepped P s e r) (hkeys : MayHold key s.keys) (hown : OwnKeys P s.keys) :
    Beats P key s.heartBeat.pingLog (packetOf e.received) e.utcNow r.1.heartBeat.pingLog
      (r.2.filterMap Output.sentFrame) := by
  cases h with
  | gate h => exact s.beats_passGate _ _
  | handshake h => exact s.beats_authenticate rsa hauth _ _
  | beat h =>
      exact Client.beats_afterBeat (HeartBeat.trySendHeartBeat_result ..)
        (HeartBeat.trySendHeartBeat_pingLog ..) fun _ hf => HeartBeat.trySendHeartBeat_action hf
  | receive h =>
      exact Client.beats_takePacket hpublic chaCha hjson hping _ _ _ hkeys hown
  | cancel => exact beats_nothing
  | elsewhere => exact beats_nothing

end BaseTCPClient

end Ends

/-! ## When a ping is sent -/

namespace PacketHelper

variable {helper : PacketHelper} {io : Ambient} {data : Bytes} {type : PacketActionType}
  {encryptionType : PacketEncryptionType} {f : Frame}

theorem exists_frameOf_of_sendEncryptedPacket {sent : Sent}
    (h : sendEncryptedPacket P helper io (some data) encryptionType type false = .ok sent)
    (hframe : sent.frame = some f) :
    ∃ payload encryptionType', f = frameOf io payload type encryptionType' := by
  rcases eq_or_ne data [] with rfl | hdata
  · obtain rfl := Except.ok.inj h
    simp [Sent.nothing] at hframe
  · rw [sendEncryptedPacket_eq P helper io hdata] at h
    split at h
    · obtain ⟨payload, -, hsent⟩ := Exn.bind_eq_ok.1 h
      exact ⟨payload, _, connectionSend_ok io hsent hframe⟩
    · exact ⟨data, _, connectionSend_ok io h hframe⟩

theorem exists_frameOf_of_sendPacket {isEncryptionEnabled : Bool}
    (h : (sendPacket P helper io (some data) type isEncryptionEnabled encryptionType).frame =
      some f) : ∃ payload encryptionType', f = frameOf io payload type encryptionType' := by
  obtain ⟨sent, hsent, hframe⟩ := sendPacket_frame P helper io h
  rw [trySendPacket_eq] at hsent
  simp only at hsent
  split_ifs at hsent
  · exact ⟨data, _, connectionSend_ok io hsent hframe⟩
  · exact exists_frameOf_of_sendEncryptedPacket hsent hframe

end PacketHelper

theorem HeartBeat.sentAt_of_trySendHeartBeat {helper : PacketHelper} {io : Ambient}
    {hb : HeartBeat} {clock : PollClock} {isGracefulShutdown : Bool} {f : Frame}
    (h : f ∈ ((trySendHeartBeat P helper io hb clock isGracefulShutdown).ping.bind
      Sent.frame).toList) : f.header.sentAt = io.sentAt := by
  rcases trySendHeartBeat_cases P helper io hb clock isGracefulShutdown with
    ⟨-, -, hnone, -⟩ | ⟨-, hping, -⟩
  · rw [hnone] at h
    simp at h
  · rw [hping] at h
    obtain ⟨payload, encryptionType, rfl⟩ :=
      PacketHelper.exists_frameOf_of_sendPacket (Option.mem_toList.1 h)
    rfl

theorem Frame.action_of_pingTime {f : Frame} {t : DateTime} (h : f.pingTime = some t) :
    f.header.packetAction = .ping := by
  by_contra hother
  rw [Frame.pingTime_of_action hother] at h
  simp at h

/-- The time that a ping would say, if it was sent now. -/
def Ambient.stamp (io : Ambient) : Option DateTime :=
  (HeartBeat.fromUnixTimeMilliseconds io.sentAt.toInt).toOption

theorem HeartBeat.stamp_of_trySendHeartBeat {helper : PacketHelper} {io : Ambient}
    {hb : HeartBeat} {clock : PollClock} {isGracefulShutdown : Bool} {f : Frame} {t : DateTime}
    (h : f ∈ ((trySendHeartBeat P helper io hb clock isGracefulShutdown).ping.bind
      Sent.frame).toList) (ht : f.pingTime = some t) : io.stamp = some t := by
  rw [Frame.pingTime, if_pos (Frame.action_of_pingTime ht), sentAt_of_trySendHeartBeat h] at ht
  exact ht

namespace BaseTCPServer

variable {s : Server} {e : Event} {c : ConnId} {r : Server × List Output} {f : Frame}

def Event.stamp : Event → Option DateTime
  | .beat _ _ io _ => io.stamp
  | _ => none

theorem Server.takePacket_sent {c' : ConnId} {io : Ambient} {utcNow : DateTime}
    {received : Received} (h : .sent c f ∈ (s.takePacket P c' io utcNow received).2) :
    f.header.packetAction = .pong ∨ f.header.packetAction = .peerJoin := by
  simp only [Server.takePacket] at h
  split at h
  · simp at h
  · split at h
    · simp at h
    · simp at h
    · simp only [Server.afterRaise, List.mem_cons, reduceCtorEq, false_or] at h
      obtain ⟨g, hg, hsent⟩ := List.mem_map.1 h
      obtain ⟨-, rfl⟩ := Output.sent.inj hsent
      exact handleDataReceived_action _ _ _ _ _ (Option.mem_toList.1 hg)

theorem Stepped.stamp (h : Stepped P s e r) (hf : f ∈ r.2.filterMap (Output.sentOn c))
    {t : DateTime} (ht : f.pingTime = some t) : e.stamp = some t := by
  have haction := Frame.action_of_pingTime ht
  have hsent : .sent c f ∈ r.2 := mem_filterMap_sentOn_iff.1 hf
  cases h with
  | accept h => simp at hf
  | gate h => simp at hf
  | @handshake io received c' h =>
      rw [(s.authenticate_spec P c' io received).2 c] at hf
      split_ifs at hf
      · have hmessage := isHandshake_of_replies hf
        rw [haction] at hmessage
        exact absurd hmessage (by decide)
      · simp at hf
  | beat h =>
      rcases Server.afterBeat_sent hsent with hmem | hleave
      · exact HeartBeat.stamp_of_trySendHeartBeat hmem ht
      · rw [haction] at hleave
        exact absurd hleave (by decide)
  | receive h =>
      rcases Server.takePacket_sent hsent with hpong | hjoin
      · rw [haction] at hpong
        exact absurd hpong (by decide)
      · rw [haction] at hjoin
        exact absurd hjoin (by decide)
  | cancelServer => simp at hf
  | cancelClient => simp at hf
  | elsewhere => simp at hf

end BaseTCPServer

namespace BaseTCPClient

variable {s : Client} {e : Event} {r : Client × List Output} {f : Frame}

def Event.stamp : Event → Option DateTime
  | .beat _ _ io => io.stamp
  | _ => none

theorem Client.takePacket_sent {io : Ambient} {utcNow : DateTime} {received : Received}
    (h : f ∈ (s.takePacket P io utcNow received).2.filterMap Output.sentFrame) :
    f.header.packetAction = .pong := by
  simp only [Client.takePacket] at h
  split at h
  · simp at h
  · split at h
    · simp at h
    · simp at h
    · split at h
      · simp [Output.sentFrame] at h
      · rename_i heartBeat reply hhandled
        rw [List.filterMap_cons_none rfl, filterMap_sentFrame, Option.mem_toList] at h
        obtain rfl : reply = some f := h
        exact handleOnDataReceived_action hhandled

theorem Stepped.stamp (rsa : P.RSALaws) (hauth : P.packetAuthentication.RoundTrips)
    (h : Stepped P s e r) (hf : f ∈ r.2.filterMap Output.sentFrame) {t : DateTime}
    (ht : f.pingTime = some t) : e.stamp = some t := by
  have haction := Frame.action_of_pingTime ht
  cases h with
  | gate h =>
      rw [Client.passGate_sent hf] at haction
      exact absurd haction (by decide)
  | @handshake io received h =>
      rw [(s.authenticate_spec P io received).2.1] at hf
      have hmessage := isHandshake_of_replies rsa hauth hf
      rw [haction] at hmessage
      exact absurd hmessage (by decide)
  | beat h =>
      rw [Client.takeBeat, Client.afterBeat_eq (HeartBeat.trySendHeartBeat_result ..),
        filterMap_sentFrame] at hf
      exact HeartBeat.stamp_of_trySendHeartBeat hf ht
  | receive h =>
      rw [Client.takePacket_sent hf] at haction
      exact absurd haction (by decide)
  | cancel => simp at hf
  | elsewhere => simp at hf

end BaseTCPClient

end NETConnect
