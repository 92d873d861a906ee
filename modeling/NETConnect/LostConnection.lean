import NETConnect.Client
import NETConnect.Server
/-!
# How the two sides notice a lost connection

Both loops poll their heartbeat and decide by what it reports.  The two conditions differ
in one character: the server negates the result of the call, and the client does not.
-/

namespace NETConnect

open Lib

namespace LostConnection

variable (P : Platform) (s : BaseTCPClient.Client) (t : BaseTCPServer.Server) (c : ConnId)
  (clock : PollClock) (isGracefulShutdown : Bool) (io : Ambient) (others : ConnId → Ambient)

/-- A client and a handler of the server that poll heartbeats in the same state, with the
same keys and settings, and whose tokens are not cancelled. -/
structure StandAlike : Prop where
  heartBeat : (t.conns c).heartBeat = s.heartBeat
  keys : (t.conns c).keys = s.keys
  settings : t.self.settings = s.settings
  token : s.token = false
  clientToken : (t.conns c).clientToken = false

/-- What the poll of the client reports. -/
def polled : Beat :=
  s.heartBeat.trySendHeartBeat P ⟨s.settings, s.keys⟩ io clock isGracefulShutdown

/-- Both loops cancel their tokens exactly if the connection is reported as lost after the
first beat. -/
structure ReactAlike : Prop where
  client : (s.takeBeat P clock isGracefulShutdown io).1.token = true ↔
    (polled P s clock isGracefulShutdown io).isDisconnected = true ∧
      (polled P s clock isGracefulShutdown io).heartBeat.firstBeat = false
  server : ((t.takeBeat P c clock isGracefulShutdown io others).1.conns c).clientToken = true ↔
    (polled P s clock isGracefulShutdown io).isDisconnected = true ∧
      (polled P s clock isGracefulShutdown io).heartBeat.firstBeat = false

variable {P s t c clock isGracefulShutdown io others}

/-- The client never cancels its token: a poll that sent a ping found no lost connection. -/
theorem token_takeBeat : (s.takeBeat P clock isGracefulShutdown io).1.token = s.token := by
  cases s
  rw [BaseTCPClient.Client.takeBeat,
    BaseTCPClient.Client.afterBeat_eq (HeartBeat.trySendHeartBeat_result ..)]

theorem clientToken_afterBeat (beat : Beat) :
    ((t.afterBeat P c others beat).1.conns c).clientToken =
      ((t.conns c).clientToken ||
        (!beat.result && beat.isDisconnected && !beat.heartBeat.firstBeat)) := by
  unfold BaseTCPServer.Server.afterBeat
  split_ifs with hlost
  · rw [hlost, Bool.or_true]
    simp only [BaseTCPServer.Server.setConn, Function.update_self]
  · rw [Bool.eq_false_of_not_eq_true hlost, Bool.or_false]
    simp only [BaseTCPServer.Server.setConn, Function.update_self]

theorem polled_lost_iff :
    ((polled P s clock isGracefulShutdown io).isDisconnected = true ∧
        (polled P s clock isGracefulShutdown io).heartBeat.firstBeat = false) ↔
      HeartBeat.GivesUp P ⟨s.settings, s.keys⟩ io s.heartBeat clock isGracefulShutdown := by
  have hresult := HeartBeat.trySendHeartBeat_result P ⟨s.settings, s.keys⟩ io s.heartBeat clock
    isGracefulShutdown
  rw [← HeartBeat.trySendHeartBeat_givesUp_iff, polled]
  cases hlost : (s.heartBeat.trySendHeartBeat P ⟨s.settings, s.keys⟩ io clock
    isGracefulShutdown).isDisconnected with
  | false => simp
  | true =>
      rw [hlost, Bool.and_true] at hresult
      simp [hresult]

theorem clientToken_takeBeat (h : StandAlike s t c) :
    ((t.takeBeat P c clock isGracefulShutdown io others).1.conns c).clientToken = true ↔
      HeartBeat.GivesUp P ⟨s.settings, s.keys⟩ io s.heartBeat clock isGracefulShutdown := by
  rw [BaseTCPServer.Server.takeBeat, clientToken_afterBeat, h.clientToken, Bool.false_or,
    h.heartBeat, h.keys, h.settings, HeartBeat.trySendHeartBeat_givesUp_iff]

/-- The two sides react alike exactly if the poll is none at which the server gives up. -/
theorem reactAlike_iff (P : Platform) (s : BaseTCPClient.Client) (t : BaseTCPServer.Server)
    (c : ConnId) (h : StandAlike s t c) (clock : PollClock) (isGracefulShutdown : Bool)
    (io : Ambient) (others : ConnId → Ambient) :
    ReactAlike P s t c clock isGracefulShutdown io others ↔
      ¬ HeartBeat.GivesUp P ⟨s.settings, s.keys⟩ io s.heartBeat clock isGracefulShutdown := by
  have hclient : ¬ (s.takeBeat P clock isGracefulShutdown io).1.token = true := by
    rw [token_takeBeat, h.token]
    exact Bool.false_ne_true
  constructor
  · intro halike hgivesUp
    exact hclient (halike.client.2 (polled_lost_iff.2 hgivesUp))
  · intro hgoesOn
    exact ⟨iff_of_false hclient fun hlost => hgoesOn (polled_lost_iff.1 hlost),
      (clientToken_takeBeat h).trans polled_lost_iff.symm⟩

/-- A client after its first beat. -/
def beaten : BaseTCPClient.Client :=
  let t : DateTime := (10 * ticksPerSecond : Nat)
  { peerId := ⟨1⟩, settings := some {}
    heartBeat := { HeartBeat.create t t with firstBeat := false } }

/-- A server that serves a connection like it. -/
def serving : BaseTCPServer.Server :=
  { self := { peerId := ⟨2⟩ }, accepted := 1, thread := .beating 0
    conns := fun _ => { keys := {}, heartBeat := beaten.heartBeat } }

/-- A second later, when no ping is due. -/
def early : PollClock :=
  let t : DateTime := (11 * ticksPerSecond : Nat)
  ⟨t, (t, t), (t, t), t⟩

theorem reactAlike_iff_early : ReactAlike Reference.reference beaten serving 0 early false
    PacketHelper.quiet fun _ => PacketHelper.quiet :=
  (reactAlike_iff Reference.reference beaten serving 0 ⟨rfl, rfl, rfl, rfl, rfl⟩ early false
    PacketHelper.quiet fun _ => PacketHelper.quiet).2 (by
      rw [HeartBeat.GivesUp, if_neg (by decide)]
      decide)

/-- The other side has shut the connection down. -/
theorem not_reactAlike :
    ¬ ∀ (P : Platform) (created : DateTime × DateTime) (ops : List HeartBeat.Op)
        (hb : HeartBeat) (os : List HeartBeat.Event),
        (HeartBeat.life P).run (.create created.1 created.2) ops = some (hb, os) →
        ∀ (s : BaseTCPClient.Client) (t : BaseTCPServer.Server) (c : ConnId),
          s.heartBeat = hb → StandAlike s t c →
          ∀ (clock : PollClock) (isGracefulShutdown : Bool) (io : Ambient)
            (others : ConnId → Ambient),
            ReactAlike P s t c clock isGracefulShutdown io others := by
  intro halways
  have h := halways Reference.reference ((0 : Nat), (0 : Nat)) [HeartBeat.pollAt 10] _ _ rfl
    beaten serving 0 rfl ⟨rfl, rfl, rfl, rfl, rfl⟩ early true PacketHelper.quiet
    fun _ => PacketHelper.quiet
  have hlost : (polled Reference.reference beaten early true PacketHelper.quiet).isDisconnected =
        true ∧ (polled Reference.reference beaten early true
          PacketHelper.quiet).heartBeat.firstBeat = false := by decide
  have hcancelled := h.client.2 hlost
  rw [token_takeBeat] at hcancelled
  exact absurd hcancelled (by decide)

end LostConnection

end NETConnect
