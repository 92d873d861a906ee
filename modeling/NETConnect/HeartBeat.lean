import NETConnect.Lib.Machine
import NETConnect.Packet.PacketHelper
/-!
# The heartbeat

`TrySendHeartBeat` asks first whether a ping is due and only then whether the
connection timed out.  `DateTime.UtcNow` is read anew wherever the source reads
it, so one call takes several readings.
-/

namespace NETConnect

open Lib

structure HeartBeat where
  /-- "a confirmed response from the other connection" -/
  lastBeatAt : DateTime
  /-- "a Ping that the other side needs to respond to" -/
  lastPulseAt : DateTime
  timeoutAfterInSeconds : Nat := 120
  pulseAtInSeconds : Nat := 10
  pulseCooldown : Nat := 10
  firstBeat : Bool := true
  lastLatency : Int := 0
  pingLog : List PingTracker := []
  deriving DecidableEq, Repr

/-- The readings of the clock in one call of `TrySendHeartBeat`. -/
structure PollClock where
  now : DateTime
  /-- the two of `SetLastBeat` at the first beat -/
  first : DateTime × DateTime
  /-- the two of `SetLastBeat` after a ping -/
  ping : DateTime × DateTime
  timeout : DateTime
  deriving DecidableEq, Repr

/-- No reading is before the one that was taken earlier. -/
def PollClock.Ordered (c : PollClock) : Prop :=
  c.now ≤ c.first.1 ∧ c.first.1 ≤ c.first.2 ∧ c.first.2 ≤ c.ping.1 ∧ c.ping.1 ≤ c.ping.2 ∧
    c.now ≤ c.timeout

instance (c : PollClock) : Decidable c.Ordered := inferInstanceAs (Decidable (_ ∧ _))

/-- What a poll reports, and the ping it tried to send. -/
structure Beat where
  heartBeat : HeartBeat
  result : Bool
  isDisconnected : Bool
  ping : Option Sent
  deriving DecidableEq, Repr

namespace HeartBeat

/-- A new heartbeat: its two times are read one after the other. -/
def create (lastBeatAt lastPulseAt : DateTime) : HeartBeat := { lastBeatAt, lastPulseAt }

def isTimeout (hb : HeartBeat) (utcNow : DateTime) : Bool :=
  if hb.firstBeat then false
  else decide (hb.lastBeatAt.addSeconds hb.timeoutAfterInSeconds ≤ utcNow)

def setLastBeat (hb : HeartBeat) (utcNow : DateTime × DateTime) : HeartBeat :=
  { hb with lastBeatAt := utcNow.1, lastPulseAt := utcNow.2 }

section Sending

variable (P : Platform) (helper : PacketHelper) (io : Ambient)

/-- The call of `SendUTF8Packet` in `SendPing`. -/
def pingPacket : Sent := helper.sendUTF8Packet P io "<PING>" .ping true .none

def sendPing (hb : HeartBeat) (utcNow : DateTime × DateTime) : Beat :=
  let sent := pingPacket P helper io
  if 0 < sent.bytesSent then
    { heartBeat := hb.setLastBeat utcNow, result := true, isDisconnected := false
      ping := some sent }
  else { heartBeat := hb, result := false, isDisconnected := true, ping := some sent }

/-- The test that comes first: a ping is due. -/
def IsDue (hb : HeartBeat) (now : DateTime) : Prop :=
  hb.lastBeatAt.addSeconds hb.pulseAtInSeconds ≤ now ∧
    hb.lastPulseAt.addSeconds hb.pulseCooldown ≤ now

instance (hb : HeartBeat) (now : DateTime) : Decidable (hb.IsDue now) :=
  inferInstanceAs (Decidable (_ ∧ _))

def trySendHeartBeat (hb : HeartBeat) (clock : PollClock) (isGracefulShutdown : Bool) : Beat :=
  if hb.IsDue clock.now then
    let hb := if hb.firstBeat then { hb.setLastBeat clock.first with firstBeat := false } else hb
    hb.sendPing P helper io clock.ping
  else if isGracefulShutdown || hb.isTimeout clock.timeout then
    { heartBeat := hb, result := false, isDisconnected := true, ping := none }
  else { heartBeat := hb, result := false, isDisconnected := false, ping := none }

end Sending

/-- A latency in ticks; `TotalMilliseconds` is compared with 200 and 50. -/
def updateLatency (hb : HeartBeat) (latency : Int) : HeartBeat :=
  let ticksPerMillisecond : Int := 10 ^ 4
  { hb with
    lastLatency := latency
    pulseAtInSeconds :=
      if 200 * ticksPerMillisecond < latency then 1
      else if latency < 50 * ticksPerMillisecond then 10
      else 5 }

/-- `DateTimeOffset.FromUnixTimeMilliseconds(milliseconds).DateTime`. -/
def fromUnixTimeMilliseconds (milliseconds : Int) : Except Exn DateTime :=
  if -62135596800000 ≤ milliseconds ∧ milliseconds ≤ 253402300799999 then
    .ok (621355968000000000 + milliseconds * 10 ^ 4).toNat
  else .error .argumentOutOfRange

def handleHeartBeatActions (P : Platform) (helper : PacketHelper) (io : Ambient)
    (hb : HeartBeat) (utcNow : DateTime) (header : PacketHeader) (data : Bytes) :
    Except Exn (HeartBeat × Option Frame) :=
  if header.packetAction = .ping then do
    let pingSentAt ← fromUnixTimeMilliseconds header.sentAt.toInt
    let pinger : PingTracker := { pingSentAt, pingReceivedAt := utcNow }
    let sent := helper.sendUTF8Packet P io (P.pingTracker.toJSON pinger) .pong true .none
    return (hb, sent.frame)
  else if header.packetAction = .pong then
    match P.pingTracker.isValidJSONBytes data with
    | none => return (hb, none)
    -- the text `null` is valid, and its result is used
    | some none => .error .nullReference
    | some (some ping) =>
        let ping := { ping with pongReceivedAt := utcNow }
        let hb := hb.updateLatency ping.latency
        return ({ hb with pingLog := hb.pingLog ++ [ping] }, none)
  else return (hb, none)

/-! ## What the operations change -/

theorem updateLatency_pulse (hb : HeartBeat) (latency : Int) :
    1 ≤ (hb.updateLatency latency).pulseAtInSeconds ∧
      (hb.updateLatency latency).pulseAtInSeconds ≤ 10 := by
  simp only [updateLatency]
  split_ifs <;> decide

theorem handleHeartBeatActions_spec {P : Platform} {helper : PacketHelper} {io : Ambient}
    {hb hb' : HeartBeat} {utcNow : DateTime} {header : PacketHeader} {data : Bytes}
    {frame : Option Frame}
    (h : handleHeartBeatActions P helper io hb utcNow header data = .ok (hb', frame)) :
    hb'.lastBeatAt = hb.lastBeatAt ∧ hb'.lastPulseAt = hb.lastPulseAt ∧
      hb'.firstBeat = hb.firstBeat ∧ hb'.pulseCooldown = hb.pulseCooldown ∧
      hb'.timeoutAfterInSeconds = hb.timeoutAfterInSeconds ∧
      (hb'.pulseAtInSeconds = hb.pulseAtInSeconds ∨ hb'.pulseAtInSeconds ≤ 10) := by
  rw [handleHeartBeatActions] at h
  split_ifs at h
  · -- a ping
    obtain ⟨pingSentAt, -, h⟩ := Exn.bind_eq_ok.1 h
    obtain ⟨rfl, -⟩ := Prod.mk.inj (Except.ok.inj h)
    exact ⟨rfl, rfl, rfl, rfl, rfl, Or.inl rfl⟩
  · -- a pong
    split at h
    · obtain ⟨rfl, -⟩ := Prod.mk.inj (Except.ok.inj h)
      exact ⟨rfl, rfl, rfl, rfl, rfl, Or.inl rfl⟩
    · simp at h
    · obtain ⟨rfl, -⟩ := Prod.mk.inj (Except.ok.inj h)
      exact ⟨rfl, rfl, rfl, rfl, rfl, Or.inr (updateLatency_pulse hb _).2⟩
  · obtain ⟨rfl, -⟩ := Prod.mk.inj (Except.ok.inj h)
    exact ⟨rfl, rfl, rfl, rfl, rfl, Or.inl rfl⟩

theorem handleHeartBeatActions_action {P : Platform} {helper : PacketHelper} {io : Ambient}
    {hb hb' : HeartBeat} {utcNow : DateTime} {header : PacketHeader} {data : Bytes} {f : Frame}
    (h : handleHeartBeatActions P helper io hb utcNow header data = .ok (hb', some f)) :
    f.header.packetAction = .pong := by
  unfold handleHeartBeatActions at h
  split_ifs at h
  · obtain ⟨pingSentAt, -, h⟩ := Exn.bind_eq_ok.1 h
    obtain ⟨-, hframe⟩ := Prod.mk.inj (Except.ok.inj h)
    exact PacketHelper.action_of_mem_sendUTF8Packet P (Option.mem_toList.2 hframe)
  · split at h <;> simp [pure, Except.pure] at h
  · simp [pure, Except.pure] at h

/-- The packets on which it throws: a ping whose time is out of range, and a pong with
the text `null`. -/
def Upsets (P : Platform) (header : PacketHeader) (data : Bytes) : Prop :=
  header.packetAction = .ping ∧
      ¬ (-62135596800000 ≤ header.sentAt.toInt ∧ header.sentAt.toInt ≤ 253402300799999) ∨
    header.packetAction = .pong ∧ P.pingTracker.isValidJSONBytes data = some none

theorem handleHeartBeatActions_error_iff (P : Platform) (helper : PacketHelper) (io : Ambient)
    (hb : HeartBeat) (utcNow : DateTime) (header : PacketHeader) (data : Bytes) :
    (∃ e, handleHeartBeatActions P helper io hb utcNow header data = .error e) ↔
      Upsets P header data := by
  have hne : PacketActionType.ping ≠ .pong := by decide
  unfold handleHeartBeatActions Upsets
  by_cases hping : header.packetAction = .ping
  · simp only [if_pos hping, fromUnixTimeMilliseconds]
    by_cases hrange : -62135596800000 ≤ header.sentAt.toInt ∧
        header.sentAt.toInt ≤ 253402300799999
    · simp [hping, hne, hrange, bind, Except.bind, pure, Except.pure]
    · simp [hping, hrange, bind, Except.bind]
  · rw [if_neg hping]
    by_cases hpong : header.packetAction = .pong
    · rw [if_pos hpong]
      rcases P.pingTracker.isValidJSONBytes data with _ | _ | ping
      all_goals simp [hpong, hne.symm, pure, Except.pure]
    · rw [if_neg hpong]
      simp [hping, hpong, pure, Except.pure]

theorem trySendHeartBeat_of_not_isDue (P : Platform) (helper : PacketHelper) (io : Ambient)
    {hb : HeartBeat} {clock : PollClock} (isGracefulShutdown : Bool)
    (h : ¬ hb.IsDue clock.now) :
    (trySendHeartBeat P helper io hb clock isGracefulShutdown).heartBeat = hb := by
  rw [trySendHeartBeat, if_neg h]
  split_ifs <;> rfl

/-- A poll at which one is due sends it, and takes the sending for a beat. -/
theorem trySendHeartBeat_of_isDue {P : Platform} {helper : PacketHelper} {io : Ambient}
    {hb : HeartBeat} {clock : PollClock} (isGracefulShutdown : Bool) (h : hb.IsDue clock.now)
    (hsent : 0 < (pingPacket P helper io).bytesSent) :
    (trySendHeartBeat P helper io hb clock isGracefulShutdown).heartBeat.lastBeatAt =
        clock.ping.1 ∧
      (trySendHeartBeat P helper io hb clock isGracefulShutdown).isDisconnected = false := by
  rw [trySendHeartBeat, if_pos h, sendPing, if_pos hsent]
  exact ⟨rfl, rfl⟩

theorem sendPing_reports (P : Platform) (helper : PacketHelper) (io : Ambient) (hb : HeartBeat)
    (utcNow : DateTime × DateTime) :
    (hb.sendPing P helper io utcNow).result = decide (0 < (pingPacket P helper io).bytesSent) ∧
      (hb.sendPing P helper io utcNow).isDisconnected =
        !decide (0 < (pingPacket P helper io).bytesSent) ∧
      (hb.sendPing P helper io utcNow).heartBeat.firstBeat = hb.firstBeat := by
  simp only [sendPing]
  split_ifs with hsent
  · exact ⟨(decide_eq_true hsent).symm, by simp [hsent], rfl⟩
  · exact ⟨(decide_eq_false hsent).symm, by simp [hsent], rfl⟩

theorem trySendHeartBeat_result (P : Platform) (helper : PacketHelper) (io : Ambient)
    (hb : HeartBeat) (clock : PollClock) (isGracefulShutdown : Bool) :
    ((trySendHeartBeat P helper io hb clock isGracefulShutdown).result &&
      (trySendHeartBeat P helper io hb clock isGracefulShutdown).isDisconnected) = false := by
  simp only [trySendHeartBeat]
  by_cases hdue : hb.IsDue clock.now
  · simp only [if_pos hdue, sendPing_reports, Bool.and_not_self]
  · rw [if_neg hdue]
    split_ifs <;> rfl

theorem trySendHeartBeat_action {P : Platform} {helper : PacketHelper} {io : Ambient}
    {hb : HeartBeat} {clock : PollClock} {isGracefulShutdown : Bool} {f : Frame}
    (h : f ∈ ((trySendHeartBeat P helper io hb clock isGracefulShutdown).ping.bind
      Sent.frame).toList) : f.header.packetAction = .ping := by
  have hping : ∀ {hb : HeartBeat},
      (hb.sendPing P helper io clock.ping).ping = some (pingPacket P helper io) := by
    intro hb
    simp only [sendPing]
    split_ifs <;> rfl
  simp only [trySendHeartBeat] at h
  by_cases hdue : hb.IsDue clock.now
  · rw [if_pos hdue, hping] at h
    exact PacketHelper.action_of_mem_sendUTF8Packet P h
  · rw [if_neg hdue] at h
    split_ifs at h <;> simp at h

/-- A poll at which the server gives the connection up: the ping that is due cannot be
sent, or none is due after the first beat and the socket is closed or silent. -/
def GivesUp (P : Platform) (helper : PacketHelper) (io : Ambient) (hb : HeartBeat)
    (clock : PollClock) (isGracefulShutdown : Bool) : Prop :=
  if hb.IsDue clock.now then (pingPacket P helper io).bytesSent ≤ 0
  else hb.firstBeat = false ∧ (isGracefulShutdown = true ∨ hb.isTimeout clock.timeout = true)

theorem trySendHeartBeat_givesUp_iff (P : Platform) (helper : PacketHelper) (io : Ambient)
    (hb : HeartBeat) (clock : PollClock) (isGracefulShutdown : Bool) :
    (!(trySendHeartBeat P helper io hb clock isGracefulShutdown).result &&
        (trySendHeartBeat P helper io hb clock isGracefulShutdown).isDisconnected &&
        !(trySendHeartBeat P helper io hb clock isGracefulShutdown).heartBeat.firstBeat) = true ↔
      GivesUp P helper io hb clock isGracefulShutdown := by
  simp only [trySendHeartBeat]
  by_cases hdue : hb.IsDue clock.now
  · -- the first beat is over in either case
    have hfirst : (if hb.firstBeat then { hb.setLastBeat clock.first with firstBeat := false }
        else hb).firstBeat = false := by
      split_ifs with h
      · rfl
      · simpa using h
    rw [GivesUp, if_pos hdue]
    simp only [if_pos hdue, sendPing_reports, hfirst]
    simp
  · rw [GivesUp, if_neg hdue, if_neg hdue]
    by_cases hgone : isGracefulShutdown = true ∨ hb.isTimeout clock.timeout = true
    · rw [if_pos (by simpa using hgone)]
      simp [hgone]
    · rw [if_neg (by simpa using hgone)]
      simp [hgone]

/-! ## Runs -/

/-- The calls on a heartbeat, with everything they depend on. -/
inductive Op
  | poll (clock : PollClock) (helper : PacketHelper) (io : Ambient) (isGracefulShutdown : Bool)
  | packet (utcNow : DateTime) (helper : PacketHelper) (io : Ambient) (header : PacketHeader)
      (data : Bytes)

/-- What a call did. -/
inductive Event
  | polled (before after : HeartBeat) (now : DateTime) (isDisconnected : Bool)
  | handled (before after : HeartBeat) (action : PacketActionType) (utcNow : DateTime)
  | threw (e : Exn)

/-- An exception of `HandleHeartBeatActions` leaves the heartbeat as it was. -/
def life (P : Platform) : Machine HeartBeat Op Event where
  step
    | hb, .poll clock helper io isGracefulShutdown =>
        let beat := trySendHeartBeat P helper io hb clock isGracefulShutdown
        some (beat.heartBeat, [.polled hb beat.heartBeat clock.now beat.isDisconnected])
    | hb, .packet utcNow helper io header data =>
        match handleHeartBeatActions P helper io hb utcNow header data with
        | .ok (hb', _) => some (hb', [.handled hb hb' header.packetAction utcNow])
        | .error e => some (hb, [.threw e])

theorem life_poll (P : Platform) (hb : HeartBeat) (clock : PollClock) (helper : PacketHelper)
    (io : Ambient) (isGracefulShutdown : Bool) :
    (life P).step hb (.poll clock helper io isGracefulShutdown) =
      let beat := trySendHeartBeat P helper io hb clock isGracefulShutdown
      some (beat.heartBeat, [.polled hb beat.heartBeat clock.now beat.isDisconnected]) := rfl

/-- Once the first beat is over, a poll at which no Pong was handled for the whole
timeout reports that the connection is gone. -/
def SilenceReported (created : DateTime) (os : List Event) : Prop :=
  ∀ pre before after now isDisconnected post,
    os = pre ++ .polled before after now isDisconnected :: post → before.firstBeat = false →
      created.addSeconds before.timeoutAfterInSeconds ≤ now →
      (∀ b a t, .handled b a .pong t ∈ pre → t.addSeconds before.timeoutAfterInSeconds ≤ now) →
        isDisconnected = true

/-- `LastBeatAt` is moved by the handling of a Pong only. -/
def BeatIsResponse (os : List Event) : Prop :=
  (∀ before after now isDisconnected, .polled before after now isDisconnected ∈ os →
      after.lastBeatAt = before.lastBeatAt) ∧
    ∀ before after action utcNow, .handled before after action utcNow ∈ os → action ≠ .pong →
      after.lastBeatAt = before.lastBeatAt

/-! ## Why a silent peer is not timed out -/

theorem SilenceReported.snoc {created : DateTime} {os : List Event} {e : Event}
    (h : SilenceReported created os)
    (he : ∀ before after now isDisconnected, e = .polled before after now isDisconnected →
      before.firstBeat = true) : SilenceReported created (os ++ [e]) := by
  intro pre before after now isDisconnected post hsplit hfirst hcreated hpongs
  rcases snoc_eq_append_cons hsplit with ⟨-, -, rfl⟩ | ⟨post', -, hsplit'⟩
  · rw [he _ _ _ _ rfl] at hfirst
    exact absurd hfirst (by decide)
  · exact h pre before after now isDisconnected post' hsplit' hfirst hcreated hpongs

theorem BeatIsResponse.snoc {os : List Event} {e : Event} (h : BeatIsResponse os)
    (hpoll : ∀ before after now isDisconnected, e = .polled before after now isDisconnected →
      after.lastBeatAt = before.lastBeatAt)
    (hpacket : ∀ before after action utcNow, e = .handled before after action utcNow →
      after.lastBeatAt = before.lastBeatAt) : BeatIsResponse (os ++ [e]) := by
  constructor
  · intro before after now isDisconnected hmem
    rcases List.mem_append.1 hmem with hold | hnew
    · exact h.1 _ _ _ _ hold
    · exact hpoll _ _ _ _ (List.mem_singleton.1 hnew).symm
  · intro before after action utcNow hmem haction
    rcases List.mem_append.1 hmem with hold | hnew
    · exact h.2 _ _ _ _ hold haction
    · exact hpacket _ _ _ _ (List.mem_singleton.1 hnew).symm

/-- The beat is not after the pulse, and its interval not longer than the cooldown. -/
structure Paced (hb : HeartBeat) : Prop where
  ordered : hb.lastBeatAt ≤ hb.lastPulseAt
  interval : hb.pulseAtInSeconds ≤ 10
  cooldown : hb.pulseCooldown = 10

theorem Paced.isDue_iff {hb : HeartBeat} (h : Paced hb) (now : DateTime) :
    hb.IsDue now ↔ hb.lastPulseAt.addSeconds 10 ≤ now := by
  have hinterval : hb.pulseAtInSeconds * ticksPerSecond ≤ 10 * ticksPerSecond :=
    Nat.mul_le_mul_right _ h.interval
  simp only [IsDue, h.cooldown, DateTime.addSeconds]
  constructor
  · exact fun hdue => hdue.2
  · intro hnow
    refine ⟨?_, hnow⟩
    calc hb.lastBeatAt + hb.pulseAtInSeconds * ticksPerSecond
        ≤ hb.lastPulseAt + 10 * ticksPerSecond := Nat.add_le_add h.ordered hinterval
      _ ≤ now := hnow

/-- A heartbeat before its first poll with a ping due. -/
structure Idle (created : DateTime × DateTime) (hb : HeartBeat) : Prop where
  beat : hb.lastBeatAt = created.1
  pulse : hb.lastPulseAt = created.2
  first : hb.firstBeat = true
  cooldown : hb.pulseCooldown = 10
  interval : hb.pulseAtInSeconds ≤ 10

theorem Idle.paced {created : DateTime × DateTime} {hb : HeartBeat} (h : Idle created hb)
    (hcreated : created.1 ≤ created.2) : Paced hb := by
  refine ⟨?_, h.interval, h.cooldown⟩
  rw [h.beat, h.pulse]
  exact hcreated

theorem Idle.isDue_iff {created : DateTime × DateTime} {hb : HeartBeat} (h : Idle created hb)
    (hcreated : created.1 ≤ created.2) (now : DateTime) :
    hb.IsDue now ↔ created.2.addSeconds 10 ≤ now := by
  rw [(h.paced hcreated).isDue_iff, h.pulse]

theorem Idle.handled {P : Platform} {helper : PacketHelper} {io : Ambient}
    {created : DateTime × DateTime} {hb hb' : HeartBeat} {utcNow : DateTime}
    {header : PacketHeader} {data : Bytes} {frame : Option Frame} (h : Idle created hb)
    (hok : handleHeartBeatActions P helper io hb utcNow header data = .ok (hb', frame)) :
    Idle created hb' := by
  obtain ⟨hbeat, hpulse, hfirst, hcooldown, -, hinterval⟩ := handleHeartBeatActions_spec hok
  refine ⟨hbeat.trans h.beat, hpulse.trans h.pulse, hfirst.trans h.first,
    hcooldown.trans h.cooldown, ?_⟩
  rcases hinterval with hsame | hset
  · rw [hsame]
    exact h.interval
  · exact hset

/-- The polls of a list of calls take their readings in order, and the socket takes
every ping. -/
def Healthy (P : Platform) (ops : List Op) : Prop :=
  ∀ clock helper io isGracefulShutdown, Op.poll clock helper io isGracefulShutdown ∈ ops →
    clock.Ordered ∧ 0 < (pingPacket P helper io).bytesSent

/-- Every poll comes before a ping can be due. -/
def BeforeFirstPing (created : DateTime × DateTime) (ops : List Op) : Prop :=
  ∀ clock helper io isGracefulShutdown, Op.poll clock helper io isGracefulShutdown ∈ ops →
    clock.now < created.2.addSeconds 10

theorem forall_polls_iff {R : PollClock → PacketHelper → Ambient → Prop} {ops : List Op} :
    (∀ clock helper io graceful, Op.poll clock helper io graceful ∈ ops → R clock helper io) ↔
      ∀ op ∈ ops, ∀ clock helper io graceful,
        Op.poll clock helper io graceful ∈ [op] → R clock helper io := by
  constructor
  · intro h op hop clock helper io graceful hmem
    rw [List.mem_singleton] at hmem
    exact h clock helper io graceful (hmem ▸ hop)
  · intro h clock helper io graceful hmem
    exact h _ hmem clock helper io graceful List.mem_cons_self

theorem healthy_iff {P : Platform} {ops : List Op} :
    Healthy P ops ↔ ∀ op ∈ ops, Healthy P [op] := forall_polls_iff

theorem beforeFirstPing_iff {created : DateTime × DateTime} {ops : List Op} :
    BeforeFirstPing created ops ↔ ∀ op ∈ ops, BeforeFirstPing created [op] := forall_polls_iff

theorem beforeFirstPing_poll_iff {created : DateTime × DateTime} {clock : PollClock}
    {helper : PacketHelper} {io : Ambient} {graceful : Bool} :
    BeforeFirstPing created [.poll clock helper io graceful] ↔
      clock.now < created.2.addSeconds 10 := by
  constructor
  · intro h
    exact h clock helper io graceful List.mem_cons_self
  · intro hearly clock' helper' io' graceful' hmem
    obtain ⟨rfl, -⟩ := Op.poll.inj (List.mem_singleton.1 hmem)
    exact hearly

theorem life_step_ne_none (P : Platform) (hb : HeartBeat) (op : Op) :
    (life P).step hb op ≠ none := by
  cases op with
  | poll clock helper io isGracefulShutdown =>
      rw [life_poll]
      exact Option.some_ne_none _
  | packet utcNow helper io header data =>
      simp only [life]
      split <;> simp

/-- The first ping that is sent is taken for a beat. -/
theorem Idle.beat_moves {P : Platform} {helper : PacketHelper} {io : Ambient}
    {created : DateTime × DateTime} {hb : HeartBeat} {clock : PollClock} (h : Idle created hb)
    (hcreated : created.1 ≤ created.2) (hclock : clock.Ordered)
    (hsent : 0 < (pingPacket P helper io).bytesSent) (hdue : hb.IsDue clock.now)
    (isGracefulShutdown : Bool) :
    (trySendHeartBeat P helper io hb clock isGracefulShutdown).heartBeat.lastBeatAt ≠
      hb.lastBeatAt := by
  obtain ⟨hfirst₁, hfirst₂, hping, -, -⟩ := hclock
  have hlate : created.2 + 10 * ticksPerSecond ≤ clock.now :=
    (h.isDue_iff hcreated clock.now).1 hdue
  have hticks : 0 < 10 * ticksPerSecond := by decide
  have hafter : clock.now ≤ clock.ping.1 := hfirst₁.trans (hfirst₂.trans hping)
  have hstrict : created.2 < clock.ping.1 :=
    (Nat.lt_add_of_pos_right hticks).trans_le (hlate.trans hafter)
  rw [(trySendHeartBeat_of_isDue isGracefulShutdown hdue hsent).1, h.beat]
  exact Nat.ne_of_gt (Nat.lt_of_le_of_lt hcreated hstrict)

theorem judged_poll_iff {P : Platform} {helper : PacketHelper} {io : Ambient}
    {created : DateTime × DateTime} {hb hb' : HeartBeat} {clock : PollClock}
    {isGracefulShutdown : Bool} {hist o : List Event} (hidle : Idle created hb)
    (hcreated : created.1 ≤ created.2) (hclock : clock.Ordered)
    (hsent : 0 < (pingPacket P helper io).bytesSent)
    (hsilence : SilenceReported created.1 hist) (hbeat : BeatIsResponse hist)
    (hstep : (life P).step hb (.poll clock helper io isGracefulShutdown) = some (hb', o)) :
    (SilenceReported created.1 (hist ++ o) ∧ BeatIsResponse (hist ++ o) ↔
        clock.now < created.2.addSeconds 10) ∧
      (clock.now < created.2.addSeconds 10 → Idle created hb') := by
  rw [life_poll] at hstep
  obtain ⟨rfl, rfl⟩ := Prod.mk.inj (Option.some.inj hstep)
  by_cases hdue : hb.IsDue clock.now
  · have hlate : ¬ clock.now < created.2.addSeconds 10 :=
      Nat.not_lt.2 ((hidle.isDue_iff hcreated clock.now).1 hdue)
    refine ⟨iff_of_false (fun h => ?_) hlate, fun h => absurd h hlate⟩
    exact hidle.beat_moves hcreated hclock hsent hdue isGracefulShutdown
      (h.2.1 _ _ _ _ (List.mem_append_right _ List.mem_cons_self))
  · have hearly : clock.now < created.2.addSeconds 10 :=
      Nat.lt_of_not_le fun hle => hdue ((hidle.isDue_iff hcreated clock.now).2 hle)
    rw [trySendHeartBeat_of_not_isDue P helper io isGracefulShutdown hdue]
    refine ⟨iff_of_true ⟨hsilence.snoc ?_, hbeat.snoc ?_ (by simp)⟩ hearly, fun _ => hidle⟩
    · intro before after now d he
      obtain ⟨rfl, -⟩ := Event.polled.inj he
      exact hidle.first
    · intro before after now d he
      obtain ⟨rfl, rfl, -⟩ := Event.polled.inj he
      rfl

theorem judged_packet {P : Platform} {helper : PacketHelper} {io : Ambient}
    {created : DateTime × DateTime} {hb hb' : HeartBeat} {utcNow : DateTime}
    {header : PacketHeader} {data : Bytes} {hist o : List Event} (hidle : Idle created hb)
    (hsilence : SilenceReported created.1 hist) (hbeat : BeatIsResponse hist)
    (hstep : (life P).step hb (.packet utcNow helper io header data) = some (hb', o)) :
    (SilenceReported created.1 (hist ++ o) ∧ BeatIsResponse (hist ++ o)) ∧ Idle created hb' := by
  simp only [life] at hstep
  cases hhandled : handleHeartBeatActions P helper io hb utcNow header data with
  | ok r =>
      rw [hhandled] at hstep
      obtain ⟨rfl, rfl⟩ := Prod.mk.inj (Option.some.inj hstep)
      refine ⟨⟨hsilence.snoc (by simp), hbeat.snoc (by simp) ?_⟩, hidle.handled hhandled⟩
      intro before after action t he
      obtain ⟨rfl, rfl, -⟩ := Event.handled.inj he
      exact (handleHeartBeatActions_spec hhandled).1
  | error e =>
      rw [hhandled] at hstep
      obtain ⟨rfl, rfl⟩ := Prod.mk.inj (Option.some.inj hstep)
      exact ⟨⟨hsilence.snoc (by simp), hbeat.snoc (by simp) (by simp)⟩, hidle⟩

/-- As long as no ping was due the heartbeat stays idle, and the first ping that is
due moves `LastBeatAt`. -/
theorem judged_step_iff {P : Platform} {created : DateTime × DateTime} {hb hb' : HeartBeat}
    {op : Op} {hist o : List Event} (hcreated : created.1 ≤ created.2)
    (hhealthy : Healthy P [op]) (hidle : Idle created hb)
    (hsilence : SilenceReported created.1 hist) (hbeat : BeatIsResponse hist)
    (hstep : (life P).step hb op = some (hb', o)) :
    (SilenceReported created.1 (hist ++ o) ∧ BeatIsResponse (hist ++ o) ↔
        BeforeFirstPing created [op]) ∧
      (BeforeFirstPing created [op] → Idle created hb') := by
  cases op with
  | poll clock helper io isGracefulShutdown =>
      obtain ⟨hclock, hsent⟩ := hhealthy clock helper io isGracefulShutdown List.mem_cons_self
      rw [beforeFirstPing_poll_iff]
      exact judged_poll_iff hidle hcreated hclock hsent hsilence hbeat hstep
  | packet utcNow helper io header data =>
      have hkept := judged_packet hidle hsilence hbeat hstep
      have hbefore : BeforeFirstPing created [.packet utcNow helper io header data] := by
        simp [BeforeFirstPing]
      exact ⟨iff_of_true hkept.1 hbefore, fun _ => hkept.2⟩

/-- A run reports every silence, and takes only responses for beats, exactly if all
its polls come before the first ping is due. -/
theorem silenceReported_iff (P : Platform) (created : DateTime × DateTime)
    (hcreated : created.1 ≤ created.2) (ops : List Op) (hhealthy : Healthy P ops) :
    (life P).Throughout (fun _ os => SilenceReported created.1 os ∧ BeatIsResponse os)
        (create created.1 created.2) ops ↔ BeforeFirstPing created ops := by
  rw [beforeFirstPing_iff, ← Machine.along_forall_iff (life_step_ne_none P)]
  apply Machine.throughout_iff_along_of (H := fun op => Healthy P [op])
    (I := fun _ os => SilenceReported created.1 os ∧ BeatIsResponse os)
    (A := fun hb _ => Idle created hb) (h := [])
  · exact ⟨fun pre before after now d post hsplit => by simp at hsplit, by simp, by simp⟩
  · exact ⟨rfl, rfl, rfl, rfl, Nat.le_refl _⟩
  · exact healthy_iff.1 hhealthy
  · intro s op hblocked
    exact absurd hblocked (life_step_ne_none P s op)
  · intro s hist op t o hop hjudged hidle hstep
    exact judged_step_iff hcreated hop hidle hjudged.1 hjudged.2 hstep

/-- A poll with every reading at the same time, and no keys installed. -/
def pollAt (seconds : Nat) : Op :=
  let t : DateTime := (seconds * ticksPerSecond : Nat)
  .poll ⟨t, (t, t), (t, t), t⟩ ⟨some {}, {}⟩ PacketHelper.quiet false

theorem healthy_pollAt (seconds : List Nat) :
    Healthy Reference.reference (seconds.map pollAt) := by
  intro clock helper io isGracefulShutdown hmem
  obtain ⟨n, -, hn⟩ := List.mem_map.1 hmem
  obtain ⟨rfl, rfl, rfl, -⟩ := Op.poll.inj hn
  exact ⟨⟨Nat.le_refl _, Nat.le_refl _, Nat.le_refl _, Nat.le_refl _, Nat.le_refl _⟩, by decide⟩

theorem silenceReported_iff_pollAt :
    ¬ (life Reference.reference).Throughout
      (fun _ os => SilenceReported (0 : Nat) os ∧ BeatIsResponse os) (create (0 : Nat) (0 : Nat))
      ([11].map pollAt) := by
  intro h
  have hearly := (silenceReported_iff Reference.reference ((0 : Nat), (0 : Nat)) (Nat.le_refl 0)
    ([11].map pollAt) (healthy_pollAt _)).1 h
  exact absurd (hearly _ _ _ _ List.mem_cons_self) (by decide)

/-- The other side never answers: a ping is sent after 10 seconds, and the poll after
200 seconds sends the next one instead of reporting a timeout. -/
theorem not_silenceReported :
    ¬ ∀ (P : Platform) (created : DateTime × DateTime) (ops : List Op),
        created.1 ≤ created.2 → Healthy P ops →
        (life P).Throughout (fun _ os => SilenceReported created.1 os ∧ BeatIsResponse os)
          (create created.1 created.2) ops := by
  intro halways
  have hrun := (halways Reference.reference ((0 : Nat), (0 : Nat)) ([10, 200].map pollAt)
    (Nat.le_refl 0) (healthy_pollAt _)).last rfl
  exact absurd (hrun.1 [_] _ _ _ _ [] rfl rfl (by decide) (by simp)) (by decide)

end HeartBeat

end NETConnect
