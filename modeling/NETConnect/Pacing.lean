import NETConnect.HeartBeat
import NETConnect.Lib.Pacing
/-!
# The pace of the pings

Two intervals are tested before a ping is sent, each against a time of its own: the one
that `UpdateLatency` sets, and the cooldown.  What sets one of the times sets the other.
-/

namespace NETConnect

open Lib

namespace HeartBeat

/-- A call on a heartbeat, with everything it depends on.  A ping of a poll is handed to the
socket at `pingAt`. -/
inductive Call
  | poll (clock : PollClock) (pingAt : DateTime) (helper : PacketHelper) (io : Ambient)
      (isGracefulShutdown : Bool)
  | packet (utcNow : DateTime) (helper : PacketHelper) (io : Ambient) (header : PacketHeader)
      (data : Bytes)
  | setLastBeat (utcNow : DateTime × DateTime)

/-- The times of a call in their order.  One that the call does not read may be any that
fits; the reading for the timeout changes nothing. -/
def Call.readings : Call → List DateTime
  | .poll clock pingAt _ _ _ =>
      [clock.now, clock.first.1, clock.first.2, pingAt, clock.ping.1, clock.ping.2]
  | .packet utcNow _ _ _ _ => [utcNow]
  | .setLastBeat utcNow => [utcNow.1, utcNow.2]

/-- The clock does not go back. -/
def Chronological (created : DateTime × DateTime) (calls : List Call) : Prop :=
  (created.1 :: created.2 :: calls.flatMap Call.readings).Pairwise (· ≤ ·)

/-- A frame that was written by a poll, and when. -/
structure Pinged where
  sentAt : DateTime
  frame : Frame
  deriving DecidableEq, Repr

/-- What is observed are the frames that the polls have written. -/
def pings (P : Platform) : Machine HeartBeat Call Pinged where
  step
    | hb, .poll clock pingAt helper io isGracefulShutdown =>
        let beat := trySendHeartBeat P helper io hb clock isGracefulShutdown
        some (beat.heartBeat, (beat.ping.bind Sent.frame).toList.map (⟨pingAt, ·⟩))
    | hb, .packet utcNow helper io header data =>
        match handleHeartBeatActions P helper io hb utcNow header data with
        | .ok (hb', _) => some (hb', [])
        | .error _ => some (hb, [])
    | hb, .setLastBeat utcNow => some (hb.setLastBeat utcNow, [])

variable {P : Platform}

/-! ## What a call can do -/

/-- The heartbeat when a ping is sent: the first beat is over. -/
def begun (hb : HeartBeat) (utcNow : DateTime × DateTime) : HeartBeat :=
  if hb.firstBeat then { hb.setLastBeat utcNow with firstBeat := false } else hb

theorem begun_spec (hb : HeartBeat) (utcNow : DateTime × DateTime) :
    (hb.begun utcNow).pulseCooldown = hb.pulseCooldown ∧
      (hb.begun utcNow).pulseAtInSeconds = hb.pulseAtInSeconds ∧
      ((hb.begun utcNow).lastBeatAt = utcNow.1 ∧ (hb.begun utcNow).lastPulseAt = utcNow.2 ∨
        (hb.begun utcNow).lastBeatAt = hb.lastBeatAt ∧
          (hb.begun utcNow).lastPulseAt = hb.lastPulseAt) := by
  unfold begun
  split_ifs
  · exact ⟨rfl, rfl, Or.inl ⟨rfl, rfl⟩⟩
  · exact ⟨rfl, rfl, Or.inr ⟨rfl, rfl⟩⟩

/-- A poll either is not due and changes nothing, or sends its ping, or fails to. -/
theorem trySendHeartBeat_cases (P : Platform) (helper : PacketHelper) (io : Ambient)
    (hb : HeartBeat) (clock : PollClock) (isGracefulShutdown : Bool) :
    let beat := trySendHeartBeat P helper io hb clock isGracefulShutdown
    (¬ hb.IsDue clock.now ∧ beat.result = false ∧ beat.ping = none ∧ beat.heartBeat = hb) ∨
      hb.IsDue clock.now ∧ beat.ping = some (pingPacket P helper io) ∧
        beat.result = decide (0 < (pingPacket P helper io).bytesSent) ∧
        beat.heartBeat = if 0 < (pingPacket P helper io).bytesSent then
          (hb.begun clock.first).setLastBeat clock.ping else hb.begun clock.first := by
  simp only [trySendHeartBeat]
  by_cases hdue : hb.IsDue clock.now
  · right
    rw [if_pos hdue, ← begun, sendPing]
    split_ifs with hsent
    · exact ⟨hdue, rfl, (decide_eq_true hsent).symm, rfl⟩
    · exact ⟨hdue, rfl, (decide_eq_false hsent).symm, rfl⟩
  · left
    rw [if_neg hdue]
    split_ifs <;> exact ⟨hdue, rfl, rfl, rfl⟩

theorem pingPacket_frame (P : Platform) (helper : PacketHelper) (io : Ambient) :
    (∃ f, (pingPacket P helper io).frame = some f ∧ 0 < (pingPacket P helper io).bytesSent) ∨
      (pingPacket P helper io).frame = none ∧ ¬ 0 < (pingPacket P helper io).bytesSent := by
  have hcases : (∃ f, pingPacket P helper io = .whole f) ∨ pingPacket P helper io = .nothing :=
    PacketHelper.sendPacket_whole_or P helper io _ _ _ _
  rcases hcases with ⟨f, hwhole⟩ | hnothing
  · rw [hwhole]
    refine Or.inl ⟨f, rfl, ?_⟩
    simp only [Sent.whole, Frame.length_bytes, PacketHeader.headerSize]
    omega
  · rw [hnothing]
    exact Or.inr ⟨rfl, by decide⟩

theorem pings_packet {hb hb' : HeartBeat} {utcNow : DateTime} {helper : PacketHelper}
    {io : Ambient} {header : PacketHeader} {data : Bytes} {o : List Pinged}
    (h : (pings P).step hb (.packet utcNow helper io header data) = some (hb', o)) :
    o = [] ∧ hb'.lastBeatAt = hb.lastBeatAt ∧ hb'.lastPulseAt = hb.lastPulseAt ∧
      hb'.firstBeat = hb.firstBeat ∧ hb'.pulseCooldown = hb.pulseCooldown ∧
      (hb'.pulseAtInSeconds = hb.pulseAtInSeconds ∨ hb'.pulseAtInSeconds ≤ 10) := by
  simp only [pings] at h
  split at h
  · rename_i hb'' sent hhandled
    obtain ⟨rfl, rfl⟩ := Prod.mk.inj (Option.some.inj h)
    obtain ⟨hbeat, hpulse, hfirst, hcooldown, -, hinterval⟩ := handleHeartBeatActions_spec hhandled
    exact ⟨rfl, hbeat, hpulse, hfirst, hcooldown, hinterval⟩
  · obtain ⟨rfl, rfl⟩ := Prod.mk.inj (Option.some.inj h)
    exact ⟨rfl, rfl, rfl, rfl, rfl, Or.inl rfl⟩

/-! ## How far pings are apart -/

/-- The end of the cooldown. -/
def cooledDown (pulseCooldown : Nat) (t : DateTime) : DateTime := t.addSeconds pulseCooldown

theorem monotone_cooledDown (pulseCooldown : Nat) : Monotone (cooledDown pulseCooldown) :=
  fun _ _ hle => Nat.add_le_add_right hle _

theorem pings_paces {n : Nat} {hb hb' : HeartBeat} {call : Call} {o : List Pinged}
    (hcooldown : hb.pulseCooldown = n)
    (hclock : (hb.lastPulseAt :: call.readings).Pairwise (· ≤ ·))
    (hstep : (pings P).step hb call = some (hb', o)) :
    hb'.pulseCooldown = n ∧
      Machine.Paces (cooledDown n) Pinged.sentAt lastPulseAt call.readings hb hb' o := by
  cases call with
  | setLastBeat utcNow =>
      obtain ⟨rfl, rfl⟩ := Prod.mk.inj (Option.some.inj hstep)
      exact ⟨hcooldown, by simp [setLastBeat, Call.readings], Or.inl rfl⟩
  | packet utcNow helper io header data =>
      obtain ⟨rfl, -, hpulse, -, hkept, -⟩ := pings_packet hstep
      exact ⟨hkept.trans hcooldown, by simp [hpulse], Or.inl rfl⟩
  | poll clock pingAt helper io isGracefulShutdown =>
      have hcases := trySendHeartBeat_cases P helper io hb clock isGracefulShutdown
      obtain ⟨hkept, -, hbegun⟩ := hb.begun_spec clock.first
      obtain ⟨rfl, rfl⟩ := Prod.mk.inj (Option.some.inj hstep)
      rcases hcases with ⟨-, -, hping, hsame⟩ | ⟨hdue, hping, -, hafter⟩
      · rw [hping, hsame]
        exact ⟨hcooldown, List.mem_cons_self, Or.inl rfl⟩
      rw [hping, hafter, Option.bind_some]
      rcases pingPacket_frame P helper io with ⟨f, hframe, hsent⟩ | ⟨hframe, hfailed⟩
      · -- the cooldown was over at `now`, and the pulse is set after the ping
        have hnow : cooledDown n hb.lastPulseAt ≤ clock.now := hcooldown ▸ hdue.2
        have hsorted : clock.now ≤ pingAt ∧ pingAt ≤ clock.ping.2 := by
          simp only [Call.readings, List.pairwise_cons] at hclock
          exact ⟨hclock.2.1 pingAt (by simp), hclock.2.2.2.2.1 _ (by simp)⟩
        rw [if_pos hsent, hframe]
        refine ⟨hkept.trans hcooldown, ?_,
          Or.inr ⟨⟨pingAt, f⟩, rfl, hnow.trans hsorted.1, hsorted.2⟩⟩
        simp [setLastBeat, Call.readings]
      · rw [if_neg hfailed, hframe]
        refine ⟨hkept.trans hcooldown, ?_, Or.inl rfl⟩
        rcases hbegun with ⟨-, hpulse⟩ | ⟨-, hpulse⟩
        · simp [hpulse, Call.readings]
        · rw [hpulse]
          exact List.mem_cons_self

theorem pings_action {hb hb' : HeartBeat} {call : Call} {o : List Pinged}
    (hstep : (pings P).step hb call = some (hb', o)) :
    ∀ x ∈ o, x.frame.header.packetAction = .ping := by
  cases call with
  | setLastBeat utcNow =>
      obtain ⟨-, rfl⟩ := Prod.mk.inj (Option.some.inj hstep)
      simp
  | packet utcNow helper io header data =>
      obtain ⟨rfl, -⟩ := pings_packet hstep
      simp
  | poll clock pingAt helper io isGracefulShutdown =>
      obtain ⟨-, rfl⟩ := Prod.mk.inj (Option.some.inj hstep)
      intro x hx
      obtain ⟨f, hf, rfl⟩ := List.mem_map.1 hx
      exact trySendHeartBeat_action hf

/-- Pings are written at least the cooldown after the heartbeat was created, and after each
other. -/
theorem run_pings_apart (P : Platform) (created : DateTime × DateTime) (calls : List Call)
    (hclock : Chronological created calls) (hb : HeartBeat) (sent : List Pinged)
    (hrun : (pings P).run (create created.1 created.2) calls = some (hb, sent)) :
    (∀ x ∈ sent, x.frame.header.packetAction = .ping) ∧
      (created.2 :: sent.map Pinged.sentAt).Pairwise fun earlier later =>
        earlier.addSeconds (create created.1 created.2).pulseCooldown ≤ later := by
  constructor
  · have hkeep : ∀ s h e t o, (∀ x ∈ h, x.frame.header.packetAction = .ping) →
        (pings P).step s e = some (t, o) →
          ∀ x ∈ h ++ o, x.frame.header.packetAction = .ping :=
      fun s h e t o hall hstep => List.forall_mem_append.2 ⟨hall, pings_action hstep⟩
    exact Machine.invariant (I := fun _ os => ∀ x ∈ os, x.frame.header.packetAction = .ping)
      (h := []) hkeep (by simp) hrun
  · exact Machine.run_apart (monotone_cooledDown 10) (I := fun hb => hb.pulseCooldown = 10)
      (fun _ _ _ _ hcooldown hhere hstep => pings_paces hcooldown hhere hstep) rfl
      hclock.of_cons hrun

instance (created : DateTime × DateTime) (calls : List Call) :
    Decidable (Chronological created calls) := inferInstanceAs (Decidable (List.Pairwise _ _))

/-- A call of `TrySendHeartBeat` with every reading at the same time. -/
def callAt (seconds : Nat) : Call :=
  let t : DateTime := (seconds * ticksPerSecond : Nat)
  .poll ⟨t, (t, t), (t, t), t⟩ t ⟨some {}, {}⟩ PacketHelper.quiet false

theorem run_pings_apart_callAt :
    ([0, 10, 20].map (· * ticksPerSecond)).Pairwise fun earlier later =>
      DateTime.addSeconds earlier 10 ≤ later :=
  (run_pings_apart Reference.reference ((0 : Nat), (0 : Nat)) ([9, 10, 15, 20].map callAt)
    (by decide) _ _ rfl).2

/-! ## Which interval decides -/

/-- Heartbeats that differ at most in the interval, the latency and the log. -/
structure SamePace (hb hb' : HeartBeat) : Prop where
  beat : hb.lastBeatAt = hb'.lastBeatAt
  pulse : hb.lastPulseAt = hb'.lastPulseAt
  first : hb.firstBeat = hb'.firstBeat
  paced : Paced hb
  paced' : Paced hb'

theorem samePace_create {created : DateTime × DateTime} (h : created.1 ≤ created.2) :
    SamePace (create created.1 created.2) (create created.1 created.2) :=
  ⟨rfl, rfl, rfl, ⟨h, Nat.le_refl _, rfl⟩, ⟨h, Nat.le_refl _, rfl⟩⟩

theorem Paced.packet {hb hb' : HeartBeat} (h : Paced hb)
    (hbeat : hb'.lastBeatAt = hb.lastBeatAt) (hpulse : hb'.lastPulseAt = hb.lastPulseAt)
    (hcooldown : hb'.pulseCooldown = hb.pulseCooldown)
    (hinterval : hb'.pulseAtInSeconds = hb.pulseAtInSeconds ∨ hb'.pulseAtInSeconds ≤ 10) :
    Paced hb' := by
  refine ⟨?_, ?_, hcooldown.trans h.cooldown⟩
  · rw [hbeat, hpulse]
    exact h.ordered
  · rcases hinterval with hsame | hset
    · exact hsame ▸ h.interval
    · exact hset

theorem SamePace.packet {hb₁ hb₂ hb₁' : HeartBeat} {utcNow : DateTime} {helper : PacketHelper}
    {io : Ambient} {header : PacketHeader} {data : Bytes} {o : List Pinged}
    (h : SamePace hb₁ hb₂)
    (hstep : (pings P).step hb₁ (.packet utcNow helper io header data) = some (hb₁', o)) :
    SamePace hb₁' hb₂ ∧ o = [] := by
  obtain ⟨rfl, hbeat, hpulse, hfirst, hcooldown, hinterval⟩ := pings_packet hstep
  exact ⟨⟨hbeat.trans h.beat, hpulse.trans h.pulse, hfirst.trans h.first,
    h.paced.packet hbeat hpulse hcooldown hinterval, h.paced'⟩, rfl⟩

theorem SamePace.isDue_iff {hb hb' : HeartBeat} (h : SamePace hb hb') (now : DateTime) :
    hb.IsDue now ↔ hb'.IsDue now := by
  rw [h.paced.isDue_iff, h.paced'.isDue_iff, h.pulse]

theorem SamePace.symm {hb hb' : HeartBeat} (h : SamePace hb hb') : SamePace hb' hb :=
  ⟨h.beat.symm, h.pulse.symm, h.first.symm, h.paced', h.paced⟩

theorem SamePace.trans {hb₁ hb₂ hb₃ : HeartBeat} (h : SamePace hb₁ hb₂) (h' : SamePace hb₂ hb₃) :
    SamePace hb₁ hb₃ :=
  ⟨h.beat.trans h'.beat, h.pulse.trans h'.pulse, h.first.trans h'.first, h.paced, h'.paced'⟩

theorem SamePace.setLastBeat {hb hb' : HeartBeat} (h : SamePace hb hb')
    {utcNow : DateTime × DateTime} (hclock : utcNow.1 ≤ utcNow.2) :
    SamePace (hb.setLastBeat utcNow) (hb'.setLastBeat utcNow) :=
  ⟨rfl, rfl, h.first, ⟨hclock, h.paced.interval, h.paced.cooldown⟩,
    ⟨hclock, h.paced'.interval, h.paced'.cooldown⟩⟩

theorem SamePace.begun {hb hb' : HeartBeat} (h : SamePace hb hb')
    {utcNow : DateTime × DateTime} (hclock : utcNow.1 ≤ utcNow.2) :
    SamePace (hb.begun utcNow) (hb'.begun utcNow) := by
  unfold HeartBeat.begun
  rw [← h.first]
  split_ifs
  · have hset := h.setLastBeat hclock
    exact ⟨rfl, rfl, rfl, ⟨hclock, hset.paced.interval, hset.paced.cooldown⟩,
      ⟨hclock, hset.paced'.interval, hset.paced'.cooldown⟩⟩
  · exact h

theorem SamePace.poll {hb₁ hb₂ : HeartBeat} (h : SamePace hb₁ hb₂) (helper : PacketHelper)
    (io : Ambient) {clock : PollClock} (isGracefulShutdown : Bool)
    (hfirst : clock.first.1 ≤ clock.first.2) (hping : clock.ping.1 ≤ clock.ping.2) :
    (trySendHeartBeat P helper io hb₁ clock isGracefulShutdown).ping =
        (trySendHeartBeat P helper io hb₂ clock isGracefulShutdown).ping ∧
      SamePace (trySendHeartBeat P helper io hb₁ clock isGracefulShutdown).heartBeat
        (trySendHeartBeat P helper io hb₂ clock isGracefulShutdown).heartBeat := by
  have hdue := h.isDue_iff clock.now
  rcases trySendHeartBeat_cases P helper io hb₁ clock isGracefulShutdown with
    ⟨hnot₁, -, hping₁, hsame₁⟩ | ⟨hdue₁, hping₁, -, hafter₁⟩
  all_goals rcases trySendHeartBeat_cases P helper io hb₂ clock isGracefulShutdown with
    ⟨hnot₂, -, hping₂, hsame₂⟩ | ⟨hdue₂, hping₂, -, hafter₂⟩
  · rw [hping₁, hping₂, hsame₁, hsame₂]
    exact ⟨rfl, h⟩
  · exact absurd (hdue.2 hdue₂) hnot₁
  · exact absurd (hdue.1 hdue₁) hnot₂
  · rw [hping₁, hping₂, hafter₁, hafter₂]
    refine ⟨rfl, ?_⟩
    split_ifs
    · exact (h.begun hfirst).setLastBeat hping
    · exact h.begun hfirst

/-- By cases on the call: heartbeats of one pace send the same, and keep it. -/
theorem SamePace.step {hb₁ hb₂ hb₁' : HeartBeat} {call : Call} {o : List Pinged}
    (h : SamePace hb₁ hb₂) (hclock : call.readings.Pairwise (· ≤ ·))
    (hstep : (pings P).step hb₁ call = some (hb₁', o)) :
    ∃ hb₂', (pings P).step hb₂ call = some (hb₂', o) ∧ SamePace hb₁' hb₂' := by
  cases call with
  | setLastBeat utcNow =>
      obtain ⟨rfl, rfl⟩ := Prod.mk.inj (Option.some.inj hstep)
      have hordered : utcNow.1 ≤ utcNow.2 := (List.pairwise_cons.1 hclock).1 _ (by simp)
      exact ⟨_, rfl, h.setLastBeat hordered⟩
  | packet utcNow helper io header data =>
      obtain ⟨hafter, rfl⟩ := h.packet hstep
      have htotal : ∃ hb₂' o, (pings P).step hb₂ (.packet utcNow helper io header data) =
          some (hb₂', o) := by
        simp only [pings]
        split <;> exact ⟨_, _, rfl⟩
      obtain ⟨hb₂', o, hstep'⟩ := htotal
      obtain ⟨hboth, rfl⟩ := hafter.symm.packet hstep'
      exact ⟨hb₂', hstep', hboth.symm⟩
  | poll clock pingAt helper io isGracefulShutdown =>
      obtain ⟨hfirst, hping⟩ : clock.first.1 ≤ clock.first.2 ∧ clock.ping.1 ≤ clock.ping.2 := by
        simp only [Call.readings, List.pairwise_cons] at hclock
        exact ⟨hclock.2.1 _ (by simp), hclock.2.2.2.2.1 _ (by simp)⟩
      obtain ⟨hsame, hafter⟩ := h.poll (P := P) helper io isGracefulShutdown hfirst hping
      obtain ⟨rfl, rfl⟩ := Prod.mk.inj (Option.some.inj hstep)
      refine ⟨_, ?_, hafter⟩
      rw [hsame]
      rfl

def Call.isPong : Call → Bool
  | .packet _ _ _ header _ => decide (header.packetAction = .pong)
  | .poll _ _ _ _ _ | .setLastBeat _ => false

theorem run_without_pongs {created : DateTime × DateTime} {calls : List Call} {hb : HeartBeat}
    {sent : List Pinged} (hclock : Chronological created calls)
    (hrun : (pings P).run (create created.1 created.2) calls = some (hb, sent)) :
    ∃ hb', (pings P).run (create created.1 created.2) (calls.filter fun call => !call.isPong) =
      some (hb', sent) ∧ SamePace hb hb' := by
  obtain ⟨hcreated, hrest⟩ := List.pairwise_cons.1 hclock
  refine Machine.run_filter (R := SamePace) (G := fun call => call.readings.Pairwise (· ≤ ·))
    ?_ (fun _ _ _ _ _ h hsorted _ hstep => h.step hsorted hstep)
    (samePace_create (hcreated _ List.mem_cons_self))
    (List.pairwise_flatMap.1 hrest.of_cons).1 hrun
  intro hb₁ hb₂ call hb₁' o h hpong hstep
  cases call with
  | packet utcNow helper io header data => exact h.packet hstep
  | poll clock pingAt helper io isGracefulShutdown => simp [Call.isPong] at hpong
  | setLastBeat utcNow => simp [Call.isPong] at hpong

/-- Two runs that differ only in the pongs that were handled since the last ping: the last
latency of one is over 200 milliseconds, and that of the other under 50. -/
structure SlowAndFast (P : Platform) (created : DateTime × DateTime)
    (before slow fast : List Call) (hb₁ hb₂ : HeartBeat) : Prop where
  clock₁ : Chronological created (before ++ slow)
  clock₂ : Chronological created (before ++ fast)
  same : slow.filter (fun call => !call.isPong) = fast.filter fun call => !call.isPong
  run₁ : ∃ hb sent, (pings P).run (create created.1 created.2) before = some (hb, sent) ∧
    (pings P).run hb slow = some (hb₁, [])
  run₂ : ∃ hb sent, (pings P).run (create created.1 created.2) before = some (hb, sent) ∧
    (pings P).run hb fast = some (hb₂, [])
  latency₁ : 200 * 10 ^ 4 < hb₁.lastLatency
  latency₂ : hb₂.pingLog ≠ [] ∧ hb₂.lastLatency < 50 * 10 ^ 4

/-- At some time a poll attempts a ping with the one and not with the other. -/
def DueEarlier (P : Platform) (hb₁ hb₂ : HeartBeat) : Prop :=
  ∃ clock helper io isGracefulShutdown,
    (trySendHeartBeat P helper io hb₁ clock isGracefulShutdown).ping ≠ none ∧
      (trySendHeartBeat P helper io hb₂ clock isGracefulShutdown).ping = none

theorem SamePace.not_dueEarlier {hb₁ hb₂ : HeartBeat} (h : SamePace hb₁ hb₂) :
    ¬ DueEarlier P hb₁ hb₂ := by
  rintro ⟨clock, helper, io, isGracefulShutdown, hattempts, hwaits⟩
  have hdue := h.isDue_iff clock.now
  rcases trySendHeartBeat_cases P helper io hb₁ clock isGracefulShutdown with
    ⟨-, -, hnone, -⟩ | ⟨hdue₁, -⟩
  · exact hattempts hnone
  · rcases trySendHeartBeat_cases P helper io hb₂ clock isGracefulShutdown with
      ⟨hnot₂, -⟩ | ⟨-, hping, -⟩
    · exact hnot₂ (hdue.1 hdue₁)
    · exact absurd (hping.symm.trans hwaits) (by simp)

/-- The interval of `UpdateLatency` never decides. -/
theorem slowAndFast_not_dueEarlier (P : Platform) (created : DateTime × DateTime)
    (before slow fast : List Call) (hb₁ hb₂ : HeartBeat)
    (h : SlowAndFast P created before slow fast hb₁ hb₂) : ¬ DueEarlier P hb₁ hb₂ := by
  obtain ⟨hb, sent, hbefore, hslow⟩ := h.run₁
  obtain ⟨hb', sent', hbefore', hfast⟩ := h.run₂
  obtain ⟨rfl, rfl⟩ := Prod.mk.inj (Option.some.inj (hbefore.symm.trans hbefore'))
  obtain ⟨u, hu, hsame₁⟩ := run_without_pongs h.clock₁
    (Machine.run_append_iff.2 ⟨hb, _, _, hbefore, hslow, rfl⟩)
  obtain ⟨v, hv, hsame₂⟩ := run_without_pongs h.clock₂
    (Machine.run_append_iff.2 ⟨hb, _, _, hbefore, hfast, rfl⟩)
  rw [List.filter_append, h.same, ← List.filter_append, hv] at hu
  obtain ⟨rfl, -⟩ := Prod.mk.inj (Option.some.inj hu)
  exact (hsame₁.trans hsame₂.symm).not_dueEarlier

/-- A pong that is handled after eleven seconds. -/
def pongSentAt (pingSentAt : DateTime) : Call :=
  .packet (11 * ticksPerSecond : Nat) ⟨some {}, {}⟩ PacketHelper.quiet (.create 0 .pong .none 0)
    (toUTF8Byte (Reference.reference.pingTracker.toJSON { pingSentAt }))

theorem isPong_pongSentAt (pingSentAt : DateTime) : (pongSentAt pingSentAt).isPong = true := rfl

/-- The heartbeat that has sent a ping after ten seconds. -/
def pinged : HeartBeat :=
  { create (10 * ticksPerSecond : Nat) (10 * ticksPerSecond : Nat) with firstBeat := false }

/-- And has then handled that pong. -/
def answered (pingSentAt : DateTime) (pulseAtInSeconds : Nat) : HeartBeat :=
  let ping : PingTracker := { pingSentAt, pongReceivedAt := (11 * ticksPerSecond : Nat) }
  { pinged with pulseAtInSeconds, lastLatency := ping.latency, pingLog := [ping] }

theorem run_pinged : (pings Reference.reference).run (create (0 : Nat) (0 : Nat)) [callAt 10] =
    some (pinged, [⟨(10 * ticksPerSecond : Nat),
      PacketHelper.frameOf PacketHelper.quiet (toUTF8Byte "<PING>") .ping .none⟩]) := by
  decide +kernel

theorem run_answered_slow : (pings Reference.reference).run pinged
    [pongSentAt (1000 * 10 ^ 5 : Nat), callAt 15] =
      some (answered (1000 * 10 ^ 5 : Nat) 1, []) := by decide +kernel

theorem run_answered_fast : (pings Reference.reference).run pinged
    [pongSentAt (1099 * 10 ^ 5 : Nat), callAt 15] =
      some (answered (1099 * 10 ^ 5 : Nat) 10, []) := by decide +kernel

theorem slowAndFast_answered :
    SlowAndFast Reference.reference ((0 : Nat), (0 : Nat)) [callAt 10]
      [pongSentAt (1000 * 10 ^ 5 : Nat), callAt 15] [pongSentAt (1099 * 10 ^ 5 : Nat), callAt 15]
      (answered (1000 * 10 ^ 5 : Nat) 1) (answered (1099 * 10 ^ 5 : Nat) 10) where
  clock₁ := by decide +kernel
  clock₂ := by decide +kernel
  same := by simp [isPong_pongSentAt]
  run₁ := ⟨pinged, _, run_pinged, run_answered_slow⟩
  run₂ := ⟨pinged, _, run_pinged, run_answered_fast⟩
  latency₁ := by decide +kernel
  latency₂ := by decide +kernel

theorem slowAndFast_not_dueEarlier_answered : ¬ DueEarlier Reference.reference
    (answered (1000 * 10 ^ 5 : Nat) 1) (answered (1099 * 10 ^ 5 : Nat) 10) :=
  slowAndFast_not_dueEarlier Reference.reference _ _ _ _ _ _ slowAndFast_answered

/-- With the slow connection the next ping is not sent earlier. -/
theorem not_slowAndFast_dueEarlier :
    ¬ ∀ (P : Platform) (created : DateTime × DateTime) (before slow fast : List Call)
        (hb₁ hb₂ : HeartBeat), SlowAndFast P created before slow fast hb₁ hb₂ →
          DueEarlier P hb₁ hb₂ := by
  intro halways
  have hpaced : ∀ pingSentAt pulseAtInSeconds, pulseAtInSeconds ≤ 10 →
      Paced (answered pingSentAt pulseAtInSeconds) :=
    fun _ _ hle => ⟨Nat.le_refl _, hle, rfl⟩
  have hsame : SamePace (answered (1000 * 10 ^ 5 : Nat) 1) (answered (1099 * 10 ^ 5 : Nat) 10) :=
    ⟨rfl, rfl, rfl, hpaced _ _ (by decide), hpaced _ _ (by decide)⟩
  exact hsame.not_dueEarlier (halways _ _ _ _ _ _ _ slowAndFast_answered)

end HeartBeat

end NETConnect
