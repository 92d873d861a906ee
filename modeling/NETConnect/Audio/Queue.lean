import Mathlib.Data.List.Pairwise
import NETConnect.Lib.Machine
import NETConnect.Platform
/-!
# The playback queue

`QueueAudio` on any number of threads, and the loop of `ProcessQueue`, after `Init`.
Every reading of `DateTime.Now` is data of the step that makes it.
-/

namespace NETConnect.Audio

open Lib

/-- A `byte[]`, with its reference. -/
structure AudioChunk where
  ref : Nat
  bytes : Bytes
  deriving DecidableEq, Repr

structure AudioQueueHelper where
  audioChunk : AudioChunk
  received : DateTime
  deriving DecidableEq, Repr

namespace AudioQueueHelper

/-- `Equals` of the record: arrays are equal if they are the same one. -/
def equals (x y : AudioQueueHelper) : Bool :=
  x.audioChunk.ref = y.audioChunk.ref && x.received = y.received

/-- `DateTime.Now > x.Received.AddMilliseconds(AfterProcessTimer)`. -/
def isDue (x : AudioQueueHelper) (now : DateTime) : Bool :=
  x.received + 1 * (ticksPerSecond / 1000) < now

theorem equals_self (x : AudioQueueHelper) : x.equals x = true := by
  simp [equals]

theorem isDue_mono {x : AudioQueueHelper} {now later : DateTime} (h : x.isDue now = true)
    (hlater : now ≤ later) : x.isDue later = true :=
  decide_eq_true (Nat.lt_of_lt_of_le (of_decide_eq_true h) hlater)

end AudioQueueHelper

/-- Where `ProcessQueue` is: before a snapshot, or at what `SafeQueue` has left to remove. -/
inductive Phase
  | idle
  | removing (safeQueue rest : List AudioQueueHelper)
  deriving DecidableEq, Repr

structure Playback where
  /-- the last reading of the clock -/
  now : DateTime := (0 : Nat)
  /-- the calls of `QueueAudio` that have read the clock, but not added yet -/
  pending : List AudioQueueHelper := []
  betterQueue : List AudioQueueHelper := []
  phase : Phase := .idle
  deriving DecidableEq, Repr

/-- What was added to the queue, and what `AddSamples` was handed. -/
inductive Played
  | queued (x : AudioQueueHelper)
  | samples (safeQueue : List AudioQueueHelper)
  deriving DecidableEq, Repr

inductive PlayEvent
  | queueAudio (audioChunk : Option AudioChunk) (now : DateTime)
  | add (call : Nat)
  | snapshot (readings : List DateTime)
  | examine (now : DateTime)
  | addSamples
  deriving DecidableEq, Repr

/-- `betterQueue.Where(..).ToArray()`, with a reading for every element. -/
def safeQueue (betterQueue : List AudioQueueHelper) (readings : List DateTime) :
    List AudioQueueHelper :=
  ((betterQueue.zip readings).filter fun p => p.1.isDue p.2).map Prod.fst

def step (s : Playback) : PlayEvent → Option (Playback × List Played)
  | .queueAudio none _ => some (s, [])
  | .queueAudio (some audioChunk) now =>
      if audioChunk.bytes = [] then some (s, [])
      else if s.now ≤ now then
        some ({ s with now, pending := s.pending ++ [⟨audioChunk, now⟩] }, [])
      else none
  | .add call =>
      s.pending[call]?.map fun x =>
        ({ s with pending := s.pending.eraseIdx call, betterQueue := s.betterQueue ++ [x] },
          [.queued x])
  | .snapshot readings =>
      if s.phase = .idle ∧ readings.length = s.betterQueue.length ∧
          (s.now :: readings).Pairwise (· ≤ ·) then
        let safe := safeQueue s.betterQueue readings
        some ({ s with
          now := (s.now :: readings).getLast (List.cons_ne_nil _ _)
          phase := .removing safe safe }, [])
      else none
  | .examine now =>
      match s.phase with
      | .removing safe (item :: rest) =>
          if s.now ≤ now then
            let betterQueue :=
              if item.isDue now then s.betterQueue.eraseP item.equals else s.betterQueue
            some ({ s with now, betterQueue, phase := .removing safe rest }, [])
          else none
      | _ => none
  | .addSamples =>
      match s.phase with
      | .removing safe [] => some ({ s with phase := .idle }, [.samples safe])
      | _ => none

def machine : Machine Playback PlayEvent Played := ⟨step⟩

/-! ## Order -/

/-- The chunks in the order they were added in. -/
def arrived (os : List Played) : List AudioQueueHelper :=
  os.filterMap fun
    | .queued x => some x
    | .samples _ => none

def handed (os : List Played) : List AudioQueueHelper :=
  os.flatMap fun
    | .queued _ => []
    | .samples safe => safe

def samplesOf (chunks : List AudioQueueHelper) : Bytes := chunks.flatMap fun x => x.audioChunk.bytes

/-- In the queue, or on the way to `AddSamples`. -/
def isQueued (s : Playback) (x : AudioQueueHelper) : Prop :=
  x ∈ s.betterQueue ∨ ∃ safe rest, s.phase = .removing safe rest ∧ x ∈ safe

structure PlaysInOrder (s : Playback) (os : List Played) : Prop where
  samples : samplesOf (handed os) <+: samplesOf (arrived os)
  inOrder : handed os <+: arrived os
  queued : ∀ x ∈ (arrived os).drop (handed os).length, isQueued s x
  between : s.phase = .idle → arrived os = handed os ++ s.betterQueue

/-- No chunk that a snapshot finds due stands behind one which it does not. -/
def SnapshotsInOrder (s : Playback) : PlayEvent → Prop
  | .snapshot readings =>
      (s.betterQueue.zip readings).Pairwise fun p q => q.1.isDue q.2 = true → p.1.isDue p.2 = true
  | _ => True

@[simp] theorem arrived_append (os os' : List Played) :
    arrived (os ++ os') = arrived os ++ arrived os' := List.filterMap_append

@[simp] theorem handed_append (os os' : List Played) :
    handed (os ++ os') = handed os ++ handed os' := List.flatMap_append

@[simp] theorem arrived_queued (x : AudioQueueHelper) : arrived [.queued x] = [x] := rfl

@[simp] theorem handed_queued (x : AudioQueueHelper) : handed [.queued x] = [] := rfl

@[simp] theorem arrived_samples (safe : List AudioQueueHelper) : arrived [.samples safe] = [] := rfl

@[simp] theorem handed_samples (safe : List AudioQueueHelper) : handed [.samples safe] = safe :=
  List.append_nil safe

/-- Between snapshots the queue is what arrived and was not handed over.  After one,
`SafeQueue` comes next, and what it has left to remove is still at the head of the queue. -/
structure IsOrdered (s : Playback) (os : List Played) : Prop where
  idle : s.phase = .idle → arrived os = handed os ++ s.betterQueue
  removing : ∀ safe rest, s.phase = .removing safe rest →
    ∃ later, arrived os = handed os ++ safe ++ later ∧ s.betterQueue = rest ++ later ∧
      ∀ x ∈ rest, x.isDue s.now = true

theorem IsOrdered.playsInOrder {s : Playback} {os : List Played} (h : IsOrdered s os) :
    PlaysInOrder s os := by
  obtain ⟨next, harrived, hqueued⟩ : ∃ next, arrived os = handed os ++ next ∧
      ∀ x ∈ next, isQueued s x := by
    cases hphase : s.phase with
    | idle => exact ⟨s.betterQueue, h.idle hphase, fun x hx => Or.inl hx⟩
    | removing safe rest =>
        obtain ⟨later, harrived, hqueue, -⟩ := h.removing safe rest hphase
        refine ⟨safe ++ later, by rw [harrived, List.append_assoc], fun x hx => ?_⟩
        rcases List.mem_append.1 hx with hx | hx
        · exact Or.inr ⟨safe, rest, hphase, hx⟩
        · exact Or.inl (hqueue ▸ List.mem_append_right rest hx)
  refine ⟨?_, ⟨next, harrived.symm⟩, ?_, h.idle⟩
  · rw [harrived, samplesOf, samplesOf, List.flatMap_append]
    exact List.prefix_append _ _
  · rw [harrived, List.drop_left]
    exact hqueued

/-! ## One snapshot -/

theorem isDue_of_mem_safeQueue {betterQueue : List AudioQueueHelper} {readings : List DateTime}
    {now : DateTime} (hclock : ∀ r ∈ readings, r ≤ now) {x : AudioQueueHelper}
    (hx : x ∈ safeQueue betterQueue readings) : x.isDue now = true := by
  obtain ⟨⟨y, r⟩, hy, rfl⟩ := List.mem_map.1 hx
  obtain ⟨hzip, hdue⟩ := List.mem_filter.1 hy
  exact AudioQueueHelper.isDue_mono hdue (hclock r (List.of_mem_zip hzip).2)

theorem filter_front_of_pairwise {α : Type*} {p : α → Bool} {l : List α}
    (h : l.Pairwise fun a b => p b = true → p a = true) : l.filter p <+: l := by
  induction l with
  | nil => exact List.nil_prefix
  | cons a l ih =>
      obtain ⟨hfirst, hrest⟩ := List.pairwise_cons.1 h
      by_cases ha : p a = true
      · rw [List.filter_cons_of_pos ha]
        exact (List.prefix_cons_inj a).2 (ih hrest)
      · have hnone : l.filter p = [] :=
          List.filter_eq_nil_iff.2 fun b hb hp => ha (hfirst b hb hp)
        rw [List.filter_cons_of_neg ha, hnone]
        exact List.nil_prefix

/-- Among different elements, only what stands in front is in front. -/
theorem pairwise_of_filter_front {α β : Type*} {f : α → β} {p : α → Bool} {l : List α}
    (hnodup : (l.map f).Nodup) (h : (l.filter p).map f <+: l.map f) :
    l.Pairwise fun a b => p b = true → p a = true := by
  induction l with
  | nil => exact List.Pairwise.nil
  | cons a l ih =>
      obtain ⟨hnew, hnodup⟩ := List.nodup_cons.1 hnodup
      by_cases ha : p a = true
      · rw [List.filter_cons_of_pos ha] at h
        exact List.pairwise_cons.2
          ⟨fun _ _ _ => ha, ih hnodup ((List.prefix_cons_inj (f a)).1 h)⟩
      · have hnone : l.filter p = [] := by
          rw [List.filter_cons_of_neg ha] at h
          cases hfilter : l.filter p with
          | nil => rfl
          | cons b due =>
              have hb : b ∈ l := List.mem_of_mem_filter (hfilter ▸ List.mem_cons_self)
              rw [hfilter] at h
              have hfirst : f b = f a := (List.cons_prefix_cons.1 h).1
              exact absurd (hfirst ▸ List.mem_map_of_mem hb) hnew
        refine List.pairwise_of_forall_mem_list fun _ _ b hb hp => ?_
        rcases List.mem_cons.1 hb with rfl | hb
        · exact absurd hp ha
        · exact absurd hp (List.filter_eq_nil_iff.1 hnone b hb)

section Snapshot

variable {betterQueue : List AudioQueueHelper} {readings : List DateTime}

theorem map_fst_snapshot (hlength : readings.length = betterQueue.length) :
    (betterQueue.zip readings).map Prod.fst = betterQueue :=
  List.map_fst_zip (Nat.le_of_eq hlength.symm)

theorem length_safeQueue_le (hlength : readings.length = betterQueue.length) :
    (safeQueue betterQueue readings).length ≤ betterQueue.length := by
  calc (safeQueue betterQueue readings).length
      ≤ ((betterQueue.zip readings).map Prod.fst).length :=
        (List.filter_sublist.map Prod.fst).length_le
    _ = betterQueue.length := by rw [map_fst_snapshot hlength]

theorem safeQueue_front (hlength : readings.length = betterQueue.length)
    (hinOrder : (betterQueue.zip readings).Pairwise fun p q =>
      q.1.isDue q.2 = true → p.1.isDue p.2 = true) :
    safeQueue betterQueue readings <+: betterQueue := by
  let isDue (p : AudioQueueHelper × DateTime) : Bool := p.1.isDue p.2
  have hfront := (filter_front_of_pairwise (p := isDue) hinOrder).map Prod.fst
  rwa [map_fst_snapshot hlength] at hfront

theorem pairwise_of_safeQueue_front (hlength : readings.length = betterQueue.length)
    (hnodup : betterQueue.Nodup) (hfront : safeQueue betterQueue readings <+: betterQueue) :
    (betterQueue.zip readings).Pairwise fun p q =>
      q.1.isDue q.2 = true → p.1.isDue p.2 = true := by
  let isDue (p : AudioQueueHelper × DateTime) : Bool := p.1.isDue p.2
  refine pairwise_of_filter_front (f := Prod.fst) (p := isDue) ?_ ?_
  · rwa [map_fst_snapshot hlength]
  · rwa [map_fst_snapshot hlength]

end Snapshot

/-! ## One step -/

theorem IsOrdered.of_later {s : Playback} {os : List Played} (h : IsOrdered s os) {now : DateTime}
    (hnow : s.now ≤ now) (pending : List AudioQueueHelper) :
    IsOrdered { s with now, pending } os where
  idle := h.idle
  removing safe rest hphase := by
    obtain ⟨later, harrived, hqueue, hdue⟩ := h.removing safe rest hphase
    exact ⟨later, harrived, hqueue, fun x hx => AudioQueueHelper.isDue_mono (hdue x hx) hnow⟩

theorem IsOrdered.add {s : Playback} {os : List Played} (h : IsOrdered s os)
    (x : AudioQueueHelper) (pending : List AudioQueueHelper) :
    IsOrdered { s with pending, betterQueue := s.betterQueue ++ [x] } (os ++ [.queued x]) where
  idle hphase := by simp [h.idle hphase]
  removing safe rest hphase := by
    obtain ⟨later, harrived, hqueue, hdue⟩ := h.removing safe rest hphase
    exact ⟨later ++ [x], by simp [harrived], by simp [hqueue], hdue⟩

theorem IsOrdered.snapshot {s : Playback} {os : List Played} (h : IsOrdered s os)
    (hphase : s.phase = .idle) {readings : List DateTime} {now : DateTime}
    (hclock : ∀ r ∈ readings, r ≤ now) (hfront : safeQueue s.betterQueue readings <+: s.betterQueue) :
    IsOrdered { s with
      now, phase := .removing (safeQueue s.betterQueue readings) (safeQueue s.betterQueue readings) }
      os where
  idle hidle := by simp at hidle
  removing safe rest hremoving := by
    obtain ⟨rfl, rfl⟩ : safeQueue s.betterQueue readings = safe ∧
        safeQueue s.betterQueue readings = rest := by simpa using hremoving
    obtain ⟨later, hlater⟩ := hfront
    refine ⟨later, ?_, hlater.symm, fun x hx => isDue_of_mem_safeQueue hclock hx⟩
    rw [h.idle hphase, List.append_assoc, hlater]

theorem IsOrdered.examine {s : Playback} {os : List Played} (h : IsOrdered s os)
    {safe rest : List AudioQueueHelper} {item : AudioQueueHelper}
    (hphase : s.phase = .removing safe (item :: rest)) {now : DateTime} (hnow : s.now ≤ now) :
    IsOrdered { s with
      now
      betterQueue := if item.isDue now then s.betterQueue.eraseP item.equals else s.betterQueue
      phase := .removing safe rest } os where
  idle hidle := by simp at hidle
  removing safe' rest' hremoving := by
    obtain ⟨rfl, rfl⟩ : safe = safe' ∧ rest = rest' := by simpa using hremoving
    obtain ⟨later, harrived, hqueue, hdue⟩ := h.removing _ _ hphase
    have hitem := AudioQueueHelper.isDue_mono (hdue item List.mem_cons_self) hnow
    refine ⟨later, harrived, ?_, fun x hx =>
      AudioQueueHelper.isDue_mono (hdue x (List.mem_cons_of_mem item hx)) hnow⟩
    rw [if_pos hitem, hqueue, List.cons_append, List.eraseP_cons_of_pos item.equals_self]

theorem IsOrdered.addSamples {s : Playback} {os : List Played} (h : IsOrdered s os)
    {safe : List AudioQueueHelper} (hphase : s.phase = .removing safe []) :
    IsOrdered { s with phase := .idle } (os ++ [.samples safe]) where
  idle _ := by
    obtain ⟨later, harrived, hqueue, -⟩ := h.removing _ _ hphase
    simp [harrived, hqueue]
  removing safe' rest' hremoving := by simp at hremoving

/-- What a step can do. -/
inductive Moves (s : Playback) : PlayEvent → Playback → List Played → Prop
  | ignored (audioChunk : Option AudioChunk) (now : DateTime) :
      Moves s (.queueAudio audioChunk now) s []
  | called (audioChunk : AudioChunk) (now : DateTime) (hnow : s.now ≤ now) :
      Moves s (.queueAudio (some audioChunk) now)
        { s with now, pending := s.pending ++ [⟨audioChunk, now⟩] } []
  | added (call : Nat) (x : AudioQueueHelper) :
      Moves s (.add call)
        { s with pending := s.pending.eraseIdx call, betterQueue := s.betterQueue ++ [x] }
        [.queued x]
  | snapshot (readings : List DateTime) (now : DateTime) (hidle : s.phase = .idle)
      (hlength : readings.length = s.betterQueue.length) (hclock : ∀ r ∈ readings, r ≤ now) :
      Moves s (.snapshot readings) { s with
        now
        phase := .removing (safeQueue s.betterQueue readings) (safeQueue s.betterQueue readings) }
        []
  | examined (safe rest : List AudioQueueHelper) (item : AudioQueueHelper) (now : DateTime)
      (hphase : s.phase = .removing safe (item :: rest)) (hnow : s.now ≤ now) :
      Moves s (.examine now) { s with
        now
        betterQueue := if item.isDue now then s.betterQueue.eraseP item.equals else s.betterQueue
        phase := .removing safe rest } []
  | played (safe : List AudioQueueHelper) (hphase : s.phase = .removing safe []) :
      Moves s .addSamples { s with phase := .idle } [.samples safe]

theorem moves_of_step {s t : Playback} {e : PlayEvent} {o : List Played}
    (hstep : machine.step s e = some (t, o)) : Moves s e t o := by
  cases e with
  | queueAudio audioChunk now =>
      cases audioChunk with
      | none =>
          obtain ⟨rfl, rfl⟩ : s = t ∧ [] = o := by simpa [machine, step] using hstep
          exact .ignored none now
      | some audioChunk =>
          simp only [machine, step] at hstep
          split at hstep
          · obtain ⟨rfl, rfl⟩ : s = t ∧ [] = o := by simpa using hstep
            exact .ignored (some audioChunk) now
          · split at hstep
            · next hnow =>
                obtain ⟨rfl, rfl⟩ : _ = t ∧ [] = o := by simpa using hstep
                exact .called audioChunk now hnow
            · simp at hstep
  | add call =>
      obtain ⟨x, -, hx⟩ := Option.map_eq_some_iff.1 hstep
      obtain ⟨rfl, rfl⟩ : _ = t ∧ [.queued x] = o := by simpa using hx
      exact .added call x
  | snapshot readings =>
      simp only [machine, step] at hstep
      split at hstep
      · next hsnapshot =>
          obtain ⟨hidle, hlength, hclock⟩ := hsnapshot
          obtain ⟨rfl, rfl⟩ : _ = t ∧ [] = o := by simpa using hstep
          exact .snapshot readings _ hidle hlength
            fun r hr => hclock.rel_getLast (List.mem_cons_of_mem s.now hr)
      · simp at hstep
  | examine now =>
      simp only [machine, step] at hstep
      split at hstep
      · next safe item rest hphase =>
          split at hstep
          · next hnow =>
              obtain ⟨rfl, rfl⟩ : _ = t ∧ [] = o := by simpa using hstep
              exact .examined safe rest item now hphase hnow
          · simp at hstep
      · simp at hstep
  | addSamples =>
      simp only [machine, step] at hstep
      split at hstep
      · next safe hphase =>
          obtain ⟨rfl, rfl⟩ : _ = t ∧ [.samples safe] = o := by simpa using hstep
          exact .played safe hphase
      · simp at hstep

theorem IsOrdered.of_moves {s t : Playback} {os o : List Played} {e : PlayEvent}
    (h : IsOrdered s os) (hinOrder : SnapshotsInOrder s e) (hmoves : Moves s e t o) :
    IsOrdered t (os ++ o) := by
  cases hmoves with
  | ignored audioChunk now => rwa [List.append_nil]
  | called audioChunk now hnow =>
      rw [List.append_nil]
      exact h.of_later hnow _
  | added call x => exact h.add x _
  | snapshot readings now hidle hlength hclock =>
      rw [List.append_nil]
      exact h.snapshot hidle hclock (safeQueue_front hlength hinOrder)
  | examined safe rest item now hphase hnow =>
      rw [List.append_nil]
      exact h.examine hphase hnow
  | played safe hphase => exact h.addSamples hphase

/-! ## One iteration -/

/-- Until the samples are added, the snapshot stays what it is and nothing is handed over. -/
theorem removing_of_moves {s t : Playback} {o : List Played} {e : PlayEvent}
    {safe rest : List AudioQueueHelper} (hphase : s.phase = .removing safe rest)
    (he : e ≠ .addSamples) (hmoves : Moves s e t o) :
    (∃ rest', t.phase = .removing safe rest') ∧ handed o = [] := by
  cases hmoves with
  | ignored audioChunk now => exact ⟨⟨rest, hphase⟩, rfl⟩
  | called audioChunk now hnow => exact ⟨⟨rest, hphase⟩, rfl⟩
  | added call x => exact ⟨⟨rest, hphase⟩, rfl⟩
  | snapshot readings now hidle => simp [hphase] at hidle
  | examined safe' rest' item now hphase' =>
      obtain ⟨rfl, -⟩ : safe = safe' ∧ rest = item :: rest' := by
        simpa using hphase.symm.trans hphase'
      exact ⟨⟨rest', rfl⟩, rfl⟩
  | played safe' => exact absurd rfl he

theorem removing_of_run {s t : Playback} {o : List Played} {es : List PlayEvent}
    {safe rest : List AudioQueueHelper} (hphase : s.phase = .removing safe rest)
    (hquiet : .addSamples ∉ es) (hrun : machine.run s es = some (t, o)) :
    (∃ rest', t.phase = .removing safe rest') ∧ handed o = [] := by
  induction es generalizing s rest o with
  | nil =>
      obtain ⟨rfl, rfl⟩ : s = t ∧ [] = o := by simpa using hrun
      exact ⟨⟨rest, hphase⟩, rfl⟩
  | cons e es ih =>
      obtain ⟨u, o₁, o₂, hstep, hrest, rfl⟩ := Machine.run_cons_iff.1 hrun
      rw [List.mem_cons, not_or] at hquiet
      obtain ⟨⟨rest', hphase'⟩, hhanded⟩ :=
        removing_of_moves hphase (Ne.symm hquiet.1) (moves_of_step hstep)
      obtain ⟨hphase'', hhanded'⟩ := ih hphase' hquiet.2 hrest
      exact ⟨hphase'', by rw [handed_append, hhanded, hhanded', List.append_nil]⟩

theorem iteration_inOrder_iff {s t u v : Playback} {os o o' : List Played} {es : List PlayEvent}
    {readings : List DateTime} (harrived : arrived os = handed os ++ s.betterQueue)
    (hnodup : s.betterQueue.Nodup)
    (hsnapshot : machine.step s (.snapshot readings) = some (t, []))
    (hrun : machine.run t es = some (u, o)) (hquiet : .addSamples ∉ es)
    (hplay : machine.step u .addSamples = some (v, o')) :
    handed (os ++ o ++ o') <+: arrived (os ++ o ++ o') ↔
      SnapshotsInOrder s (.snapshot readings) := by
  obtain ⟨hphase, hlength⟩ : t.phase = .removing (safeQueue s.betterQueue readings)
      (safeQueue s.betterQueue readings) ∧ readings.length = s.betterQueue.length := by
    generalize he : PlayEvent.snapshot readings = e at hsnapshot
    cases moves_of_step hsnapshot with
    | snapshot readings' now hidle hlength =>
        obtain rfl := PlayEvent.snapshot.inj he
        exact ⟨rfl, hlength⟩
    | _ => simp at he
  obtain ⟨⟨rest, hphase'⟩, hhanded⟩ := removing_of_run hphase hquiet hrun
  have hplayed : o' = [.samples (safeQueue s.betterQueue readings)] := by
    generalize he : PlayEvent.addSamples = e at hplay
    cases moves_of_step hplay with
    | played safe hsafe =>
        obtain ⟨rfl, -⟩ : safeQueue s.betterQueue readings = safe ∧ rest = [] := by
          simpa using hphase'.symm.trans hsafe
        rfl
    | _ => simp at he
  have hlater : arrived (os ++ o ++ o') = handed os ++ (s.betterQueue ++ arrived o) := by
    simp [hplayed, harrived]
  have hnow : handed (os ++ o ++ o') = handed os ++ safeQueue s.betterQueue readings := by
    simp [hplayed, hhanded]
  rw [hlater, hnow, List.prefix_append_right_inj, SnapshotsInOrder]
  constructor
  · intro hfront
    exact pairwise_of_safeQueue_front hlength hnodup
      (List.prefix_of_prefix_length_le hfront (List.prefix_append _ _) (length_safeQueue_le hlength))
  · intro hinOrder
    exact (safeQueue_front hlength hinOrder).trans (List.prefix_append _ _)

/-! ## Whole runs -/

/-- As long as no snapshot finds a chunk due that stands behind one which is not, every
chunk is played once and in order. -/
theorem playsInOrder_of_snapshots (history : List PlayEvent)
    (hinOrder : machine.Along SnapshotsInOrder {} history) :
    machine.Throughout PlaysInOrder {} history := by
  have hinit : IsOrdered {} [] := ⟨fun _ => rfl, fun safe rest hphase => by simp at hphase⟩
  have hordered : machine.Throughout IsOrdered {} history :=
    hinOrder.throughout (fun s os e t o h hG hstep => h.of_moves hG (moves_of_step hstep)) hinit
  exact fun pre post t os hsplit hrun => (hordered pre post t os hsplit hrun).playsInOrder

/-- Two chunks, an iteration that plays both, and a third chunk that has to wait. -/
def twoChunks : List PlayEvent :=
  [.queueAudio (some ⟨1, [7]⟩) (0 : Nat), .add 0, .queueAudio (some ⟨2, [8]⟩) (5000 : Nat), .add 0,
    .queueAudio (some ⟨3, [9]⟩) (20000 : Nat), .add 0,
    .snapshot [(20001 : Nat), (20002 : Nat), (20003 : Nat)], .examine (20004 : Nat),
    .examine (20005 : Nat), .addSamples]

theorem playsInOrder_of_snapshots_twoChunks :
    machine.Along SnapshotsInOrder {} twoChunks ∧
      machine.Throughout PlaysInOrder {} twoChunks ∧
      (machine.run {} twoChunks).map (fun r => samplesOf (handed r.2)) = some [7, 8] := by
  have halong : machine.Along SnapshotsInOrder {} twoChunks := by
    refine .cons trivial rfl (.cons trivial rfl (.cons trivial rfl (.cons trivial rfl
      (.cons trivial rfl (.cons trivial rfl (.cons ?_ rfl (.cons trivial rfl
        (.cons trivial rfl (.cons trivial rfl trivial)))))))))
    change List.Pairwise _ [_, _, _]
    decide
  exact ⟨halong, playsInOrder_of_snapshots _ halong, rfl⟩

/-- Of two chunks received in the same tick, the second one is found due. -/
theorem not_playsInOrder :
    ¬ ∀ history : List PlayEvent, machine.Throughout PlaysInOrder {} history := by
  intro halways
  have hplays := (halways [.queueAudio (some ⟨1, [7]⟩) (0 : Nat), .add 0,
    .queueAudio (some ⟨2, [8]⟩) (0 : Nat), .add 0, .snapshot [(10000 : Nat), (10001 : Nat)],
    .examine (10002 : Nat), .addSamples]).last rfl
  exact absurd hplays.inOrder (by decide)

end NETConnect.Audio
