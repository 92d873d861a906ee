import NETConnect.Lib.Machine
import NETConnect.Packet.PacketHelper
/-!
# The handshake loops

The server and the client each stay in `HandleAuthentication` until their flag
`IsAuthenticated` is set: they poll the socket and handle what is there in a
`switch`.  The loop is here once; the two `switch` statements are its parameter.
-/

namespace NETConnect

open Lib SocketExtensions

/-- One turn of a loop that polls the socket: the settings and the surroundings it
meets, and what `ReceivePacket` returned. -/
structure Turn where
  settings : Option PeerSettings
  io : Ambient
  received : Received
  deriving DecidableEq

/-- The action type of what a turn reads; `Empty` if that is nothing. -/
def Turn.action (turn : Turn) : PacketActionType :=
  match turn.received with
  | .packet f => f.header.packetAction
  | .threw _ => .empty

theorem Turn.packet_of_action (turn : Turn) {action : PacketActionType}
    (h : turn.action = action) (hne : action ≠ .empty) :
    ∃ f, turn.received = .packet f ∧ f.header.packetAction = action := by
  obtain ⟨settings, io, received⟩ := turn
  cases received with
  | packet f => exact ⟨f, rfl, h⟩
  | threw e => exact absurd h.symm hne

/-- What handling a packet does: to the keys, and, unless it throws, what the packet
amounted to (`M`, if to anything) and the frame that was written in reply. -/
structure Handled (M : Type) where
  keys : SecurityKey
  outcome : Except Exn (Option M × Option Frame)

/-- The frames that were written in reply. -/
def Handled.replies {M : Type} (handled : Handled M) : List Frame :=
  match handled.outcome with
  | .ok (_, reply) => reply.toList
  | .error _ => []

/-- The state of a handshake loop. -/
structure Authentication where
  keys : SecurityKey
  isAuthenticated : Bool := false
  threw : Option Exn := none
  deriving DecidableEq

namespace Authentication

/-- The loop is at its head and goes on. -/
def Running (s : Authentication) : Prop := s.isAuthenticated = false ∧ s.threw = none

instance (s : Authentication) : Decidable s.Running := inferInstanceAs (Decidable (_ ∧ _))

variable {M : Type} [DecidableEq M]
  (handle : Option PeerSettings → Ambient → SecurityKey → Frame → Handled M) (ready : M)

/-- One turn of the loop: an exception, nothing there, or a packet to handle. -/
def takeTurn (keys : SecurityKey) (turn : Turn) : Handled M :=
  match turn.received with
  | .threw e => ⟨keys, .error e⟩
  | .packet f =>
      if f.header.packetAction = .empty then ⟨keys, .ok (none, none)⟩
      else handle turn.settings turn.io keys f

/-- `while (!IsAuthenticated)`; the flag is set when a packet amounts to `ready`. -/
def loop : Machine Authentication Turn M where
  step s turn :=
    if s.Running then
      let handled := takeTurn handle s.keys turn
      match handled.outcome with
      | .error e => some ({ s with keys := handled.keys, threw := some e }, [])
      | .ok (m, _) =>
          some ({ s with keys := handled.keys, isAuthenticated := decide (m = some ready) },
            m.toList)
    else none

variable {handle ready}

omit [DecidableEq M] in
theorem takeTurn_cases
    (handle : Option PeerSettings → Ambient → SecurityKey → Frame → Handled M)
    (keys : SecurityKey) (turn : Turn) :
    (takeTurn handle keys turn).keys = keys ∧ (takeTurn handle keys turn).replies = [] ∨
      ∃ f, turn.received = .packet f ∧ f.header.packetAction ≠ .empty ∧
        takeTurn handle keys turn = handle turn.settings turn.io keys f := by
  cases hreceived : turn.received with
  | threw e => exact Or.inl (by simp [takeTurn, hreceived, Handled.replies])
  | packet f =>
      by_cases hempty : f.header.packetAction = .empty
      · exact Or.inl (by simp [takeTurn, hreceived, hempty, Handled.replies])
      · exact Or.inr ⟨f, rfl, hempty, by simp only [takeTurn, hreceived, if_neg hempty]⟩

omit [DecidableEq M] in
theorem takeTurn_ok {keys : SecurityKey} {turn : Turn} {m : Option M} {reply : Option Frame}
    (h : (takeTurn handle keys turn).outcome = .ok (m, reply)) :
    turn.action = .empty ∧ m = none ∧ reply = none ∧ (takeTurn handle keys turn).keys = keys ∨
      ∃ f, turn.received = .packet f ∧ f.header.packetAction ≠ .empty ∧
        takeTurn handle keys turn = handle turn.settings turn.io keys f := by
  cases hreceived : turn.received with
  | threw e => simp [takeTurn, hreceived] at h
  | packet f =>
      by_cases hempty : f.header.packetAction = .empty
      · simp only [takeTurn, hreceived, if_pos hempty] at h ⊢
        obtain ⟨rfl, rfl⟩ := Prod.mk.inj (Except.ok.inj h)
        refine Or.inl ⟨by rw [Turn.action, hreceived]; exact hempty, rfl, rfl, trivial⟩
      · refine Or.inr ⟨f, rfl, hempty, ?_⟩
        simp only [takeTurn, hreceived, if_neg hempty]

omit [DecidableEq M] in
theorem takeTurn_keys {I : SecurityKey → Prop} (keys : SecurityKey) (turn : Turn)
    (hkeys : I keys)
    (hkeep : ∀ f, turn.received = .packet f → I (handle turn.settings turn.io keys f).keys) :
    I (takeTurn handle keys turn).keys := by
  unfold takeTurn
  split
  · exact hkeys
  · split_ifs
    · exact hkeys
    · exact hkeep _ ‹_›

theorem loop_step {s t : Authentication} {turn : Turn} {o : List M}
    (h : (loop handle ready).step s turn = some (t, o)) :
    s.Running ∧ (t.threw ≠ none ∧ t.isAuthenticated = false ∧ o = [] ∨
      turn.action = .empty ∧ t = s ∧ o = [] ∨
      ∃ f m reply, turn.received = .packet f ∧ f.header.packetAction ≠ .empty ∧
        (handle turn.settings turn.io s.keys f).outcome = .ok (m, reply) ∧ o = m.toList ∧
        t.keys = (handle turn.settings turn.io s.keys f).keys ∧ t.threw = none ∧
        t.isAuthenticated = decide (m = some ready)) := by
  simp only [loop] at h
  split_ifs at h with hrunning
  refine ⟨hrunning, ?_⟩
  obtain ⟨hflag, hthrew⟩ := hrunning
  split at h
  · obtain ⟨rfl, rfl⟩ := Prod.mk.inj (Option.some.inj h)
    exact Or.inl ⟨by simp, hflag, rfl⟩
  · rename_i m reply houtcome
    obtain ⟨rfl, rfl⟩ := Prod.mk.inj (Option.some.inj h)
    rcases takeTurn_ok houtcome with ⟨hempty, rfl, -, hkeys⟩ | ⟨f, hreceived, hne, hturn⟩
    · obtain ⟨keys, isAuthenticated, threw⟩ := s
      obtain rfl : isAuthenticated = false := hflag
      exact Or.inr (Or.inl ⟨hempty, by simp [hkeys], rfl⟩)
    · rw [hturn] at houtcome ⊢
      exact Or.inr (Or.inr ⟨f, m, reply, hreceived, hne, houtcome, rfl, rfl, hthrew, rfl⟩)

/-- Up to the end of the loop, an invariant of the keys that every handled packet
keeps holds, and what happened is what each turn amounts to by itself. -/
theorem loop_run {mark : Turn → Option M} {I : SecurityKey → List M → Prop}
    (hkeep : ∀ turn keys ms f m reply, I keys ms → turn.received = .packet f →
      (handle turn.settings turn.io keys f).outcome = .ok (m, reply) →
        m = mark turn ∧ I (handle turn.settings turn.io keys f).keys (ms ++ m.toList))
    (hnothing : ∀ turn, turn.action = .empty → mark turn = none)
    {keys : SecurityKey} (hinit : I keys []) {turns : List Turn} {t : Authentication}
    {os : List M} (h : (loop handle ready).run { keys } turns = some (t, os))
    (hthrew : t.threw = none) : os = turns.filterMap mark ∧ I t.keys os := by
  induction turns using List.reverseRecOn generalizing t os with
  | nil =>
      obtain ⟨rfl, rfl⟩ := Prod.mk.inj (Option.some.inj h)
      exact ⟨rfl, hinit⟩
  | append_singleton turns turn ih =>
      obtain ⟨v, o, o', hrun, hlast, rfl⟩ := Machine.run_append_iff.1 h
      rw [Machine.run_singleton_iff] at hlast
      rw [List.filterMap_append]
      obtain ⟨hrunning, hthrows | ⟨hempty, rfl, rfl⟩ |
        ⟨f, m, reply, hreceived, -, houtcome, rfl, hkeys, -, -⟩⟩ := loop_step hlast
      · exact absurd hthrew hthrows.1
      · obtain ⟨rfl, hI⟩ := ih hrun hrunning.2
        simpa [hnothing turn hempty] using hI
      · obtain ⟨rfl, hI⟩ := ih hrun hrunning.2
        obtain ⟨rfl, hI'⟩ := hkeep turn v.keys _ f m reply hI hreceived houtcome
        rw [hkeys]
        refine ⟨?_, hI'⟩
        cases hm : mark turn <;> simp [hm]

theorem loop_authenticated {keys : SecurityKey} {turns : List Turn} {t : Authentication}
    {os : List M} (h : (loop handle ready).run { keys } turns = some (t, os))
    (hauthenticated : t.isAuthenticated = true) :
    ∃ pre turn v os' f reply, turns = pre ++ [turn] ∧
      (loop handle ready).run { keys } pre = some (v, os') ∧ v.Running ∧ os = os' ++ [ready] ∧
      turn.received = .packet f ∧
      (handle turn.settings turn.io v.keys f).outcome = .ok (some ready, reply) ∧
      t.keys = (handle turn.settings turn.io v.keys f).keys := by
  rcases List.eq_nil_or_concat turns with rfl | ⟨pre, turn, rfl⟩
  · obtain ⟨rfl, rfl⟩ := Prod.mk.inj (Option.some.inj h)
    simp at hauthenticated
  · rw [List.concat_eq_append] at h ⊢
    obtain ⟨v, o, o', hrun, hlast, rfl⟩ := Machine.run_append_iff.1 h
    rw [Machine.run_singleton_iff] at hlast
    obtain ⟨hrunning, hthrows | ⟨-, rfl, -⟩ |
      ⟨f, m, reply, hreceived, -, houtcome, rfl, hkeys, -, hflag⟩⟩ := loop_step hlast
    · rw [hthrows.2.1] at hauthenticated
      exact absurd hauthenticated (by decide)
    · rw [hrunning.1] at hauthenticated
      exact absurd hauthenticated (by decide)
    · obtain rfl : m = some ready := by simpa [hauthenticated] using hflag
      exact ⟨pre, turn, v, o, f, reply, rfl, hrun, hrunning, rfl, hreceived, houtcome, hkeys⟩

theorem loop_ready (ready : M) {s : Authentication} {turn : Turn} {f : Frame} {reply : Option Frame}
    (hrunning : s.Running) (hreceived : turn.received = .packet f)
    (hne : f.header.packetAction ≠ .empty)
    (houtcome : (handle turn.settings turn.io s.keys f).outcome = .ok (some ready, reply)) :
    (loop handle ready).step s turn =
      some ({ s with keys := (handle turn.settings turn.io s.keys f).keys
                     isAuthenticated := true }, [ready]) := by
  have hturn : takeTurn handle s.keys turn = handle turn.settings turn.io s.keys f := by
    simp only [takeTurn, hreceived, if_neg hne]
  simp only [loop, if_pos hrunning, hturn, houtcome]
  simp

end Authentication

end NETConnect
