import NETConnect.Packet.Untrusted
import NETConnect.Handshake.Server
import NETConnect.Handshake.Client
/-!
# Leaving the handshake loops

The loops of `HandleAuthentication` on their sockets, for ever: a schedule says for
every time round the loop what the network does.  `ReceivePacket` reports the end of
the stream as it reports that nothing has come yet, so a loop that was not let go
by what was sent before the end goes round without end after it.
-/

namespace NETConnect

open Lib SocketExtensions

namespace Authentication

/-- One time round a loop.  The flag of the server is that of all its connections, and
may have been set by another one; otherwise the socket is polled. -/
inductive Round
  | releasedElsewhere
  | polled (settings : Option PeerSettings) (io : Ambient) (poll : Poll)
  deriving DecidableEq

/-- The rounds of a schedule up to the one numbered `n`. -/
def firstRounds (schedule : Nat → Round) (n : Nat) : List Round := (List.range n).map schedule

theorem firstRounds_succ (schedule : Nat → Round) (n : Nat) :
    firstRounds schedule (n + 1) = firstRounds schedule n ++ [schedule n] := by
  rw [firstRounds, List.range_succ, List.map_append]
  rfl

/-- What the rounds of a schedule read from the socket, whatever becomes of it. -/
def reader : Machine Tcp Round Turn where
  step s round :=
    match round with
    | .releasedElsewhere => some (s, [])
    | .polled settings io poll =>
        (receivePacketAllocating s poll).map fun r => (r.1, [⟨settings, io, r.2⟩])

variable {M : Type} [DecidableEq M]
  (handle : Option PeerSettings → Ambient → SecurityKey → Frame → Handled M) (ready : M)

/-- The loop on its socket. -/
def loopOn : Machine (Tcp × Authentication) Round M where
  step s round :=
    match round with
    | .releasedElsewhere =>
        if s.2.Running then some ((s.1, { s.2 with isAuthenticated := true }), []) else none
    | .polled settings io poll =>
        (receivePacketAllocating s.1 poll).bind fun r =>
          ((loop handle ready).step s.2 ⟨settings, io, r.2⟩).map fun r' => ((r.1, r'.1), r'.2)

/-- The loop is left, after some number of rounds, with the flag set. -/
def Returns (s : Tcp) (keys : SecurityKey) (schedule : Nat → Round) : Prop :=
  ∃ n t os, (loopOn handle ready).run (s, { keys }) (firstRounds schedule n) = some (t, os) ∧
    t.2.isAuthenticated = true

/-- In some round the flag is found set or a Ready is read, and nothing that was read
in an earlier one is fatal. -/
def LetGo (fatal : Turn → Prop) (s : Tcp) (schedule : Nat → Round) : Prop :=
  ∃ n t turns, reader.run s (firstRounds schedule n) = some (t, turns) ∧
    (∀ turn ∈ turns, ¬ fatal turn) ∧
    (schedule n = .releasedElsewhere ∨
      ∃ u turn, reader.step t (schedule n) = some (u, [turn]) ∧ turn.action = .ready)

/-- What is fatal to a loop, judged by what was read alone. -/
structure Judges (I : SecurityKey → Prop) (fatal : Turn → Prop) : Prop where
  throws : ∀ {turn keys}, I keys → fatal turn → ∃ e, (takeTurn handle keys turn).outcome = .error e
  survives : ∀ {turn keys}, I keys → ¬ fatal turn →
    ∃ m reply, (takeTurn handle keys turn).outcome = .ok (m, reply) ∧
      I (takeTurn handle keys turn).keys ∧ (m = some ready ↔ turn.action = .ready)
  ready_survives : ∀ {turn}, turn.action = .ready → ¬ fatal turn

variable {handle ready}

omit [DecidableEq M] in
theorem survives_of_packets {I : SecurityKey → Prop} {fatal : Turn → Prop}
    (hreceive : ∀ settings io e, fatal ⟨settings, io, .threw e⟩)
    (hpacket : ∀ settings io keys f, I keys → ¬ fatal ⟨settings, io, .packet f⟩ →
      ∃ m reply, (handle settings io keys f).outcome = .ok (m, reply) ∧
        I (handle settings io keys f).keys ∧ (m = some ready ↔ f.header.packetAction = .ready))
    {turn : Turn} {keys : SecurityKey} (hkeys : I keys) (hharmless : ¬ fatal turn) :
    ∃ m reply, (takeTurn handle keys turn).outcome = .ok (m, reply) ∧
      I (takeTurn handle keys turn).keys ∧ (m = some ready ↔ turn.action = .ready) := by
  obtain ⟨settings, io, received⟩ := turn
  cases received with
  | threw e => exact absurd (hreceive settings io e) hharmless
  | packet f =>
      by_cases hempty : f.header.packetAction = .empty
      · simp only [takeTurn, Turn.action, if_pos hempty]
        refine ⟨none, none, rfl, hkeys, iff_of_false (by simp) ?_⟩
        rw [hempty]
        decide
      · simp only [takeTurn, Turn.action, if_neg hempty]
        exact hpacket settings io keys f hkeys hharmless

theorem loop_step_ok {s : Authentication} {turn : Turn} {m : Option M} {reply : Option Frame}
    (hrunning : s.Running) (houtcome : (takeTurn handle s.keys turn).outcome = .ok (m, reply)) :
    (loop handle ready).step s turn =
      some ({ s with keys := (takeTurn handle s.keys turn).keys
                     isAuthenticated := decide (m = some ready) }, m.toList) := by
  simp only [loop, if_pos hrunning, houtcome]

theorem loop_step_error {s : Authentication} {turn : Turn} {e : Exn}
    (hrunning : s.Running) (houtcome : (takeTurn handle s.keys turn).outcome = .error e) :
    (loop handle ready).step s turn =
      some ({ s with keys := (takeTurn handle s.keys turn).keys, threw := some e }, []) := by
  simp only [loop, if_pos hrunning, houtcome]

theorem loopOn_step_iff {s t : Tcp × Authentication} {round : Round} {o : List M} :
    (loopOn handle ready).step s round = some (t, o) ↔
      round = .releasedElsewhere ∧ s.2.Running ∧ t = (s.1, { s.2 with isAuthenticated := true }) ∧
          o = [] ∨
        ∃ turn, reader.step s.1 round = some (t.1, [turn]) ∧
          (loop handle ready).step s.2 turn = some (t.2, o) := by
  cases round with
  | releasedElsewhere =>
      simp only [loopOn, reader, true_and]
      constructor
      · intro h
        split_ifs at h with hrunning
        obtain ⟨rfl, rfl⟩ := Prod.mk.inj (Option.some.inj h)
        exact Or.inl ⟨hrunning, rfl, rfl⟩
      · rintro (⟨hrunning, rfl, rfl⟩ | ⟨turn, hread, -⟩)
        · rw [if_pos hrunning]
        · simp at hread
  | polled settings io poll =>
      simp only [loopOn, reader, reduceCtorEq, false_and, false_or, Option.bind_eq_some_iff,
        Option.map_eq_some_iff]
      constructor
      · rintro ⟨r, hreceive, r', hstep, hr⟩
        obtain ⟨rfl, rfl⟩ := Prod.mk.inj hr
        exact ⟨_, ⟨r, hreceive, rfl⟩, hstep⟩
      · rintro ⟨turn, ⟨r, hreceive, hr⟩, hstep⟩
        obtain ⟨hsocket, hturn⟩ := Prod.mk.inj hr
        obtain rfl := List.singleton_inj.1 hturn
        exact ⟨r, hreceive, (t.2, o), hstep, by rw [hsocket]⟩

theorem run_next {s : Tcp} {keys : SecurityKey} {schedule : Nat → Round} {n : Nat}
    {v t : Tcp × Authentication} {os o : List M}
    (hrun : (loopOn handle ready).run (s, { keys }) (firstRounds schedule n) = some (v, os))
    (hstep : (loopOn handle ready).step v (schedule n) = some (t, o)) :
    (loopOn handle ready).run (s, { keys }) (firstRounds schedule (n + 1)) = some (t, os ++ o) := by
  rw [firstRounds_succ]
  exact Machine.run_snoc hrun hstep

variable {I : SecurityKey → Prop} {fatal : Turn → Prop}

theorem Judges.reader_of_running (hjudges : Judges handle ready I fatal) {s : Tcp}
    {keys : SecurityKey} (hinit : I keys) (schedule : Nat → Round) {n : Nat}
    {t : Tcp × Authentication} {os : List M}
    (hrun : (loopOn handle ready).run (s, { keys }) (firstRounds schedule n) = some (t, os))
    (hrunning : t.2.Running) :
    I t.2.keys ∧ ∃ turns, reader.run s (firstRounds schedule n) = some (t.1, turns) ∧
      ∀ turn ∈ turns, ¬ fatal turn := by
  induction n generalizing t os with
  | zero =>
      obtain ⟨rfl, rfl⟩ := Prod.mk.inj (Option.some.inj hrun)
      exact ⟨hinit, [], rfl, by simp⟩
  | succ n ih =>
      rw [firstRounds_succ] at hrun ⊢
      obtain ⟨v, o, o', hbefore, hlast, rfl⟩ := Machine.run_append_iff.1 hrun
      rw [Machine.run_singleton_iff, loopOn_step_iff] at hlast
      rcases hlast with ⟨-, -, rfl, -⟩ | ⟨turn, hread, hstep⟩
      · exact absurd hrunning.1 (by simp)
      · have hv : v.2.Running := (loop_step hstep).1
        obtain ⟨hI, turns, hturns, hharmless⟩ := ih hbefore hv
        by_cases hfatal : fatal turn
        · obtain ⟨e, he⟩ := hjudges.throws hI hfatal
          rw [loop_step_error hv he] at hstep
          obtain ⟨hauth, -⟩ := Prod.mk.inj (Option.some.inj hstep)
          rw [← hauth] at hrunning
          exact absurd hrunning.2 (by simp)
        · obtain ⟨m, reply, hok, hI', -⟩ := hjudges.survives hI hfatal
          rw [loop_step_ok hv hok] at hstep
          obtain ⟨hauth, -⟩ := Prod.mk.inj (Option.some.inj hstep)
          rw [← hauth]
          refine ⟨hI', turns ++ [turn], Machine.run_snoc hturns hread, ?_⟩
          intro turn' hmem
          rcases List.mem_append.1 hmem with hmem | hmem
          · exact hharmless turn' hmem
          · rw [List.mem_singleton.1 hmem]
            exact hfatal

theorem Judges.running_of_reader (hjudges : Judges handle ready I fatal) {s : Tcp}
    {keys : SecurityKey} (hinit : I keys) (schedule : Nat → Round) {n : Nat} {t : Tcp}
    {turns : List Turn} (hread : reader.run s (firstRounds schedule n) = some (t, turns))
    (hharmless : ∀ turn ∈ turns, ¬ fatal turn) :
    Returns handle ready s keys schedule ∨
      ∃ auth os, (loopOn handle ready).run (s, { keys }) (firstRounds schedule n) =
        some ((t, auth), os) ∧ auth.Running := by
  induction n generalizing t turns with
  | zero =>
      obtain ⟨rfl, rfl⟩ := Prod.mk.inj (Option.some.inj hread)
      exact Or.inr ⟨_, [], rfl, ⟨rfl, rfl⟩⟩
  | succ n ih =>
      rw [firstRounds_succ] at hread
      obtain ⟨v, o, o', hbefore, hlast, rfl⟩ := Machine.run_append_iff.1 hread
      rw [Machine.run_singleton_iff] at hlast
      rcases ih hbefore (fun turn h => hharmless turn (List.mem_append_left _ h)) with
        hreturns | ⟨auth, os, hrun, hrunning⟩
      · exact Or.inl hreturns
      · cases hround : schedule n with
        | releasedElsewhere =>
            have hnext := run_next hrun (loopOn_step_iff.2 (Or.inl ⟨hround, hrunning, rfl, rfl⟩))
            exact Or.inl ⟨n + 1, _, _, hnext, rfl⟩
        | polled settings io poll =>
            rw [hround] at hlast
            obtain ⟨r, hreceive, hr⟩ := Option.map_eq_some_iff.1 hlast
            obtain ⟨rfl, rfl⟩ := Prod.mk.inj hr
            obtain ⟨hI, -⟩ := hjudges.reader_of_running hinit schedule hrun hrunning
            obtain ⟨m, reply, hok, -, hready⟩ := hjudges.survives hI
              (hharmless ⟨settings, io, r.2⟩ (List.mem_append_right _ List.mem_cons_self))
            have hread' : reader.step v (schedule n) = some (r.1, [⟨settings, io, r.2⟩]) := by
              rw [hround]
              exact hlast
            have hnext := run_next hrun (t := (r.1, _))
              (loopOn_step_iff.2 (Or.inr ⟨_, hread', loop_step_ok hrunning hok⟩))
            by_cases hm : m = some ready
            · exact Or.inl ⟨n + 1, _, _, hnext, by simp [hm]⟩
            · exact Or.inr ⟨_, _, hnext, by simp [hm], hrunning.2⟩

theorem Judges.returns_iff (hjudges : Judges handle ready I fatal) (s : Tcp)
    {keys : SecurityKey} (hinit : I keys) (schedule : Nat → Round) :
    Returns handle ready s keys schedule ↔ LetGo fatal s schedule := by
  constructor
  · rintro ⟨n, t, os, hrun, hreturned⟩
    cases n with
    | zero =>
        obtain ⟨rfl, rfl⟩ := Prod.mk.inj (Option.some.inj hrun)
        simp at hreturned
    | succ n =>
        rw [firstRounds_succ] at hrun
        obtain ⟨v, o, o', hbefore, hlast, rfl⟩ := Machine.run_append_iff.1 hrun
        rw [Machine.run_singleton_iff, loopOn_step_iff] at hlast
        rcases hlast with ⟨hround, hrunning, -, -⟩ | ⟨turn, hread, hstep⟩
        · obtain ⟨-, turns, hturns, hharmless⟩ :=
            hjudges.reader_of_running hinit schedule hbefore hrunning
          exact ⟨n, v.1, turns, hturns, hharmless, Or.inl hround⟩
        · have hrunning : v.2.Running := (loop_step hstep).1
          obtain ⟨hI, turns, hturns, hharmless⟩ :=
            hjudges.reader_of_running hinit schedule hbefore hrunning
          refine ⟨n, v.1, turns, hturns, hharmless, Or.inr ⟨t.1, turn, hread, ?_⟩⟩
          by_cases hfatal : fatal turn
          · obtain ⟨e, he⟩ := hjudges.throws hI hfatal
            rw [loop_step_error hrunning he] at hstep
            obtain ⟨hauth, -⟩ := Prod.mk.inj (Option.some.inj hstep)
            rw [← hauth] at hreturned
            exact absurd hreturned (by simp [hrunning.1])
          · obtain ⟨m, reply, hok, -, hready⟩ := hjudges.survives hI hfatal
            rw [loop_step_ok hrunning hok] at hstep
            obtain ⟨hauth, -⟩ := Prod.mk.inj (Option.some.inj hstep)
            rw [← hauth] at hreturned
            exact hready.1 (by simpa using hreturned)
  · rintro ⟨n, t, turns, hturns, hharmless, hround⟩
    rcases hjudges.running_of_reader hinit schedule hturns hharmless with
      hreturns | ⟨auth, os, hrun, hrunning⟩
    · exact hreturns
    · rcases hround with hround | ⟨u, turn, hread, haction⟩
      · have hnext := run_next hrun (loopOn_step_iff.2 (Or.inl ⟨hround, hrunning, rfl, rfl⟩))
        exact ⟨n + 1, _, _, hnext, rfl⟩
      · obtain ⟨hI, -⟩ := hjudges.reader_of_running hinit schedule hrun hrunning
        obtain ⟨m, reply, hok, -, hready⟩ :=
          hjudges.survives hI (hjudges.ready_survives haction)
        have hnext := run_next hrun (t := (u, _))
          (loopOn_step_iff.2 (Or.inr ⟨turn, hread, loop_step_ok hrunning hok⟩))
        exact ⟨n + 1, _, _, hnext, by simp [hready.2 haction]⟩

/-! ## The end of the stream -/

/-- Everything that was sent has arrived, and what is left of it is no header. -/
def Exhausted (s : Tcp) : Prop := s.inFlight = [] ∧ s.available < PacketHeader.headerSize

/-- From then on there is nothing to read, whether the stream has ended or not. -/
theorem reader_step_exhausted {s t : Tcp} {round : Round} {turns : List Turn}
    (hexhausted : Exhausted s) (h : reader.step s round = some (t, turns)) :
    t = s ∧ ∀ turn ∈ turns, turn.received = .packet .nothing := by
  cases round with
  | releasedElsewhere =>
      obtain ⟨rfl, rfl⟩ := Prod.mk.inj (Option.some.inj h)
      exact ⟨rfl, by simp⟩
  | polled settings io poll =>
      obtain ⟨⟨u, r⟩, hreceive, hr⟩ := Option.map_eq_some_iff.1 h
      obtain ⟨rfl, rfl⟩ := Prod.mk.inj hr
      have hbefore : poll.before = 0 := by
        by_contra hpos
        have hnone : s.arrive poll.before = none := by
          rw [Tcp.arrive, hexhausted.1, if_neg (by simpa using hpos)]
        simp [receivePacketAllocating, hnone, bind] at hreceive
      rw [receivePacketAllocating_idle hbefore hexhausted.2] at hreceive
      obtain ⟨rfl, rfl⟩ := Prod.mk.inj (Option.some.inj hreceive)
      exact ⟨rfl, by simp⟩

theorem not_letGo_of_exhausted {fatal : Turn → Prop} {s t : Tcp} {schedule : Nat → Round}
    {n : Nat} {turns : List Turn}
    (hread : reader.run s (firstRounds schedule n) = some (t, turns)) (hexhausted : Exhausted t)
    (hnotReady : ∀ turn ∈ turns, turn.action ≠ .ready)
    (halone : ∀ k, schedule k ≠ .releasedElsewhere) : ¬ LetGo fatal s schedule := by
  have hlater : ∀ k u turns', reader.run s (firstRounds schedule (n + k)) = some (u, turns') →
      u = t ∧ ∀ turn ∈ turns', turn.action ≠ .ready := by
    intro k
    induction k with
    | zero =>
        intro u turns' hrun
        rw [Nat.add_zero, hread] at hrun
        obtain ⟨rfl, rfl⟩ := Prod.mk.inj (Option.some.inj hrun)
        exact ⟨rfl, hnotReady⟩
    | succ k ih =>
        intro u turns' hrun
        rw [← Nat.add_assoc, firstRounds_succ] at hrun
        obtain ⟨v, o, o', hbefore, hlast, rfl⟩ := Machine.run_append_iff.1 hrun
        obtain ⟨rfl, hnone⟩ := ih v o hbefore
        rw [Machine.run_singleton_iff] at hlast
        obtain ⟨rfl, hnothing⟩ := reader_step_exhausted hexhausted hlast
        refine ⟨rfl, fun turn hmem => ?_⟩
        rcases List.mem_append.1 hmem with hmem | hmem
        · exact hnone turn hmem
        · rw [Turn.action, hnothing turn hmem]
          decide
  rintro ⟨m, v, turns', hrun, -, hround⟩
  obtain ⟨u, turn, hstep, haction⟩ := hround.resolve_left (halone m)
  have hnext := Machine.run_snoc hrun hstep
  rw [← firstRounds_succ] at hnext
  rcases Nat.le_total (m + 1) n with hle | hle
  · -- read before the end
    obtain ⟨k, rfl⟩ := Nat.exists_eq_add_of_le hle
    rw [firstRounds, List.range_add, List.map_append, ← firstRounds] at hread
    obtain ⟨w, o, o', hfirst, -, rfl⟩ := Machine.run_append_iff.1 hread
    rw [hnext] at hfirst
    obtain ⟨rfl, rfl⟩ := Prod.mk.inj (Option.some.inj hfirst)
    exact hnotReady turn (by simp) haction
  · obtain ⟨k, hk⟩ := Nat.exists_eq_add_of_le hle
    rw [hk] at hnext
    exact (hlater k _ _ hnext).2 turn (by simp) haction

end Authentication

/-! ## The two sides -/

namespace BaseTCPServer

variable (P : Platform)

/-- What the server's loop does not survive. -/
inductive Fatal (localKeys : RSAExport) : Turn → Prop
  | receive {settings io e} : Fatal localKeys ⟨settings, io, .threw e⟩
  | nullACK {settings io} {f : Frame} (action : f.header.packetAction = .ack)
      (null : P.packetEncrypted.isValidJSONBytes f.packet = some none) :
      Fatal localKeys ⟨settings, io, .packet f⟩
  | undecryptable {settings io} {f : Frame} {encrypted : PacketEncrypted} {e : Exn}
      (action : f.header.packetAction = .ack)
      (read : P.packetEncrypted.isValidJSONBytes f.packet = some (some encrypted))
      (throws : PacketEncrypted.tryDecryptInto P P.packetAuthentication encrypted
        (some localKeys.privateKey) = .error e) :
      Fatal localKeys ⟨settings, io, .packet f⟩

theorem handleAuthenticationPacket_ok {settings : Option PeerSettings} {io : Ambient}
    {keys : SecurityKey} {localKeys : RSAExport} {f : Frame}
    (hlocal : keys.localRSAKeys = some localKeys)
    (hharmless : ¬ Fatal P localKeys ⟨settings, io, .packet f⟩) :
    ∃ m reply, (handleAuthenticationPacket P settings io keys f).outcome = .ok (m, reply) := by
  simp only [handleAuthenticationPacket, hlocal]
  split_ifs with hsyn hack hready
  · split
    · exact ⟨_, _, rfl⟩
    · exact ⟨_, _, rfl⟩
  · split
    · exact ⟨_, _, rfl⟩
    · rename_i hjson
      exact absurd (.nullACK hack hjson) hharmless
    · contradiction
    · rename_i hjson hown
      obtain rfl := Option.some.inj hown
      split
      · rename_i hthrows
        exact absurd (.undecryptable hack hjson hthrows) hharmless
      · exact ⟨_, _, rfl⟩
      · exact ⟨_, _, rfl⟩
  · exact ⟨_, _, rfl⟩
  · exact ⟨_, _, rfl⟩

theorem judges (localKeys : RSAExport) :
    Authentication.Judges (handleAuthenticationPacket P) .ready
      (fun keys => keys.localRSAKeys = some localKeys) (Fatal P localKeys) where
  throws := by
    intro turn keys hlocal hfatal
    cases hfatal with
    | receive => exact ⟨_, rfl⟩
    | nullACK haction hnull =>
        refine ⟨.nullReference, ?_⟩
        simp only [Authentication.takeTurn, handleAuthenticationPacket, haction, hnull, hlocal]
        rfl
    | @undecryptable settings io f encrypted e haction hjson hthrows =>
        refine ⟨e, ?_⟩
        simp only [Authentication.takeTurn, handleAuthenticationPacket, haction, hjson, hlocal,
          hthrows]
        rfl
  survives := by
    apply Authentication.survives_of_packets fun settings io e => .receive
    intro settings io keys f hlocal hharmless
    obtain ⟨m, reply, hok⟩ := handleAuthenticationPacket_ok P hlocal hharmless
    obtain ⟨hlocal', -, hspec⟩ := handleAuthenticationPacket_spec P settings io f hlocal
    obtain ⟨rfl, -⟩ := hspec m reply hok
    exact ⟨_, reply, hok, hlocal', milestone_eq_ready_iff P localKeys⟩
  ready_survives := by
    rintro turn haction (_ | ⟨hack, -⟩ | ⟨hack, -, -⟩)
    · exact absurd haction (by simp only [Turn.action]; decide)
    · exact absurd (haction.symm.trans hack) (by decide)
    · exact absurd (haction.symm.trans hack) (by decide)

end BaseTCPServer

namespace BaseTCPClient

variable (P : Platform)

/-- What the client's loop does not survive. -/
inductive Fatal (key : Bytes) : Turn → Prop
  | receive {settings io e} : Fatal key ⟨settings, io, .threw e⟩
  | nullSYNAck {settings io} {f : Frame} (action : f.header.packetAction = .synAck)
      (null : P.packetAuthentication.isValidJSONBytes f.packet = some none) :
      Fatal key ⟨settings, io, .packet f⟩
  | unknownKey {settings io} {f : Frame} {auth : PacketAuthentication}
      (action : f.header.packetAction = .synAck)
      (read : P.packetAuthentication.isValidJSONBytes f.packet = some (some auth))
      (unknown : P.rsaKeySize (auth.keyData.getD []) = none) :
      Fatal key ⟨settings, io, .packet f⟩
  | noKeys {settings io} {f : Frame} {auth : PacketAuthentication} {keySize : Nat}
      (action : f.header.packetAction = .synAck)
      (read : P.packetAuthentication.isValidJSONBytes f.packet = some (some auth))
      (known : P.rsaKeySize (auth.keyData.getD []) = some keySize)
      (failed : P.rsaCreate keySize io.entropy = none) :
      Fatal key ⟨settings, io, .packet f⟩
  | unsent {settings io} {f : Frame} {auth : PacketAuthentication} {keySize : Nat}
      {localKeys : RSAExport} {e : Exn} (action : f.header.packetAction = .synAck)
      (read : P.packetAuthentication.isValidJSONBytes f.packet = some (some auth))
      (known : P.rsaKeySize (auth.keyData.getD []) = some keySize)
      (made : P.rsaCreate keySize io.entropy = some localKeys)
      (throws : PacketHelper.sendEncryptedPacket P
        ⟨settings, ⟨some localKeys, auth.keyData, some key⟩⟩ io
        (some (toUTF8Byte (P.packetAuthentication.toJSON
          { encryptionType := .chaCha20Poly1305, keyData := some key }))) .rsa .ack false =
        .error e) : Fatal key ⟨settings, io, .packet f⟩
  | nullACK {settings io} {f : Frame} (action : f.header.packetAction = .ack)
      (null : P.packetEncrypted.isValidJSONBytes f.packet = some none) :
      Fatal key ⟨settings, io, .packet f⟩
  | undecryptable {settings io} {f : Frame} {encrypted : PacketEncrypted} {e : Exn}
      (action : f.header.packetAction = .ack)
      (read : P.packetEncrypted.isValidJSONBytes f.packet = some (some encrypted))
      (throws : PacketEncrypted.tryDecryptInto P P.packetAuthentication encrypted (some key) =
        .error e) : Fatal key ⟨settings, io, .packet f⟩

theorem handleAuthenticationPacket_ok {settings : Option PeerSettings} {io : Ambient}
    {keys : SecurityKey} {key : Bytes} {f : Frame} (hkey : keys.chaChaKey = some key)
    (hharmless : ¬ Fatal P key ⟨settings, io, .packet f⟩) :
    ∃ m reply, (handleAuthenticationPacket P settings io keys f).outcome = .ok (m, reply) := by
  simp only [handleAuthenticationPacket, hkey]
  split_ifs with hsynAck hack hready
  · split
    · exact ⟨_, _, rfl⟩
    · rename_i hjson
      exact absurd (.nullSYNAck hsynAck hjson) hharmless
    · rename_i auth hjson
      split
      · rename_i hunknown
        exact absurd (.unknownKey hsynAck hjson hunknown) hharmless
      · rename_i keySize hknown
        split
        · rename_i hfailed
          exact absurd (.noKeys hsynAck hjson hknown hfailed) hharmless
        · rename_i localKeys hmade
          split
          · rename_i hthrows
            exact absurd (.unsent hsynAck hjson hknown hmade hthrows) hharmless
          · exact ⟨_, _, rfl⟩
  · split
    · exact ⟨_, _, rfl⟩
    · rename_i hjson
      exact absurd (.nullACK hack hjson) hharmless
    · rename_i hjson
      split
      · rename_i hthrows
        exact absurd (.undecryptable hack hjson hthrows) hharmless
      · exact ⟨_, _, rfl⟩
      · split_ifs
        · exact ⟨_, _, rfl⟩
        · exact ⟨_, _, rfl⟩
  · exact ⟨_, _, rfl⟩
  · exact ⟨_, _, rfl⟩

theorem judges (key : Bytes) :
    Authentication.Judges (handleAuthenticationPacket P) .ready
      (fun keys => keys.chaChaKey = some key) (Fatal P key) where
  throws := by
    intro turn keys hkey hfatal
    cases hfatal with
    | receive => exact ⟨_, rfl⟩
    | nullSYNAck haction hnull =>
        refine ⟨.nullReference, ?_⟩
        simp only [Authentication.takeTurn, handleAuthenticationPacket, haction, hnull]
        rfl
    | unknownKey haction hjson hunknown =>
        refine ⟨.cryptographic, ?_⟩
        simp only [Authentication.takeTurn, handleAuthenticationPacket, haction, hjson, hunknown]
        rfl
    | noKeys haction hjson hknown hfailed =>
        refine ⟨.cryptographic, ?_⟩
        simp only [Authentication.takeTurn, handleAuthenticationPacket, haction, hjson, hknown,
          hfailed]
        rfl
    | @unsent settings io f auth keySize localKeys e haction hjson hknown hmade hthrows =>
        refine ⟨e, ?_⟩
        simp only [Authentication.takeTurn, handleAuthenticationPacket, haction, hjson, hknown,
          hmade, hkey, hthrows]
        rfl
    | nullACK haction hnull =>
        refine ⟨.nullReference, ?_⟩
        simp only [Authentication.takeTurn, handleAuthenticationPacket, haction, hnull]
        rfl
    | @undecryptable settings io f encrypted e haction hjson hthrows =>
        refine ⟨e, ?_⟩
        simp only [Authentication.takeTurn, handleAuthenticationPacket, haction, hjson, hkey,
          hthrows]
        rfl
  survives := by
    apply Authentication.survives_of_packets fun settings io e => .receive
    intro settings io keys f hkey hharmless
    obtain ⟨m, reply, hok⟩ := handleAuthenticationPacket_ok P hkey hharmless
    obtain ⟨hkey', hspec⟩ := handleAuthenticationPacket_spec P settings io f hkey
    obtain rfl := hspec m reply hok
    exact ⟨_, reply, hok, hkey', milestone_eq_ready_iff P key⟩
  ready_survives := by
    intro turn haction hfatal
    cases hfatal with
    | receive => exact absurd haction (by simp only [Turn.action]; decide)
    | nullSYNAck hsynAck => exact absurd (haction.symm.trans hsynAck) (by decide)
    | unknownKey hsynAck => exact absurd (haction.symm.trans hsynAck) (by decide)
    | noKeys hsynAck => exact absurd (haction.symm.trans hsynAck) (by decide)
    | unsent hsynAck => exact absurd (haction.symm.trans hsynAck) (by decide)
    | nullACK hack => exact absurd (haction.symm.trans hack) (by decide)
    | undecryptable hack => exact absurd (haction.symm.trans hack) (by decide)

end BaseTCPClient

namespace Authentication

/-- The loops are left exactly if what is read lets them go: a Ready, with nothing
fatal before it.  The end of the stream is no such thing. -/
theorem handleAuthentication_returns_iff (P : Platform) (localKeys : RSAExport)
    (key : RandomData 32) (s : Tcp) (schedule : Nat → Round) :
    (Returns (BaseTCPServer.handleAuthenticationPacket P) .ready s
        (BaseTCPServer.startKeys localKeys) schedule ↔
      LetGo (BaseTCPServer.Fatal P localKeys) s schedule) ∧
    (Returns (BaseTCPClient.handleAuthenticationPacket P) .ready s
        (BaseTCPClient.startKeys key) schedule ↔
      LetGo (BaseTCPClient.Fatal P key.1) s schedule) :=
  ⟨(BaseTCPServer.judges P localKeys).returns_iff s rfl schedule,
    (BaseTCPClient.judges P key.1).returns_iff s rfl schedule⟩

/-- The other side closes without having sent anything. -/
def closedAtOnce : Tcp := ⟨[], [], true⟩

/-- The loop polls, and there is no one else to set its flag. -/
def polledForEver : Nat → Round := fun _ => .polled (some {}) PacketHelper.quiet { before := 0 }

theorem reader_closedAtOnce (n : Nat) :
    ∃ turns, reader.run closedAtOnce (firstRounds polledForEver n) =
      some (closedAtOnce, turns) := by
  induction n with
  | zero => exact ⟨[], rfl⟩
  | succ n ih =>
      obtain ⟨turns, hturns⟩ := ih
      rw [firstRounds_succ]
      exact ⟨_, Machine.run_snoc hturns rfl⟩

theorem not_handleAuthentication_returns :
    (¬ ∀ (P : Platform) (localKeys : RSAExport) (s : Tcp) (schedule : Nat → Round),
        s.closed = true → (∀ n, ∃ r, reader.run s (firstRounds schedule n) = some r) →
        Returns (BaseTCPServer.handleAuthenticationPacket P) .ready s
          (BaseTCPServer.startKeys localKeys) schedule) ∧
    ¬ ∀ (P : Platform) (key : RandomData 32) (s : Tcp) (schedule : Nat → Round),
        s.closed = true → (∀ n, ∃ r, reader.run s (firstRounds schedule n) = some r) →
        Returns (BaseTCPClient.handleAuthenticationPacket P) .ready s
          (BaseTCPClient.startKeys key) schedule := by
  have hgoesOn : ∀ n, ∃ r, reader.run closedAtOnce (firstRounds polledForEver n) = some r :=
    fun n => (reader_closedAtOnce n).elim fun turns h => ⟨_, h⟩
  have hkept : ∀ fatal, ¬ LetGo fatal closedAtOnce polledForEver := fun fatal =>
    not_letGo_of_exhausted (n := 0) rfl ⟨rfl, by decide⟩ (by simp) (by simp [polledForEver])
  constructor
  · intro halways
    have hreturns := halways Reference.reference ⟨[], []⟩ closedAtOnce polledForEver rfl hgoesOn
    exact hkept _ (((BaseTCPServer.judges _ ⟨[], []⟩).returns_iff _ rfl _).1 hreturns)
  · intro halways
    have hreturns := halways Reference.reference ⟨List.replicate 32 0, rfl⟩ closedAtOnce
      polledForEver rfl hgoesOn
    exact hkept _ (((BaseTCPClient.judges _ (List.replicate 32 0)).returns_iff _ rfl _).1 hreturns)

end Authentication

end NETConnect
