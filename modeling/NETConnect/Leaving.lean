import NETConnect.Delivery
import NETConnect.Handshake.Closing
import NETConnect.Peers.PeerLeave
/-!
# Where the server stops reading

The server reads from the connection that its thread serves.  It gives a connection one
handler; when that returns, the socket stays open and nobody reads from it.  When the
thread ends, nobody reads from any.
-/

namespace NETConnect

open Lib SocketExtensions

namespace BaseTCPServer

/-- The loop of `StartServer` is not run any more. -/
def Thread.IsOver : Thread → Prop
  | .finished | .faulted _ => True
  | _ => False

namespace Server

/-- Nothing more is read from any connection: the thread has ended, or waits for the end of
a handshake that nobody is in. -/
def IsOver (s : Server) : Prop :=
  s.thread.IsOver ∨ ∃ c, s.thread = .head c ∧ s.isAuthenticating = true

/-- Nothing more is read from the connection. -/
def HasLeft (s : Server) (c : ConnId) : Prop :=
  s.IsOver ∨ c < s.accepted ∧ s.thread.serving ≠ some c

/-- What holds in every run: a connection that is served has been accepted and has the
server's RSA keys, and `IsAuthenticating` is set in a handshake only, or when an
exception has ended it. -/
structure Standing (s : Server) : Prop where
  accepted : ∀ c, s.thread.serving = some c → c < s.accepted
  keys : ∀ c, s.thread.serving = some c → (s.keys c).localRSAKeys ≠ none
  flag : s.isAuthenticating = true → (∃ c, s.thread = .authenticating c) ∨ s.thread.IsOver

end Server

section

variable (P : Platform) (s : Server)

/-- The poll of a heartbeat gives the connection up. -/
def BeatGivesUp (c : ConnId) (clock : PollClock) (isGracefulShutdown : Bool) (io : Ambient) :
    Prop :=
  HeartBeat.GivesUp P ⟨s.self.settings, s.keys c⟩ io (s.conns c).heartBeat clock
    isGracefulShutdown

/-- The cleanup meets an entry without a `PacketHelper`. -/
def CleanupThrows (c : ConnId) : Prop :=
  ∃ client entry, s.self.findPeerById (fun c => (s.conns c).id) (s.conns c).id =
      some (client, entry) ∧
    ∃ other ∈ s.self.connectedPeers.eraseP fun x => x.ref = entry.ref, other.packetHelper = none

/-- The receive loop does not survive a frame: its envelope is the text `null`, or the
subscriber throws on its data. -/
def FrameThrows (c : ConnId) (io : Ambient) (utcNow : DateTime) (f : Frame) : Prop :=
  f.header.packetAction ≠ .empty ∧ f.header.packetEncryptionType ≠ .none ∧
      P.packetEncrypted.isValidJSONBytes f.packet = some none ∨
    ∃ data, autoDecrypt P (s.keys c) f = .ok (some data) ∧
      Upsets P (s.site io utcNow) f.header data

/-- The events at which an exception ends the thread. -/
def Throws : Event → Prop
  | .accept _ entropy => s.thread = .accepting ∧ P.rsaCreate 8192 entropy = none
  | .handshake io received => ∃ c localKeys, s.thread = .authenticating c ∧
      (s.keys c).localRSAKeys = some localKeys ∧
        Fatal P localKeys ⟨s.self.settings, io, received⟩
  | .beat clock isGracefulShutdown io _ => ∃ c, s.thread = .beating c ∧
      BeatGivesUp P s c clock isGracefulShutdown io ∧ CleanupThrows s c
  | .receive _ _ (.threw _) => ∃ c, s.thread = .receiving c
  | .receive io utcNow (.packet f) => ∃ c, s.thread = .receiving c ∧
      FrameThrows P s c io utcNow f
  | _ => False

/-- The events at which the handler of a connection leaves its loop. -/
def Returns (c : ConnId) : Event → Prop
  | .gate => s.thread = .head c ∧ (s.conns c).clientToken = true
  | .beat clock isGracefulShutdown io _ => s.thread = .beating c ∧
      BeatGivesUp P s c clock isGracefulShutdown io
  | _ => False

/-- The events that end the reading of a connection: the thread ends, or its handler. -/
def Leaves (c : ConnId) (e : Event) : Prop :=
  Throws P s e ∨ ∃ c', Returns P s c' e ∧ (c = c' ∨ s.serverToken = true)

end

variable {P : Platform} {s t : Server} {e : Event} {o : List Output} {c : ConnId}

theorem Returns.serving (h : Returns P s c e) : s.thread.serving = some c := by
  cases e with
  | gate =>
      rw [h.1]
      rfl
  | beat clock isGracefulShutdown io others =>
      rw [h.1]
      rfl
  | _ => exact h.elim

theorem Thread.not_isOver {thread : Thread} (h : thread.serving = some c) : ¬ thread.IsOver := by
  cases thread <;> simp [Thread.serving, Thread.IsOver] at h ⊢

theorem Server.after_isOver (threw : Option Exn) (thread : Thread) :
    (threw ≠ none → (Server.after threw thread).IsOver) ∧
      (threw = none → Server.after threw thread = thread) := by
  cases threw with
  | none => exact ⟨fun h => absurd rfl h, fun _ => rfl⟩
  | some e => exact ⟨fun _ => trivial, by simp⟩

theorem Server.Standing.unflagged (h : s.Standing) (hlive : ¬ s.thread.IsOver)
    (hother : ∀ c, s.thread ≠ .authenticating c) : s.isAuthenticating = false := by
  apply Bool.eq_false_iff.2
  intro hflag
  rcases h.flag hflag with ⟨c, hc⟩ | hover
  · exact hother c hc
  · exact hlive hover

theorem Server.Standing.head (h : s.Standing) (hthread : s.thread = .head c) :
    s.isAuthenticating = false :=
  h.unflagged (by rw [hthread]; exact id) (by simp [hthread])

theorem Server.Standing.isOver_iff (h : s.Standing) : s.IsOver ↔ s.thread.IsOver := by
  refine or_iff_left ?_
  rintro ⟨c, hthread, hflag⟩
  rw [h.head hthread] at hflag
  simp at hflag

/-! ## What a step does to the thread -/

/-- A step in terms of what the thread goes on with. -/
inductive Onward (P : Platform) (s : Server) (e : Event) (t : Server) : Prop
  | throws (throws : Throws P s e) (thread : t.thread.IsOver)
  | returns (c : ConnId) (calm : ¬ Throws P s e) (returns : Returns P s c e)
      (thread : t.thread = s.returned) (accepted : t.accepted = s.accepted)
  | admits (calm : ¬ Throws P s e) (stays : ∀ c, ¬ Returns P s c e)
      (before : s.thread = .accepting) (thread : t.thread = .head s.accepted)
      (accepted : t.accepted = s.accepted + 1)
  | goesOn (calm : ¬ Throws P s e) (stays : ∀ c, ¬ Returns P s c e)
      (serving : t.thread.serving = s.thread.serving)
      (ended : t.thread.IsOver ↔ s.thread.IsOver) (accepted : t.accepted = s.accepted)

section

variable {created : DateTime × DateTime} {entropy : Bytes} {io : Ambient} {received : Received}
  {clock : PollClock} {isGracefulShutdown : Bool} {others : ConnId → Ambient}
  {utcNow : DateTime}

theorem Server.acceptClient_onward (h : s.thread = .accepting) :
    Onward P s (.accept created entropy) (s.acceptClient P created entropy) := by
  unfold Server.acceptClient
  cases hkeys : P.rsaCreate 8192 entropy with
  | none => exact .throws ⟨h, hkeys⟩ trivial
  | some localKeys =>
      refine .admits ?_ (fun c hreturns => hreturns) h rfl rfl
      rintro ⟨-, hkeyless⟩
      simp [hkeys] at hkeyless

theorem Server.passGate_onward (hstanding : s.Standing) (h : s.thread = .head c) :
    Onward P s .gate (s.passGate c) := by
  have hserving : s.thread.serving = some c := by rw [h]; rfl
  have hover : ¬ s.thread.IsOver := Thread.not_isOver hserving
  have hstays : (s.conns c).clientToken = false → ∀ c', ¬ Returns P s c' .gate := by
    rintro htoken c' ⟨hthread, htoken'⟩
    obtain rfl := Thread.head.inj (h.symm.trans hthread)
    simp [htoken] at htoken'
  unfold Server.passGate
  by_cases htoken : (s.conns c).clientToken = true
  · rw [if_pos htoken]
    exact .returns c id ⟨h, htoken⟩ rfl rfl
  · replace hstays := hstays (Bool.eq_false_iff.2 htoken)
    rw [if_neg htoken, hstanding.head h, if_neg (by simp)]
    split_ifs
    · exact .goesOn id hstays hserving.symm (iff_of_false id hover) rfl
    · exact .goesOn id hstays hserving.symm (iff_of_false id hover) rfl

theorem Server.authenticate_onward (hstanding : s.Standing) (h : s.thread = .authenticating c) :
    Onward P s (.handshake io received) (s.authenticate P c io received).1 := by
  have hserving : s.thread.serving = some c := by rw [h]; rfl
  have hover : ¬ s.thread.IsOver := Thread.not_isOver hserving
  obtain ⟨localKeys, hlocal⟩ := Option.ne_none_iff_exists'.1 (hstanding.keys c hserving)
  simp only [Server.authenticate, show (s.conns c).keys = s.keys c from rfl]
  by_cases hfatal : Fatal P localKeys ⟨s.self.settings, io, received⟩
  · obtain ⟨e, he⟩ := (judges P localKeys).throws hlocal hfatal
    rw [he]
    exact .throws ⟨c, localKeys, h, hlocal, hfatal⟩ trivial
  · obtain ⟨m, reply, hok, -⟩ := (judges P localKeys).survives hlocal hfatal
    have hcalm : ¬ Throws P s (.handshake io received) := by
      rintro ⟨c', localKeys', hthread, hlocal', hfatal'⟩
      obtain rfl := Thread.authenticating.inj (h.symm.trans hthread)
      obtain rfl := Option.some.inj (hlocal.symm.trans hlocal')
      exact hfatal hfatal'
    rw [hok]
    simp only
    split_ifs
    · exact .goesOn hcalm (fun c' => id) hserving.symm (iff_of_false id hover) rfl
    · exact .goesOn hcalm (fun c' => id) rfl Iff.rfl rfl

theorem Server.setConn_ids (conn : Connection) (h : conn.id = (s.conns c).id) :
    (fun c' => ((s.setConn c conn).conns c').id) = fun c' => (s.conns c').id := by
  funext c'
  rcases eq_or_ne c' c with rfl | hne
  · simp [Server.setConn, h]
  · simp [Server.setConn, hne]

/-- Where the thread goes on when the heartbeat has given the connection up. -/
theorem Server.afterBeat_thread (others : ConnId → Ambient) {beat : Beat}
    (h : (!beat.result && beat.isDisconnected && !beat.heartBeat.firstBeat) = true) :
    (CleanupThrows s c → (s.afterBeat P c others beat).1.thread.IsOver) ∧
      (¬ CleanupThrows s c → (s.afterBeat P c others beat).1.thread = s.returned) ∧
      (s.afterBeat P c others beat).1.accepted = s.accepted := by
  unfold Server.afterBeat
  rw [h]
  simp only [if_true]
  set conn : Connection := { s.conns c with heartBeat := beat.heartBeat, clientToken := true }
  have hids := Server.setConn_ids (s := s) (c := c) conn rfl
  have hthrew : (s.self.removeClient P (fun c' => ((s.setConn c conn).conns c').keys)
      (fun c' => ((s.setConn c conn).conns c').id) others (s.conns c).id).2.2 ≠ none ↔
        CleanupThrows s c := by
    rw [hids]
    exact Peer.removeClient_threw_iff
  obtain ⟨hover, hnone⟩ := Server.after_isOver (s.self.removeClient P
    (fun c' => ((s.setConn c conn).conns c').keys)
    (fun c' => ((s.setConn c conn).conns c').id) others (s.conns c).id).2.2 s.returned
  exact ⟨fun hthrows => hover (hthrew.2 hthrows),
    fun hcalm => hnone (not_not.1 (mt hthrew.1 hcalm)), rfl⟩

theorem Server.takeBeat_onward (h : s.thread = .beating c) :
    Onward P s (.beat clock isGracefulShutdown io others)
      (s.takeBeat P c clock isGracefulShutdown io others).1 := by
  have hserving : s.thread.serving = some c := by rw [h]; rfl
  have hover : ¬ s.thread.IsOver := Thread.not_isOver hserving
  have hsame : ∀ {c'}, s.thread = .beating c' → c = c' := fun hthread =>
    Thread.beating.inj (h.symm.trans hthread)
  by_cases hgives : BeatGivesUp P s c clock isGracefulShutdown io
  · obtain ⟨hthrows, hreturned, haccepted⟩ := Server.afterBeat_thread (P := P) (s := s) (c := c)
      others ((HeartBeat.trySendHeartBeat_givesUp_iff ..).2 hgives)
    by_cases hcleanup : CleanupThrows s c
    · exact .throws ⟨c, h, hgives, hcleanup⟩ (hthrows hcleanup)
    · refine .returns c ?_ ⟨h, hgives⟩ (hreturned hcleanup) haccepted
      rintro ⟨c', hthread, -, hcleanup'⟩
      rw [← hsame hthread] at hcleanup'
      exact hcleanup hcleanup'
  · have hstays := Bool.eq_false_iff.2 fun hgone =>
      hgives ((HeartBeat.trySendHeartBeat_givesUp_iff ..).1 hgone)
    have hbeat : s.takeBeat P c clock isGracefulShutdown io others = _ :=
      Server.afterBeat_stays hstays
    rw [hbeat]
    refine .goesOn ?_ ?_ hserving.symm (iff_of_false id hover) rfl
    · rintro ⟨c', hthread, hgives', -⟩
      rw [← hsame hthread] at hgives'
      exact hgives hgives'
    · rintro c' ⟨hthread, hgives'⟩
      rw [← hsame hthread] at hgives'
      exact hgives hgives'

theorem frameThrows_iff (hlocal : (s.keys c).localRSAKeys ≠ none) (io : Ambient)
    (utcNow : DateTime) (f : Frame) :
    FrameThrows P s c io utcNow f ↔ (∃ e, autoDecrypt P (s.keys c) f = .error e) ∨
      ∃ data, autoDecrypt P (s.keys c) f = .ok (some data) ∧
        Upsets P (s.site io utcNow) f.header data := by
  rw [FrameThrows, autoDecrypt_error_iff hlocal f]

theorem Server.takePacket_thread (hlocal : (s.keys c).localRSAKeys ≠ none) (io : Ambient)
    (utcNow : DateTime) (f : Frame) :
    (FrameThrows P s c io utcNow f →
        (s.takePacket P c io utcNow (.packet f)).1.thread.IsOver) ∧
      (¬ FrameThrows P s c io utcNow f →
        (s.takePacket P c io utcNow (.packet f)).1.thread = .head c) ∧
      (s.takePacket P c io utcNow (.packet f)).1.accepted = s.accepted := by
  have hkeys : (s.conns c).keys = s.keys c := rfl
  have hthrows := frameThrows_iff (P := P) hlocal io utcNow f
  rcases hopens : autoDecrypt P (s.keys c) f with e | _ | data
  · rw [hthrows, hopens]
    simp [Server.takePacket, hkeys, hopens, Thread.IsOver]
  · rw [hthrows, hopens]
    simp [Server.takePacket, hkeys, hopens]
  · have hupsets : FrameThrows P s c io utcNow f ↔ Upsets P (s.site io utcNow) f.header data := by
      rw [hthrows, hopens]
      simp
    have hthrew := handleDataReceived_threw_iff P (s.site io utcNow) s.self c (s.conns c)
      f.header data
    obtain ⟨hover, hnone⟩ := Server.after_isOver
      (handleDataReceived P (s.site io utcNow) s.self c (s.conns c) f.header data).threw (.head c)
    rw [hupsets, Server.takePacket_of_opens hopens]
    exact ⟨fun hupset => hover (hthrew.2 hupset),
      fun hcalm => hnone (not_not.1 (mt hthrew.1 hcalm)), rfl⟩

theorem Server.takePacket_onward (hstanding : s.Standing) (h : s.thread = .receiving c) :
    Onward P s (.receive io utcNow received) (s.takePacket P c io utcNow received).1 := by
  have hserving : s.thread.serving = some c := by rw [h]; rfl
  have hover : ¬ s.thread.IsOver := Thread.not_isOver hserving
  cases received with
  | threw e => exact .throws ⟨c, h⟩ trivial
  | packet f =>
      obtain ⟨hthrows, hgoes, haccepted⟩ :=
        Server.takePacket_thread (P := P) (hstanding.keys c hserving) io utcNow f
      by_cases hframe : FrameThrows P s c io utcNow f
      · exact .throws ⟨c, h, hframe⟩ (hthrows hframe)
      · have hcalm : ¬ Throws P s (.receive io utcNow (.packet f)) := by
          rintro ⟨c', hthread, hframe'⟩
          obtain rfl := Thread.receiving.inj (h.symm.trans hthread)
          exact hframe hframe'
        refine .goesOn hcalm (fun c' => id) ?_ ?_ haccepted
        · rw [hgoes hframe, hserving]
          rfl
        · rw [hgoes hframe]
          exact iff_of_false id hover

theorem Server.Standing.onward (hstanding : s.Standing) {r : Server × List Output}
    (h : Stepped P s e r) : Onward P s e r.1 := by
  cases h with
  | accept h => exact Server.acceptClient_onward h
  | gate h => exact Server.passGate_onward hstanding h
  | handshake h => exact Server.authenticate_onward hstanding h
  | beat h => exact Server.takeBeat_onward h
  | receive h => exact Server.takePacket_onward hstanding h
  | cancelServer => exact .goesOn id (fun _ => id) rfl Iff.rfl rfl
  | cancelClient => exact .goesOn id (fun _ => id) rfl Iff.rfl rfl
  | elsewhere => exact .goesOn id (fun _ => id) rfl Iff.rfl rfl

end

/-! ## The run -/

theorem Server.authenticate_flag {io : Ambient} {received : Received}
    (h : s.thread = .authenticating c) :
    (s.authenticate P c io received).1.isAuthenticating = true →
      (∃ c', (s.authenticate P c io received).1.thread = .authenticating c') ∨
        (s.authenticate P c io received).1.thread.IsOver := by
  rcases houtcome : (Authentication.takeTurn (handleAuthenticationPacket P) (s.conns c).keys
    ⟨s.self.settings, io, received⟩).outcome with e | ⟨m, reply⟩
  · simp [Server.authenticate, houtcome, Thread.IsOver]
  · simp only [Server.authenticate, houtcome]
    split_ifs
    · simp
    · exact fun _ => Or.inl ⟨c, h⟩

theorem Server.Standing.flag_step (h : s.Standing) {r : Server × List Output}
    (hstep : Stepped P s e r) (hflag : r.1.isAuthenticating = true) :
    (∃ c, r.1.thread = .authenticating c) ∨ r.1.thread.IsOver := by
  -- a step that keeps the flag begins where it is not set, or keeps the thread
  have hset : r.1.isAuthenticating = s.isAuthenticating → ¬ s.thread.IsOver →
      ¬ ∀ c, s.thread ≠ .authenticating c := by
    intro hsame hlive hother
    rw [hsame, h.unflagged hlive hother] at hflag
    simp at hflag
  cases hstep with
  | @accept created entropy hthread =>
      refine absurd ?_ (hset ?_ (by rw [hthread]; exact id))
      · simp [hthread]
      · simp only [Server.acceptClient]
        cases P.rsaCreate 8192 entropy <;> rfl
  | @gate c hthread =>
      simp only [Server.passGate, h.head hthread] at hflag ⊢
      split_ifs at hflag ⊢
      · simp [h.head hthread] at hflag
      · exact Or.inl ⟨c, rfl⟩
  | handshake hthread => exact Server.authenticate_flag hthread hflag
  | @beat clock isGracefulShutdown io others c hthread =>
      refine absurd ?_ (hset ?_ (by rw [hthread]; exact id))
      · simp [hthread]
      · simp only [Server.takeBeat, Server.afterBeat]
        split_ifs <;> rfl
  | @receive io utcNow received c hthread =>
      refine absurd ?_ (hset ?_ (by rw [hthread]; exact id))
      · simp [hthread]
      · simp only [Server.takePacket]
        split
        · rfl
        · split <;> rfl
  | cancelServer => exact h.flag hflag
  | cancelClient => exact h.flag hflag
  | elsewhere => exact h.flag hflag

theorem takeTurn_localRSAKeys (keys : SecurityKey) (turn : Turn)
    (h : keys.localRSAKeys ≠ none) :
    (Authentication.takeTurn (handleAuthenticationPacket P) keys turn).keys.localRSAKeys ≠
      none := by
  obtain ⟨localKeys, hlocal⟩ := Option.ne_none_iff_exists'.1 h
  rcases Authentication.takeTurn_cases (handleAuthenticationPacket P) keys turn with
    ⟨hkeys, -⟩ | ⟨f, -, -, hturn⟩
  · rw [hkeys]
    exact h
  · rw [hturn, (handleAuthenticationPacket_spec P turn.settings turn.io f hlocal).1]
    simp

theorem Server.Standing.keys_step (h : s.Standing) {r : Server × List Output}
    (hstep : Stepped P s e r) (hserving : r.1.thread.serving = some c) :
    (r.1.keys c).localRSAKeys ≠ none := by
  rcases (moves_of_stepped hstep).serving hserving with
    hbefore | ⟨created, entropy, rfl, rfl, -⟩
  · have hlocal := h.keys c hbefore
    rcases hstep.keys with hsame | ⟨created, entropy, localKeys, rfl, hthread, -⟩ |
      ⟨io, received, c', rfl, hthread, hturn⟩
    · rw [hsame]
      exact hlocal
    · rw [hthread] at hbefore
      simp [Thread.serving] at hbefore
    · rw [hthread] at hbefore
      obtain rfl := Option.some.inj hbefore
      rw [hturn, Function.update_self]
      exact takeTurn_localRSAKeys _ _ hlocal
  · cases hstep with
    | accept hthread =>
        simp only [Server.acceptClient] at hserving ⊢
        cases hmade : P.rsaCreate 8192 entropy with
        | none => simp [hmade, Thread.serving] at hserving
        | some localKeys =>
            change ((s.setConn s.accepted _).keys s.accepted).localRSAKeys ≠ none
            rw [Server.keys_setConn, Function.update_self]
            simp [startKeys]

theorem Server.Standing.step (h : s.Standing) {r : Server × List Output}
    (hstep : Stepped P s e r) : r.1.Standing where
  accepted c hserving := by
    have hmoves := moves_of_stepped hstep
    rcases hmoves.serving hserving with hbefore | ⟨created, entropy, -, rfl, haccepted⟩
    · exact (h.accepted c hbefore).trans_le hmoves.accepted_le
    · rw [haccepted]
      exact Nat.lt_succ_self _
  keys c := h.keys_step hstep
  flag := h.flag_step hstep

theorem standing_start (self : Peer) : (start self).Standing where
  accepted c hserving := by simp [start, Thread.serving] at hserving
  keys c hserving := by simp [start, Thread.serving] at hserving
  flag hflag := by simp [start] at hflag

theorem Server.isOver_returned_iff : s.returned.IsOver ↔ s.serverToken = true := by
  unfold Server.returned
  split_ifs with htoken <;> simp [Thread.IsOver, htoken]

/-- When a handler returns, the server leaves its connection, or all if it is to end. -/
theorem Returns.leaves_iff {c' : ConnId} (h : Returns P s c' e) (hcalm : ¬ Throws P s e) :
    Leaves P s c e ↔ c = c' ∨ s.serverToken = true := by
  constructor
  · rintro (hthrows | ⟨c'', hreturns, hor⟩)
    · exact absurd hthrows hcalm
    · obtain rfl : c' = c'' := Option.some.inj (h.serving.symm.trans hreturns.serving)
      exact hor
  · intro hor
    exact Or.inr ⟨c', h, hor⟩

/-- The server has left a connection exactly if it had, or leaves it now. -/
theorem Server.Standing.hasLeft_step_iff (h : s.Standing) {r : Server × List Output}
    (hstep : Stepped P s e r) (c : ConnId) :
    r.1.HasLeft c ↔ s.HasLeft c ∨ Leaves P s c e := by
  have hover := h.isOver_iff
  have hover' := (h.step hstep).isOver_iff
  have hnot : (∀ c, ¬ Returns P s c e) → ¬ Throws P s e → ¬ Leaves P s c e := by
    rintro hstays hcalm (hthrows | ⟨c', hreturns, -⟩)
    · exact hcalm hthrows
    · exact hstays c' hreturns
  unfold Server.HasLeft
  rw [hover, hover']
  cases h.onward hstep with
  | throws throws thread => exact iff_of_true (Or.inl thread) (Or.inr (Or.inl throws))
  | returns c' calm returns thread accepted =>
      have hserving := returns.serving
      have hlive : ¬ s.thread.IsOver := Thread.not_isOver hserving
      have hc' := h.accepted c' hserving
      rw [thread, accepted, Server.serving_returned, hserving, returns.leaves_iff calm,
        Server.isOver_returned_iff]
      simp only [hlive, false_or, ne_eq, reduceCtorEq, not_false_eq_true, and_true,
        Option.some.injEq]
      constructor
      · rintro (htoken | hlt)
        · exact Or.inr (Or.inr htoken)
        · rcases eq_or_ne c c' with rfl | hne
          · exact Or.inr (Or.inl rfl)
          · exact Or.inl ⟨hlt, hne.symm⟩
      · rintro (⟨hlt, -⟩ | rfl | htoken)
        · exact Or.inr hlt
        · exact Or.inr hc'
        · exact Or.inl htoken
  | admits calm stays before thread accepted =>
      rw [thread, accepted, before, or_iff_left (hnot stays calm)]
      simp only [Thread.IsOver, Thread.serving, false_or, ne_eq, Option.some.injEq, reduceCtorEq,
        not_false_eq_true, and_true]
      constructor
      · rintro ⟨hlt, hne⟩
        exact Nat.lt_of_le_of_ne (Nat.le_of_lt_succ hlt) (Ne.symm hne)
      · intro hlt
        exact ⟨Nat.lt_succ_of_lt hlt, (Nat.ne_of_lt hlt).symm⟩
  | goesOn calm stays serving ended accepted =>
      rw [serving, ended, accepted, or_iff_left (hnot stays calm)]

end BaseTCPServer

end NETConnect
