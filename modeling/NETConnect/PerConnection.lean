import NETConnect.Server
/-!
# One thread and two flags for all clients

What it means for the clients of a server that its flags and its accepting thread are
shared: a client that comes after another one has authenticated is taken for
authenticated, and while a handler runs nobody else is accepted.
-/

namespace NETConnect

open Lib SocketExtensions

namespace BaseTCPServer

/-! ## What a step does to the flags -/

/-- The thread is past the handshake of the connection it serves. -/
def Thread.IsPast : Thread → Prop
  | .beating _ | .receiving _ => True
  | _ => False

/-- What an output says about connections. -/
def Output.IsSent : Output → Prop
  | .sent _ _ => True
  | _ => False

/-- A step in terms of the thread's position and of `IsAuthenticated`. -/
inductive Moves (s : Server) (e : Event) (t : Server) (o : List Output) : Prop
  /-- a client is accepted; its handler begins if its keys can be made -/
  | admits (created : DateTime × DateTime) (entropy : Bytes)
      (event : e = .accept created entropy) (before : s.thread = .accepting)
      (thread : t.thread = .head s.accepted ∨ t.thread.serving = none)
      (accepted : t.accepted = s.accepted + 1) (flag : t.isAuthenticated = s.isAuthenticated)
      (silent : o = [])
  /-- the handshake of the connection that is served ends -/
  | authenticates (c : ConnId) (before : s.thread = .authenticating c)
      (thread : t.thread = .beating c) (accepted : t.accepted = s.accepted)
      (flag : t.isAuthenticated = true)
      (out : ∀ x ∈ o, x.IsSent ∨ x = .authenticated c) (mem : .authenticated c ∈ o)
  /-- a packet of the connection that is served is handed over -/
  | delivers (c : ConnId) (header : PacketHeader) (data : Bytes)
      (before : s.thread = .receiving c)
      (thread : t.thread = .head c ∨ t.thread.serving = none) (accepted : t.accepted = s.accepted)
      (flag : t.isAuthenticated = s.isAuthenticated)
      (out : ∀ x ∈ o, x.IsSent ∨ x = .delivered c header data)
  /-- the handler goes on, or ends -/
  | goesOn (thread : t.thread.serving = s.thread.serving ∨ t.thread.serving = none)
      (past : t.thread.IsPast → s.thread.IsPast ∨ s.isAuthenticated = true)
      (accepted : t.accepted = s.accepted) (flag : t.isAuthenticated = s.isAuthenticated)
      (out : ∀ x ∈ o, x.IsSent)

theorem isSent_of_mem_map {c : ConnId} {fs : List Frame} {x : Output}
    (h : x ∈ fs.map (Output.sent c)) : x.IsSent := by
  obtain ⟨f, -, rfl⟩ := List.mem_map.1 h
  trivial

theorem Server.serving_returned (s : Server) : s.returned.serving = none := by
  rw [Server.returned]
  split_ifs <;> rfl

theorem Server.after_head (threw : Option Exn) (c : ConnId) :
    Server.after threw (.head c) = .head c ∨ (Server.after threw (.head c)).serving = none := by
  cases threw
  · exact Or.inl rfl
  · exact Or.inr rfl

theorem Thread.not_isPast {thread : Thread} (h : thread.serving = none) : ¬ thread.IsPast := by
  cases thread <;> simp [Thread.serving, Thread.IsPast] at h ⊢

variable {P : Platform} {s t : Server} {e : Event} {o : List Output} {c : ConnId}

theorem Server.authenticate_moves {io : Ambient} {received : Received}
    (h : s.thread = .authenticating c) :
    Moves s (.handshake io received) (s.authenticate P c io received).1
      (s.authenticate P c io received).2 := by
  simp only [Server.authenticate]
  split
  · exact .goesOn (Or.inr rfl) False.elim rfl rfl (by simp)
  · rename_i m reply houtcome
    split_ifs with hready
    · refine .authenticates c h rfl rfl rfl (fun x hx => ?_) (by simp)
      rcases List.mem_append.1 hx with hsent | hlast
      · exact Or.inl (isSent_of_mem_map hsent)
      · exact Or.inr (List.mem_singleton.1 hlast)
    · exact .goesOn (Or.inl rfl) (fun hpast => Or.inl hpast) rfl rfl
        fun x hx => isSent_of_mem_map hx

theorem Server.takeBeat_moves {clock : PollClock} {isGracefulShutdown : Bool} {io : Ambient}
    {others : ConnId → Ambient} (h : s.thread = .beating c) :
    Moves s (.beat clock isGracefulShutdown io others)
      (s.takeBeat P c clock isGracefulShutdown io others).1
      (s.takeBeat P c clock isGracefulShutdown io others).2 := by
  have hpast : s.thread.IsPast := by rw [h]; trivial
  simp only [Server.takeBeat, Server.afterBeat]
  split_ifs
  · -- the connection is gone
    have hnone : ∀ threw, (Server.after threw s.returned).serving = none := by
      rintro (_ | e)
      · exact s.serving_returned
      · rfl
    refine .goesOn (Or.inr (hnone _)) (fun _ => Or.inl hpast) rfl rfl fun x hx => ?_
    rcases List.mem_append.1 hx with hping | hleave
    · exact isSent_of_mem_map hping
    · obtain ⟨l, -, rfl⟩ := List.mem_map.1 hleave
      trivial
  · refine .goesOn (Or.inl ?_) (fun _ => Or.inl hpast) rfl rfl fun x hx => isSent_of_mem_map hx
    rw [h]
    rfl

theorem Server.takePacket_moves {io : Ambient} {utcNow : DateTime} {received : Received}
    (h : s.thread = .receiving c) :
    Moves s (.receive io utcNow received) (s.takePacket P c io utcNow received).1
      (s.takePacket P c io utcNow received).2 := by
  have hserving : s.thread.serving = some c := by rw [h]; rfl
  simp only [Server.takePacket]
  split
  · exact .goesOn (Or.inr rfl) False.elim rfl rfl (by simp)
  · split
    · exact .goesOn (Or.inr rfl) False.elim rfl rfl (by simp)
    · exact .goesOn (Or.inl hserving.symm) False.elim rfl rfl (by simp)
    · rename_i f _ data _
      simp only [Server.afterRaise]
      refine .delivers c f.header data h (Server.after_head _ c) rfl rfl fun x hx => ?_
      rcases List.mem_cons.1 hx with rfl | hsent
      · exact Or.inr rfl
      · exact Or.inl (isSent_of_mem_map hsent)

theorem moves_of_stepped {r : Server × List Output} (h : Stepped P s e r) :
    Moves s e r.1 r.2 := by
  cases h with
  | @accept created entropy h =>
      refine .admits created entropy rfl h ?_ ?_ ?_ rfl
      all_goals simp only [Server.acceptClient]
      · cases P.rsaCreate 8192 entropy
        · exact Or.inr rfl
        · exact Or.inl rfl
      all_goals cases P.rsaCreate 8192 entropy <;> rfl
  | @gate c h =>
      have hserving : s.thread.serving = some c := by rw [h]; rfl
      simp only [Server.passGate]
      split_ifs with htoken hauthenticating hauthenticated
      · exact .goesOn (Or.inr s.serving_returned)
          (fun hpast => absurd hpast (Thread.not_isPast s.serving_returned)) rfl rfl (by simp)
      · exact .goesOn (Or.inl rfl) Or.inl rfl rfl (by simp)
      · exact .goesOn (Or.inl hserving.symm) (fun _ => Or.inr hauthenticated) rfl rfl (by simp)
      · exact .goesOn (Or.inl hserving.symm) False.elim rfl rfl (by simp)
  | handshake h => exact Server.authenticate_moves h
  | beat h => exact Server.takeBeat_moves h
  | receive h => exact Server.takePacket_moves h
  | cancelServer => exact .goesOn (Or.inl rfl) Or.inl rfl rfl (by simp)
  | cancelClient => exact .goesOn (Or.inl rfl) Or.inl rfl rfl (by simp)
  | elsewhere => exact .goesOn (Or.inl rfl) Or.inl rfl rfl (by simp)

theorem moves_of_step (h : (server P).step s e = some (t, o)) : Moves s e t o :=
  moves_of_stepped (server_step_iff.1 h)

theorem Moves.accepted_le (h : Moves s e t o) : s.accepted ≤ t.accepted := by
  cases h with
  | admits created entropy event before thread accepted flag silent =>
      rw [accepted]
      exact Nat.le_succ _
  | authenticates c before thread accepted flag out mem => exact accepted.ge
  | delivers c header data before thread accepted flag out => exact accepted.ge
  | goesOn thread past accepted flag out => exact accepted.ge

/-- The connection that is served was served before, or has just been accepted. -/
theorem Moves.serving (h : Moves s e t o) (hserving : t.thread.serving = some c) :
    s.thread.serving = some c ∨ ∃ created entropy, e = .accept created entropy ∧
      s.accepted = c ∧ t.accepted = s.accepted + 1 := by
  cases h with
  | admits created entropy event before thread accepted flag silent =>
      rcases thread with hhead | hnone
      · rw [hhead] at hserving
        exact Or.inr ⟨created, entropy, event, Option.some.inj hserving, accepted⟩
      · simp [hnone] at hserving
  | authenticates c' before thread accepted flag out mem =>
      rw [thread] at hserving
      rw [before]
      exact Or.inl hserving
  | delivers c' header data before thread accepted flag out =>
      rcases thread with hhead | hnone
      · rw [hhead] at hserving
        rw [before]
        exact Or.inl hserving
      · simp [hnone] at hserving
  | goesOn thread past accepted flag out =>
      rcases thread with hsame | hnone
      · exact Or.inl (hsame.symm.trans hserving)
      · simp [hnone] at hserving

theorem Moves.authenticating (h : Moves s e t o) (hmem : .authenticated c ∈ o) :
    s.thread = .authenticating c := by
  cases h with
  | admits created entropy event before thread accepted flag silent => simp [silent] at hmem
  | authenticates c' before thread accepted flag out mem =>
      rcases out _ hmem with hsent | heq
      · exact hsent.elim
      · rw [Output.authenticated.inj heq]
        exact before
  | delivers c' header data before thread accepted flag out =>
      rcases out _ hmem with hsent | heq
      · exact hsent.elim
      · simp at heq
  | goesOn thread past accepted flag out => exact (out _ hmem).elim

theorem Moves.past (h : Moves s e t o) (hpast : t.thread.IsPast)
    (hset : s.thread.IsPast → s.isAuthenticated = true) : t.isAuthenticated = true := by
  cases h with
  | admits created entropy event before thread accepted flag silent =>
      rcases thread with hhead | hnone
      · rw [hhead] at hpast
        exact hpast.elim
      · exact absurd hpast (Thread.not_isPast hnone)
  | authenticates c before thread accepted flag out mem => exact flag
  | delivers c header data before thread accepted flag out =>
      rw [flag]
      exact hset (by rw [before]; trivial)
  | goesOn thread past accepted flag out =>
      rw [flag]
      exact (past hpast).elim hset id

/-! ## Authentication per connection -/

/-- Data of a connection is handed over only after its own handshake, and the
connection that is served counts as authenticated only after its own handshake. -/
structure PerConnection (s : Server) (os : List Output) : Prop where
  delivered : ∀ c, PrecededBy (fun x => x.deliveredOn = some c) (· = .authenticated c) os
  counted : ∀ c, s.thread.serving = some c → s.isAuthenticated = true → .authenticated c ∈ os

/-- What holds in every run: the numbers that were used are below the next one, and
past a handshake the flag is set. -/
structure Numbered (s : Server) (os : List Output) : Prop where
  served : ∀ c, s.thread.serving = some c → c < s.accepted
  authenticated : ∀ c, .authenticated c ∈ os → c < s.accepted
  past : s.thread.IsPast → s.isAuthenticated = true

theorem numbered_start (self : Peer) : Numbered (start self) [] where
  served c h := by simp [start, Thread.serving] at h
  authenticated c h := by simp at h
  past h := h.elim

theorem Numbered.step {os : List Output} (h : Numbered s os)
    (hstep : (server P).step s e = some (t, o)) : Numbered t (os ++ o) := by
  have hmoves := moves_of_step hstep
  constructor
  · intro c hc
    rcases hmoves.serving hc with hbefore | ⟨created, entropy, -, rfl, haccepted⟩
    · exact (h.served c hbefore).trans_le hmoves.accepted_le
    · rw [haccepted]
      exact Nat.lt_succ_self _
  · intro c hmem
    refine Nat.lt_of_lt_of_le ?_ hmoves.accepted_le
    rcases List.mem_append.1 hmem with hold | hnew
    · exact h.authenticated c hold
    · exact h.served c (by rw [hmoves.authenticating hnew]; rfl)
  · intro hpast
    exact hmoves.past hpast h.past

theorem perConnection_start (self : Peer) : PerConnection (start self) [] where
  delivered _ := precededBy_nil
  counted c h := by simp [start, Thread.serving] at h

/-- The client that is accepted is the first one since a handshake was completed: the
flag is not set when its handler begins. -/
def IsFirst (P : Platform) (s : Server) (e : Event) : Prop :=
  ∀ created entropy, e = .accept created entropy → s.thread = .accepting →
    P.rsaCreate 8192 entropy ≠ none → s.isAuthenticated = false

theorem deliveredOn_eq_none {x : Output} (h : x.IsSent) : x.deliveredOn = none := by
  cases x <;> simp [Output.IsSent, Output.deliveredOn] at h ⊢

theorem PerConnection.step {os : List Output} (hnumbered : Numbered s os)
    (h : PerConnection s os) (hfirst : IsFirst P s e)
    (hstep : (server P).step s e = some (t, o)) : PerConnection t (os ++ o) := by
  cases moves_of_step hstep with
  | admits created entropy event before thread accepted flag silent =>
      subst silent
      rw [List.append_nil]
      refine ⟨h.delivered, fun c hc hflag => ?_⟩
      subst event
      cases hkeys : P.rsaCreate 8192 entropy with
      | none =>
          rw [server_step_iff.2 (.accept before)] at hstep
          obtain ⟨rfl, -⟩ := Prod.mk.inj (Option.some.inj hstep)
          simp [Server.acceptClient, hkeys, Thread.serving] at hc
      | some localKeys =>
          rw [flag, hfirst created entropy rfl before (by rw [hkeys]; simp)] at hflag
          simp at hflag
  | authenticates c before thread accepted flag out mem =>
      constructor
      · refine fun c' => (h.delivered c').append ?_
        rintro ⟨x, hx, hdelivered⟩
        rcases out x hx with hsent | rfl
        · simp [deliveredOn_eq_none hsent] at hdelivered
        · simp [Output.deliveredOn] at hdelivered
      · intro c' hc' _
        rw [thread] at hc'
        obtain rfl : c = c' := Option.some.inj hc'
        exact List.mem_append_right _ mem
  | delivers c header data before thread accepted flag out =>
      -- past its handshake, the connection has been authenticated
      have hmem : .authenticated c ∈ os := h.counted c (by rw [before]; rfl)
        (hnumbered.past (by rw [before]; trivial))
      constructor
      · refine fun c' => (h.delivered c').append ?_
        rintro ⟨x, hx, hdelivered⟩
        rcases out x hx with hsent | rfl
        · simp [deliveredOn_eq_none hsent] at hdelivered
        · obtain rfl : c = c' := Option.some.inj hdelivered
          exact ⟨_, hmem, rfl⟩
      · intro c' hc' _
        rcases thread with hhead | hnone
        · rw [hhead] at hc'
          obtain rfl : c = c' := Option.some.inj hc'
          exact List.mem_append_left _ hmem
        · simp [hnone] at hc'
  | goesOn thread past accepted flag out =>
      constructor
      · refine fun c' => (h.delivered c').append ?_
        rintro ⟨x, hx, hdelivered⟩
        simp [deliveredOn_eq_none (out x hx)] at hdelivered
      · intro c' hc' hflag
        rcases thread with hsame | hnone
        · exact List.mem_append_left _ (h.counted c' (by rw [← hsame]; exact hc')
            (by rw [← flag]; exact hflag))
        · simp [hnone] at hc'

/-- A client that is accepted while the flag is set counts as authenticated at once. -/
theorem PerConnection.isFirst {os : List Output} (hnumbered : Numbered s os)
    (hstep : (server P).step s e = some (t, o)) (h : PerConnection t (os ++ o)) :
    IsFirst P s e := by
  rintro created entropy rfl hthread hkeys
  obtain ⟨localKeys, hkeys⟩ := Option.ne_none_iff_exists'.1 hkeys
  by_contra hflag
  have hset : s.isAuthenticated = true := by simpa using hflag
  rw [server_step_iff.2 (.accept hthread)] at hstep
  obtain ⟨rfl, rfl⟩ := Prod.mk.inj (Option.some.inj hstep)
  have hmem := h.counted s.accepted
    (by simp [Server.acceptClient, hkeys, Thread.serving])
    (by simp [Server.acceptClient, hkeys, Server.setConn, hset])
  have hold : s.accepted < s.accepted := hnumbered.authenticated s.accepted (by simpa using hmem)
  exact Nat.lt_irrefl _ hold

theorem isFirst_of_blocked (s : Server) (e : Event) (h : (server P).step s e = none) :
    IsFirst P s e := by
  rintro created entropy rfl hthread
  rw [server_step_iff.2 (.accept hthread)] at h
  exact absurd h (by simp)

/-- A run keeps authentication per connection exactly if every client it accepts is the
first one since a handshake was completed. -/
theorem perConnection_iff (P : Platform) (self : Peer) (es : List Event) :
    (server P).Throughout PerConnection (start self) es ↔
      (server P).Along (IsFirst P) (start self) es := by
  apply Machine.throughout_iff_along (A := Numbered) (h := []) isFirst_of_blocked
  case hI => exact perConnection_start self
  case hA => exact numbered_start self
  case hstep =>
    intro s os e t o hold hnumbered hstep
    constructor
    · exact ⟨PerConnection.isFirst hnumbered hstep, fun hfirst => hold.step hnumbered hfirst hstep⟩
    · intro _
      exact hnumbered.step hstep

/-- A poll of the heartbeat with every reading at the same time. -/
def beatAt (seconds : Nat) (isGracefulShutdown : Bool) : Event :=
  let t : DateTime := (seconds * ticksPerSecond : Nat)
  .beat ⟨t, (t, t), (t, t), t⟩ isGracefulShutdown PacketHelper.quiet fun _ => PacketHelper.quiet

def receiveFrame (f : Frame) : Event := .receive PacketHelper.quiet (0 : Nat) (.packet f)

def acceptNow : Event := .accept ((0 : Nat), (0 : Nat)) []

/-- The first client sends Ready, is pinged once and goes away. -/
def firstClient : List Event :=
  [acceptNow, .gate, .handshake PacketHelper.quiet bareReady.received, beatAt 10 false,
    receiveFrame .nothing, .gate, beatAt 11 true]

/-- The second client sends one packet of data. -/
def secondClient : List Event :=
  [acceptNow, .gate, beatAt 0 false, receiveFrame ⟨.create 1 .data .none 0, [7]⟩]

/-- The packet of the second client is handed over, and it has made no handshake. -/
theorem not_perConnection :
    ¬ ∀ (P : Platform) (self : Peer) (es : List Event),
        (server P).Throughout PerConnection (start self) es := by
  intro halways
  have houtputs : ((server Reference.reference).run (start { peerId := .empty })
      (firstClient ++ secondClient)).map Prod.snd = some
        ([.sent 0 (PacketHelper.frameOf PacketHelper.quiet (toUTF8Byte "<READY>") .ready .none),
          .authenticated 0,
          .sent 0 (PacketHelper.frameOf PacketHelper.quiet (toUTF8Byte "<PING>") .ping .none)] ++
          .delivered 1 (.create 1 .data .none 0) [7] :: []) := by rfl
  obtain ⟨⟨t, os⟩, hrun, hos⟩ := Option.map_eq_some_iff.1 houtputs
  have h := (halways Reference.reference _ _).last hrun
  obtain ⟨a, hmem, rfl⟩ := h.delivered 1 _ _ _ hos rfl
  simp at hmem

/-! ## One client at a time -/

/-- The accepting thread is able to take the next client. -/
def CanAccept (s : Server) : Prop := s.serverToken = false → s.thread = .accepting

/-- No client is accepted before the server is told to stop. -/
def NobodyBefore (s : Server) (e : Event) : Prop :=
  ∀ created entropy, e = .accept created entropy → s.thread = .accepting → s.serverToken = true

theorem Stepped.serverToken {r : Server × List Output} (h : Stepped P s e r)
    (htoken : s.serverToken = true) : r.1.serverToken = true := by
  cases h with
  | accept h =>
      simp only [Server.acceptClient]
      split <;> exact htoken
  | gate h =>
      simp only [Server.passGate]
      split_ifs <;> exact htoken
  | handshake h =>
      simp only [Server.authenticate]
      split
      · exact htoken
      · split_ifs <;> exact htoken
  | beat h =>
      simp only [Server.takeBeat, Server.afterBeat]
      split_ifs <;> exact htoken
  | receive h =>
      simp only [Server.takePacket]
      split
      · exact htoken
      · split <;> exact htoken
  | cancelServer => rfl
  | cancelClient => exact htoken
  | elsewhere => exact htoken

theorem Server.acceptClient_thread (created : DateTime × DateTime) (entropy : Bytes) :
    (s.acceptClient P created entropy).thread ≠ .accepting := by
  simp only [Server.acceptClient]
  split <;> simp

/-- From `Accept` the thread gets away by accepting only. -/
theorem Stepped.accepting {r : Server × List Output} (h : Stepped P s e r)
    (hthread : s.thread = .accepting) (hnobody : NobodyBefore s e) :
    r.1.thread = .accepting ∨ r.1.serverToken = true := by
  cases h with
  | accept h => exact Or.inr ((Stepped.accept h).serverToken (hnobody _ _ rfl hthread))
  | gate h => simp [hthread] at h
  | handshake h => simp [hthread] at h
  | beat h => simp [hthread] at h
  | receive h => simp [hthread] at h
  | cancelServer => exact Or.inr rfl
  | cancelClient => exact Or.inl hthread
  | elsewhere => exact Or.inl hthread

theorem Stepped.nobodyBefore {r : Server × List Output} (h : Stepped P s e r)
    (hnext : CanAccept r.1) : NobodyBefore s e := by
  rintro created entropy rfl hthread
  obtain rfl := Option.some.inj ((server_step_iff.2 h).symm.trans
    (server_step_iff.2 (.accept hthread)))
  by_contra htoken
  have hkept : (s.acceptClient P created entropy).serverToken = s.serverToken := by
    simp only [Server.acceptClient]
    split <;> rfl
  apply Server.acceptClient_thread created entropy
  apply hnext
  rw [hkept]
  simpa using htoken

theorem nobodyBefore_of_blocked (s : Server) (e : Event) (h : (server P).step s e = none) :
    NobodyBefore s e := by
  rintro created entropy rfl hthread
  rw [server_step_iff.2 (.accept hthread)] at h
  exact absurd h (by simp)

/-- `Accept` can be taken again and again exactly if it never returns a client before
the server is told to stop. -/
theorem canAccept_iff (P : Platform) (self : Peer) (es : List Event) :
    (server P).Throughout (fun s _ => CanAccept s) (start self) es ↔
      (server P).Along NobodyBefore (start self) es := by
  apply Machine.throughout_iff_along (I := fun s _ => CanAccept s)
    (A := fun s _ => s.thread = .accepting ∨ s.serverToken = true) (h := [])
    nobodyBefore_of_blocked
  case hI => exact fun _ => rfl
  case hA => exact Or.inl rfl
  case hstep =>
    intro s os e t o _ haccepting hstep
    have hstepped : Stepped P s e (t, o) := server_step_iff.1 hstep
    have hkeeps : NobodyBefore s e → t.thread = .accepting ∨ t.serverToken = true := by
      intro hnobody
      rcases haccepting with hthread | htoken
      · exact hstepped.accepting hthread hnobody
      · exact Or.inr (hstepped.serverToken htoken)
    constructor
    · constructor
      · exact hstepped.nobodyBefore
      · intro hnobody htoken
        rcases hkeeps hnobody with hthread | hcancelled
        · exact hthread
        · simp [htoken] at hcancelled
    · exact hkeeps

/-- While the first client is served the thread is in its handler. -/
theorem not_canAccept :
    ¬ ∀ (P : Platform) (self : Peer) (es : List Event),
        (server P).Throughout (fun s _ => CanAccept s) (start self) es := by
  intro halways
  have h := (halways Reference.reference { peerId := .empty } [acceptNow]).last rfl rfl
  exact absurd h (by decide)

end BaseTCPServer

end NETConnect
