import NETConnect.Handshake.Phases
import NETConnect.Seen
/-!
# The turns of the first connection

What a step of one end does to the channels of the first connection while nothing is
wrong with it: the message that the end waits for comes closer, or is read, and
everything else is passed over.
-/

namespace NETConnect

open Lib SocketExtensions

namespace Session

/-! ## Events -/

/-- The sockets work, and nobody gives the first connection up. -/
def Healthy : Event → Prop
  | .server (.handshake io received) => io.alive = true ∧ ∃ f, received = .packet f
  | .server (.cancelClient c) => c ≠ 0
  | .client c (.gate io _) => c = 0 → io.alive = true
  | .client c (.handshake io received) => c = 0 → io.alive = true ∧ ∃ f, received = .packet f
  | .client c .cancel => c ≠ 0
  | _ => True

/-- The thread of the end stands where only it can go on, and it can. -/
def CanGoOn : End → Session → Prop
  | .server, s =>
      match s.server.thread with
      | .accepting => s.server.accepted < s.connected
      | .head _ => True
      | .authenticating c => s.toServer c ≠ []
      | _ => False
  | .client, s =>
      match (s.clients 0).thread with
      | .head => 0 < s.connected
      | .authenticating => s.toClient 0 ≠ []
      | _ => False

/-- It does: a connection is accepted, the flags are looked at, or what has come first
is read. -/
def GoesOn : End → Session → Event → Prop
  | .server, _, .server (.accept _ _) => True
  | .server, _, .server .gate => True
  | .server, s, .server (.handshake _ (.packet f)) =>
      ∃ c, s.server.thread.serving = some c ∧ (s.toServer c).head? = some f
  | .client, _, .client 0 (.gate _ _) => True
  | .client, s, .client 0 (.handshake _ (.packet f)) => (s.toClient 0).head? = some f
  | _, _, _ => False

/-! ## What is said -/

/-- The frame that an output puts on the first connection. -/
def Output.onFirst : Output → Option Frame
  | .server o => o.sentOn 0
  | .client c o => if c = 0 then o.sentFrame else none

/-- The messages of a handshake among some frames. -/
def messages (fs : List Frame) : List PacketActionType :=
  (fs.map fun f => f.header.packetAction).filter fun action => decide action.IsHandshake

/-- The handshake on the first connection, as far as it was observed. -/
def said (os : List Output) : List PacketActionType := messages (os.filterMap Output.onFirst)

def script : List PacketActionType := [.syn, .synAck, .ack, .ack, .ready, .ready]

theorem messages_append (fs gs : List Frame) :
    messages (fs ++ gs) = messages fs ++ messages gs := by
  rw [messages, List.map_append, List.filter_append]
  rfl

theorem said_append (os os' : List Output) : said (os ++ os') = said os ++ said os' := by
  rw [said, List.filterMap_append, messages_append]
  rfl

theorem said_server (o : List BaseTCPServer.Output) :
    said (o.map .server) = messages (o.filterMap (BaseTCPServer.Output.sentOn 0)) := by
  rw [said, List.filterMap_map]
  rfl

theorem said_client (o : List BaseTCPClient.Output) :
    said (o.map (.client 0)) = messages (o.filterMap BaseTCPClient.Output.sentFrame) := by
  rw [said, List.filterMap_map]
  rfl

theorem said_other {c : ConnId} (hc : c ≠ 0) (o : List BaseTCPClient.Output) :
    said (o.map (.client c)) = [] := by
  have hnone : o.filterMap (Output.onFirst ∘ Output.client c) = [] := by
    rw [List.filterMap_eq_nil_iff]
    intro x _
    simp [Output.onFirst, hc]
  rw [said, List.filterMap_map, hnone]
  rfl

theorem messages_of_clear {fs : List Frame} (h : Clear Frame.IsHandshake fs) :
    messages fs = [] := by
  rw [messages, List.filter_eq_nil_iff]
  intro action haction
  obtain ⟨f, hf, rfl⟩ := List.mem_map.1 haction
  have hother : ¬ f.header.packetAction.IsHandshake := h f hf
  simpa using hother

theorem messages_singleton {f : Frame} {action : PacketActionType}
    (haction : f.header.packetAction = action) (h : action.IsHandshake) :
    messages [f] = [action] := by
  simp [messages, haction, h]

/-! ## Reading -/

section Reading

variable {channel rest : List Frame} {f x : Frame} {ahead : Nat}

theorem not_isHandshake_nothing : ¬ Frame.nothing.IsHandshake := by
  unfold Frame.IsHandshake
  decide

theorem read_clear (hclear : Clear Frame.IsHandshake channel)
    (h : takeFrom channel (.packet f) = some rest) :
    ¬ f.IsHandshake ∧ Clear Frame.IsHandshake rest := by
  rcases takeFrom_packet h with rfl | ⟨rfl, rfl, -⟩
  · exact ⟨hclear f List.mem_cons_self, hclear.of_subset fun y hy => List.mem_cons_of_mem f hy⟩
  · exact ⟨not_isHandshake_nothing, hclear⟩

/-- The message is read, or what is read does not matter. -/
theorem read_pending (hpending : Pending Frame.IsHandshake x ahead channel)
    (h : takeFrom channel (.packet f) = some rest) :
    f = x ∧ Clear Frame.IsHandshake rest ∨
      ¬ f.IsHandshake ∧ ((∃ m < ahead, Pending Frame.IsHandshake x m rest) ∨
        Pending Frame.IsHandshake x ahead rest ∧ channel.head? ≠ some f) := by
  rcases takeFrom_packet h with rfl | ⟨rfl, rfl, hhead⟩
  · rcases hpending.read with ⟨rfl, hrest⟩ | ⟨hother, hcloser⟩
    · exact Or.inl ⟨rfl, hrest⟩
    · exact Or.inr ⟨hother, Or.inl hcloser⟩
  · exact Or.inr ⟨not_isHandshake_nothing, Or.inr ⟨hpending, hhead⟩⟩

end Reading

theorem takeTurn_of_isHandshake {M : Type}
    {handle : Option PeerSettings → Ambient → SecurityKey → Frame → Handled M} {f : Frame}
    (h : f.IsHandshake) (keys : SecurityKey) (settings : Option PeerSettings) (io : Ambient) :
    Authentication.takeTurn handle keys ⟨settings, io, .packet f⟩ = handle settings io keys f := by
  have hempty : f.header.packetAction ≠ .empty := by
    intro hempty
    rw [Frame.IsHandshake, hempty] at h
    exact absurd h (by decide)
  simp only [Authentication.takeTurn, if_neg hempty]

theorem takeTurn_of_not_isHandshake {M : Type}
    {handle : Option PeerSettings → Ambient → SecurityKey → Frame → Handled M} {f : Frame}
    {settings : Option PeerSettings} {io : Ambient} {keys : SecurityKey}
    (h : handle settings io keys f = ⟨keys, .ok (none, none)⟩) :
    Authentication.takeTurn handle keys ⟨settings, io, .packet f⟩ = ⟨keys, .ok (none, none)⟩ := by
  simp only [Authentication.takeTurn]
  split_ifs
  · rfl
  · exact h

/-! ## Steps of the server -/

section Server

variable {P : Platform} {s t : Session} {e : BaseTCPServer.Event}
  {o : List BaseTCPServer.Output} {localKeys : RSAExport} {key : Option Bytes} {x : Frame}
  {left ahead : Nat}

/-- The channels of the first connection as they were, and nothing sent. -/
structure Untouched (s t : Session) (o : List BaseTCPServer.Output) : Prop where
  toClient : t.toClient 0 = s.toClient 0
  sent : o.filterMap (BaseTCPServer.Output.sentOn 0) = []

theorem untouched_of_sent (h : s.stepServer P e = some (t, o))
    (hsent : o.filterMap (BaseTCPServer.Output.sentOn 0) = []) : Untouched s t o := by
  obtain ⟨-, -, -, -, htoClient, -, -⟩ := stepServer_spec h
  exact ⟨by rw [htoClient, hsent, List.append_nil], hsent⟩

theorem toServer_of_received_eq_none (h : s.stepServer P e = some (t, o))
    (hnone : e.received = none) (c : ConnId) : t.toServer c = s.toServer c := by
  obtain ⟨-, -, -, -, -, hserved, hother⟩ := stepServer_spec h
  by_cases hserving : s.server.thread.serving = some c
  · have hread := hserved c hserving
    rw [hnone] at hread
    exact (Option.some.inj hread).symm
  · exact hother c hserving

theorem goesOn_server_iff {io : Ambient} {f : Frame}
    (hserving : s.server.thread.serving = some 0) :
    GoesOn .server s (.server (.handshake io (.packet f))) ↔ (s.toServer 0).head? = some f := by
  simp [GoesOn, hserving]

theorem not_goesOn_server (hnone : e.received = none) (haccept : e.IsAccept = false)
    (hgate : e ≠ .gate) : ¬ GoesOn .server s (.server e) := by
  cases e with
  | accept created entropy => simp [BaseTCPServer.Event.IsAccept] at haccept
  | gate => exact absurd rfl hgate
  | handshake io received => simp [BaseTCPServer.Event.received] at hnone
  | beat clock isGracefulShutdown io others => exact id
  | receive io utcNow received => exact id
  | cancelServer => exact id
  | cancelClient c => exact id
  | elsewhere update hasOnPeerConnected isAudioRunning => exact id

theorem not_goesOn_client {e : BaseTCPClient.Event} (hnone : e.received = none)
    (hgate : ∀ io key, e ≠ .gate io key) : ¬ GoesOn .client s (.client 0 e) := by
  cases e with
  | gate io key => exact absurd rfl (hgate io key)
  | handshake io received => simp [BaseTCPClient.Event.received] at hnone
  | beat clock isGracefulShutdown io => exact id
  | receive io utcNow received => exact id
  | cancel => exact id
  | elsewhere settings => exact id

theorem serving_clear (hserving : BaseTCPServer.Serving P s.server localKeys key)
    (hclear : Clear Frame.IsHandshake (s.toServer 0)) (hhealthy : Healthy (.server e))
    (h : s.stepServer P e = some (t, o)) :
    BaseTCPServer.Serving P t.server localKeys key ∧ Clear Frame.IsHandshake (t.toServer 0) ∧
      Untouched s t o := by
  obtain ⟨hstepped, -, -, -, -, hserved, -⟩ := stepServer_spec h
  rcases hserving.step hstepped with ⟨hnothing, hnone, -, -, hnext⟩ | ⟨io, received, rfl, hturn⟩
  · obtain rfl : o = [] := hnothing
    rw [toServer_of_received_eq_none h hnone]
    exact ⟨hnext, hclear, untouched_of_sent h rfl⟩
  · obtain ⟨-, f, rfl⟩ := hhealthy
    have hread := hserved 0 (by rw [hserving.thread]; rfl)
    obtain ⟨hother, hrest⟩ := read_clear hclear hread
    obtain ⟨hsent, hgoes, -⟩ := hserving.turn io (.packet f)
      (takeTurn_of_not_isHandshake (BaseTCPServer.handle_other hother _))
    rw [← hturn] at hsent hgoes
    exact ⟨hgoes (by simp), hrest, untouched_of_sent h hsent⟩

/-- The server comes closer to the message, or reads it. -/
theorem serving_pending (hserving : BaseTCPServer.Serving P s.server localKeys key)
    (hpending : Pending Frame.IsHandshake x ahead (s.toServer 0))
    (hhealthy : Healthy (.server e)) (h : s.stepServer P e = some (t, o)) :
    (BaseTCPServer.Serving P t.server localKeys key ∧ Untouched s t o ∧
        ((∃ m < ahead, Pending Frame.IsHandshake x m (t.toServer 0)) ∨
          Pending Frame.IsHandshake x ahead (t.toServer 0) ∧ ¬ GoesOn .server s (.server e))) ∨
      ∃ io, io.alive = true ∧ (t.server, o) = s.server.authenticate P 0 io (.packet x) ∧
        Clear Frame.IsHandshake (t.toServer 0) ∧
        t.toClient 0 = s.toClient 0 ++ o.filterMap (BaseTCPServer.Output.sentOn 0) := by
  obtain ⟨hstepped, -, -, -, htoClient, hserved, -⟩ := stepServer_spec h
  have hzero : s.server.thread.serving = some 0 := by rw [hserving.thread]; rfl
  rcases hserving.step hstepped with ⟨hnothing, hnone, haccept, hgate, hnext⟩ |
    ⟨io, received, rfl, hturn⟩
  · obtain rfl : o = [] := hnothing
    rw [toServer_of_received_eq_none h hnone]
    refine Or.inl ⟨hnext, untouched_of_sent h rfl, Or.inr ⟨hpending, ?_⟩⟩
    exact not_goesOn_server hnone haccept hgate
  · obtain ⟨halive, f, rfl⟩ := hhealthy
    rcases read_pending hpending (hserved 0 hzero) with ⟨rfl, hrest⟩ | ⟨hother, hcloser⟩
    · exact Or.inr ⟨io, halive, hturn, hrest, htoClient 0⟩
    · obtain ⟨hsent, hgoes, -⟩ := hserving.turn io (.packet f)
        (takeTurn_of_not_isHandshake (BaseTCPServer.handle_other hother _))
      rw [← hturn] at hsent hgoes
      refine Or.inl ⟨hgoes (by simp), untouched_of_sent h hsent, ?_⟩
      rwa [goesOn_server_iff hzero]

theorem awaiting_clear (works : P.Works)
    (hawaiting : BaseTCPServer.Awaiting P s.server left)
    (hclear : Clear Frame.IsHandshake (s.toServer 0)) (hhealthy : Healthy (.server e))
    (h : s.stepServer P e = some (t, o)) :
    (∃ m ≤ left, BaseTCPServer.Awaiting P t.server m) ∧ Clear Frame.IsHandshake (t.toServer 0) ∧
      Untouched s t o := by
  cases left with
  | zero =>
      cases hawaiting with
      | reading hserving =>
          obtain ⟨hnext, hrest, huntouched⟩ := serving_clear hserving hclear hhealthy h
          exact ⟨⟨0, le_rfl, .reading hnext⟩, hrest, huntouched⟩
  | succ left =>
      have hkept : e ≠ .cancelClient 0 := by
        rintro rfl
        exact hhealthy rfl
      obtain ⟨hnothing, hnone, hnext⟩ := hawaiting.step works (stepServer_spec h).1 hkept
      obtain rfl : o = [] := hnothing
      rw [toServer_of_received_eq_none h hnone]
      refine ⟨?_, hclear, untouched_of_sent h rfl⟩
      rcases hnext with ⟨hnext, -, -⟩ | hnext
      · exact ⟨left + 1, le_rfl, hnext⟩
      · exact ⟨left, Nat.le_succ left, hnext⟩

theorem awaiting_pending (works : P.Works)
    (hawaiting : BaseTCPServer.Awaiting P s.server left)
    (hpending : Pending Frame.IsHandshake x ahead (s.toServer 0))
    (hhealthy : Healthy (.server e)) (h : s.stepServer P e = some (t, o)) :
    (∃ m n, BaseTCPServer.Awaiting P t.server m ∧
        Pending Frame.IsHandshake x n (t.toServer 0) ∧ Untouched s t o ∧
        (m + n < left + ahead ∨ m + n = left + ahead ∧ ¬ GoesOn .server s (.server e))) ∨
      ∃ localKeys io, BaseTCPServer.Serving P s.server localKeys none ∧ io.alive = true ∧
        (t.server, o) = s.server.authenticate P 0 io (.packet x) ∧
        Clear Frame.IsHandshake (t.toServer 0) ∧
        t.toClient 0 = s.toClient 0 ++ o.filterMap (BaseTCPServer.Output.sentOn 0) := by
  cases left with
  | zero =>
      cases hawaiting with
      | @reading localKeys hserving =>
          rcases serving_pending hserving hpending hhealthy h with
            ⟨hnext, huntouched, ⟨m, hm, hcloser⟩ | ⟨hsame, hstill⟩⟩ | ⟨io, halive, hturn, hrest⟩
          · exact Or.inl ⟨0, m, .reading hnext, hcloser, huntouched, Or.inl (by omega)⟩
          · exact Or.inl ⟨0, ahead, .reading hnext, hsame, huntouched, Or.inr ⟨rfl, hstill⟩⟩
          · exact Or.inr ⟨localKeys, io, hserving, halive, hturn, hrest⟩
  | succ left =>
      have hkept : e ≠ .cancelClient 0 := by
        rintro rfl
        exact hhealthy rfl
      obtain ⟨hnothing, hnone, hnext⟩ := hawaiting.step works (stepServer_spec h).1 hkept
      obtain rfl : o = [] := hnothing
      rw [toServer_of_received_eq_none h hnone]
      have huntouched := untouched_of_sent h rfl
      rcases hnext with ⟨hnext, haccept, hgate⟩ | hnext
      · refine Or.inl ⟨left + 1, ahead, hnext, hpending, huntouched, Or.inr ⟨rfl, ?_⟩⟩
        exact not_goesOn_server hnone haccept hgate
      · exact Or.inl ⟨left, ahead, hnext, hpending, huntouched, Or.inl (by omega)⟩

theorem served_clear {k : Bytes} (hserved : BaseTCPServer.Served s.server k)
    (hclear : Clear Frame.IsHandshake (s.toServer 0)) (h : s.stepServer P e = some (t, o)) :
    BaseTCPServer.Served t.server k ∧ Clear Frame.IsHandshake (t.toServer 0) ∧
      Clear Frame.IsHandshake (o.filterMap (BaseTCPServer.Output.sentOn 0)) ∧
      t.toClient 0 = s.toClient 0 ++ o.filterMap (BaseTCPServer.Output.sentOn 0) := by
  obtain ⟨hstepped, -, -, -, htoClient, -, -⟩ := stepServer_spec h
  obtain ⟨hnext, hsent⟩ := hserved.step hstepped
  exact ⟨hnext, hclear.of_subset (stepServer_subset h 0), hsent, htoClient 0⟩

end Server

/-! ## Steps of the client -/

section Client

variable {P : Platform} {s t : Session} {e : BaseTCPClient.Event}
  {o : List BaseTCPClient.Output} {key : RandomData 32} {x : Frame} {ahead : Nat}

theorem fresh_step (works : P.Works) (hfresh : BaseTCPClient.Fresh (s.clients 0))
    (hhealthy : Healthy (.client 0 e)) (h : s.stepClient P 0 e = some (t, o)) :
    t.toClient 0 = s.toClient 0 ∧
      (BaseTCPClient.Fresh (t.clients 0) ∧ o.filterMap BaseTCPClient.Output.sentFrame = [] ∧
          t.toServer 0 = s.toServer 0 ∧ ¬ GoesOn .client s (.client 0 e) ∨
        ∃ key g, BaseTCPClient.Authenticating (t.clients 0) key ∧
          o.filterMap BaseTCPClient.Output.sentFrame = [g] ∧ g.header.packetAction = .syn ∧
          (∃ peerId, P.guid.isValidJSONBytes g.packet = some peerId) ∧
          t.toServer 0 = s.toServer 0 ++ [g]) := by
  obtain ⟨hstepped, -, -, -, hread, hwrite⟩ := stepClient_spec h
  obtain ⟨hnone, hnext⟩ := hfresh.step works hstepped (fun he => by
    rw [he] at hhealthy
    exact hhealthy rfl) fun io key he => by
      rw [he] at hhealthy
      exact hhealthy rfl
  rw [hnone] at hread
  refine ⟨(Option.some.inj hread).symm, hnext.imp ?_ ?_⟩
  · rintro ⟨hsent, hnext, hgate⟩
    refine ⟨hnext, hsent, by rw [hwrite, hsent, List.append_nil], ?_⟩
    exact not_goesOn_client hnone hgate
  · rintro ⟨key, g, hnext, hsent, hsyn, hguid⟩
    exact ⟨key, g, hnext, hsent, hsyn, hguid, by rw [hwrite, hsent]⟩

theorem authenticating_clear (hauth : BaseTCPClient.Authenticating (s.clients 0) key)
    (hclear : Clear Frame.IsHandshake (s.toClient 0)) (hhealthy : Healthy (.client 0 e))
    (h : s.stepClient P 0 e = some (t, o)) :
    BaseTCPClient.Authenticating (t.clients 0) key ∧ Clear Frame.IsHandshake (t.toClient 0) ∧
      o.filterMap BaseTCPClient.Output.sentFrame = [] ∧ t.toServer 0 = s.toServer 0 := by
  obtain ⟨hstepped, -, -, -, hread, hwrite⟩ := stepClient_spec h
  rcases hauth.step hstepped with ⟨hnothing, hnone, -, hnext⟩ | ⟨io, received, rfl, hturn⟩
  · obtain rfl : o = [] := hnothing
    rw [hnone] at hread
    rw [← Option.some.inj hread]
    exact ⟨hnext, hclear, rfl, by rw [hwrite, List.filterMap_nil, List.append_nil]⟩
  · obtain ⟨-, f, rfl⟩ := hhealthy rfl
    obtain ⟨hother, hrest⟩ := read_clear hclear hread
    obtain ⟨hsent, hgoes, -⟩ := hauth.turn io (.packet f)
      (takeTurn_of_not_isHandshake (BaseTCPClient.handle_other (P := P) hother _)) hauth.key
    rw [← hturn] at hsent hgoes
    exact ⟨hgoes (by simp), hrest, hsent, by rw [hwrite, hsent, Option.toList_none,
      List.append_nil]⟩

theorem authenticating_pending (hauth : BaseTCPClient.Authenticating (s.clients 0) key)
    (hpending : Pending Frame.IsHandshake x ahead (s.toClient 0))
    (hhealthy : Healthy (.client 0 e)) (h : s.stepClient P 0 e = some (t, o)) :
    (BaseTCPClient.Authenticating (t.clients 0) key ∧
        o.filterMap BaseTCPClient.Output.sentFrame = [] ∧ t.toServer 0 = s.toServer 0 ∧
        ((∃ m < ahead, Pending Frame.IsHandshake x m (t.toClient 0)) ∨
          Pending Frame.IsHandshake x ahead (t.toClient 0) ∧ ¬ GoesOn .client s (.client 0 e))) ∨
      ∃ io, io.alive = true ∧ (t.clients 0, o) = (s.clients 0).authenticate P io (.packet x) ∧
        Clear Frame.IsHandshake (t.toClient 0) ∧
        t.toServer 0 = s.toServer 0 ++ o.filterMap BaseTCPClient.Output.sentFrame := by
  obtain ⟨hstepped, -, -, -, hread, hwrite⟩ := stepClient_spec h
  rcases hauth.step hstepped with ⟨hnothing, hnone, hgate, hnext⟩ | ⟨io, received, rfl, hturn⟩
  · obtain rfl : o = [] := hnothing
    rw [hnone] at hread
    rw [← Option.some.inj hread]
    refine Or.inl ⟨hnext, rfl, by rw [hwrite, List.filterMap_nil, List.append_nil],
      Or.inr ⟨hpending, ?_⟩⟩
    exact not_goesOn_client hnone hgate
  · obtain ⟨halive, f, rfl⟩ := hhealthy rfl
    rcases read_pending hpending hread with ⟨rfl, hrest⟩ | ⟨hother, hcloser⟩
    · exact Or.inr ⟨io, halive, hturn, hrest, hwrite⟩
    · obtain ⟨hsent, hgoes, -⟩ := hauth.turn io (.packet f)
        (takeTurn_of_not_isHandshake (BaseTCPClient.handle_other (P := P) hother _)) hauth.key
      rw [← hturn] at hsent hgoes
      exact Or.inl ⟨hgoes (by simp), hsent, by rw [hwrite, hsent, Option.toList_none,
        List.append_nil], hcloser⟩

theorem done_clear (hdone : BaseTCPClient.Done (s.clients 0) key)
    (hclear : Clear Frame.IsHandshake (s.toClient 0)) (h : s.stepClient P 0 e = some (t, o)) :
    BaseTCPClient.Done (t.clients 0) key ∧ Clear Frame.IsHandshake (t.toClient 0) ∧
      Clear Frame.IsHandshake (o.filterMap BaseTCPClient.Output.sentFrame) ∧
      t.toServer 0 = s.toServer 0 ++ o.filterMap BaseTCPClient.Output.sentFrame := by
  obtain ⟨hstepped, -, -, -, hread, hwrite⟩ := stepClient_spec h
  obtain ⟨hnext, hsent⟩ := hdone.step hstepped
  exact ⟨hnext, hclear.of_subset (readFrom_subset hread), hsent, hwrite⟩

end Client

end Session

end NETConnect
