import NETConnect.Handshake.Turns
/-!
# The course of an undisturbed handshake

SYN, SYNAck, ACK, ACK, Ready, Ready: at each moment at most one of the six messages is
under way on the first connection, and one of the ends is to go on.  What the other
threads and the other clients do changes nothing.
-/

namespace NETConnect

open Lib SocketExtensions

namespace Session

/-! ## The stages -/

/-- How many messages are to be read still, and how many turns the end that is to read the
next one is away from it. -/
inductive Course (P : Platform) (server : BaseTCPServer.Server) (client : BaseTCPClient.Client)
    (toServer toClient : List Frame) : Nat → Nat → Prop
  | beginning {left : Nat} (hserver : BaseTCPServer.Awaiting P server left)
      (hclient : BaseTCPClient.Fresh client) (htoServer : Clear Frame.IsHandshake toServer)
      (htoClient : Clear Frame.IsHandshake toClient) :
      Course P server client toServer toClient 7 left
  | syn {key : RandomData 32} {left ahead : Nat} {f : Frame}
      (hserver : BaseTCPServer.Awaiting P server left)
      (hclient : BaseTCPClient.Authenticating client key)
      (haction : f.header.packetAction = .syn)
      (hguid : ∃ peerId, P.guid.isValidJSONBytes f.packet = some peerId)
      (htoServer : Pending Frame.IsHandshake f ahead toServer)
      (htoClient : Clear Frame.IsHandshake toClient) :
      Course P server client toServer toClient 6 (left + ahead)
  | synAck {key : RandomData 32} {localKeys : RSAExport} {ahead : Nat} {f : Frame}
      (hserver : BaseTCPServer.Serving P server localKeys none)
      (hclient : BaseTCPClient.Authenticating client key)
      (haction : f.header.packetAction = .synAck)
      (hpacket : f.packet = BaseTCPServer.publicKeyText P localKeys)
      (htoServer : Clear Frame.IsHandshake toServer)
      (htoClient : Pending Frame.IsHandshake f ahead toClient) :
      Course P server client toServer toClient 5 ahead
  | clientAck {key : RandomData 32} {localKeys : RSAExport} {ahead : Nat} {f : Frame}
      (hserver : BaseTCPServer.Serving P server localKeys none)
      (hclient : BaseTCPClient.Authenticating client key)
      (haction : f.header.packetAction = .ack) (hbrings : Brings P localKeys.privateKey key f)
      (htoServer : Pending Frame.IsHandshake f ahead toServer)
      (htoClient : Clear Frame.IsHandshake toClient) :
      Course P server client toServer toClient 4 ahead
  | serverAck {key : RandomData 32} {localKeys : RSAExport} {ahead : Nat} {f : Frame}
      (hserver : BaseTCPServer.Serving P server localKeys (some key.1))
      (hclient : BaseTCPClient.Authenticating client key)
      (haction : f.header.packetAction = .ack) (hbrings : Brings P key.1 key f)
      (htoServer : Clear Frame.IsHandshake toServer)
      (htoClient : Pending Frame.IsHandshake f ahead toClient) :
      Course P server client toServer toClient 3 ahead
  | clientReady {key : RandomData 32} {localKeys : RSAExport} {ahead : Nat} {f : Frame}
      (hserver : BaseTCPServer.Serving P server localKeys (some key.1))
      (hclient : BaseTCPClient.Authenticating client key)
      (haction : f.header.packetAction = .ready)
      (htoServer : Pending Frame.IsHandshake f ahead toServer)
      (htoClient : Clear Frame.IsHandshake toClient) :
      Course P server client toServer toClient 2 ahead
  | serverReady {key : RandomData 32} {ahead : Nat} {f : Frame}
      (hserver : BaseTCPServer.Served server key.1)
      (hclient : BaseTCPClient.Authenticating client key)
      (haction : f.header.packetAction = .ready)
      (htoServer : Clear Frame.IsHandshake toServer)
      (htoClient : Pending Frame.IsHandshake f ahead toClient) :
      Course P server client toServer toClient 1 ahead
  | done {key : RandomData 32} (hserver : BaseTCPServer.Served server key.1)
      (hclient : BaseTCPClient.Done client key) (htoServer : Clear Frame.IsHandshake toServer)
      (htoClient : Clear Frame.IsHandshake toClient) :
      Course P server client toServer toClient 0 0

/-- The end that is to go on. -/
def agent (remaining : Nat) : End := if remaining % 2 = 0 then .server else .client

variable {P : Platform} {s t : Session} {remaining ahead : Nat}

/-- The course of the first connection. -/
def OnCourse (P : Platform) (s : Session) (remaining ahead : Nat) : Prop :=
  Course P s.server (s.clients 0) (s.toServer 0) (s.toClient 0) remaining ahead

theorem Course.append {server : BaseTCPServer.Server} {client : BaseTCPClient.Client}
    {toServer toClient more more' : List Frame}
    (h : Course P server client toServer toClient remaining ahead)
    (hmore : Clear Frame.IsHandshake more) (hmore' : Clear Frame.IsHandshake more') :
    Course P server client (toServer ++ more) (toClient ++ more') remaining ahead := by
  cases h with
  | beginning hserver hclient htoServer htoClient =>
      exact .beginning hserver hclient (htoServer.append hmore) (htoClient.append hmore')
  | syn hserver hclient haction hguid htoServer htoClient =>
      exact .syn hserver hclient haction hguid (htoServer.append hmore) (htoClient.append hmore')
  | synAck hserver hclient haction hpacket htoServer htoClient =>
      exact .synAck hserver hclient haction hpacket (htoServer.append hmore)
        (htoClient.append hmore')
  | clientAck hserver hclient haction hbrings htoServer htoClient =>
      exact .clientAck hserver hclient haction hbrings (htoServer.append hmore)
        (htoClient.append hmore')
  | serverAck hserver hclient haction hbrings htoServer htoClient =>
      exact .serverAck hserver hclient haction hbrings (htoServer.append hmore)
        (htoClient.append hmore')
  | clientReady hserver hclient haction htoServer htoClient =>
      exact .clientReady hserver hclient haction (htoServer.append hmore) (htoClient.append hmore')
  | serverReady hserver hclient haction htoServer htoClient =>
      exact .serverReady hserver hclient haction (htoServer.append hmore) (htoClient.append hmore')
  | done hserver hclient htoServer htoClient =>
      exact .done hserver hclient (htoServer.append hmore) (htoClient.append hmore')

/-- What a step does to the course: it stays and the agent has not gone on, or it comes
closer to the next message, or the message is read and answered. -/
inductive Follows (P : Platform) (s : Session) (remaining ahead : Nat) (e : Event) (t : Session)
    (spoken : List PacketActionType) : Prop
  | waits (course : OnCourse P t remaining ahead) (silent : spoken = [])
      (still : remaining ≠ 0 → ¬ GoesOn (agent remaining) s e)
  | nears {ahead' : Nat} (course : OnCourse P t remaining ahead') (lt : ahead' < ahead)
      (silent : spoken = [])
  | speaks {remaining' ahead' : Nat} (next : remaining = remaining' + 1)
      (course : OnCourse P t remaining' ahead')
      (said : spoken = (script.drop (6 - remaining')).take 1)

theorem Follows.of_le {e : Event} {spoken : List PacketActionType} {ahead' : Nat}
    (hcourse : OnCourse P t remaining ahead') (hle : ahead' ≤ ahead) (hsilent : spoken = [])
    (hstill : remaining ≠ 0 → ¬ GoesOn (agent remaining) s e) :
    Follows P s remaining ahead e t spoken := by
  rcases Nat.lt_or_eq_of_le hle with hlt | rfl
  · exact .nears hcourse hlt hsilent
  · exact .waits hcourse hsilent hstill

theorem Follows.of_pending {e : Event} {spoken : List PacketActionType} {f : Frame}
    {channel : List Frame}
    (hcourse : ∀ n, Pending Frame.IsHandshake f n channel → OnCourse P t remaining n)
    (hcloser : (∃ m < ahead, Pending Frame.IsHandshake f m channel) ∨
      Pending Frame.IsHandshake f ahead channel ∧ ¬ GoesOn (agent remaining) s e)
    (hsilent : spoken = []) : Follows P s remaining ahead e t spoken := by
  rcases hcloser with ⟨m, hlt, hpending⟩ | ⟨hpending, hstill⟩
  · exact .nears (hcourse m hpending) hlt hsilent
  · exact .waits (hcourse _ hpending) hsilent fun _ => hstill

theorem not_goesOn_client_server (e : BaseTCPServer.Event) : ¬ GoesOn .client s (.server e) := id

theorem not_goesOn_server_client (c : ConnId) (e : BaseTCPClient.Event) :
    ¬ GoesOn .server s (.client c e) := id

/-! ## Steps of the server -/

section Server

variable {e : BaseTCPServer.Event} {o : List BaseTCPServer.Output} {client : BaseTCPClient.Client}

theorem Untouched.silent (h : Untouched s t o) :
    messages (o.filterMap (BaseTCPServer.Output.sentOn 0)) = [] := by
  rw [h.sent]
  rfl

theorem answered {handled : BaseTCPServer.Server × List BaseTCPServer.Output}
    (hturn : (t.server, o) = handled) {g : Frame}
    (hsent : handled.2.filterMap (BaseTCPServer.Output.sentOn 0) = (some g).toList)
    {action : PacketActionType} (haction : g.header.packetAction = action)
    (hhandshake : action.IsHandshake) (hclear : Clear Frame.IsHandshake (s.toClient 0))
    (htoClient : t.toClient 0 = s.toClient 0 ++ o.filterMap (BaseTCPServer.Output.sentOn 0)) :
    Pending Frame.IsHandshake g (s.toClient 0).length (t.toClient 0) ∧
      messages (o.filterMap (BaseTCPServer.Output.sentOn 0)) = [action] := by
  obtain rfl := hturn
  rw [htoClient, hsent]
  exact ⟨hclear.push g, messages_singleton haction hhandshake⟩

theorem Follows.while_client {spoken : List PacketActionType} {ahead' : Nat}
    (hagent : agent remaining = .client) (hcourse : OnCourse P t remaining ahead')
    (hle : ahead' ≤ ahead) (hsilent : spoken = []) :
    Follows P s remaining ahead (.server e) t spoken := by
  refine .of_le hcourse hle hsilent fun _ => ?_
  rw [hagent]
  exact not_goesOn_client_server e

section Stages

variable {key : RandomData 32} {localKeys : RSAExport} {left : Nat} {f : Frame}
  (works : P.Works) (hhealthy : Healthy (.server e)) (hstep : s.stepServer P e = some (t, o))

include hstep in
theorem clients_of_stepServer : t.clients 0 = s.clients 0 :=
  congrFun (stepServer_spec hstep).2.2.1 0

include works hhealthy hstep in
theorem follows_syn (hserver : BaseTCPServer.Awaiting P s.server left)
    (hclient : BaseTCPClient.Authenticating (s.clients 0) key)
    (haction : f.header.packetAction = .syn)
    (hguid : ∃ peerId, P.guid.isValidJSONBytes f.packet = some peerId)
    (htoServer : Pending Frame.IsHandshake f ahead (s.toServer 0))
    (htoClient : Clear Frame.IsHandshake (s.toClient 0)) :
    Follows P s 6 (left + ahead) (.server e) t
      (messages (o.filterMap (BaseTCPServer.Output.sentOn 0))) := by
  have hsame := clients_of_stepServer hstep
  rcases awaiting_pending works hserver htoServer hhealthy hstep with
    ⟨m, n, hnext, hrest, huntouched, hcloser⟩ |
    ⟨localKeys, io, hserving, halive, hturn, hrest, hwrite⟩
  · have hcourse : OnCourse P t 6 (m + n) := by
      rw [OnCourse, hsame, huntouched.toClient]
      exact .syn hnext hclient haction hguid hrest htoClient
    rcases hcloser with hlt | ⟨heq, hstill⟩
    · exact .nears hcourse hlt huntouched.silent
    · rw [heq] at hcourse
      exact .waits hcourse huntouched.silent fun _ => hstill
  · obtain ⟨peerId, hread⟩ := hguid
    obtain ⟨g, hhandle, haction', hpacket⟩ := BaseTCPServer.handle_syn
      s.server.self.settings none halive haction hread
    obtain ⟨hsent, hgoes, -⟩ := hserving.turn io (.packet f)
      ((takeTurn_of_isHandshake (Or.inl haction) _ _ _).trans hhandle)
    obtain ⟨hpending, hsaid⟩ := answered hturn hsent haction' (by decide) htoClient hwrite
    have hcourse : OnCourse P t 5 (s.toClient 0).length := by
      rw [OnCourse, hsame, show t.server = _ from congrArg Prod.fst hturn]
      exact .synAck (hgoes (by simp)) hclient haction' hpacket hrest hpending
    exact .speaks rfl hcourse hsaid

include works hhealthy hstep in
theorem follows_clientAck (hserver : BaseTCPServer.Serving P s.server localKeys none)
    (hclient : BaseTCPClient.Authenticating (s.clients 0) key)
    (haction : f.header.packetAction = .ack) (hbrings : Brings P localKeys.privateKey key f)
    (htoServer : Pending Frame.IsHandshake f ahead (s.toServer 0))
    (htoClient : Clear Frame.IsHandshake (s.toClient 0)) :
    Follows P s 4 ahead (.server e) t
      (messages (o.filterMap (BaseTCPServer.Output.sentOn 0))) := by
  have hsame := clients_of_stepServer hstep
  rcases serving_pending hserver htoServer hhealthy hstep with
    ⟨hnext, huntouched, hcloser⟩ | ⟨io, halive, hturn, hrest, hwrite⟩
  · refine .of_pending (fun n hrest => ?_) hcloser huntouched.silent
    rw [OnCourse, hsame, huntouched.toClient]
    exact .clientAck hnext hclient haction hbrings hrest htoClient
  · obtain ⟨g, hhandle, haction', hbrings'⟩ := BaseTCPServer.handle_ack
      works s.server.self.settings none halive haction hbrings
    obtain ⟨hsent, hgoes, -⟩ := hserver.turn io (.packet f)
      ((takeTurn_of_isHandshake (Or.inr (Or.inr (Or.inl haction))) _ _ _).trans hhandle)
    obtain ⟨hpending, hsaid⟩ := answered hturn hsent haction' (by decide) htoClient hwrite
    have hcourse : OnCourse P t 3 (s.toClient 0).length := by
      rw [OnCourse, hsame, show t.server = _ from congrArg Prod.fst hturn]
      exact .serverAck (hgoes (by simp)) hclient haction' hbrings' hrest hpending
    exact .speaks rfl hcourse hsaid

include hhealthy hstep in
theorem follows_clientReady (hserver : BaseTCPServer.Serving P s.server localKeys (some key.1))
    (hclient : BaseTCPClient.Authenticating (s.clients 0) key)
    (haction : f.header.packetAction = .ready)
    (htoServer : Pending Frame.IsHandshake f ahead (s.toServer 0))
    (htoClient : Clear Frame.IsHandshake (s.toClient 0)) :
    Follows P s 2 ahead (.server e) t
      (messages (o.filterMap (BaseTCPServer.Output.sentOn 0))) := by
  have hsame := clients_of_stepServer hstep
  rcases serving_pending hserver htoServer hhealthy hstep with
    ⟨hnext, huntouched, hcloser⟩ | ⟨io, halive, hturn, hrest, hwrite⟩
  · refine .of_pending (fun n hrest => ?_) hcloser huntouched.silent
    rw [OnCourse, hsame, huntouched.toClient]
    exact .clientReady hnext hclient haction hrest htoClient
  · obtain ⟨g, hhandle, haction'⟩ := BaseTCPServer.handle_ready P s.server.self.settings
      (BaseTCPServer.heldKeys localKeys (some key.1)) halive haction
    obtain ⟨hsent, -, hends⟩ := hserver.turn io (.packet f)
      ((takeTurn_of_isHandshake (Or.inr (Or.inr (Or.inr haction))) _ _ _).trans hhandle)
    obtain ⟨hpending, hsaid⟩ := answered hturn hsent haction' (by decide) htoClient hwrite
    have hcourse : OnCourse P t 1 (s.toClient 0).length := by
      rw [OnCourse, hsame, show t.server = _ from congrArg Prod.fst hturn]
      exact .serverReady (hends rfl key.1 rfl) hclient haction' hrest hpending
    exact .speaks rfl hcourse hsaid

end Stages

theorem follows_server (works : P.Works) (h : OnCourse P s remaining ahead)
    (hhealthy : Healthy (.server e)) (hstep : s.stepServer P e = some (t, o)) :
    Follows P s remaining ahead (.server e) t
      (messages (o.filterMap (BaseTCPServer.Output.sentOn 0))) := by
  have hsame := clients_of_stepServer hstep
  unfold OnCourse at h
  cases h with
  | beginning hserver hclient htoServer htoClient =>
      obtain ⟨⟨m, hm, hnext⟩, hrest, huntouched⟩ :=
        awaiting_clear works hserver htoServer hhealthy hstep
      refine .while_client rfl ?_ hm huntouched.silent
      rw [OnCourse, hsame, huntouched.toClient]
      exact .beginning hnext hclient hrest htoClient
  | syn hserver hclient haction hguid htoServer htoClient =>
      exact follows_syn works hhealthy hstep hserver hclient haction hguid htoServer htoClient
  | synAck hserver hclient haction hpacket htoServer htoClient =>
      obtain ⟨hnext, hrest, huntouched⟩ := serving_clear hserver htoServer hhealthy hstep
      refine .while_client rfl ?_ le_rfl huntouched.silent
      rw [OnCourse, hsame, huntouched.toClient]
      exact .synAck hnext hclient haction hpacket hrest htoClient
  | clientAck hserver hclient haction hbrings htoServer htoClient =>
      exact follows_clientAck works hhealthy hstep hserver hclient haction hbrings htoServer
        htoClient
  | serverAck hserver hclient haction hbrings htoServer htoClient =>
      obtain ⟨hnext, hrest, huntouched⟩ := serving_clear hserver htoServer hhealthy hstep
      refine .while_client rfl ?_ le_rfl huntouched.silent
      rw [OnCourse, hsame, huntouched.toClient]
      exact .serverAck hnext hclient haction hbrings hrest htoClient
  | clientReady hserver hclient haction htoServer htoClient =>
      exact follows_clientReady hhealthy hstep hserver hclient haction htoServer htoClient
  | serverReady hserver hclient haction htoServer htoClient =>
      obtain ⟨hnext, hrest, hsent, hwrite⟩ := served_clear hserver htoServer hstep
      refine .while_client rfl ?_ le_rfl (messages_of_clear hsent)
      rw [OnCourse, hsame, hwrite]
      exact .serverReady hnext hclient haction hrest (htoClient.append hsent)
  | done hserver hclient htoServer htoClient =>
      obtain ⟨hnext, hrest, hsent, hwrite⟩ := served_clear hserver htoServer hstep
      refine .of_le ?_ le_rfl (messages_of_clear hsent) (absurd rfl)
      rw [OnCourse, hsame, hwrite]
      exact .done hnext hclient hrest (htoClient.append hsent)

end Server

/-! ## Steps of the client -/

section Client

variable {e : BaseTCPClient.Event} {o : List BaseTCPClient.Output}

theorem answeredByClient {handled : BaseTCPClient.Client × List BaseTCPClient.Output}
    (hturn : (t.clients 0, o) = handled) {g : Frame}
    (hsent : handled.2.filterMap BaseTCPClient.Output.sentFrame = (some g).toList)
    {action : PacketActionType} (haction : g.header.packetAction = action)
    (hhandshake : action.IsHandshake) (hclear : Clear Frame.IsHandshake (s.toServer 0))
    (htoServer : t.toServer 0 = s.toServer 0 ++ o.filterMap BaseTCPClient.Output.sentFrame) :
    Pending Frame.IsHandshake g (s.toServer 0).length (t.toServer 0) ∧
      messages (o.filterMap BaseTCPClient.Output.sentFrame) = [action] := by
  obtain rfl := hturn
  rw [htoServer, hsent]
  exact ⟨hclear.push g, messages_singleton haction hhandshake⟩

theorem Follows.while_server {spoken : List PacketActionType}
    (hagent : agent remaining = .server) (hcourse : OnCourse P t remaining ahead)
    (hsilent : spoken = []) : Follows P s remaining ahead (.client 0 e) t spoken := by
  refine .of_le hcourse le_rfl hsilent fun _ => ?_
  rw [hagent]
  exact not_goesOn_server_client 0 e

theorem messages_of_nothing (h : o.filterMap BaseTCPClient.Output.sentFrame = []) :
    messages (o.filterMap BaseTCPClient.Output.sentFrame) = [] := by
  rw [h]
  rfl

section Stages

variable {key : RandomData 32} {localKeys : RSAExport} {f : Frame} (works : P.Works)
  (hhealthy : Healthy (.client 0 e)) (hstep : s.stepClient P 0 e = some (t, o))

include hstep in
theorem server_of_stepClient : t.server = s.server := (stepClient_spec hstep).2.2.1

include works hhealthy hstep in
theorem follows_beginning (hserver : BaseTCPServer.Awaiting P s.server ahead)
    (hclient : BaseTCPClient.Fresh (s.clients 0))
    (htoServer : Clear Frame.IsHandshake (s.toServer 0))
    (htoClient : Clear Frame.IsHandshake (s.toClient 0)) :
    Follows P s 7 ahead (.client 0 e) t
      (messages (o.filterMap BaseTCPClient.Output.sentFrame)) := by
  have hsame := server_of_stepClient hstep
  obtain ⟨htoClient', ⟨hnext, hsent, hwrite, hstill⟩ |
    ⟨key, g, hnext, hsent, hsyn, hguid, hwrite⟩⟩ := fresh_step works hclient hhealthy hstep
  · refine .waits ?_ (messages_of_nothing hsent) fun _ => hstill
    rw [OnCourse, hsame, htoClient', hwrite]
    exact .beginning hserver hnext htoServer htoClient
  · have hcourse : OnCourse P t 6 (ahead + (s.toServer 0).length) := by
      rw [OnCourse, hsame, htoClient', hwrite]
      exact .syn hserver hnext hsyn hguid (htoServer.push g) htoClient
    refine .speaks rfl hcourse ?_
    rw [hsent]
    exact messages_singleton hsyn (by decide)

include works hhealthy hstep in
theorem follows_synAck (hserver : BaseTCPServer.Serving P s.server localKeys none)
    (hclient : BaseTCPClient.Authenticating (s.clients 0) key)
    (haction : f.header.packetAction = .synAck)
    (hpacket : f.packet = BaseTCPServer.publicKeyText P localKeys)
    (htoServer : Clear Frame.IsHandshake (s.toServer 0))
    (htoClient : Pending Frame.IsHandshake f ahead (s.toClient 0)) :
    Follows P s 5 ahead (.client 0 e) t
      (messages (o.filterMap BaseTCPClient.Output.sentFrame)) := by
  have hsame := server_of_stepClient hstep
  rcases authenticating_pending hclient htoClient hhealthy hstep with
    ⟨hnext, hsent, hwrite, hcloser⟩ | ⟨io, halive, hturn, hrest, hwrite⟩
  · refine .of_pending (fun n hrest => ?_) hcloser (messages_of_nothing hsent)
    rw [OnCourse, hsame, hwrite]
    exact .synAck hserver hnext haction hpacket htoServer hrest
  · obtain ⟨entropy, hcreate⟩ := hserver.created
    obtain ⟨keys', g, hhandle, hkey, haction', hbrings⟩ := BaseTCPClient.handle_synAck
      works (s.clients 0).settings halive haction hcreate hpacket hclient.key
    obtain ⟨hsent, hgoes, -⟩ := hclient.turn io (.packet f)
      ((takeTurn_of_isHandshake (Or.inr (Or.inl haction)) _ _ _).trans hhandle) hkey
    obtain ⟨hpending, hsaid⟩ := answeredByClient hturn hsent haction' (by decide) htoServer hwrite
    have hcourse : OnCourse P t 4 (s.toServer 0).length := by
      rw [OnCourse, hsame, show t.clients 0 = _ from congrArg Prod.fst hturn]
      exact .clientAck hserver (hgoes (by simp)) haction' hbrings hpending hrest
    exact .speaks rfl hcourse hsaid

include hhealthy hstep in
theorem follows_serverAck (hserver : BaseTCPServer.Serving P s.server localKeys (some key.1))
    (hclient : BaseTCPClient.Authenticating (s.clients 0) key)
    (haction : f.header.packetAction = .ack) (hbrings : Brings P key.1 key f)
    (htoServer : Clear Frame.IsHandshake (s.toServer 0))
    (htoClient : Pending Frame.IsHandshake f ahead (s.toClient 0)) :
    Follows P s 3 ahead (.client 0 e) t
      (messages (o.filterMap BaseTCPClient.Output.sentFrame)) := by
  have hsame := server_of_stepClient hstep
  rcases authenticating_pending hclient htoClient hhealthy hstep with
    ⟨hnext, hsent, hwrite, hcloser⟩ | ⟨io, halive, hturn, hrest, hwrite⟩
  · refine .of_pending (fun n hrest => ?_) hcloser (messages_of_nothing hsent)
    rw [OnCourse, hsame, hwrite]
    exact .serverAck hserver hnext haction hbrings htoServer hrest
  · obtain ⟨g, hhandle, haction'⟩ := BaseTCPClient.handle_ack
      (s.clients 0).settings halive haction hclient.key hbrings
    obtain ⟨hsent, hgoes, -⟩ := hclient.turn io (.packet f)
      ((takeTurn_of_isHandshake (Or.inr (Or.inr (Or.inl haction))) _ _ _).trans hhandle)
      hclient.key
    obtain ⟨hpending, hsaid⟩ := answeredByClient hturn hsent haction' (by decide) htoServer hwrite
    have hcourse : OnCourse P t 2 (s.toServer 0).length := by
      rw [OnCourse, hsame, show t.clients 0 = _ from congrArg Prod.fst hturn]
      exact .clientReady hserver (hgoes (by simp)) haction' hpending hrest
    exact .speaks rfl hcourse hsaid

include hhealthy hstep in
theorem follows_serverReady (hserver : BaseTCPServer.Served s.server key.1)
    (hclient : BaseTCPClient.Authenticating (s.clients 0) key)
    (haction : f.header.packetAction = .ready)
    (htoServer : Clear Frame.IsHandshake (s.toServer 0))
    (htoClient : Pending Frame.IsHandshake f ahead (s.toClient 0)) :
    Follows P s 1 ahead (.client 0 e) t
      (messages (o.filterMap BaseTCPClient.Output.sentFrame)) := by
  have hsame := server_of_stepClient hstep
  rcases authenticating_pending hclient htoClient hhealthy hstep with
    ⟨hnext, hsent, hwrite, hcloser⟩ | ⟨io, halive, hturn, hrest, hwrite⟩
  · refine .of_pending (fun n hrest => ?_) hcloser (messages_of_nothing hsent)
    rw [OnCourse, hsame, hwrite]
    exact .serverReady hserver hnext haction htoServer hrest
  · obtain ⟨hsent, -, hends⟩ := hclient.turn io (.packet f)
      ((takeTurn_of_isHandshake (Or.inr (Or.inr (Or.inr haction))) _ _ _).trans
        (BaseTCPClient.handleAuthenticationPacket_ready P haction)) hclient.key
    have hout : o.filterMap BaseTCPClient.Output.sentFrame = [] := by
      rw [show o = _ from congrArg Prod.snd hturn, hsent]
      rfl
    have hcourse : OnCourse P t 0 0 := by
      rw [OnCourse, hsame, hwrite, hout, List.append_nil,
        show t.clients 0 = _ from congrArg Prod.fst hturn]
      exact .done hserver (hends rfl) htoServer hrest
    exact .speaks rfl hcourse (messages_of_nothing hout)

end Stages

theorem follows_client (works : P.Works) (h : OnCourse P s remaining ahead)
    (hhealthy : Healthy (.client 0 e)) (hstep : s.stepClient P 0 e = some (t, o)) :
    Follows P s remaining ahead (.client 0 e) t
      (messages (o.filterMap BaseTCPClient.Output.sentFrame)) := by
  have hsame := server_of_stepClient hstep
  unfold OnCourse at h
  cases h with
  | beginning hserver hclient htoServer htoClient =>
      exact follows_beginning works hhealthy hstep hserver hclient htoServer htoClient
  | syn hserver hclient haction hguid htoServer htoClient =>
      obtain ⟨hnext, hrest, hsent, hwrite⟩ :=
        authenticating_clear hclient htoClient hhealthy hstep
      refine .while_server rfl ?_ (messages_of_nothing hsent)
      rw [OnCourse, hsame, hwrite]
      exact .syn hserver hnext haction hguid htoServer hrest
  | synAck hserver hclient haction hpacket htoServer htoClient =>
      exact follows_synAck works hhealthy hstep hserver hclient haction hpacket htoServer htoClient
  | clientAck hserver hclient haction hbrings htoServer htoClient =>
      obtain ⟨hnext, hrest, hsent, hwrite⟩ :=
        authenticating_clear hclient htoClient hhealthy hstep
      refine .while_server rfl ?_ (messages_of_nothing hsent)
      rw [OnCourse, hsame, hwrite]
      exact .clientAck hserver hnext haction hbrings htoServer hrest
  | serverAck hserver hclient haction hbrings htoServer htoClient =>
      exact follows_serverAck hhealthy hstep hserver hclient haction hbrings htoServer htoClient
  | clientReady hserver hclient haction htoServer htoClient =>
      obtain ⟨hnext, hrest, hsent, hwrite⟩ :=
        authenticating_clear hclient htoClient hhealthy hstep
      refine .while_server rfl ?_ (messages_of_nothing hsent)
      rw [OnCourse, hsame, hwrite]
      exact .clientReady hserver hnext haction htoServer hrest
  | serverReady hserver hclient haction htoServer htoClient =>
      exact follows_serverReady hhealthy hstep hserver hclient haction htoServer htoClient
  | done hserver hclient htoServer htoClient =>
      obtain ⟨hnext, hrest, hsent, hwrite⟩ := done_clear hclient htoClient hstep
      refine .of_le ?_ le_rfl (messages_of_clear hsent) (absurd rfl)
      rw [OnCourse, hsame, hwrite]
      exact .done hserver hnext (htoServer.append hsent) hrest

end Client

/-! ## Steps of the session -/

theorem OnCourse.of_eq (h : OnCourse P s remaining ahead) (hserver : t.server = s.server)
    (hclient : t.clients 0 = s.clients 0) {more more' : List Frame}
    (hmore : Clear Frame.IsHandshake more) (hmore' : Clear Frame.IsHandshake more')
    (htoServer : t.toServer 0 = s.toServer 0 ++ more)
    (htoClient : t.toClient 0 = s.toClient 0 ++ more') : OnCourse P t remaining ahead := by
  rw [OnCourse, hserver, hclient, htoServer, htoClient]
  exact h.append hmore hmore'

theorem clear_nil : Clear Frame.IsHandshake [] := fun f hf => by simp at hf

theorem update_append (channels : ConnId → List Frame) (c : ConnId) {f : Frame}
    (hf : ¬ f.IsHandshake) :
    ∃ more, Clear Frame.IsHandshake more ∧
      Function.update channels c (channels c ++ [f]) 0 = channels 0 ++ more := by
  rcases eq_or_ne 0 c with rfl | hc
  · exact ⟨[f], fun g hg => by rwa [List.mem_singleton.1 hg], Function.update_self _ _ _⟩
  · exact ⟨[], clear_nil, by rw [Function.update_of_ne hc, List.append_nil]⟩

theorem not_goesOn_other {e : Event} (hserver : ∀ e', e ≠ .server e')
    (hclient : ∀ e', e ≠ .client 0 e') (i : End) : ¬ GoesOn i s e := by
  cases e with
  | server e' => exact absurd rfl (hserver e')
  | client c e' =>
      rcases eq_or_ne c 0 with rfl | hc
      · exact absurd rfl (hclient e')
      · cases i with
        | server => exact id
        | client => cases e' <;> cases c <;> first | exact id | exact absurd rfl hc
  | connect peerId settings created => cases i <;> exact id
  | alsoToServer c f => cases i <;> exact id
  | alsoToClient c f => cases i <;> exact id

theorem follows_of_step (works : P.Works) (hconnected : 0 < s.connected)
    (h : OnCourse P s remaining ahead) {e : Event} (hhealthy : Healthy e) {o : List Output}
    (hstep : (session P).step s e = some (t, o)) :
    0 < t.connected ∧ Follows P s remaining ahead e t (said o) := by
  refine ⟨hconnected.trans_le (connected_le_of_step hstep), ?_⟩
  cases e with
  | connect peerId settings created =>
      obtain ⟨rfl, rfl⟩ := Prod.mk.inj (Option.some.inj hstep)
      have hne : 0 ≠ s.connected := Nat.ne_of_lt hconnected
      refine .waits ?_ rfl fun _ => not_goesOn_other (by simp) (by simp) _
      refine h.of_eq rfl ?_ clear_nil clear_nil ?_ ?_
      all_goals simp [Session.connect, Function.update_of_ne hne]
  | server e =>
      obtain ⟨⟨t', o'⟩, hserver, hr⟩ := Option.map_eq_some_iff.1 hstep
      obtain ⟨rfl, rfl⟩ := Prod.mk.inj hr
      rw [said_server]
      exact follows_server works h hhealthy hserver
  | client c e =>
      simp only [session] at hstep
      split_ifs at hstep with hc
      obtain ⟨⟨t', o'⟩, hclient, hr⟩ := Option.map_eq_some_iff.1 hstep
      obtain ⟨rfl, rfl⟩ := Prod.mk.inj hr
      rcases eq_or_ne c 0 with rfl | hne
      · rw [said_client]
        exact follows_client works h hhealthy hclient
      · -- another client
        rw [said_other hne]
        obtain ⟨-, hother, hserver, -, -, -⟩ := stepClient_spec hclient
        have hlink := hother 0 (Ne.symm hne)
        refine .waits ?_ rfl fun _ => not_goesOn_other (by simp) (by simp [hne]) _
        refine h.of_eq hserver (congrArg Link.client hlink) clear_nil clear_nil ?_ ?_
        · rw [List.append_nil]
          exact congrArg Link.toServer hlink
        · rw [List.append_nil]
          exact congrArg Link.toClient hlink
  | alsoToServer c f =>
      simp only [session] at hstep
      split_ifs at hstep with hf
      obtain ⟨rfl, rfl⟩ := Prod.mk.inj (Option.some.inj hstep)
      obtain ⟨more, hmore, hwrite⟩ := update_append s.toServer c hf.2
      refine .waits ?_ rfl fun _ => not_goesOn_other (by simp) (by simp) _
      exact h.of_eq rfl rfl hmore clear_nil hwrite (List.append_nil _).symm
  | alsoToClient c f =>
      simp only [session] at hstep
      split_ifs at hstep with hf
      obtain ⟨rfl, rfl⟩ := Prod.mk.inj (Option.some.inj hstep)
      obtain ⟨more, hmore, hwrite⟩ := update_append s.toClient c hf.2
      refine .waits ?_ rfl fun _ => not_goesOn_other (by simp) (by simp) _
      exact h.of_eq rfl rfl clear_nil hmore (List.append_nil _).symm hwrite

/-- Until the end there is always one end that can go on. -/
theorem OnCourse.canGoOn (h : OnCourse P s remaining ahead) (hconnected : 0 < s.connected) :
    remaining = 0 ∨ CanGoOn (agent remaining) s := by
  unfold OnCourse at h
  cases h with
  | beginning hserver hclient htoServer htoClient =>
      right
      change CanGoOn .client s
      simp only [CanGoOn, hclient.thread]
      exact hconnected
  | syn hserver hclient haction hguid htoServer htoClient =>
      right
      change CanGoOn .server s
      cases hserver with
      | reading hserving =>
          simp only [CanGoOn, hserving.thread]
          exact htoServer.ne_nil
      | atHead thread => simp only [CanGoOn, thread]
      | accepting thread flags accepted =>
          simp only [CanGoOn, thread, accepted]
          exact hconnected
  | synAck hserver hclient haction hpacket htoServer htoClient =>
      right
      change CanGoOn .client s
      simp only [CanGoOn, hclient.thread]
      exact htoClient.ne_nil
  | clientAck hserver hclient haction hbrings htoServer htoClient =>
      right
      change CanGoOn .server s
      simp only [CanGoOn, hserver.thread]
      exact htoServer.ne_nil
  | serverAck hserver hclient haction hbrings htoServer htoClient =>
      right
      change CanGoOn .client s
      simp only [CanGoOn, hclient.thread]
      exact htoClient.ne_nil
  | clientReady hserver hclient haction htoServer htoClient =>
      right
      change CanGoOn .server s
      simp only [CanGoOn, hserver.thread]
      exact htoServer.ne_nil
  | serverReady hserver hclient haction htoServer htoClient =>
      right
      change CanGoOn .client s
      simp only [CanGoOn, hclient.thread]
      exact htoClient.ne_nil
  | done => exact Or.inl rfl

end Session

end NETConnect
