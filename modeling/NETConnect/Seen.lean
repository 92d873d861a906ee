import NETConnect.KeyAgreement
/-!
# A step, seen from one connection

A step of a session is one of the server or of a client, or another thread sends; for
each connection it is a step of one of its ends, or none of its business.
-/

namespace NETConnect

open Lib SocketExtensions

namespace Session

variable {P : Platform} {s t : Session} {c : ConnId}

theorem takeFrom_packet {channel rest : List Frame} {f : Frame}
    (h : takeFrom channel (.packet f) = some rest) :
    channel = f :: rest ∨ f = .nothing ∧ rest = channel ∧ channel.head? ≠ some f := by
  cases channel with
  | nil =>
      simp only [takeFrom] at h
      split_ifs at h with hnothing
      obtain rfl := Option.some.inj h
      exact Or.inr ⟨hnothing, rfl, by simp⟩
  | cons g rest' =>
      simp only [takeFrom] at h
      split_ifs at h with hhead hnothing
      · obtain rfl := Option.some.inj h
        exact Or.inl (by rw [hhead])
      · obtain rfl := Option.some.inj h
        exact Or.inr ⟨hnothing, rfl, by simpa [eq_comm] using hhead⟩

/-- A step has taken a frame from a channel, or none. -/
structure Takes (channel rest : List Frame) (received : Option Received) (taken : Option Frame) :
    Prop where
  channel_eq : channel = taken.toList ++ rest
  received_eq : ∀ f, taken = some f → received = some (.packet f)
  taken_or : ∀ f, received = some (.packet f) → taken = some f ∨ f = .nothing

theorem exists_takes {channel rest : List Frame} {received : Option Received}
    (h : readFrom channel received = some rest) : ∃ taken, Takes channel rest received taken := by
  match received, h with
  | none, h => exact ⟨none, Option.some.inj h, by simp, by simp⟩
  | some (.threw _), h => exact ⟨none, Option.some.inj h, by simp, by simp⟩
  | some (.packet f), h =>
      rcases takeFrom_packet h with rfl | ⟨rfl, rfl, -⟩
      · exact ⟨some f, rfl, by simp, by simp⟩
      · exact ⟨none, rfl, by simp, by simp⟩

/-! ## The ends -/

inductive End
  | server
  | client
  deriving DecidableEq

/-- What can be observed at an end of a connection. -/
def Output.observed {α : Type} (server : ConnId → BaseTCPServer.Output → Option α)
    (client : BaseTCPClient.Output → Option α) : End → ConnId → Output → Option α
  | .server, c, .server o => server c o
  | .client, c, .client c' o => if c' = c then client o else none
  | _, _, _ => none

section Observed

variable {α : Type} {server : ConnId → BaseTCPServer.Output → Option α}
  {client : BaseTCPClient.Output → Option α} {x : End}

theorem observed_server (o : List BaseTCPServer.Output) :
    (o.map .server).filterMap (Output.observed server client x c) = match x with
      | .server => o.filterMap (server c)
      | .client => [] := by
  rw [List.filterMap_map]
  cases x with
  | server => rfl
  | client => exact List.filterMap_eq_nil_iff.2 fun _ _ => rfl

theorem observed_client (o : List BaseTCPClient.Output) :
    (o.map (.client c)).filterMap (Output.observed server client x c) = match x with
      | .server => []
      | .client => o.filterMap client := by
  rw [List.filterMap_map]
  cases x with
  | server => exact List.filterMap_eq_nil_iff.2 fun _ _ => rfl
  | client => exact List.filterMap_congr fun _ _ => if_pos rfl

theorem observed_elsewhere {o : List Output}
    (h : ∀ z ∈ o, ∃ c' y, c' ≠ c ∧ z = .client c' y) :
    o.filterMap (Output.observed server client x c) = [] := by
  refine List.filterMap_eq_nil_iff.2 fun z hz => ?_
  obtain ⟨c', y, hne, rfl⟩ := h z hz
  cases x with
  | server => rfl
  | client => exact if_neg hne

end Observed

/-! ## Steps -/

/-- What a step is for connection `c`. -/
inductive Seen (P : Platform) (c : ConnId) (s t : Session) : Event → List Output → Prop
  | made {peerId settings created} (number : c = s.connected)
      (next : t = s.connect peerId settings created) :
      Seen P c s t (.connect peerId settings created) []
  | server {e o} (stepped : BaseTCPServer.Stepped P s.server e (t.server, o))
      (clients : t.clients = s.clients)
      (reads : ∃ taken, Takes (s.toServer c) (t.toServer c)
        (if s.server.thread.serving = some c then e.received else none) taken)
      (writes : t.toClient c = s.toClient c ++ o.filterMap (BaseTCPServer.Output.sentOn c)) :
      Seen P c s t (.server e) (o.map .server)
  | client {e o} (stepped : BaseTCPClient.Stepped P (s.clients c) e (t.clients c, o))
      (server : t.server = s.server)
      (reads : ∃ taken, Takes (s.toClient c) (t.toClient c) e.received taken)
      (writes : t.toServer c = s.toServer c ++ o.filterMap BaseTCPClient.Output.sentFrame) :
      Seen P c s t (.client c e) (o.map (.client c))
  | alsoToServer {f} (number : c < s.connected) (server : t.server = s.server)
      (clients : t.clients = s.clients) (toServer : t.toServer c = s.toServer c ++ [f])
      (toClient : t.toClient = s.toClient) (message : ¬ f.header.packetAction.IsHandshake) :
      Seen P c s t (.alsoToServer c f) []
  | alsoToClient {f} (number : c < s.connected) (server : t.server = s.server)
      (clients : t.clients = s.clients) (toServer : t.toServer = s.toServer)
      (toClient : t.toClient c = s.toClient c ++ [f])
      (message : ¬ f.header.packetAction.IsHandshake) : Seen P c s t (.alsoToClient c f) []
  /-- it happens on another connection -/
  | elsewhere {e o} (server : t.server = s.server) (link : t.link c = s.link c)
      (silent : ∀ x ∈ o, ∃ c' y, c' ≠ c ∧ x = .client c' y) : Seen P c s t e o

theorem seen_of_step {e : Event} {o : List Output} (h : (session P).step s e = some (t, o))
    (c : ConnId) : Seen P c s t e o := by
  cases e with
  | connect peerId settings created =>
      obtain ⟨rfl, rfl⟩ := Prod.mk.inj (Option.some.inj h)
      rcases eq_or_ne c s.connected with rfl | hne
      · exact .made rfl rfl
      · refine .elsewhere rfl ?_ (by simp)
        simp only [link, connect, Function.update_of_ne hne]
  | server e =>
      obtain ⟨⟨t', o'⟩, hserver, hr⟩ := Option.map_eq_some_iff.1 h
      obtain ⟨rfl, rfl⟩ := Prod.mk.inj hr
      obtain ⟨hstepped, -, hclients, -, hwrites, hserved, hother⟩ := stepServer_spec hserver
      refine .server hstepped hclients ?_ (hwrites c)
      split_ifs with hserving
      · exact exists_takes (hserved c hserving)
      · exact ⟨none, (hother c hserving).symm, by simp, by simp⟩
  | client c' e =>
      simp only [session] at h
      split_ifs at h
      obtain ⟨⟨t', o'⟩, hclient, hr⟩ := Option.map_eq_some_iff.1 h
      obtain ⟨rfl, rfl⟩ := Prod.mk.inj hr
      obtain ⟨hstepped, hother, hserver, -, hreads, hwrites⟩ := stepClient_spec hclient
      rcases eq_or_ne c c' with rfl | hne
      · exact .client hstepped hserver (exists_takes hreads) hwrites
      · refine .elsewhere hserver (hother c hne) fun x hx => ?_
        obtain ⟨y, -, rfl⟩ := List.mem_map.1 hx
        exact ⟨c', y, hne.symm, rfl⟩
  | alsoToServer c' f =>
      simp only [session] at h
      split_ifs at h with hcond
      obtain ⟨rfl, rfl⟩ := Prod.mk.inj (Option.some.inj h)
      rcases eq_or_ne c c' with rfl | hne
      · exact .alsoToServer hcond.1 rfl rfl (Function.update_self ..) rfl hcond.2
      · refine .elsewhere rfl ?_ (by simp)
        simp only [link, Function.update_of_ne hne]
  | alsoToClient c' f =>
      simp only [session] at h
      split_ifs at h with hcond
      obtain ⟨rfl, rfl⟩ := Prod.mk.inj (Option.some.inj h)
      rcases eq_or_ne c c' with rfl | hne
      · exact .alsoToClient hcond.1 rfl rfl rfl (Function.update_self ..) hcond.2
      · refine .elsewhere rfl ?_ (by simp)
        simp only [link, Function.update_of_ne hne]

theorem connected_le_of_step {e : Event} {o : List Output}
    (h : (session P).step s e = some (t, o)) : s.connected ≤ t.connected := by
  cases e with
  | connect peerId settings created =>
      obtain ⟨rfl, -⟩ := Prod.mk.inj (Option.some.inj h)
      exact Nat.le_succ s.connected
  | server e =>
      obtain ⟨⟨t', o'⟩, hserver, hr⟩ := Option.map_eq_some_iff.1 h
      obtain ⟨rfl, -⟩ := Prod.mk.inj hr
      obtain ⟨-, -, -, hconnected, -, -, -⟩ := stepServer_spec hserver
      exact hconnected.ge
  | client c' e =>
      simp only [session] at h
      split_ifs at h
      obtain ⟨⟨t', o'⟩, hclient, hr⟩ := Option.map_eq_some_iff.1 h
      obtain ⟨rfl, -⟩ := Prod.mk.inj hr
      obtain ⟨-, -, -, hconnected, -, -⟩ := stepClient_spec hclient
      exact hconnected.ge
  | alsoToServer c' f | alsoToClient c' f =>
      simp only [session] at h
      split_ifs at h
      obtain ⟨rfl, -⟩ := Prod.mk.inj (Option.some.inj h)
      exact le_rfl

end Session

end NETConnect
