import NETConnect.Delivery
import NETConnect.Session
/-!
# What the server reads

A frame that is there is read in a handshake or by the receive loop.  Only the latter
raises anything, and whether it does depends on the frame and the session key.
-/

namespace NETConnect

open Lib SocketExtensions

/-! ## What a step of the server raises -/

namespace BaseTCPServer

variable {P : Platform} {s : Server} {c : ConnId}

/-- What is raised for a frame that the receive loop reads. -/
def opened (P : Platform) (keys : SecurityKey) (f : Frame) : List (PacketActionType × Bytes) :=
  match autoDecrypt P keys f with
  | .ok (some data) => [(f.header.packetAction, data)]
  | _ => []

theorem opened_of_eq_ok {keys : SecurityKey} {f : Frame} {data : Bytes}
    (h : autoDecrypt P keys f = .ok (some data)) :
    opened P keys f = [(f.header.packetAction, data)] := by
  simp only [opened, h]

theorem autoDecrypt_of_mem_opened {keys : SecurityKey} {f : Frame} {packet : PacketActionType × Bytes}
    (h : packet ∈ opened P keys f) : autoDecrypt P keys f = .ok (some packet.2) := by
  unfold opened at h
  split at h
  · rename_i data hdata
    rw [List.mem_singleton.1 h]
    exact hdata
  · simp at h

theorem Server.takePacket_spec (io : Ambient) (utcNow : DateTime) (f : Frame) :
    let o := (s.takePacket P c io utcNow (.packet f)).2
    (∀ c', .authenticated c' ∉ o) ∧
      o.filterMap (Output.handsOn c) = opened P (s.keys c) f := by
  have hsent : ∀ (fs : List Frame) c', .authenticated c' ∉ fs.map (Output.sent c) := by
    intro fs c' hmem
    exact isSent_of_mem_map hmem
  unfold Server.takePacket opened Server.keys
  simp only
  cases autoDecrypt P (s.conns c).keys f with
  | error e => exact ⟨by simp, rfl⟩
  | ok found =>
      cases found with
      | none => exact ⟨by simp, rfl⟩
      | some data =>
          refine ⟨fun c' hmem => ?_, ?_⟩
          · rcases List.mem_cons.1 hmem with heq | hmem
            · simp at heq
            · exact hsent _ c' hmem
          · have hhere : Output.handsOn c (.delivered c f.header data) =
                some (f.header.packetAction, data) := by simp [Output.handsOn]
            simp only [Server.afterRaise]
            rw [List.filterMap_cons_some hhere,
              filterMap_handsOn_of_isSent fun x hx => isSent_of_mem_map hx]

theorem Server.authenticate_handsOn (io : Ambient) (received : Received) (c' : ConnId) :
    (s.authenticate P c io received).2.filterMap (Output.handsOn c') = [] := by
  have hsent : ∀ fs : List Frame, (fs.map (Output.sent c)).filterMap (Output.handsOn c') = [] :=
    fun fs => filterMap_handsOn_of_isSent fun x hx => isSent_of_mem_map hx
  simp only [Server.authenticate]
  split
  · rfl
  · split_ifs
    · rw [List.filterMap_append, hsent]
      rfl
    · exact hsent _

/-- A frame is read in a handshake, which raises nothing, or by the receive loop. -/
theorem Stepped.handsOn {e : Event} {r : Server × List Output} (h : Stepped P s e r)
    (hserving : s.thread.serving = some c) {f : Frame} (hreceived : e.received = some (.packet f)) :
    s.thread = .authenticating c ∧ r.2.filterMap (Output.handsOn c) = [] ∨
      s.thread = .receiving c ∧ (∀ c', .authenticated c' ∉ r.2) ∧
        r.2.filterMap (Output.handsOn c) = opened P (s.keys c) f := by
  cases h with
  | handshake hthread =>
      rw [hthread] at hserving
      obtain rfl := Option.some.inj hserving
      exact Or.inl ⟨hthread, s.authenticate_handsOn _ _ _⟩
  | receive hthread =>
      rw [hthread] at hserving
      obtain rfl := Option.some.inj hserving
      obtain rfl := Option.some.inj hreceived
      exact Or.inr ⟨hthread, Server.takePacket_spec _ _ f⟩
  | accept hthread => simp [Event.received] at hreceived
  | gate hthread => simp [Event.received] at hreceived
  | beat hthread => simp [Event.received] at hreceived
  | cancelServer => simp [Event.received] at hreceived
  | cancelClient => simp [Event.received] at hreceived
  | elsewhere => simp [Event.received] at hreceived

theorem action_of_authenticated {io : Ambient} {received : Received} {c' : ConnId}
    (h : .authenticated c' ∈ (s.authenticate P c io received).2) :
    c' = c ∧ ∃ f, received = .packet f ∧ f.header.packetAction = .ready := by
  have hready : ∀ {keys f m reply}, (handleAuthenticationPacket P s.self.settings io keys f).outcome
      = .ok (m, reply) → m = some .ready → f.header.packetAction = .ready := by
    rintro keys f m reply houtcome rfl
    unfold handleAuthenticationPacket at houtcome
    split_ifs at houtcome with hsyn hack haction
    · split at houtcome
      · simp at houtcome
      · split at houtcome <;> simp at houtcome
    · split at houtcome
      · simp at houtcome
      · simp at houtcome
      · simp at houtcome
      · split at houtcome <;> simp at houtcome
    · exact haction
    · simp at houtcome
  have hsent : ∀ fs : List Frame, .authenticated c' ∉ fs.map (Output.sent c) :=
    fun fs hmem => isSent_of_mem_map hmem
  simp only [Server.authenticate] at h
  split at h
  · simp at h
  · rename_i m reply houtcome
    split_ifs at h with hm
    · rcases List.mem_append.1 h with hmem | hmem
      · exact absurd hmem (hsent _)
      · obtain rfl := Output.authenticated.inj (List.mem_singleton.1 hmem)
        refine ⟨rfl, ?_⟩
        rcases Authentication.takeTurn_ok houtcome with ⟨-, hnone, -⟩ | ⟨f, hreceived, -, hturn⟩
        · simp [hm] at hnone
        · rw [hturn] at houtcome
          exact ⟨f, hreceived, hready houtcome hm⟩
    · exact absurd h (hsent _)

theorem Server.authenticate_thread (io : Ambient) (received : Received) :
    let r := s.authenticate P c io received
    r.1.thread = s.thread ∨ .authenticated c ∈ r.2 ∨ r.1.thread.serving = none := by
  simp only [Server.authenticate]
  split
  · exact Or.inr (Or.inr rfl)
  · split_ifs
    · exact Or.inr (Or.inl (by simp))
    · exact Or.inl rfl

/-- A connection that is served outside its handshake has just been accepted, has just
completed it, or was served so before. -/
theorem Stepped.unauthenticated {e : Event} {r : Server × List Output} (h : Stepped P s e r)
    (hserving : r.1.thread.serving = some c) (hthread : r.1.thread ≠ .authenticating c) :
    .authenticated c ∈ r.2 ∨ (r.1.keys c).chaChaKey = none ∨
      s.thread.serving = some c ∧ s.thread ≠ .authenticating c ∧ r.1.keys c = s.keys c := by
  rcases (moves_of_stepped h).serving hserving with hserved | ⟨created, entropy, rfl, rfl, -⟩
  · by_cases hbefore : s.thread = .authenticating c
    · cases h with
      | @handshake io received c' hthread' =>
          obtain rfl : c = c' := by simpa [hbefore] using hthread'
          rcases s.authenticate_thread (P := P) (c := c) io received with hsame | hmem | hnone
          · exact absurd (hsame.trans hbefore) hthread
          · exact Or.inl hmem
          · simp [hnone] at hserving
      | accept hthread' => simp [hbefore] at hthread'
      | gate hthread' => simp [hbefore] at hthread'
      | beat hthread' => simp [hbefore] at hthread'
      | receive hthread' => simp [hbefore] at hthread'
      | cancelServer => exact absurd hbefore hthread
      | cancelClient => exact absurd hbefore hthread
      | elsewhere => exact absurd hbefore hthread
    · refine Or.inr (Or.inr ⟨hserved, hbefore, ?_⟩)
      rcases h.keys with hsame | ⟨created, entropy, localKeys, -, hthread', -⟩ |
        ⟨io, received, c', -, hthread', -⟩
      · exact congrFun hsame c
      · rw [hthread'] at hserved
        simp [Thread.serving] at hserved
      · rw [hthread'] at hserved
        obtain rfl : c' = c := Option.some.inj hserved
        exact absurd hthread' hbefore
  · -- its keys have just been made
    refine Or.inr (Or.inl ?_)
    cases h with
    | accept hthread' =>
        simp only [Server.acceptClient] at hserving ⊢
        split at hserving
        · simp [Thread.serving] at hserving
        · rename_i localKeys hcreate
          simp [Server.keys, Server.setConn, startKeys]

theorem Stepped.authenticating {e : Event} {r : Server × List Output} (h : Stepped P s e r)
    (hmem : .authenticated c ∈ r.2) :
    s.thread = .authenticating c ∧ ∃ io f, e = .handshake io (.packet f) ∧
      f.header.packetAction = .ready := by
  have hbefore : s.thread = .authenticating c := (moves_of_stepped h).authenticating hmem
  refine ⟨hbefore, ?_⟩
  cases h with
  | @handshake io received c' hthread' =>
      obtain ⟨-, f, rfl, haction⟩ := action_of_authenticated hmem
      exact ⟨io, f, rfl, haction⟩
  | accept hthread' => simp [hbefore] at hthread'
  | gate hthread' => simp [hbefore] at hthread'
  | beat hthread' => simp [hbefore] at hthread'
  | receive hthread' => simp [hbefore] at hthread'
  | cancelServer => simp at hmem
  | cancelClient => simp at hmem
  | elsewhere => simp at hmem

end BaseTCPServer

end NETConnect
