import NETConnect.Delivery
import NETConnect.Handshake.Conversation
/-!
# What is sealed is opened

Once a client counts itself as authenticated, both ends hold its session key for good.
So whatever one of them seals from then on the other one opens, however late it is read
and whatever has happened in between.
-/

namespace NETConnect

open Lib SocketExtensions

namespace BaseTCPClient

theorem Stepped.isAuthenticated {P : Platform} {s : Client} {e : Event}
    {r : Client × List Output} (h : Stepped P s e r) (hflag : s.isAuthenticated = true) :
    r.1.isAuthenticated = true := by
  cases moves_of_stepped h with
  | begins _ _ before => simp [before.2] at hflag
  | turns io received event before next =>
      rw [show r.1 = _ from congrArg Prod.fst next]
      obtain ⟨-, -, -, ⟨-, hsame, -⟩ | ⟨reply, -, -, hset, -⟩⟩ := s.authenticate_spec P io received
      · exact hsame.trans hflag
      · exact hset
  | goesOn _ _ isAuthenticated => exact isAuthenticated.trans hflag

end BaseTCPClient

namespace Session

variable {P : Platform} {s t : Session} {os os' : List Output} {c : ConnId}

theorem isAuthenticated_of_step {e : Event} {o : List Output}
    (hauthenticated : c < s.connected ∧ (s.clients c).isAuthenticated = true)
    (hstep : (session P).step s e = some (t, o)) :
    c < t.connected ∧ (t.clients c).isAuthenticated = true := by
  obtain ⟨hc, hflag⟩ := hauthenticated
  refine ⟨hc.trans_le (connected_le_of_step hstep), ?_⟩
  cases seen_of_step hstep c with
  | made number => exact absurd number (Nat.ne_of_lt hc)
  | server stepped clients => rwa [clients]
  | client stepped => exact stepped.isAuthenticated hflag
  | alsoToServer _ _ clients => rwa [clients]
  | alsoToClient _ _ clients => rwa [clients]
  | elsewhere _ link => rwa [show t.clients c = s.clients c from congrArg Link.client link]

/-- Both ends hold the key that the client has generated. -/
def HoldsKey (s : Session) (c : ConnId) (key : RandomData 32) : Prop :=
  (s.clients c).keys.chaChaKey = some key.1 ∧ (s.server.keys c).chaChaKey = some key.1

theorem Invariant.holdsKey (hinv : Invariant P s os)
    (hauthenticated : (s.clients c).isAuthenticated = true) :
    ∃ key, (∀ k, .client c (.generated k) ∈ os ↔ k = key) ∧ HoldsKey s c key := by
  obtain ⟨key, hgenerated, hsound⟩ := hinv.sound c
  obtain ⟨k, rfl, hstored⟩ := hsound.agreed hauthenticated
  exact ⟨k, fun k' => (hgenerated k').trans (by simp [eq_comm]), hsound.clientKey, hstored⟩

/-- The key of an authenticated client is never replaced, at neither end. -/
theorem holdsKey_later (rsa : P.RSALaws) (hauth : P.packetAuthentication.RoundTrips)
    (hjson : P.packetEncrypted.RoundTrips) {self : Peer} {es es' : List Event}
    (hrun : (session P).run (start self) es = some (s, os))
    (hlater : (session P).run s es' = some (t, os'))
    (hauthenticated : (s.clients c).isAuthenticated = true) :
    ∃ key, HoldsKey s c key ∧ HoldsKey t c key := by
  have hinv : Invariant P s ([] ++ os) := Machine.invariant
    (fun _ _ _ _ _ hI hstep => hI.step rsa hauth hjson hstep) (invariant_start P self) hrun
  have hinv' : Invariant P t (os ++ os') := Machine.invariant
    (fun _ _ _ _ _ hI hstep => hI.step rsa hauth hjson hstep) hinv hlater
  obtain ⟨key, hgenerated, hholds⟩ := hinv.holdsKey hauthenticated
  have hmem : Output.client c (.generated key) ∈ os := (hgenerated key).2 rfl
  obtain ⟨-, hstill⟩ := Machine.state_invariant
    (I := fun s => c < s.connected ∧ (s.clients c).isAuthenticated = true)
    (fun _ _ _ _ hI hstep => isAuthenticated_of_step hI hstep)
    ⟨hinv.known c _ hmem, hauthenticated⟩ hlater
  obtain ⟨key', hgenerated', hholds'⟩ := hinv'.holdsKey hstill
  obtain rfl : key = key' := (hgenerated' key).1 (List.mem_append_left _ hmem)
  exact ⟨key, hholds, hholds'⟩

/-- Whatever either end of an authenticated connection seals, the other end opens to what
it was, at that time and at any later one. -/
theorem sealed_opened_later (P : Platform) (rsa : P.RSALaws) (chaCha : P.ChaChaLaws)
    (hauth : P.packetAuthentication.RoundTrips) (hjson : P.packetEncrypted.RoundTrips)
    (self : Peer) (es es' : List Event) (s t : Session) (os os' : List Output)
    (hrun : (session P).run (start self) es = some (s, os))
    (hlater : (session P).run s es' = some (t, os')) (c : ConnId)
    (hauthenticated : (s.clients c).isAuthenticated = true) (call : SealedCall) :
    (∃ f, call.frame P (s.clients c).keys = some f ∧
        autoDecrypt P (t.server.keys c) f = .ok (some call.data)) ∧
      ∃ f, call.frame P (s.server.keys c) = some f ∧
        autoDecrypt P (t.clients c).keys f = .ok (some call.data) := by
  obtain ⟨key, ⟨hclient, hserver⟩, hclient', hserver'⟩ :=
    holdsKey_later rsa hauth hjson hrun hlater hauthenticated
  obtain ⟨f, hframe, -, hopens⟩ := call.frame_spec chaCha hjson hclient key.2
  obtain ⟨g, hframe', -, hopens'⟩ := call.frame_spec chaCha hjson hserver key.2
  exact ⟨⟨f, hframe, hopens _ hserver'⟩, g, hframe', hopens' _ hclient'⟩

/-- The data is sent when the next client has connected. -/
theorem sealed_opened_later_unsealedSession : ∃ es s os f t,
    (session Reference.reference).run (start unsealed) es = some (s, os) ∧
      dataCall.frame Reference.reference (s.clients 0).keys = some f ∧
      (session Reference.reference).run s [.connect .empty none ((0 : Nat), (0 : Nat)),
        .alsoToServer 0 f] = some (t, []) ∧
      f ∈ t.toServer 0 ∧
      autoDecrypt Reference.reference (t.server.keys 0) f = .ok (some dataCall.data) := by
  obtain ⟨⟨es, s, os⟩, hplay, ⟨-, hauthenticated, -⟩, -⟩ := unsealedSession_end
  have hrun := Machine.run_of_play hplay
  have hopened := fun es' t os' hlater => (sealed_opened_later Reference.reference
    Reference.reference_rsaLaws Reference.reference_chaChaLaws
    Reference.packetAuthentication_roundTrips Reference.packetEncrypted_roundTrips unsealed es es'
    s t os os' hrun hlater 0 hauthenticated dataCall).1
  obtain ⟨f, hframe, -⟩ := hopened [] s [] rfl
  have haction : f.header.packetAction = .data :=
    PacketHelper.sendPacket_action Reference.reference _ _ hframe
  have hsent : ¬ f.header.packetAction.IsHandshake := by
    rw [haction]
    decide
  have hlater : (session Reference.reference).run s [.connect .empty none ((0 : Nat), (0 : Nat)),
      .alsoToServer 0 f] = some ({ s.connect .empty none ((0 : Nat), (0 : Nat)) with
        toServer := Function.update (s.connect .empty none ((0 : Nat), (0 : Nat))).toServer 0
          ((s.connect .empty none ((0 : Nat), (0 : Nat))).toServer 0 ++ [f]) }, []) := by
    have hconnected : 0 < (s.connect .empty none ((0 : Nat), (0 : Nat))).connected :=
      Nat.succ_pos _
    exact Machine.run_cons_iff.2 ⟨_, [], [], rfl,
      Machine.run_singleton_iff.2 (if_pos ⟨hconnected, hsent⟩), rfl⟩
  obtain ⟨f', hframe', hopens⟩ := hopened _ _ _ hlater
  obtain rfl : f = f' := Option.some.inj (hframe.symm.trans hframe')
  refine ⟨es, s, os, f, _, hrun, hframe, hlater, ?_, hopens⟩
  simp only [Function.update_self]
  exact List.mem_append_right _ (List.mem_singleton_self f)

end Session

end NETConnect
