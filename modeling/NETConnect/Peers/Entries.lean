import NETConnect.Peers.Registry
/-!
# The entries are different objects

Whatever is added to `ConnectedPeers` is an object that was made for it.  So `Distinct`
changes nothing there, and `Remove` leaves no second entry that is the same.
-/

namespace NETConnect

open Lib

namespace Peer

variable {P : Platform} {isIPAddress : String → Bool} {self self' : Peer}

/-- The entries are in the order in which they were made. -/
def Numbered (self : Peer) : Prop :=
  (self.connectedPeers.map PeerTable.ref ++ [self.nextRef]).Pairwise (· < ·)

theorem Numbered.shrinks (h : self.Numbered)
    (hsublist : self'.connectedPeers.Sublist self.connectedPeers)
    (hnext : self'.nextRef = self.nextRef) : self'.Numbered := by
  unfold Numbered
  rw [hnext]
  exact List.Pairwise.sublist ((hsublist.map _).append_right _) h

theorem Numbered.snoc (h : self.Numbered) {entry : PeerTable}
    (hentries : self'.connectedPeers = self.connectedPeers ++ [entry])
    (href : entry.ref = self.nextRef) (hnext : self'.nextRef = self.nextRef + 1) :
    self'.Numbered := by
  unfold Numbered
  rw [hentries, hnext, List.map_append, List.map_singleton, href, List.pairwise_append]
  refine ⟨h, List.pairwise_singleton _ _, fun ref hmem next hnext => ?_⟩
  obtain rfl := List.mem_singleton.1 hnext
  rcases List.mem_append.1 hmem with hold | hlast
  · exact Nat.lt_succ_of_lt ((List.pairwise_append.1 h).2.2 ref hold _ List.mem_cons_self)
  · rw [List.mem_singleton.1 hlast]
    exact Nat.lt_succ_self _

theorem Numbered.refs (h : self.Numbered) :
    (self.connectedPeers.map PeerTable.ref).Pairwise (· < ·) := (List.pairwise_append.1 h).1

theorem Numbered.nodup (h : self.Numbered) : (self.connectedPeers.map PeerTable.ref).Nodup :=
  h.refs.imp fun hlt => Nat.ne_of_lt hlt

theorem Numbered.eq_of_ref (h : self.Numbered) {a b : PeerTable} (ha : a ∈ self.connectedPeers)
    (hb : b ∈ self.connectedPeers) (href : a.ref = b.ref) : a = b :=
  List.inj_on_of_nodup_map h.nodup ha hb href

theorem distinct_eq_self {entries : List PeerTable} (h : (entries.map PeerTable.ref).Nodup) :
    distinct entries = entries := by
  induction entries with
  | nil => rfl
  | cons entry entries ih =>
      rw [List.map_cons, List.nodup_cons] at h
      rw [distinct, ih h.2, List.filter_eq_self.2]
      intro x hx
      have hne : x.ref ≠ entry.ref := fun heq => h.1 (heq ▸ List.mem_map_of_mem hx)
      simpa using hne

theorem Numbered.cleaned_eq (h : self.Numbered) : self.cleaned = self := by
  rw [cleaned, distinct_eq_self h.nodup]

/-! ## Every call keeps the order -/

theorem Numbered.addPeer (h : self.Numbered) (site : Site) (c : ConnId) (conn : Connection)
    (initPeer : Option PeerInfo) : (self.addPeer P site c conn initPeer).self.Numbered := by
  cases initPeer with
  | none => exact h
  | some initPeer => exact h.snoc rfl rfl rfl

theorem Numbered.addPeers (h : self.Numbered) (site : Site) (conn : Connection)
    (initPeers : Option (List (Option PeerInfo))) :
    (self.addPeers P site conn initPeers).self.Numbered := by
  cases initPeers <;> exact h.shrinks (distinct_sublist _) rfl

theorem Numbered.removeClient (h : self.Numbered) (keys : ConnId → SecurityKey)
    (handles : ConnId → Guid) (io : ConnId → Ambient) (id : Guid) :
    (self.removeClient P keys handles io id).1.Numbered := by
  unfold Peer.removeClient
  split
  · exact h.shrinks List.eraseP_sublist rfl
  · exact h

theorem Numbered.connectPeers (h : self.Numbered) (site : Site) (c : ConnId)
    (newPeers : List (Option GivenPeer)) :
    (connectPeers isIPAddress site c self newPeers).1.Numbered := by
  induction newPeers generalizing self with
  | nil => exact h
  | cons peer rest ih =>
      cases peer with
      | none => exact h
      | some peer =>
          have hadded : (self.addConnected c peer.info).Numbered := h.snoc rfl rfl rfl
          rw [Peer.connectPeers]
          split
          · exact h
          · exact ih h
          · split_ifs
            · exact ih hadded
            · exact hadded

theorem Numbered.addPeersOriginal (h : self.Numbered) (site : Site) (c : ConnId)
    (conn : Connection) (initPeers : Option (List (Option GivenPeer))) :
    (self.addPeersOriginal P isIPAddress site c conn initPeers).self.Numbered := by
  have hcleaned : self.cleaned.Numbered := h.shrinks (distinct_sublist _) rfl
  unfold Peer.addPeersOriginal
  cases initPeers with
  | none => exact hcleaned
  | some initPeers =>
      have hconnected : (Peer.connectPeers isIPAddress site c self.cleaned
          (self.cleaned.uniquePeers (distinctGiven initPeers))).1.Numbered :=
        hcleaned.connectPeers site c _
      simp only [cleaned] at hcleaned hconnected ⊢
      split_ifs
      · exact hcleaned
      · split <;> rename_i hafter <;> rw [hafter] at hconnected <;> exact hconnected

theorem Numbered.multicast (h : self.Numbered) (dial : Dial) (packet : MulticastPacket) :
    (Multicast.handleOnMulticastMessage P isIPAddress dial self packet).self.Numbered := by
  have hcleaned : self.cleaned.Numbered := h.shrinks (distinct_sublist _) rfl
  have hjoined : ∀ r, Multicast.join P isIPAddress dial self.cleaned packet = .ok r →
      r.1.Numbered := by
    intro r hok
    unfold Multicast.join at hok
    obtain ⟨⟨address, port⟩, -, hok⟩ := Exn.bind_eq_ok.1 hok
    obtain ⟨connected, -, hok⟩ := Exn.bind_eq_ok.1 hok
    cases connected with
    | false =>
        obtain rfl := Except.ok.inj hok
        exact hcleaned
    | true =>
        obtain rfl := Except.ok.inj hok
        exact hcleaned.snoc rfl rfl rfl
  unfold Multicast.handleOnMulticastMessage
  simp only [cleaned] at hcleaned hjoined ⊢
  split_ifs
  · exact hcleaned
  · split
    · exact hjoined _ ‹_›
    · exact hcleaned
  · exact h

end Peer

namespace BaseTCPServer

variable {P : Platform} {self : Peer}

theorem numbered_handleDataReceived (h : self.Numbered) (site : Site) (c : ConnId)
    (conn : Connection) (header : PacketHeader) (data : Bytes) :
    (handleDataReceived P site self c conn header data).self.Numbered := by
  unfold handleDataReceived handleAction
  split_ifs
  · split <;> exact h
  · exact h
  · exact h
  · simp only
    split
    · exact h.addPeer site c conn _
    · split
      · exact h.addPeers site conn _
      · exact h
  · exact h

end BaseTCPServer

namespace Registry

variable {P : Platform} {isIPAddress : String → Bool}

theorem numbered_clientStep {s t : Registry} {e : ClientEvent} {o : List Exn}
    (h : s.self.Numbered) (hstep : s.clientStep P e = some (t, o)) : t.self.Numbered := by
  cases e with
  | connect created entropy =>
      obtain ⟨rfl, -⟩ := Prod.mk.inj (Option.some.inj hstep)
      split
      · exact h
      · exact h.shrinks (List.Sublist.refl _) rfl
  | peerJoin c site header data =>
      rw [clientStep] at hstep
      split_ifs at hstep
      obtain ⟨rfl, -⟩ := Prod.mk.inj (Option.some.inj hstep)
      exact BaseTCPServer.numbered_handleDataReceived h site c _ header data
  | disconnect c others =>
      rw [clientStep] at hstep
      split_ifs at hstep
      obtain ⟨rfl, -⟩ := Prod.mk.inj (Option.some.inj hstep)
      exact h.removeClient ..

theorem numbered_step {s t : Registry} {e : Event} {o : List Exn} (h : s.self.Numbered)
    (hstep : (registry P isIPAddress).step s e = some (t, o)) : t.self.Numbered := by
  cases e with
  | client e => exact numbered_clientStep h hstep
  | multicast dial packet =>
      obtain ⟨rfl, -⟩ := Prod.mk.inj (Option.some.inj hstep)
      exact h.multicast dial packet
  | addPeers c site initPeers useOriginalVersion =>
      obtain ⟨rfl, -⟩ := Prod.mk.inj (Option.some.inj hstep)
      cases useOriginalVersion with
      | false => exact h.addPeers ..
      | true => exact h.addPeersOriginal ..

/-- In every state that is reached the entries are different objects. -/
theorem numbered_of_run {peerId : Guid} {settings : Option PeerSettings} {es : List Event}
    {s : Registry} {os : List Exn}
    (hrun : (registry P isIPAddress).run (start peerId settings) es = some (s, os)) :
    s.self.Numbered :=
  Machine.state_invariant (I := fun s => s.self.Numbered)
    (fun _ _ _ _ h hstep => numbered_step h hstep) (List.pairwise_singleton _ _) hrun

end Registry

end NETConnect
