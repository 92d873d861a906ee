import NETConnect.Peers.TryConnect
/-!
# Connecting to the peers of a list

`AddPeers` in its original version, with `IsUniquePeers` and `GetUniquePeers`.
-/

namespace NETConnect

/-- An entry of a list that `AddPeers` is given: which object it is, what it holds, and
what an attempt to connect to it would meet. -/
structure GivenPeer where
  ref : Nat
  info : PeerInfo
  dial : Dial
  deriving DecidableEq

namespace Peer

variable (P : Platform) (isIPAddress : String → Bool) (site : Site) (self : Peer) (c : ConnId)
  (conn : Connection)

/-- `Distinct()` on a given list, where null is one value. -/
def distinctGiven : List (Option GivenPeer) → List (Option GivenPeer)
  | [] => []
  | peer :: peers =>
      peer :: (distinctGiven peers).filter fun x => x.map GivenPeer.ref ≠ peer.map GivenPeer.ref

/-- `GetUniquePeers`.  A null is only looked at where there is an entry to compare with. -/
def getUniquePeers : List (Option GivenPeer) → Except Exn (List (Option GivenPeer))
  | [] => .ok []
  | none :: rest =>
      if self.connectedPeers = [] then (getUniquePeers rest).map fun peers => none :: peers
      else .error .nullReference
  | some peer :: rest =>
      (getUniquePeers rest).map fun peers =>
        if peer.info.peerId ∈ self.ids ∧ peer.info.peerId ≠ self.peerId then peers
        else some peer :: peers

/-- What `IsUniquePeers` hands out; its `catch` leaves nothing. -/
def uniquePeers (peerList : List (Option GivenPeer)) : List (Option GivenPeer) :=
  match self.getUniquePeers peerList with
  | .ok peers => distinctGiven peers
  | .error _ => []

/-- An entry of the list goes into both lists, with the handle it came by. -/
def addConnected (peer : PeerInfo) : Peer :=
  let newPeer : PeerTable :=
    { ref := self.nextRef, info := peer, packetHelper := some c, hasClient := true }
  { self with
    connectedPeers := self.connectedPeers ++ [newPeer]
    clients := self.clients ++ [c]
    nextRef := self.nextRef + 1 }

/-- The loop over the new peers, up to the exception that ends it. -/
def connectPeers : Peer → List (Option GivenPeer) → Peer × Option Exn
  | self, [] => (self, none)
  -- `peer.Client = connection`
  | self, none :: _ => (self, some .nullReference)
  | self, some peer :: rest =>
      match BaseTCPClient.tryConnect isIPAddress peer.dial peer.info.address peer.info.port with
      | .error e => (self, some e)
      | .ok false => connectPeers self rest
      | .ok true =>
          let self := self.addConnected c peer.info
          if site.hasOnPeerConnected then connectPeers self rest else (self, some .nullReference)

/-- `AddPeers` in its original version.  What its last `ForEach` sends goes out on the
clients of the entries; here it matters that an entry without one ends it. -/
def addPeersOriginal (initPeers : Option (List (Option GivenPeer))) : Raised :=
  let self := { self with connectedPeers := distinct self.connectedPeers }
  match initPeers with
  | none => { self, conn, threw := some .argumentNull }
  | some initPeers =>
      let sent := sendKnownPeers P site self conn self.connectedPeers
      let newPeers := self.uniquePeers (distinctGiven initPeers)
      if newPeers = [] then { self, conn, sent }
      else
        match connectPeers isIPAddress site c self newPeers with
        | (self, some e) => { self, conn, sent, threw := some e }
        | (self, none) =>
            { self, conn, sent
              threw := if self.connectedPeers.all PeerTable.hasClient then none
                else some .nullReference }

/-! ## What is added -/

/-- The peers that the loop connects to. -/
def reached : List (Option GivenPeer) → List PeerInfo
  | [] | none :: _ => []
  | some peer :: rest =>
      match BaseTCPClient.tryConnect isIPAddress peer.dial peer.info.address peer.info.port with
      | .error _ => []
      | .ok false => reached rest
      | .ok true => peer.info :: if site.hasOnPeerConnected then reached rest else []

/-- The peers that a call of `AddPeers` in its original version connects to. -/
def newlyReached (initPeers : Option (List (Option GivenPeer))) : List PeerInfo :=
  match initPeers with
  | none => []
  | some initPeers => reached isIPAddress site (self.cleaned.uniquePeers (distinctGiven initPeers))

variable {P isIPAddress site self c conn}

theorem ids_addConnected (peer : PeerInfo) :
    (self.addConnected c peer).ids = self.ids ++ [peer.peerId] := by
  simp [ids, addConnected]

theorem distinctGiven_sublist (peers : List (Option GivenPeer)) :
    (distinctGiven peers).Sublist peers := by
  induction peers with
  | nil => exact List.Sublist.refl _
  | cons peer peers ih => exact (List.filter_sublist.trans ih).cons_cons peer

theorem connectPeers_spec (newPeers : List (Option GivenPeer)) :
    let after := (connectPeers isIPAddress site c self newPeers).1
    after.peerId = self.peerId ∧
      after.ids = self.ids ++ (reached isIPAddress site newPeers).map PeerInfo.peerId := by
  induction newPeers generalizing self with
  | nil => simp [connectPeers, reached]
  | cons peer rest ih =>
      cases peer with
      | none => simp [connectPeers, reached]
      | some peer =>
          rw [connectPeers, reached]
          rcases BaseTCPClient.tryConnect isIPAddress peer.dial peer.info.address
            peer.info.port with e | connected
          · simp
          · cases connected with
            | false => exact ih
            | true =>
                cases site.hasOnPeerConnected with
                | false =>
                    simp only [Bool.false_eq_true, if_false]
                    exact ⟨rfl, ids_addConnected peer.info⟩
                | true =>
                    obtain ⟨hpeerId, hids⟩ := @ih (self.addConnected c peer.info)
                    simp only [if_true]
                    refine ⟨hpeerId, hids.trans ?_⟩
                    rw [ids_addConnected, List.map_cons, List.append_assoc,
                      List.singleton_append]

theorem getUniquePeers_cons {entry : Option GivenPeer} {rest peers : List (Option GivenPeer)}
    (h : self.getUniquePeers (entry :: rest) = .ok peers) :
    ∃ peers', self.getUniquePeers rest = .ok peers' ∧
      (peers = peers' ∨ peers = entry :: peers' ∧ ∀ peer, entry = some peer →
        peer.info.peerId ∉ self.ids ∨ peer.info.peerId = self.peerId) := by
  cases hrest : self.getUniquePeers rest with
  | error e =>
      -- the exception is that of the whole list
      cases entry with
      | none =>
          rw [getUniquePeers, hrest] at h
          split_ifs at h
          simp [Except.map] at h
      | some entry =>
          rw [getUniquePeers, hrest] at h
          simp [Except.map] at h
  | ok peers' =>
      refine ⟨peers', rfl, ?_⟩
      cases entry with
      | none =>
          rw [getUniquePeers, hrest] at h
          split_ifs at h
          obtain rfl := Except.ok.inj h
          exact Or.inr ⟨rfl, fun peer hpeer => by simp at hpeer⟩
      | some entry =>
          rw [getUniquePeers, hrest] at h
          obtain rfl := Except.ok.inj h
          split_ifs with hknown
          · exact Or.inl rfl
          · refine Or.inr ⟨rfl, ?_⟩
            rintro _ ⟨⟩
            by_cases hown : entry.info.peerId = self.peerId
            · exact Or.inr hown
            · exact Or.inl fun hin => hknown ⟨hin, hown⟩

theorem getUniquePeers_fresh {peerList peers : List (Option GivenPeer)}
    (h : self.getUniquePeers peerList = .ok peers) {peer : GivenPeer} (hmem : some peer ∈ peers) :
    peer.info.peerId ∉ self.ids ∨ peer.info.peerId = self.peerId := by
  induction peerList generalizing peers with
  | nil =>
      obtain rfl := Except.ok.inj h
      simp at hmem
  | cons entry rest ih =>
      obtain ⟨peers', hrest, rfl | ⟨rfl, hentry⟩⟩ := getUniquePeers_cons h
      · exact ih hrest hmem
      · rcases List.mem_cons.1 hmem with heq | hmem
        · exact hentry peer heq.symm
        · exact ih hrest hmem

theorem reached_mem {newPeers : List (Option GivenPeer)} {info : PeerInfo}
    (h : info ∈ reached isIPAddress site newPeers) :
    ∃ peer, some peer ∈ newPeers ∧ peer.info = info := by
  induction newPeers with
  | nil => simp [reached] at h
  | cons entry rest ih =>
      have htail : info ∈ reached isIPAddress site rest →
          ∃ peer, some peer ∈ entry :: rest ∧ peer.info = info := by
        intro hrest
        obtain ⟨peer, hmem, hinfo⟩ := ih hrest
        exact ⟨peer, List.mem_cons_of_mem _ hmem, hinfo⟩
      cases entry with
      | none => simp [reached] at h
      | some entry =>
          rw [reached] at h
          split at h
          · simp at h
          · exact htail h
          · rcases List.mem_cons.1 h with rfl | hrest
            · exact ⟨entry, List.mem_cons_self, rfl⟩
            · split_ifs at hrest
              · exact htail hrest
              · simp at hrest

theorem newlyReached_fresh {initPeers : Option (List (Option GivenPeer))}
    {peer : PeerInfo} (h : peer ∈ newlyReached isIPAddress site self initPeers) :
    peer.peerId ∉ self.cleaned.ids ∨ peer.peerId = self.peerId := by
  unfold newlyReached at h
  cases initPeers with
  | none => simp at h
  | some initPeers =>
      obtain ⟨given, hmem, rfl⟩ := reached_mem h
      rw [uniquePeers] at hmem
      split at hmem
      · rename_i peers hpeers
        exact getUniquePeers_fresh hpeers ((distinctGiven_sublist peers).subset hmem)
      · simp at hmem

theorem addPeersOriginal_spec (initPeers : Option (List (Option GivenPeer))) :
    let after := (addPeersOriginal P isIPAddress site self c conn initPeers).self
    after.peerId = self.peerId ∧ after.ids = self.cleaned.ids ++
      (newlyReached isIPAddress site self initPeers).map PeerInfo.peerId := by
  unfold addPeersOriginal newlyReached
  cases initPeers with
  | none => exact ⟨rfl, (List.append_nil _).symm⟩
  | some initPeers =>
      have hspec := @connectPeers_spec isIPAddress site self.cleaned c
        (self.cleaned.uniquePeers (distinctGiven initPeers))
      simp only [cleaned] at hspec ⊢
      split_ifs with hnone
      · rw [hnone]
        exact ⟨rfl, (List.append_nil _).symm⟩
      · split
        · rename_i after e hafter
          rw [hafter] at hspec
          exact hspec
        · rename_i after hafter
          rw [hafter] at hspec
          exact hspec

/-! ## What `IsUniquePeers` selects -/

/-- The result of `IsUniquePeers`, and what it hands out. -/
def isUniquePeers (self : Peer) (peerList : List (Option GivenPeer)) :
    Bool × List (Option GivenPeer) :=
  match self.getUniquePeers peerList with
  | .ok peers => if peers = [] then (false, []) else (true, distinctGiven peers)
  | .error _ => (false, [])

/-- A list that `AddPeers` may be given: entries that are one object are one entry. -/
structure Candidates where
  entries : List (Option GivenPeer)
  same : ∀ a b, some a ∈ entries → some b ∈ entries → a.ref = b.ref → a = b

/-- Neither this peer nor one that is known. -/
def IsNew (self : Peer) (id : Guid) : Prop := id ∉ self.peerId :: self.ids

instance (self : Peer) (id : Guid) : Decidable (self.IsNew id) := inferInstanceAs (Decidable (¬ _))

/-- The ids in a list of candidates, null for a null. -/
def candidateIds (peers : List (Option GivenPeer)) : List (Option Guid) :=
  peers.map (Option.map fun peer => peer.info.peerId)

/-- One entry for each new id of the candidates, and no other. -/
structure SelectsNew (node : Peer) (peerList : List (Option GivenPeer))
    (r : Bool × List (Option GivenPeer)) : Prop where
  sound : ∀ x ∈ r.2, x ∈ peerList ∧ ∃ peer, x = some peer ∧ node.IsNew peer.info.peerId
  once : (candidateIds r.2).Nodup
  complete : ∀ peer, some peer ∈ peerList → node.IsNew peer.info.peerId →
    some peer.info.peerId ∈ candidateIds r.2
  result : r.1 = true ↔ r.2 ≠ []

/-- The filter does not end with an exception, which it does at a null if there is an
entry to compare it with. -/
def Filters (self : Peer) (peerList : List (Option GivenPeer)) : Prop :=
  none ∈ peerList → self.connectedPeers = []

/-- The candidates that the filter leaves. -/
def Passes (self : Peer) : Option GivenPeer → Prop
  | none => True
  | some peer => ¬ (peer.info.peerId ∈ self.ids ∧ peer.info.peerId ≠ self.peerId)

theorem mem_cons_passes {entry : Option GivenPeer} {rest peers : List (Option GivenPeer)}
    (hentry : self.Passes entry) (hmem : ∀ x, x ∈ peers ↔ x ∈ rest ∧ self.Passes x)
    (x : Option GivenPeer) : x ∈ entry :: peers ↔ x ∈ entry :: rest ∧ self.Passes x := by
  rw [List.mem_cons, List.mem_cons, hmem]
  constructor
  · rintro (rfl | ⟨hrest, hpasses⟩)
    · exact ⟨Or.inl rfl, hentry⟩
    · exact ⟨Or.inr hrest, hpasses⟩
  · rintro ⟨rfl | hrest, hpasses⟩
    · exact Or.inl rfl
    · exact Or.inr ⟨hrest, hpasses⟩

theorem getUniquePeers_cases (peerList : List (Option GivenPeer)) :
    (self.Filters peerList ∧ ∃ peers, self.getUniquePeers peerList = .ok peers ∧
        ∀ x, x ∈ peers ↔ x ∈ peerList ∧ self.Passes x) ∨
      ¬ self.Filters peerList ∧ self.getUniquePeers peerList = .error .nullReference := by
  induction peerList with
  | nil => exact Or.inl ⟨fun h => absurd h (by simp), [], rfl, by simp⟩
  | cons entry rest ih =>
      cases entry with
      | none =>
          rw [getUniquePeers]
          by_cases halone : self.connectedPeers = []
          · rw [if_pos halone]
            rcases ih with ⟨-, peers, hpeers, hmem⟩ | ⟨hstops, -⟩
            · exact Or.inl ⟨fun _ => halone, none :: peers, by rw [hpeers]; rfl,
                mem_cons_passes trivial hmem⟩
            · exact absurd (fun _ => halone) hstops
          · rw [if_neg halone]
            exact Or.inr ⟨fun h => halone (h List.mem_cons_self), rfl⟩
      | some peer =>
          have hfilters : self.Filters (some peer :: rest) ↔ self.Filters rest := by
            simp [Filters]
          rw [getUniquePeers, hfilters]
          rcases ih with ⟨hgoes, peers, hpeers, hmem⟩ | ⟨hstops, herror⟩
          · refine Or.inl ⟨hgoes, _, by rw [hpeers]; rfl, ?_⟩
            dsimp only
            split_ifs with hknown
            · intro x
              rw [hmem, List.mem_cons]
              constructor
              · rintro ⟨hrest, hpasses⟩
                exact ⟨Or.inr hrest, hpasses⟩
              · rintro ⟨rfl | hrest, hpasses⟩
                · exact absurd hknown hpasses
                · exact ⟨hrest, hpasses⟩
            · exact mem_cons_passes hknown hmem
          · exact Or.inr ⟨hstops, by rw [herror]; rfl⟩

theorem mem_distinctGiven_iff {peers : List (Option GivenPeer)}
    (hsame : ∀ a b, some a ∈ peers → some b ∈ peers → a.ref = b.ref → a = b)
    (x : Option GivenPeer) : x ∈ distinctGiven peers ↔ x ∈ peers := by
  induction peers with
  | nil => rfl
  | cons peer peers ih =>
      have ih := ih fun a b ha hb =>
        hsame a b (List.mem_cons_of_mem peer ha) (List.mem_cons_of_mem peer hb)
      rw [distinctGiven, List.mem_cons, List.mem_cons, List.mem_filter, ih]
      constructor
      · rintro (hhead | ⟨hrest, -⟩)
        · exact Or.inl hhead
        · exact Or.inr hrest
      · rintro (hhead | hrest)
        · exact Or.inl hhead
        · by_cases hkey : x.map GivenPeer.ref = peer.map GivenPeer.ref
          · left
            cases x with
            | none => exact (Option.map_eq_none_iff.1 hkey.symm).symm
            | some a =>
                obtain ⟨b, rfl, hb⟩ := Option.map_eq_some_iff.1 hkey.symm
                rw [hsame a b (List.mem_cons_of_mem _ hrest) List.mem_cons_self hb.symm]
          · exact Or.inr ⟨hrest, by simpa using hkey⟩

theorem nodup_distinctGiven (peers : List (Option GivenPeer)) :
    ((distinctGiven peers).map (Option.map GivenPeer.ref)).Nodup := by
  induction peers with
  | nil => exact List.nodup_nil
  | cons peer peers ih =>
      rw [distinctGiven, List.map_cons, List.nodup_cons]
      constructor
      · intro hmem
        obtain ⟨x, hx, hkey⟩ := List.mem_map.1 hmem
        exact absurd hkey (by simpa using (List.mem_filter.1 hx).2)
      · exact (List.filter_sublist.map _).nodup ih

theorem isUniquePeers_snd (peerList : List (Option GivenPeer)) :
    (self.isUniquePeers peerList).2 = self.uniquePeers peerList := by
  unfold isUniquePeers uniquePeers
  split
  · split_ifs with hnone
    · rw [hnone]
      rfl
    · rfl
  · rfl

theorem isUniquePeers_fst (peerList : List (Option GivenPeer)) :
    (self.isUniquePeers peerList).1 = true ↔ (self.isUniquePeers peerList).2 ≠ [] := by
  unfold isUniquePeers
  split
  · rename_i peers _
    split_ifs with hnone
    · simp
    · cases peers with
      | nil => exact absurd rfl hnone
      | cons peer peers => simp [distinctGiven]
  · simp

/-- No candidate is null or this peer itself, and a new id comes with one object only. -/
structure Clean (node : Peer) (peerList : List (Option GivenPeer)) : Prop where
  entries : none ∉ peerList
  others : ∀ peer, some peer ∈ peerList → peer.info.peerId ≠ node.peerId
  once : ∀ a b, some a ∈ peerList → some b ∈ peerList → node.IsNew a.info.peerId →
    a.info.peerId = b.info.peerId → a = b

theorem IsNew.passes {peer : GivenPeer} (h : self.IsNew peer.info.peerId) :
    self.Passes (some peer) :=
  fun hknown => h (List.mem_cons_of_mem _ hknown.1)

theorem selectsNew_iff_clean (candidates : Candidates) {r : Bool × List (Option GivenPeer)}
    (hresult : r.1 = true ↔ r.2 ≠ []) (hnodup : r.2.Nodup)
    (hmem : ∀ x, x ∈ r.2 ↔ x ∈ candidates.entries ∧ self.Passes x) :
    SelectsNew self candidates.entries r ↔ Clean self candidates.entries := by
  constructor
  · intro h
    refine ⟨fun hnull => ?_, fun peer hpeer hown => ?_, fun a b ha hb hnew hid => ?_⟩
    · obtain ⟨-, peer, hpeer, -⟩ := h.sound none ((hmem none).2 ⟨hnull, trivial⟩)
      exact absurd hpeer (by simp)
    · obtain ⟨-, peer', heq, hnew⟩ := h.sound _ ((hmem (some peer)).2 ⟨hpeer, fun hk => hk.2 hown⟩)
      obtain rfl := Option.some.inj heq
      exact hnew (hown ▸ List.mem_cons_self)
    · have hnew' : self.IsNew b.info.peerId := hid ▸ hnew
      have heq := List.inj_on_of_nodup_map h.once ((hmem _).2 ⟨ha, hnew.passes⟩)
        ((hmem _).2 ⟨hb, hnew'.passes⟩) (by simp [hid])
      exact Option.some.inj heq
  · intro h
    have hsound : ∀ x ∈ r.2, x ∈ candidates.entries ∧
        ∃ peer, x = some peer ∧ self.IsNew peer.info.peerId := by
      intro x hx
      obtain ⟨hcandidate, hpasses⟩ := (hmem x).1 hx
      cases x with
      | none => exact absurd hcandidate h.entries
      | some peer =>
          have hown := h.others peer hcandidate
          refine ⟨hcandidate, peer, rfl, fun hknown => ?_⟩
          rcases List.mem_cons.1 hknown with heq | hin
          · exact hown heq
          · exact hpasses ⟨hin, hown⟩
    refine ⟨hsound, hnodup.map_on ?_, fun peer hpeer hnew => ?_, hresult⟩
    · intro x hx y hy hid
      obtain ⟨ha, a, rfl, hnew⟩ := hsound x hx
      obtain ⟨hb, b, rfl, -⟩ := hsound y hy
      rw [h.once a b ha hb hnew (by simpa using hid)]
    · exact List.mem_map_of_mem ((hmem _).2 ⟨hpeer, hnew.passes⟩)

/-- `IsUniquePeers` selects the new peers exactly if the candidates are clean, or a null
stops the filter and nothing is new. -/
theorem isUniquePeers_selectsNew_iff (self : Peer) (candidates : Candidates) :
    SelectsNew self candidates.entries (self.isUniquePeers candidates.entries) ↔
      Clean self candidates.entries ∨ ¬ self.Filters candidates.entries ∧
        ∀ peer, some peer ∈ candidates.entries → ¬ self.IsNew peer.info.peerId := by
  have hresult := self.isUniquePeers_fst candidates.entries
  have hselected := self.isUniquePeers_snd candidates.entries
  rcases self.getUniquePeers_cases candidates.entries with
    ⟨hfilters, peers, hpeers, hmem⟩ | ⟨hstops, herror⟩
  · rw [uniquePeers, hpeers] at hselected
    have hsame : ∀ a b, some a ∈ peers → some b ∈ peers → a.ref = b.ref → a = b :=
      fun a b ha hb => candidates.same a b ((hmem _).1 ha).1 ((hmem _).1 hb).1
    rw [selectsNew_iff_clean candidates hresult]
    · simp [hfilters]
    · rw [hselected]
      exact (nodup_distinctGiven peers).of_map
    · intro x
      rw [hselected, mem_distinctGiven_iff hsame, hmem]
  · rw [uniquePeers, herror] at hselected
    have hdirty : ¬ Clean self candidates.entries := fun h =>
      hstops fun hnull => absurd hnull h.entries
    constructor
    · intro h
      refine Or.inr ⟨hstops, fun peer hpeer hnew => ?_⟩
      have hmissing := h.complete peer hpeer hnew
      rw [hselected] at hmissing
      exact absurd hmissing (by simp [candidateIds])
    · rintro (hclean | ⟨-, hold⟩)
      · exact absurd hclean hdirty
      · refine ⟨?_, ?_, fun peer hpeer hnew => absurd hnew (hold peer hpeer), hresult⟩
        · rw [hselected]
          simp
        · rw [hselected]
          exact List.nodup_nil

/-- The own entry is selected. -/
theorem not_isUniquePeers_selectsNew :
    ¬ ∀ (self : Peer) (candidates : Candidates),
        SelectsNew self candidates.entries (self.isUniquePeers candidates.entries) := by
  intro halways
  let own : GivenPeer :=
    { ref := 0, info := { peerId := ⟨1⟩, address := some "10.0.0.1", port := 50420 }
      dial := ⟨false, {}, PacketHelper.quiet⟩ }
  have h := halways { peerId := ⟨1⟩ } ⟨[some own], fun a b ha hb _ => by simp_all⟩
  obtain ⟨-, peer, hpeer, hnew⟩ := h.sound (some own) (by decide)
  obtain rfl := Option.some.inj hpeer
  exact hnew List.mem_cons_self

end Peer

end NETConnect
