import NETConnect.Packet.TryEncryptSend
import NETConnect.Peers.Entries
/-!
# Announcing a departure

The cleanup of `HandleClientConnected` tells every entry that is left about the one that
was removed, through its `PacketHelper`.  `AddPeer` sets one, a multicast Join does not.
-/

namespace NETConnect

open Lib

namespace PacketHelper

variable (P : Platform) (helper : PacketHelper) (io : Ambient)

/-- The encryption type that is selected where none is asked for. -/
abbrev defaultType : PacketEncryptionType := selectedType helper.settings true .none

/-- The socket takes the packet, and where a cipher is selected there is something to send,
which the cipher takes under the key if one is installed. -/
def CanSend (data : Bytes) : Prop :=
  io.alive = true ∧ (helper.defaultType = .none ∨ data ≠ [] ∧
    ∀ key, usableKey helper.encryptionKeys helper.defaultType = some key →
      PacketEncrypted.Takes P io helper.defaultType key data)

/-- The frame carries the data as it is, or sealed by a cipher that took it. -/
def Carries (data : Bytes) (f : Frame) : Prop :=
  f.header.packetEncryptionType = .none ∧ f.packet = data ∨
    ∃ key, usableKey helper.encryptionKeys f.header.packetEncryptionType = some key ∧
      PacketEncrypted.Takes P io f.header.packetEncryptionType key data ∧
      IsSealed P io key f.header.packetEncryptionType data f

variable {P helper io} {data : Bytes} {type : PacketActionType} {f : Frame}

theorem encryptUT8Bytes_ok_of_takes {encryptionType : PacketEncryptionType} {key : Bytes}
    (h : PacketEncrypted.Takes P io encryptionType key data) :
    ∃ payload, PacketEncrypted.encryptUT8Bytes P io data (some key) encryptionType =
      .ok payload := by
  rcases h with ⟨rfl, -⟩ | ⟨rfl, htakes⟩
  · exact ⟨_, rfl⟩
  · obtain ⟨⟨cipher, tag⟩, hcipher⟩ := Option.ne_none_iff_exists'.1 htakes
    exact ⟨_, PacketEncrypted.encryptUT8Bytes_chaCha P hcipher⟩

theorem sendPacket_carries_iff :
    (∃ f, (sendPacket P helper io (some data) type true .none).frame = some f ∧
      Carries P helper io data f) ↔ CanSend P helper io data := by
  constructor
  · rintro ⟨f, hframe, hcarries⟩
    refine ⟨alive_of_sendPacket P helper io hframe, or_iff_not_imp_left.2 fun htype => ?_⟩
    have hdata : data ≠ [] := by
      rintro rfl
      rw [sendPacket_empty P helper io type htype] at hframe
      simp [Sent.nothing] at hframe
    refine ⟨hdata, fun key hkey => ?_⟩
    obtain ⟨hlabel, -⟩ := sendPacket_isSealed P helper io hdata htype hkey hframe
    rcases hcarries with ⟨hclear, -⟩ | ⟨key', hkey', htakes, -⟩
    · exact absurd (hlabel.symm.trans hclear) htype
    · rw [hlabel] at hkey' htakes
      obtain rfl := Option.some.inj (hkey.symm.trans hkey')
      exact htakes
  · rintro ⟨halive, hcan⟩
    by_cases htype : helper.defaultType = .none
    · rw [sendPacket_clear P helper io halive data type htype]
      exact ⟨_, rfl, Or.inl ⟨rfl, rfl⟩⟩
    · obtain ⟨hdata, htakes⟩ := hcan.resolve_left htype
      cases hkey : usableKey helper.encryptionKeys helper.defaultType with
      | none =>
          rw [sendPacket_keyless P helper io halive hdata type htype hkey]
          exact ⟨_, rfl, Or.inl ⟨rfl, rfl⟩⟩
      | some key =>
          obtain ⟨payload, hencrypt⟩ := encryptUT8Bytes_ok_of_takes (htakes key hkey)
          have hsent := sendPacket_encrypted P helper io halive hdata type htype hkey hencrypt
          have hframe := congrArg Sent.frame hsent
          have hsealed := sendPacket_isSealed P helper io hdata htype hkey hframe
          exact ⟨_, hframe, Or.inr ⟨key, hkey, htakes key hkey, hsealed⟩⟩

end PacketHelper

namespace Peer

variable (P : Platform) (keys : ConnId → SecurityKey) (io : ConnId → Ambient)

/-- One packet towards an entry, with the table of the peer that left. -/
def Announces (settings : Option PeerSettings) (left : PeerInfo) (entry : PeerTable)
    (l : ConnId × Frame) : Prop :=
  entry.packetHelper = some l.1 ∧ l.2.header.packetAction = .peerLeave ∧
    PacketHelper.Carries P ⟨settings, keys l.1⟩ (io l.1) (toUTF8Byte (P.peerTable.toJSON left)) l.2

/-- The entry has a `PacketHelper`, and the table can be sent through it. -/
def CanAnnounce (settings : Option PeerSettings) (left : PeerInfo) (entry : PeerTable) : Prop :=
  ∃ c, entry.packetHelper = some c ∧
    PacketHelper.CanSend P ⟨settings, keys c⟩ (io c) (toUTF8Byte (P.peerTable.toJSON left))

/-- The cleanup returns, the peer is gone, and every entry that is left gets one packet. -/
structure AnnouncedToEveryone (p : PeerTable) (r : Peer × List (ConnId × Frame) × Option Exn) :
    Prop where
  returns : r.2.2 = none
  removed : p ∉ r.1.connectedPeers
  announced : List.Forall₂ (Announces P keys io r.1.settings p.info) r.1.connectedPeers r.2.1

variable {P keys io} {self : Peer} {left : PeerInfo}

theorem length_announceLeave_le (entries : List PeerTable) :
    (self.announceLeave P keys io left entries).1.length ≤ entries.length := by
  induction entries with
  | nil => exact Nat.le_refl 0
  | cons entry entries ih =>
      rw [announceLeave]
      split
      · exact Nat.zero_le _
      · simp only [List.length_append, List.length_map, List.length_cons, Option.length_toList]
        split_ifs <;> omega

/-- By induction on the entries: each contributes its one packet, or there are too few. -/
theorem announceLeave_iff (entries : List PeerTable) :
    ((self.announceLeave P keys io left entries).2 = none ∧
        List.Forall₂ (Announces P keys io self.settings left) entries
          (self.announceLeave P keys io left entries).1) ↔
      ∀ entry ∈ entries, CanAnnounce P keys io self.settings left entry := by
  induction entries with
  | nil => simp [announceLeave]
  | cons entry entries ih =>
      rw [List.forall_mem_cons, ← ih, announceLeave]
      have hshort : (self.announceLeave P keys io left entries).1.length ≤ entries.length :=
        length_announceLeave_le entries
      cases hhelper : entry.packetHelper with
      | none => simp [CanAnnounce, hhelper]
      | some c =>
          have hcan : CanAnnounce P keys io self.settings left entry ↔ ∃ f,
              (PacketHelper.sendPacket P ⟨self.settings, keys c⟩ (io c)
                (some (toUTF8Byte (P.peerTable.toJSON left))) .peerLeave true .none).frame =
                  some f ∧ PacketHelper.Carries P ⟨self.settings, keys c⟩ (io c)
                    (toUTF8Byte (P.peerTable.toJSON left)) f := by
            rw [PacketHelper.sendPacket_carries_iff, CanAnnounce, hhelper]
            simp
          rw [hcan]
          cases hframe : (PacketHelper.sendPacket P ⟨self.settings, keys c⟩ (io c)
              (some (toUTF8Byte (P.peerTable.toJSON left))) .peerLeave true .none).frame with
          | none =>
              -- one packet is missing
              refine iff_of_false (fun h => ?_) (by simp)
              have hlength := h.2.length_eq
              simp only [hframe, Option.toList_none, List.map_nil, List.nil_append,
                List.length_cons] at hlength
              omega
          | some f =>
              have haction := PacketHelper.sendPacket_action P _ _ hframe
              simp only [hframe, Option.toList_some, List.map_cons, List.map_nil,
                List.singleton_append, List.forall₂_cons, Option.some.injEq, exists_eq_left']
              rw [Announces, hhelper, and_iff_right rfl, and_iff_right haction]
              constructor
              · rintro ⟨hreturns, hcarries, hrest⟩
                exact ⟨hcarries, hreturns, hrest⟩
              · rintro ⟨hcarries, hreturns, hrest⟩
                exact ⟨hreturns, hcarries, hrest⟩

theorem mem_eraseP_ref_iff {entries : List PeerTable} (h : (entries.map PeerTable.ref).Nodup)
    {p : PeerTable} (hp : p ∈ entries) (x : PeerTable) :
    x ∈ entries.eraseP (fun y => y.ref = p.ref) ↔ x ∈ entries ∧ x ≠ p := by
  induction entries with
  | nil => simp at hp
  | cons entry entries ih =>
      rw [List.map_cons, List.nodup_cons] at h
      by_cases href : entry.ref = p.ref
      · have hsame : entry = p := by
          rcases List.mem_cons.1 hp with rfl | hrest
          · rfl
          · exact absurd (href ▸ List.mem_map_of_mem hrest) h.1
        have hfresh : p ∉ entries := fun hmem => h.1 (href ▸ List.mem_map_of_mem hmem)
        rw [List.eraseP_cons_of_pos (by simpa using href), hsame, List.mem_cons]
        constructor
        · intro hx
          exact ⟨Or.inr hx, fun heq => hfresh (heq ▸ hx)⟩
        · rintro ⟨rfl | hx, hne⟩
          · exact absurd rfl hne
          · exact hx
      · have hrest : p ∈ entries := by
          rcases List.mem_cons.1 hp with rfl | hrest
          · exact absurd rfl href
          · exact hrest
        have hother : entry ≠ p := fun heq => href (heq ▸ rfl)
        rw [List.eraseP_cons_of_neg (by simpa using href), List.mem_cons, List.mem_cons,
          ih h.2 hrest]
        constructor
        · rintro (rfl | ⟨hx, hne⟩)
          · exact ⟨Or.inl rfl, hother⟩
          · exact ⟨Or.inr hx, hne⟩
        · rintro ⟨rfl | hx, hne⟩
          · exact Or.inl rfl
          · exact Or.inr ⟨hx, hne⟩

theorem findPeerById_mem {handles : ConnId → Guid} {id : Guid} {client : ConnId}
    {entry : PeerTable} (h : self.findPeerById handles id = some (client, entry)) :
    entry ∈ self.connectedPeers := by
  obtain ⟨found, hfound, h⟩ := Option.bind_eq_some_iff.1 h
  obtain ⟨client', -, h⟩ := Option.bind_eq_some_iff.1 h
  obtain ⟨-, rfl⟩ := Prod.mk.inj (Option.some.inj h)
  exact List.mem_of_find?_eq_some hfound

theorem removeClient_none {handles : ConnId → Guid} {id : Guid}
    (h : self.findPeerById handles id = none) :
    self.removeClient P keys handles io id = (self, [], none) := by
  rw [removeClient, h]
  split
  · rename_i hfound
    simp at hfound
  · rfl

theorem removeClient_some {handles : ConnId → Guid} {id : Guid} {client : ConnId}
    {entry : PeerTable} (h : self.findPeerById handles id = some (client, entry)) :
    self.removeClient P keys handles io id =
      let self' := { self with
        clients := self.clients.erase client
        connectedPeers := self.connectedPeers.eraseP fun x => x.ref = entry.ref }
      (self', self'.announceLeave P keys io entry.info self'.connectedPeers) := by
  have hmode : self.operationMode = .peer := by
    have hne : self.connectedPeers.length ≠ 0 := by
      intro hnil
      rw [List.length_eq_zero_iff] at hnil
      exact absurd (hnil ▸ findPeerById_mem h) (by simp)
    rw [operationMode, if_neg hne]
  rw [removeClient, hmode, h]

theorem announceLeave_threw_iff (entries : List PeerTable) :
    (self.announceLeave P keys io left entries).2 ≠ none ↔
      ∃ entry ∈ entries, entry.packetHelper = none := by
  induction entries with
  | nil => simp [announceLeave]
  | cons entry entries ih =>
      rw [announceLeave, List.exists_mem_cons_iff]
      cases hhelper : entry.packetHelper with
      | none => simp
      | some c =>
          rw [← ih]
          simp

theorem removeClient_threw_iff {handles : ConnId → Guid} {id : Guid} :
    (self.removeClient P keys handles io id).2.2 ≠ none ↔
      ∃ client entry, self.findPeerById handles id = some (client, entry) ∧
        ∃ other ∈ self.connectedPeers.eraseP fun x => x.ref = entry.ref,
          other.packetHelper = none := by
  cases hfind : self.findPeerById handles id with
  | none =>
      rw [removeClient_none hfind]
      simp
  | some found =>
      obtain ⟨client, entry⟩ := found
      rw [removeClient_some hfind]
      simp only [announceLeave_threw_iff, Option.some.injEq, Prod.mk.injEq]
      constructor
      · intro h
        exact ⟨client, entry, ⟨rfl, rfl⟩, h⟩
      · rintro ⟨client', entry', ⟨rfl, rfl⟩, h⟩
        exact h

theorem announcedToEveryone_iff (h : self.Numbered) {p : PeerTable}
    (hp : p ∈ self.connectedPeers) (handles : ConnId → Guid) (id : Guid) :
    AnnouncedToEveryone P keys io p (self.removeClient P keys handles io id) ↔
      (∃ client, self.findPeerById handles id = some (client, p)) ∧
        ∀ entry ∈ self.connectedPeers, entry ≠ p →
          CanAnnounce P keys io self.settings p.info entry := by
  cases hfind : self.findPeerById handles id with
  | none =>
      rw [removeClient_none hfind]
      exact iff_of_false (fun hannounced => hannounced.removed hp) (by simp)
  | some found =>
      obtain ⟨client, entry⟩ := found
      rw [removeClient_some hfind]
      have hentry := findPeerById_mem hfind
      rcases eq_or_ne entry p with rfl | hne
      · have hleft := mem_eraseP_ref_iff h.nodup hp
        have hiff := @announceLeave_iff P keys io
          { self with
            clients := self.clients.erase client
            connectedPeers := self.connectedPeers.eraseP fun x => x.ref = entry.ref }
          entry.info (self.connectedPeers.eraseP fun x => x.ref = entry.ref)
        constructor
        · intro hannounced
          refine ⟨⟨client, rfl⟩, fun other hother hother' => ?_⟩
          exact hiff.1 ⟨hannounced.returns, hannounced.announced⟩ other
            ((hleft other).2 ⟨hother, hother'⟩)
        · rintro ⟨-, hall⟩
          obtain ⟨hreturns, hannounced⟩ := hiff.2 fun other hother =>
            hall other ((hleft other).1 hother).1 ((hleft other).1 hother).2
          exact ⟨hreturns, fun hmem => ((hleft entry).1 hmem).2 rfl, hannounced⟩
      · refine iff_of_false (fun hannounced => hannounced.removed ?_) ?_
        · refine (List.mem_eraseP_of_neg ?_).2 hp
          have href : p.ref ≠ entry.ref := fun heq => hne (h.eq_of_ref hentry hp heq.symm)
          simpa using href
        · rintro ⟨⟨client', heq⟩, -⟩
          exact hne (Prod.mk.inj (Option.some.inj heq)).2

end Peer

namespace Registry

/-- In every state that is reached: the departure of a peer is announced to everyone exactly
if the cleanup finds its entry by the id of the handle, and every other entry can be told. -/
theorem removeClient_announced_iff (P : Platform) (isIPAddress : String → Bool) (peerId : Guid)
    (settings : Option PeerSettings) (es : List Event) (s : Registry) (os : List Exn)
    (hrun : (registry P isIPAddress).run (start peerId settings) es = some (s, os))
    (p : PeerTable) (hp : p ∈ s.self.connectedPeers) (c : ConnId) (keys : ConnId → SecurityKey)
    (io : ConnId → Ambient) :
    Peer.AnnouncedToEveryone P keys io p
        (s.self.removeClient P keys (fun c => (s.conns c).id) io (s.conns c).id) ↔
      (∃ client, s.self.findPeerById (fun c => (s.conns c).id) (s.conns c).id =
          some (client, p)) ∧
        ∀ entry ∈ s.self.connectedPeers, entry ≠ p →
          Peer.CanAnnounce P keys io s.self.settings p.info entry :=
  Peer.announcedToEveryone_iff (numbered_of_run hrun) hp _ _

/-- Somebody's entry. -/
def someonesEntry (ref : Nat) : PeerTable := { ref, info := someone, packetHelper := some 0 }

/-- Another peer, and the text of it. -/
def someoneElse : PeerInfo := { peerId := ⟨3⟩, address := some "10.0.0.3", port := 50420 }

def someoneElseText : String :=
  "\x7b\"PeerId\":\"00000000-0000-0000-0000-000000000003\",\"Address\":\"10.0.0.3\"," ++
    "\"Port\":50420\x7d"

/-- Of peer tables it knows those of the two. -/
def readsTwo : Platform :=
  { readsSomeone with
    peerTable :=
      { serialize := fun info => some (if info = someone then someoneText else someoneElseText)
        deserialize := fun s =>
          if s = someoneText then some (some someone)
          else if s = someoneElseText then some (some someoneElse) else none } }

/-- It joins on the second connection. -/
def joinSomeoneElse : ClientEvent :=
  .peerJoin 1 ⟨PacketHelper.quiet, (0 : Nat), true, true⟩ (.create 0 .peerJoin .none 0)
    (toUTF8Byte someoneElseText)

def someoneElsesEntry : PeerTable := { ref := 1, info := someoneElse, packetHelper := some 1 }

/-- The keys of connections that have one. -/
def sevens : SecurityKey := { chaChaKey := some (List.replicate 32 7) }

theorem canSend_sevens {data : Bytes} (hdata : data ≠ []) :
    PacketHelper.CanSend readsTwo ⟨some {}, sevens⟩ PacketHelper.quiet data := by
  refine ⟨rfl, Or.inr ⟨hdata, fun key hkey => Or.inr ⟨rfl, ?_⟩⟩⟩
  change (Reference.chaChaEncrypt key PacketHelper.quiet.nonce data) ≠ none
  have hsevens : PacketHelper.usableKey sevens .chaCha20Poly1305 = some (List.replicate 32 7) := by
    decide
  obtain rfl := Option.some.inj (hsevens.symm.trans hkey)
  rw [Reference.chaChaEncrypt, if_pos ⟨List.length_replicate, rfl⟩]
  simp

/-- The first of two peers leaves, and the other one is told. -/
theorem removeClient_announced_iff_two :
    ∃ s os, (registry readsTwo fun _ => true).run (start ⟨1⟩ (some {}))
        [.client connectNow, .client joinSomeone, .client connectNow, .client joinSomeoneElse] =
          some (s, os) ∧
      s.self.connectedPeers = [someonesEntry 0, someoneElsesEntry] ∧
      Peer.AnnouncedToEveryone readsTwo (fun _ => sevens) (fun _ => PacketHelper.quiet)
        (someonesEntry 0) (s.self.removeClient readsTwo (fun _ => sevens)
          (fun c => (s.conns c).id) (fun _ => PacketHelper.quiet) (s.conns 0).id) := by
  have hreached : ((registry readsTwo fun _ => true).run (start ⟨1⟩ (some {}))
      [.client connectNow, .client joinSomeone, .client connectNow, .client joinSomeoneElse]).map
        (fun r => (r.1.self.connectedPeers, r.1.self.settings,
          r.1.self.findPeerById (fun c => (r.1.conns c).id) (r.1.conns 0).id)) =
      some ([someonesEntry 0, someoneElsesEntry], some {}, some (0, someonesEntry 0)) := by
    decide +kernel
  obtain ⟨⟨s, os⟩, hrun, hreached⟩ := Option.map_eq_some_iff.1 hreached
  obtain ⟨hpeers, hreached⟩ := Prod.mk.inj hreached
  obtain ⟨hsettings, hfound⟩ := Prod.mk.inj hreached
  refine ⟨s, os, hrun, hpeers, (removeClient_announced_iff readsTwo (fun _ => true) ⟨1⟩ (some {})
    _ s os hrun (someonesEntry 0) (by rw [hpeers]; exact List.mem_cons_self) 0 _ _).2
    ⟨⟨0, hfound⟩, fun entry hentry hne => ?_⟩⟩
  rw [hpeers] at hentry
  rcases List.mem_cons.1 hentry with rfl | hother
  · exact absurd rfl hne
  · obtain rfl := List.mem_singleton.1 hother
    rw [hsettings]
    exact ⟨1, rfl, canSend_sevens (by decide +kernel)⟩

/-- Another peer was found by multicast before. -/
theorem not_removeClient_announced :
    ¬ ∀ (P : Platform) (isIPAddress : String → Bool) (peerId : Guid)
        (settings : Option PeerSettings) (es : List Event) (s : Registry) (os : List Exn),
        (registry P isIPAddress).run (start peerId settings) es = some (s, os) →
        ∀ p ∈ s.self.connectedPeers, ∀ (c : ConnId), p.packetHelper = some c →
        ∀ (keys : ConnId → SecurityKey) (io : ConnId → Ambient),
          Peer.AnnouncedToEveryone P keys io p
            (s.self.removeClient P keys (fun c => (s.conns c).id) io (s.conns c).id) := by
  intro halways
  have hreached : ((registry readsSomeone fun _ => true).run (start ⟨1⟩ (some {}))
      [.multicast ⟨true, {}, PacketHelper.quiet⟩
        ⟨⟨3⟩, some (toUTF8Byte "10.0.0.3:50420"), .join⟩,
        .client connectNow, .client joinSomeone]).map (fun r =>
        (decide (someonesEntry 1 ∈ r.1.self.connectedPeers),
          (r.1.self.removeClient readsSomeone (fun _ => {}) (fun c => (r.1.conns c).id)
            (fun _ => PacketHelper.quiet) (r.1.conns 0).id).2.2)) =
      some (true, some .nullReference) := by decide +kernel
  obtain ⟨⟨s, os⟩, hrun, hreached⟩ := Option.map_eq_some_iff.1 hreached
  obtain ⟨hmem, hthrows⟩ := Prod.mk.inj hreached
  have h := halways _ _ _ _ _ s os hrun (someonesEntry 1) (of_decide_eq_true hmem) 0 rfl
    (fun _ => {}) (fun _ => PacketHelper.quiet)
  exact absurd (hthrows.symm.trans h.returns) (by simp)

end Registry

end NETConnect
