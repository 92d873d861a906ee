import NETConnect.Multicast.Discovery
import NETConnect.Peers.KnownPeers
/-!
# The whole network

Each node reads multicasts, serves the clients that connect to it, and connects to the
nodes that it discovers.  Its reader and its server change the same table of peers, and
over the connections go the lists of known peers.
-/

namespace NETConnect

open Lib SocketExtensions

/-- The server of each node comes with the clients that have connected to it. -/
structure Mesh (ι : Type) where
  network : Network ι
  sessions : ι → Session

namespace Mesh

variable {ι : Type} [DecidableEq ι]

inductive Event (ι : Type)
  | announce (i : ι)
  /-- a datagram of `j` is received by `i`; if `i` sends its peers then on connection `c` -/
  | deliver (i j : ι) (dial : Dial) (c : ConnId)
  | foreign (i : ι) (received : Bytes) (dial : Dial)
  /-- a step of the server of `i` or of a client that is connected to it -/
  | session (i : ι) (e : Session.Event)

inductive Output (ι : Type)
  | joined (i : ι) (f : Frame)
  | session (i : ι) (o : Session.Output)

/-- What the readers see of it. -/
def Event.datagram : Event ι → Option (Network.Event ι)
  | .announce i => some (.announce i)
  | .deliver i j dial _ => some (.deliver i j dial)
  | .foreign i received dial => some (.foreign i received dial)
  | .session _ _ => none

/-- What the server of `i` and its clients have of it. -/
def Output.atSession (i : ι) : Output ι → Option Session.Output
  | .session i' o => if i' = i then some o else none
  | .joined _ _ => none

def start (nodes : ι → Node) : Mesh ι where
  network := .start nodes
  sessions i := .start { peerId := (nodes i).peerId, settings := (nodes i).settings }

/-- `c` is a connection of `i` to the server of `j`, and its keys are those of `dial`. -/
def Dialled (nodes : ι → Node) (s : Mesh ι) (i j : ι) (dial : Dial) (c : ConnId) : Prop :=
  c < (s.sessions j).connected ∧ ((s.sessions j).clients c).peerId = (nodes i).peerId ∧
    ((s.sessions j).clients c).keys = dial.keys

instance (nodes : ι → Node) (s : Mesh ι) (i j : ι) (dial : Dial) (c : ConnId) :
    Decidable (s.Dialled nodes i j dial c) :=
  inferInstanceAs (Decidable (_ ∧ _ ∧ _))

section Machine

variable (P : Platform) (J : JsonSerializer MulticastPacket (Option MulticastPacket))
  (isIPAddress : String → Bool) (nodes : ι → Node)

/-- A reader takes a turn; its server has the same peer. -/
def read (s : Mesh ι) (e : Network.Event ι) : Option (Mesh ι × List (ι × Frame)) :=
  ((Network.network P J isIPAddress nodes).step s.network e).map fun r =>
    ({ network := r.1
       sessions := fun i => { s.sessions i with
         server := { (s.sessions i).server with self := (r.1.readers i).self } } }, r.2)

/-- Frames go out to the server of `j` on connection `c`. -/
def send (s : Mesh ι) (j : ι) (c : ConnId) (fs : List Frame) : Mesh ι :=
  { s with sessions := Function.update s.sessions j { s.sessions j with
      toServer := Function.update (s.sessions j).toServer c ((s.sessions j).toServer c ++ fs) } }

def mesh : Machine (Mesh ι) (Event ι) (Output ι) where
  step s e :=
    match e with
    | .announce i => (s.read P J isIPAddress nodes (.announce i)).map fun r => (r.1, [])
    | .foreign i received dial =>
        (s.read P J isIPAddress nodes (.foreign i received dial)).map fun r => (r.1, [])
    | .deliver i j dial c =>
        (s.read P J isIPAddress nodes (.deliver i j dial)).bind fun r =>
          if r.2 = [] ∨ s.Dialled nodes i j dial c then
            some (r.1.send j c (r.2.map Prod.snd), r.2.map fun x => .joined x.1 x.2)
          else none
    | .session i e =>
        ((Session.session P).step (s.sessions i) e).map fun r =>
          ({ network := { s.network with
               readers := Function.update s.network.readers i
                 { s.network.readers i with self := r.1.server.self } }
             sessions := Function.update s.sessions i r.1 }, r.2.map (.session i))

end Machine

variable {P : Platform} {J : JsonSerializer MulticastPacket (Option MulticastPacket)}
  {isIPAddress : String → Bool} {nodes : ι → Node} {key : Option (RandomData 32)}

/-! ## What a datagram makes a node send -/

theorem isList_of_join (hlists : P.ListsAreArrays) {dial : Dial} (hkeys : MayHold key dial.keys)
    {self self' : Peer} {packet : MulticastPacket} {f : Frame}
    (h : Multicast.join P isIPAddress dial self packet = .ok (self', some f)) :
    IsList P key f := by
  unfold Multicast.join at h
  obtain ⟨⟨address, port⟩, -, h⟩ := Exn.bind_eq_ok.1 h
  obtain ⟨connected, -, h⟩ := Exn.bind_eq_ok.1 h
  cases connected with
  | false => simp [pure, Except.pure] at h
  | true =>
      exact ⟨_, Session.writtenFor_of_mayHold hkeys (hlists.toUTF8Byte_ne_nil _)
        (Prod.mk.inj (Except.ok.inj h)).2⟩

theorem isList_of_handleDatagram (hlists : P.ListsAreArrays) {dial : Dial}
    (hkeys : MayHold key dial.keys) {self : Peer} {senderId : Guid} {received : Bytes} {f : Frame}
    (h : (Multicast.handleDatagram P J isIPAddress dial self senderId received).sent = some f) :
    IsList P key f := by
  unfold Multicast.handleDatagram at h
  split at h
  · simp at h
  · simp at h
  · split_ifs at h
    · unfold Multicast.handleOnMulticastMessage at h
      simp only at h
      split_ifs at h
      · split at h
        · rename_i joined sent hjoin
          obtain rfl : sent = some f := h
          exact isList_of_join hlists hkeys hjoin
        · simp at h

theorem isList_of_read (hlists : P.ListsAreArrays) {s : Mesh ι} {i j : ι} {dial : Dial}
    (hkeys : MayHold key dial.keys) {r : Mesh ι × List (ι × Frame)}
    (h : s.read P J isIPAddress nodes (.deliver i j dial) = some r) {x : ι × Frame} (hx : x ∈ r.2) :
    IsList P key x.2 := by
  obtain ⟨r', hstep, rfl⟩ := Option.map_eq_some_iff.1 h
  simp only [Network.network] at hstep
  split_ifs at hstep
  obtain ⟨received, -, hreceive⟩ := Option.bind_eq_some_iff.1 hstep
  obtain ⟨reading, hreading, rfl⟩ := Option.map_eq_some_iff.1 hreceive
  simp only [Multicast.readMulticast] at hreading
  split_ifs at hreading
  obtain rfl := Option.some.inj hreading
  obtain ⟨f, hf, rfl⟩ := List.mem_map.1 hx
  exact isList_of_handleDatagram hlists hkeys (Option.mem_toList.1 hf)

/-! ## One step -/

variable {es : List (Event ι)} {s t : Mesh ι} {os o : List (Output ι)} {e : Event ι}

/-- The readers have their tables, the servers have the same, and on the connections are
lists only. -/
structure Calm (P : Platform) (nodes : ι → Node) (es : List (Event ι)) (s : Mesh ι)
    (os : List (Output ι)) : Prop where
  mapped : Network.Mapped nodes (es.filterMap Event.datagram) s.network
  shares : ∀ i, (s.sessions i).server.self = (s.network.readers i).self
  peaceful : ∀ i, Session.Peaceful P (s.sessions i) (os.filterMap (Output.atSession i))

theorem calm_start (P : Platform) (nodes : ι → Node) : Calm P nodes [] (start nodes) [] where
  mapped := Network.mapped_start nodes
  shares _ := rfl
  peaceful _ := Session.peaceful_start P _

/-- Nobody but the readers changes the tables, or sends peers. -/
def LeavesPeers : Event ι → Prop
  | .session _ e => Session.LeavesPeers e
  | _ => True

theorem not_mem_ids (hne : ∀ i, (nodes i).peerId ≠ .empty) {ds : List (Network.Event ι)}
    {network : Network ι} (h : Network.Mapped nodes ds network) (i : ι) :
    Guid.empty ∉ (network.readers i).self.ids := by
  intro hmem
  have hids : (network.readers i).self.ids =
      (Network.table nodes i ds).map PeerInfo.peerId := by
    rw [← (h i).known, List.map_map]
    rfl
  rw [hids, Network.table, List.map_map] at hmem
  obtain ⟨j, -, hid⟩ := List.mem_map.1 hmem
  exact hne j hid

theorem Has.sameTable {node : Node} {known : List PeerInfo} {reader : Multicast.Reader}
    {self : Peer} (h : Network.Has node known reader) (hsame : reader.self.SameTable self) :
    Network.Has node known { reader with self } where
  alive := h.alive
  peerId := hsame.peerId.trans h.peerId
  senderId := h.senderId
  numbered := hsame.numbered h.numbered
  known := by rw [hsame.connectedPeers, h.known]

theorem Peaceful.withSelf {s : Session} {os : List Session.Output}
    (h : Session.Peaceful P s os) (self : Peer) :
    Session.Peaceful P { s with server := { s.server with self } } os where
  sound := ⟨h.sound.accepted, h.sound.fresh, h.sound.known, h.sound.sound⟩
  own := h.own
  ids := h.ids
  lists := h.lists
  stays := h.stays

theorem Peaceful.send {s : Session} {os : List Session.Output} (h : Session.Peaceful P s os)
    {c : ConnId} {fs : List Frame}
    (hfs : ∀ key, Session.Generated os c key → ∀ f ∈ fs, IsList P key f) :
    Session.Peaceful P
      { s with toServer := Function.update s.toServer c (s.toServer c ++ fs) } os := by
  have hold : ∀ c' f, f ∈ Function.update s.toServer c (s.toServer c ++ fs) c' →
      f ∈ s.toServer c' ∨ c' = c ∧ f ∈ fs := by
    intro c' f hf
    rcases eq_or_ne c' c with rfl | hne
    · rw [Function.update_self] at hf
      exact (List.mem_append.1 hf).imp_right fun hnew => ⟨rfl, hnew⟩
    · rw [Function.update_of_ne hne] at hf
      exact Or.inl hf
  refine ⟨h.sound.also (fun c' f hf => ?_) fun c' f hf => Or.inl hf, h.own, h.ids, ?_, h.stays⟩
  · refine (hold c' f hf).imp_right ?_
    rintro ⟨rfl, hnew⟩
    obtain ⟨key, hgenerated, -⟩ := h.sound.sound c'
    obtain ⟨infos, hwritten⟩ := hfs key hgenerated f hnew
    have haction : f.header.packetAction = .peerJoin := hwritten.action
    rw [haction]
    decide
  · intro c' key hgenerated f hf haction
    rcases hold c' f hf with hthere | ⟨rfl, hnew⟩
    · exact h.lists c' key hgenerated f hthere haction
    · exact hfs key hgenerated f hnew

theorem Calm.read (hJ : J.RoundTrips) (hids : Function.Injective fun i => (nodes i).peerId)
    (haddress : ∀ i, isIPAddress (nodes i).address = true) (h : Calm P nodes es s os)
    {d : Network.Event ι} (hd : e.datagram = some d) {r : Mesh ι × List (ι × Frame)}
    (hread : s.read P J isIPAddress nodes d = some r)
    (hsilent : ∀ i, o.filterMap (Output.atSession i) = []) :
    Calm P nodes (es ++ [e]) r.1 (os ++ o) := by
  obtain ⟨r', hstep, rfl⟩ := Option.map_eq_some_iff.1 hread
  refine ⟨?_, fun i => rfl, fun i => ?_⟩
  · rw [List.filterMap_append, List.filterMap_cons_some hd]
    exact h.mapped.step hJ hids haddress hstep
  · rw [List.filterMap_append, hsilent i, List.append_nil]
    exact Peaceful.withSelf (h.peaceful i) _

theorem silent_joined (fs : List (ι × Frame)) (i : ι) :
    (fs.map fun x => Output.joined x.1 x.2).filterMap (Output.atSession i) = [] := by
  rw [List.filterMap_map]
  exact List.filterMap_eq_nil_iff.2 fun _ _ => rfl

theorem Calm.isList (hlists : P.ListsAreArrays) (h : Calm P nodes es s os) {i j : ι}
    {dial : Dial} {c : ConnId} {r : Mesh ι × List (ι × Frame)}
    (hread : s.read P J isIPAddress nodes (.deliver i j dial) = some r)
    (hsends : r.2 = [] ∨ s.Dialled nodes i j dial c) {key : Option (RandomData 32)}
    (hgenerated : Session.Generated (os.filterMap (Output.atSession j)) c key) :
    ∀ f ∈ r.2.map Prod.snd, IsList P key f := by
  intro f hf
  obtain ⟨x, hx, rfl⟩ := List.mem_map.1 hf
  rcases hsends with hnone | ⟨-, -, hkeys⟩
  · simp [hnone] at hx
  · obtain ⟨key', hgenerated', hsound⟩ := (h.peaceful j).sound.sound c
    obtain rfl : key = key' := hgenerated.unique hgenerated'
    refine isList_of_read hlists ?_ hread hx
    rw [← hkeys]
    exact hsound.mayHold

theorem Calm.send (h : Calm P nodes es s os) {j : ι} {c : ConnId} {fs : List Frame}
    (hfs : ∀ key, Session.Generated (os.filterMap (Output.atSession j)) c key →
      ∀ f ∈ fs, IsList P key f) : Calm P nodes es (s.send j c fs) os := by
  refine ⟨h.mapped, fun i => ?_, fun i => ?_⟩
  · rcases eq_or_ne i j with rfl | hother
    · simp only [Mesh.send, Function.update_self]
      exact h.shares i
    · simp only [Mesh.send, Function.update_of_ne hother]
      exact h.shares i
  · rcases eq_or_ne i j with rfl | hother
    · simp only [Mesh.send, Function.update_self]
      exact Peaceful.send (h.peaceful i) hfs
    · simp only [Mesh.send, Function.update_of_ne hother]
      exact h.peaceful i

theorem Calm.session (laws : Session.CarriageLaws P) (hlists : P.ListsAreArrays)
    (hne : ∀ i, (nodes i).peerId ≠ .empty) (h : Calm P nodes es s os) {i : ι}
    {e : Session.Event} (hleaves : Session.LeavesPeers e) {u : Session}
    {o : List Session.Output} (hstep : (Session.session P).step (s.sessions i) e = some (u, o)) :
    Calm P nodes (es ++ [.session i e])
      { network := { s.network with
          readers := Function.update s.network.readers i
            { s.network.readers i with self := u.server.self } }
        sessions := Function.update s.sessions i u } (os ++ o.map (.session i)) := by
  have hself := h.shares i
  obtain ⟨hpeaceful, htable⟩ := (h.peaceful i).step laws hlists
    (by rw [hself]; exact (h.mapped i).numbered)
    (by rw [hself]; exact not_mem_ids hne h.mapped i) hleaves hstep
  have hds : (es ++ [Event.session i e]).filterMap Event.datagram =
      es.filterMap Event.datagram := by
    rw [List.filterMap_append]
    simp [Event.datagram]
  have hos : ∀ i', (os ++ o.map (Output.session i)).filterMap (Output.atSession i') =
      os.filterMap (Output.atSession i') ++ if i' = i then o else [] := by
    intro i'
    rw [List.filterMap_append, List.filterMap_map]
    split_ifs with hi
    · simp [Output.atSession, hi]
    · simp [Function.comp_def, Output.atSession, Ne.symm hi]
  refine ⟨fun i' => ?_, fun i' => ?_, fun i' => ?_⟩
  · rw [hds]
    rcases eq_or_ne i' i with rfl | hother
    · simp only [Function.update_self]
      refine Has.sameTable (h.mapped i') ?_
      rwa [← hself]
    · simp only [Function.update_of_ne hother]
      exact h.mapped i'
  · rcases eq_or_ne i' i with rfl | hother
    · simp only [Function.update_self]
    · simp only [Function.update_of_ne hother]
      exact h.shares i'
  · rw [hos]
    rcases eq_or_ne i' i with rfl | hother
    · simp only [Function.update_self, if_true]
      exact hpeaceful
    · simp only [Function.update_of_ne hother, if_neg hother, List.append_nil]
      exact h.peaceful i'

theorem Calm.step (laws : Session.CarriageLaws P) (hlists : P.ListsAreArrays) (hJ : J.RoundTrips)
    (hids : Function.Injective fun i => (nodes i).peerId)
    (hne : ∀ i, (nodes i).peerId ≠ .empty)
    (haddress : ∀ i, isIPAddress (nodes i).address = true) (h : Calm P nodes es s os)
    (hleaves : LeavesPeers e) (hstep : (mesh P J isIPAddress nodes).step s e = some (t, o)) :
    Calm P nodes (es ++ [e]) t (os ++ o) := by
  cases e with
  | announce i =>
      simp only [mesh] at hstep
      obtain ⟨r, hread, hr⟩ := Option.map_eq_some_iff.1 hstep
      obtain ⟨rfl, rfl⟩ := Prod.mk.inj hr
      exact h.read hJ hids haddress rfl hread fun _ => rfl
  | foreign i received dial =>
      simp only [mesh] at hstep
      obtain ⟨r, hread, hr⟩ := Option.map_eq_some_iff.1 hstep
      obtain ⟨rfl, rfl⟩ := Prod.mk.inj hr
      exact h.read hJ hids haddress rfl hread fun _ => rfl
  | deliver i j dial c =>
      simp only [mesh] at hstep
      obtain ⟨r, hread, hr⟩ := Option.bind_eq_some_iff.1 hstep
      split_ifs at hr with hsends
      obtain ⟨rfl, rfl⟩ := Prod.mk.inj (Option.some.inj hr)
      refine (h.read hJ hids haddress rfl hread (silent_joined r.2)).send fun key hgenerated => ?_
      rw [List.filterMap_append, silent_joined, List.append_nil] at hgenerated
      exact h.isList hlists hread hsends hgenerated
  | session i e =>
      simp only [mesh] at hstep
      obtain ⟨⟨u, o'⟩, hsession, hr⟩ := Option.map_eq_some_iff.1 hstep
      obtain ⟨rfl, rfl⟩ := Prod.mk.inj hr
      exact h.session laws hlists hne hleaves hsession

/-! ## Any run -/

theorem calm_of_run (laws : Session.CarriageLaws P) (hlists : P.ListsAreArrays)
    (hJ : J.RoundTrips) (hids : Function.Injective fun i => (nodes i).peerId)
    (hne : ∀ i, (nodes i).peerId ≠ .empty)
    (haddress : ∀ i, isIPAddress (nodes i).address = true) (hleaves : ∀ e ∈ es, LeavesPeers e)
    (hrun : (mesh P J isIPAddress nodes).run (start nodes) es = some (s, os)) :
    Calm P nodes es s os := by
  induction es using List.reverseRecOn generalizing s os with
  | nil =>
      obtain ⟨rfl, rfl⟩ := Prod.mk.inj (Option.some.inj hrun)
      exact calm_start P nodes
  | append_singleton es e ih =>
      obtain ⟨u, o, o', hpre, hlast, rfl⟩ := Machine.run_append_iff.1 hrun
      exact (ih (fun e' he' => hleaves e' (List.mem_append_left _ he')) hpre).step laws hlists hJ
        hids hne haddress (hleaves e (List.mem_append_right _ List.mem_cons_self))
        (Machine.run_singleton_iff.1 hlast)

/-- Whatever the servers and the clients do, and whatever connections are lost: the table
of a node is what its datagrams made of it, no handle is linked to a peer, and no server
tells that a peer has left. -/
theorem mesh_tables (P : Platform) (laws : Session.CarriageLaws P) (hlists : P.ListsAreArrays)
    (J : JsonSerializer MulticastPacket (Option MulticastPacket)) (hJ : J.RoundTrips)
    (isIPAddress : String → Bool) (nodes : ι → Node)
    (hids : Function.Injective fun i => (nodes i).peerId)
    (hne : ∀ i, (nodes i).peerId ≠ .empty)
    (haddress : ∀ i, isIPAddress (nodes i).address = true) (es : List (Event ι))
    (hleaves : ∀ e ∈ es, LeavesPeers e) (s : Mesh ι) (os : List (Output ι))
    (hrun : (mesh P J isIPAddress nodes).run (start nodes) es = some (s, os)) (i : ι) :
    (s.sessions i).server.self.connectedPeers.map PeerTable.info =
        (Network.reached i (es.filterMap Event.datagram)).eraseDups.map (fun j => (nodes j).info) ∧
      (∀ c, ((s.sessions i).server.conns c).id = .empty) ∧
      ∀ c f, .session i (.server (.sent c f)) ∈ os → f.header.packetAction ≠ .peerLeave := by
  have h := calm_of_run laws hlists hJ hids hne haddress hleaves hrun
  refine ⟨?_, (h.peaceful i).ids, fun c f hf => (h.peaceful i).stays c f ?_⟩
  · rw [h.shares i]
    exact (h.mapped i).known
  · exact List.mem_filterMap.2 ⟨_, hf, if_pos rfl⟩

def peerText (info : PeerInfo) : String :=
  "\x7b\"PeerId\":\"" ++ String.ofList (Reference.guid.write info.peerId) ++
    "\",\"Address\":\"" ++ info.address.getD "" ++ "\",\"Port\":" ++ toString info.port.toInt ++
    "\x7d"

def listText (infos : List PeerInfo) : String := "[" ++ ",".intercalate (infos.map peerText) ++ "]"

theorem listText_ne (infos : List PeerInfo) {text : String} (h : text.toList.head? ≠ some '[') :
    listText infos ≠ text := by
  rintro rfl
  simp [listText] at h

/-- A platform that writes lists of peers. -/
def writesLists : Platform :=
  { Reference.reference with
    peerTables :=
      { serialize := fun infos => some (listText infos)
        deserialize := fun s =>
          if s = "[]" then some (some []) else if s = "null" then some none else none } }

theorem listsAreArrays_writesLists : writesLists.ListsAreArrays := by
  intro infos
  have hread : writesLists.peerTable.deserialize (listText infos) =
      if listText infos = "null" then some none else none := rfl
  refine ⟨listText infos, rfl, listText_ne infos (by decide), ?_⟩
  rw [hread, if_neg (listText_ne infos (by decide))]

theorem carriageLaws_writesLists : Session.CarriageLaws writesLists where
  rsa := { Reference.reference_rsaLaws with }
  publicKey := Reference.reference_publicKeyOpensNothing
  chaCha := { Reference.reference_chaChaLaws with }
  authentication := Reference.packetAuthentication_roundTrips
  encrypted := Reference.packetEncrypted_roundTrips

/-- Two nodes that seal nothing of their own accord. -/
def unsealedNodes (i : Bool) : Node := { Network.twoNodes i with settings := none }

/-- A step of the server of the second node, or of its client. -/
def atSecond (choose : Session → Session.Event) (s : Mesh Bool) : Event Bool :=
  .session true (choose (s.sessions true))

/-- The first node hears of the second one and connects to it; when they have authenticated it
sends the peers that it knows, and the server of the second one reads them. -/
def greeting : List (Mesh Bool → Event Bool) :=
  (fun _ => .announce true) ::
    atSecond (fun _ => .connect ⟨1⟩ none ((0 : Nat), (0 : Nat))) ::
    Session.unsealedSession.tail.map atSecond ++
      [fun s => .deliver false true
          ⟨true, ((s.sessions true).clients 0).keys, PacketHelper.quiet⟩ 0,
        atSecond fun _ => .server (.beat (Session.pollAt 0) false PacketHelper.quiet
          fun _ => PacketHelper.quiet),
        atSecond fun s => .server (.receive PacketHelper.quiet (Session.readingAt 0)
          (.packet ((s.toServer 0).headD .nothing)))]

/-- What the server of the second node raises on its first connection. -/
def raisedAtSecond (os : List (Output Bool)) : List (PacketActionType × Bytes) :=
  (os.filterMap (Output.atSession true)).filterMap fun o =>
    match o with
    | .server o => BaseTCPServer.Output.handsOn 0 o
    | .client _ _ => none

theorem leavesPeers_greeting : ∀ choose ∈ greeting, ∀ s, LeavesPeers (choose s) := by
  simp [greeting, atSecond, Session.unsealedSession, Session.serverTurn, Session.clientTurn,
    LeavesPeers, Session.LeavesPeers]

theorem greeting_end :
    ∃ r ∈ (mesh writesLists (Reference.nullable Reference.multicastPacket) (fun _ => true)
        unsealedNodes).play (start unsealedNodes) greeting,
      raisedAtSecond r.2.2 = [(.peerJoin, toUTF8Byte "[]")] ∧
      (Network.reached false (r.1.filterMap Event.datagram)).eraseDups = [true] ∧
      (Network.reached true (r.1.filterMap Event.datagram)).eraseDups = [] := by
  decide +kernel

theorem mesh_tables_greeting : ∃ es s os,
    (mesh writesLists (Reference.nullable Reference.multicastPacket) (fun _ => true)
      unsealedNodes).run (start unsealedNodes) es = some (s, os) ∧
      raisedAtSecond os = [(.peerJoin, toUTF8Byte "[]")] ∧
      (s.sessions false).server.self.connectedPeers.map PeerTable.info =
        [(unsealedNodes true).info] ∧
      (s.sessions true).server.self.connectedPeers.map PeerTable.info = [] := by
  obtain ⟨⟨es, s, os⟩, hplay, hraised, hfirst, hsecond⟩ := greeting_end
  have hrun := Machine.run_of_play hplay
  have htables := fun i => (mesh_tables writesLists carriageLaws_writesLists
    listsAreArrays_writesLists _ Network.multicastPacket_roundTrips (fun _ => true) unsealedNodes
    (by decide) (by decide) (fun _ => rfl) es (Machine.forall_of_play hplay leavesPeers_greeting)
    s os hrun i).1
  refine ⟨es, s, os, hrun, hraised, ?_, ?_⟩
  · rw [htables false, hfirst, List.map_singleton]
  · rw [htables true, hsecond, List.map_nil]

end Mesh

end NETConnect
