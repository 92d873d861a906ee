import Mathlib.Data.List.TakeWhile
import NETConnect.Peers.Entries
/-!
# Discovery among any number of nodes

Every server multicasts its address again and again, and every node reads what the
others send.  A datagram may be lost, come late, or come more than once; the nodes are
the ones of `ReadMulticast`.
-/

namespace NETConnect

open Lib TextCodec

/-! ## Addresses as texts -/

/-- `ToString()` of an `int` that is not negative. -/
def intText (n : Nat) : String := String.ofList ((decimalDigits n).map digitChar)

theorem digitChar_spec {d : Nat} (h : d < 10) :
    (digitChar d).isDigit = true ∧ isNumberWhite (digitChar d) = false ∧ digitChar d ≠ '-' ∧
      digitChar d ≠ '+' ∧ digitChar d ≠ ':' ∧ (digitChar d).toNat - 48 = d := by
  revert d
  decide

theorem takeSign_of_ne {c : Char} {cs : List Char} (hminus : c ≠ '-') (hplus : c ≠ '+') :
    takeSign (c :: cs) = (false, c :: cs) := by
  unfold takeSign
  split
  · rename_i heq
    exact absurd (List.cons.inj heq).1 hminus
  · rename_i heq
    exact absurd (List.cons.inj heq).1 hplus
  · rfl

theorem decimalDigits_ne_nil (n : Nat) : decimalDigits n ≠ [] := by
  rw [decimalDigits]
  split_ifs with hzero
  · simp
  · simpa [Nat.digits_ne_nil_iff_ne_zero] using hzero

theorem parseInt_intText {n : Nat} (h : n < 2 ^ 31) :
    parseInt (intText n) = .ok (BitVec.ofNat 32 n) := by
  have hdigit : ∀ d ∈ decimalDigits n, d < 10 := fun d hd => decimalDigits_lt hd
  have hall : ∀ c ∈ (decimalDigits n).map digitChar, c.isDigit = true := by
    intro c hc
    obtain ⟨d, hd, rfl⟩ := List.mem_map.1 hc
    exact (digitChar_spec (hdigit d hd)).1
  have hvalues : ((decimalDigits n).map digitChar).map (fun c => c.toNat - 48) =
      decimalDigits n := by
    rw [List.map_map]
    conv_rhs => rw [← List.map_id (decimalDigits n)]
    exact List.map_congr_left fun d hd => (digitChar_spec (hdigit d hd)).2.2.2.2.2
  have hmagnitude : Nat.ofDigits (10 : Int)
      (((decimalDigits n).map digitChar).map fun c => c.toNat - 48).reverse = (n : Int) := by
    have hcast := Nat.coe_ofDigits Int 10 (decimalDigits n).reverse
    rw [ofDigits_decimalDigits] at hcast
    rw [hvalues, hcast]
    rfl
  obtain ⟨d, ds, hds⟩ := List.exists_cons_of_ne_nil (decimalDigits_ne_nil n)
  obtain ⟨-, hwhite, hminus, hplus, -, -⟩ :=
    digitChar_spec (hdigit d (by rw [hds]; exact List.mem_cons_self))
  have hstart : takeSign (((decimalDigits n).map digitChar).dropWhile isNumberWhite) =
      (false, (decimalDigits n).map digitChar) := by
    rw [hds, List.map_cons, List.dropWhile_cons_of_neg (by simp [hwhite]),
      takeSign_of_ne hminus hplus]
  have htake : ((decimalDigits n).map digitChar).takeWhile Char.isDigit =
      (decimalDigits n).map digitChar := List.takeWhile_eq_self_iff.2 hall
  have hdrop : ((decimalDigits n).map digitChar).dropWhile Char.isDigit = [] :=
    List.dropWhile_eq_nil_iff.2 hall
  have hne : ((decimalDigits n).map digitChar).isEmpty = false := by rw [hds]; rfl
  have hfits : ¬ (2 ^ 31 - 1 : Int) < n := by omega
  simp only [parseInt, intText, String.toList_ofList, hstart, htake, hdrop, hne,
    List.dropWhile_nil, List.all_nil, Bool.not_true, Bool.or_false, Bool.false_eq_true, if_false,
    hmagnitude, if_neg hfits, BitVec.ofInt_natCast]

/-- A server of the network, as it announces itself: an address without a colon, such as
the IPv4 address of the machine, and a port. -/
structure Node where
  peerId : Guid
  settings : Option PeerSettings
  address : String
  port : Nat
  colon : ':' ∉ address.toList
  port_le : port ≤ 65535

namespace Node

/-- `ServerAddress`. -/
def serverAddress (node : Node) : String := node.address ++ ":" ++ intText node.port

/-- What the others write down for it. -/
def info (node : Node) : PeerInfo :=
  { peerId := node.peerId, address := some node.address, port := BitVec.ofNat 32 node.port }

/-- `SendUTF8Message(ServerAddress, MulticastAction.Join)`: the datagram. -/
def announcement (J : JsonSerializer MulticastPacket (Option MulticastPacket)) (node : Node) :
    Option Bytes :=
  Multicast.sendMessage J node.peerId (some (toUTF8Byte node.serverAddress)) .join

theorem isPort (node : Node) : IsPort (BitVec.ofNat 32 node.port) := by
  have hle := node.port_le
  have hnat : (BitVec.ofNat 32 node.port).toNat = node.port := by
    rw [BitVec.toNat_ofNat, Nat.mod_eq_of_lt (by omega)]
  have hint : (BitVec.ofNat 32 node.port).toInt = node.port := by
    rw [BitVec.toInt_eq_toNat_cond, hnat, if_pos (by omega)]
  rw [IsPort, hint]
  omega

theorem readAddress_serverAddress (node : Node) :
    Multicast.readAddress (some (toUTF8Byte node.serverAddress)) =
      .ok (node.address, BitVec.ofNat 32 node.port) := by
  have hport : ':' ∉ (decimalDigits node.port).map digitChar := by
    intro hmem
    obtain ⟨d, hd, hcolon⟩ := List.mem_map.1 hmem
    exact (digitChar_spec (decimalDigits_lt hd)).2.2.2.2.1 hcolon
  have hchars : node.serverAddress.toList =
      node.address.toList ++ ':' :: (decimalDigits node.port).map digitChar := by
    simp [serverAddress, intText]
  have hsplit : Multicast.splitAddress node.serverAddress = [node.address, intText node.port] := by
    rw [Multicast.splitAddress, hchars, List.splitOn_append_cons_self_of_not_mem node.colon,
      List.splitOn_eq_singleton hport, List.map_cons, List.map_singleton, String.ofList_toList]
    rfl
  have hparse := parseInt_intText (n := node.port) (by have := node.port_le; omega)
  simp only [Multicast.readAddress, toUTF8String_toUTF8Byte, hsplit, bind, Except.bind, hparse,
    pure, Except.pure]

end Node

/-! ## The network -/

/-- The readers of all nodes, and whose announcements may be under way. -/
structure Network (ι : Type) where
  readers : ι → Multicast.Reader
  announced : ι → Bool

namespace Network

variable {ι : Type} [DecidableEq ι]

inductive Event (ι : Type)
  /-- the task of `StartServer` multicasts the address -/
  | announce (i : ι)
  /-- a datagram of `j` is received by `i` -/
  | deliver (i j : ι) (dial : Dial)
  /-- somebody else's datagram, which is no packet -/
  | foreign (i : ι) (received : Bytes) (dial : Dial)

/-- Every node has read nothing yet. -/
def start (nodes : ι → Node) : Network ι where
  readers i :=
    { self := { peerId := (nodes i).peerId, settings := (nodes i).settings }
      senderId := (nodes i).peerId }
  announced _ := false

section Machine

variable (P : Platform) (J : JsonSerializer MulticastPacket (Option MulticastPacket))
  (isIPAddress : String → Bool) (nodes : ι → Node)

/-- The reader of `i` takes a turn of its loop. -/
def receive (s : Network ι) (i : ι) (received : Bytes) (dial : Dial) :
    Option (Network ι × List (ι × Frame)) :=
  ((Multicast.readMulticast P J isIPAddress).step (s.readers i) (.datagram received dial)).map
    fun r => ({ s with readers := Function.update s.readers i r.1 }, r.2.map fun f => (i, f))

/-- What is observed are the packets that a node sends on its new connections. -/
def network : Machine (Network ι) (Event ι) (ι × Frame) where
  step s e :=
    match e with
    | .announce i => some ({ s with announced := Function.update s.announced i true }, [])
    | .deliver i j dial =>
        if s.announced j then
          ((nodes j).announcement J).bind fun received => s.receive P J isIPAddress i received dial
        else none
    | .foreign i received dial =>
        if J.isValidJSON (getString received) = none then s.receive P J isIPAddress i received dial
        else none

end Machine

/-- The node that `i` could connect to when it read its datagram. -/
def Event.reached (i : ι) : Event ι → Option ι
  | .deliver i' j dial => if i' = i ∧ j ≠ i ∧ dial.connects = true then some j else none
  | _ => none

/-- The nodes that `i` could connect to, in the order of the datagrams. -/
def reached (i : ι) (es : List (Event ι)) : List ι := es.filterMap (Event.reached i)

/-! ## One datagram -/

variable {P : Platform} {J : JsonSerializer MulticastPacket (Option MulticastPacket)}
  {isIPAddress : String → Bool}

theorem announcement_spec (hJ : J.RoundTrips) (node : Node) :
    ∃ received, node.announcement J = some received ∧ J.isValidJSON (getString received) =
      some (some ⟨node.peerId, some (toUTF8Byte node.serverAddress), .join⟩) := by
  obtain ⟨text, hserialize, hblank, hdeserialize⟩ :=
    hJ ⟨node.peerId, some (toUTF8Byte node.serverAddress), .join⟩
  refine ⟨toUTF8Byte text, ?_, ?_⟩
  · rw [Node.announcement, Multicast.sendMessage, hserialize]
    rfl
  · rw [getString_toUTF8Byte, JsonSerializer.isValidJSON, hblank, if_neg Bool.false_ne_true,
      hdeserialize]

theorem join_info (self : Peer) (dial : Dial) {node : Node}
    (haddress : isIPAddress node.address = true) :
    ∃ r, Multicast.join P isIPAddress dial self
        ⟨node.peerId, some (toUTF8Byte node.serverAddress), .join⟩ = .ok r ∧
      r.1.peerId = self.peerId ∧
      r.1.connectedPeers.map PeerTable.info = self.connectedPeers.map PeerTable.info ++
        if dial.connects then [node.info] else [] := by
  have hconnect : BaseTCPClient.tryConnect isIPAddress dial (some node.address)
      (BitVec.ofNat 32 node.port) = .ok dial.connects := by
    simp only [BaseTCPClient.tryConnect, haddress, if_true, if_pos node.isPort]
  simp only [Multicast.join, node.readAddress_serverAddress, bind, Except.bind, hconnect]
  cases dial.connects with
  | false => exact ⟨_, rfl, rfl, by simp⟩
  | true => exact ⟨_, rfl, rfl, by simp [Node.info]⟩

/-- A Join from an unknown node is written down if the connection is made, and nothing
else changes the list. -/
theorem handleOnMulticastMessage_info {self : Peer} (hnumbered : self.Numbered) (dial : Dial)
    {node : Node} (haddress : isIPAddress node.address = true) :
    let announced := Multicast.handleOnMulticastMessage P isIPAddress dial self
      ⟨node.peerId, some (toUTF8Byte node.serverAddress), .join⟩
    announced.threw = none ∧ announced.self.peerId = self.peerId ∧
      announced.self.connectedPeers.map PeerTable.info = self.connectedPeers.map PeerTable.info ++
        if ¬ Multicast.knows self node.peerId ∧ dial.connects = true then [node.info] else [] := by
  have hclean : ({ self with connectedPeers := Peer.distinct self.connectedPeers } : Peer) = self :=
    hnumbered.cleaned_eq
  obtain ⟨⟨self', sent⟩, hjoin, hpeerId, hinfo⟩ :=
    join_info (P := P) self dial haddress
  intro announced
  by_cases hknown : Multicast.knows self node.peerId
  · have heq : announced = { self } := by
      simp only [announced, Multicast.handleOnMulticastMessage, if_true, hclean, if_pos hknown]
    simp [heq, hknown]
  · have heq : announced = { self := self', sent } := by
      simp only [announced, Multicast.handleOnMulticastMessage, if_true, hclean, if_neg hknown,
        hjoin]
    rw [heq]
    exact ⟨rfl, hpeerId, by simp [hinfo, hknown]⟩

/-- The reader of a node that has written down `known`. -/
structure Has (node : Node) (known : List PeerInfo) (reader : Multicast.Reader) : Prop where
  alive : reader.threw = none
  peerId : reader.self.peerId = node.peerId
  senderId : reader.senderId = node.peerId
  numbered : reader.self.Numbered
  known : reader.self.connectedPeers.map PeerTable.info = known

variable {node : Node} {known : List PeerInfo} {reader : Multicast.Reader}

theorem Has.knows_iff (h : Has node known reader) (senderId : Guid) :
    Multicast.knows reader.self senderId ↔
      senderId = node.peerId ∨ senderId ∈ known.map PeerInfo.peerId := by
  rw [Multicast.knows, h.peerId, ← h.known, List.map_map, or_comm, eq_comm]
  refine or_congr Iff.rfl ?_
  simp only [List.mem_map, Function.comp_apply]

theorem Has.deliver (h : Has node known reader) (hJ : J.RoundTrips) {other : Node}
    (haddress : isIPAddress other.address = true) {received : Bytes}
    (hreceived : other.announcement J = some received) (dial : Dial) :
    ∃ r, (Multicast.readMulticast P J isIPAddress).step reader (.datagram received dial) = some r ∧
      Has node (known ++ if other.peerId ≠ node.peerId ∧
        other.peerId ∉ known.map PeerInfo.peerId ∧ dial.connects = true then [other.info]
        else []) r.1 := by
  obtain ⟨received', hreceived', hvalid⟩ := announcement_spec hJ other
  obtain rfl : received' = received := Option.some.inj (hreceived'.symm.trans hreceived)
  obtain ⟨hthrew, hpeerId, hinfo⟩ := handleOnMulticastMessage_info (P := P) h.numbered dial haddress
  have hnumbered : (Multicast.handleOnMulticastMessage P isIPAddress dial reader.self
      ⟨other.peerId, some (toUTF8Byte other.serverAddress), .join⟩).self.Numbered :=
    h.numbered.multicast dial _
  refine ⟨_, by simp only [Multicast.readMulticast, if_pos h.alive]; rfl, ?_⟩
  simp only [Multicast.handleDatagram, hvalid, h.senderId]
  by_cases hown : other.peerId = node.peerId
  · simp only [hown, ne_eq, not_true_eq_false, if_false, false_and, List.append_nil]
    exact ⟨rfl, h.peerId, rfl, h.numbered, h.known⟩
  · have hunknown : ¬ Multicast.knows reader.self other.peerId ↔
        other.peerId ∉ known.map PeerInfo.peerId := by
      rw [h.knows_iff, or_iff_right hown]
    simp only [hown, ne_eq, not_false_eq_true, if_true, true_and]
    refine ⟨hthrew, hpeerId.trans h.peerId, rfl, hnumbered, ?_⟩
    rw [hinfo, h.known]
    simp only [hunknown]

theorem Has.foreign (h : Has node known reader) {received : Bytes}
    (hforeign : J.isValidJSON (getString received) = none) (dial : Dial) :
    ∃ r, (Multicast.readMulticast P J isIPAddress).step reader (.datagram received dial) = some r ∧
      Has node known r.1 := by
  refine ⟨_, by simp only [Multicast.readMulticast, if_pos h.alive]; rfl, ?_⟩
  simp only [Multicast.handleDatagram, hforeign]
  exact ⟨rfl, h.peerId, h.senderId, h.numbered, h.known⟩

/-! ## Any run of the network -/

theorem eraseDups_snoc (l : List ι) (a : ι) :
    (l ++ [a]).eraseDups = l.eraseDups ++ if a ∈ l then [] else [a] := by
  rw [List.eraseDups_append]
  congr 1
  by_cases ha : a ∈ l
  · simp [List.removeAll, ha]
  · simp [List.removeAll, ha, List.eraseDups_cons]

theorem nodup_eraseDups (l : List ι) : l.eraseDups.Nodup := by
  induction l using List.reverseRecOn with
  | nil => exact List.nodup_nil
  | append_singleton l a ih =>
      rw [eraseDups_snoc]
      split_ifs with ha
      · rwa [List.append_nil]
      · refine List.nodup_append.2 ⟨ih, List.nodup_singleton a, ?_⟩
        rintro b hb c hc rfl
        obtain rfl := List.mem_singleton.1 hc
        exact ha (List.mem_eraseDups.1 hb)

/-- What `i` should have written down: every node that it has reached, once, in the order
in which it reached them first. -/
def table (nodes : ι → Node) (i : ι) (es : List (Event ι)) : List PeerInfo :=
  (reached i es).eraseDups.map fun j => (nodes j).info

def Mapped (nodes : ι → Node) (es : List (Event ι)) (s : Network ι) : Prop :=
  ∀ i, Has (nodes i) (table nodes i es) (s.readers i)

variable {nodes : ι → Node} {es : List (Event ι)} {s t : Network ι}

theorem table_of_silent {i : ι} {e : Event ι} (h : e.reached i = none) :
    table nodes i (es ++ [e]) = table nodes i es := by
  simp [table, reached, h]

theorem table_of_reached (i : ι) {j : ι} {e : Event ι} (h : e.reached i = some j) :
    table nodes i (es ++ [e]) =
      table nodes i es ++ if j ∈ reached i es then [] else [(nodes j).info] := by
  have hsnoc : reached i (es ++ [e]) = reached i es ++ [j] := by simp [reached, h]
  rw [table, hsnoc, eraseDups_snoc, List.map_append, table]
  split_ifs <;> rfl

theorem mem_ids_table_iff (hids : Function.Injective fun i => (nodes i).peerId) (i j : ι) :
    (nodes j).peerId ∈ (table nodes i es).map PeerInfo.peerId ↔ j ∈ reached i es := by
  rw [table, List.map_map, ← List.mem_eraseDups (l := reached i es), List.mem_map]
  constructor
  · rintro ⟨k, hk, hid⟩
    rwa [← hids hid]
  · intro hj
    exact ⟨j, hj, rfl⟩

theorem Mapped.update (h : Mapped nodes es s) {e : Event ι} {i : ι} {reader : Multicast.Reader}
    (hothers : ∀ i', i' ≠ i → e.reached i' = none)
    (hhas : Has (nodes i) (table nodes i (es ++ [e])) reader) (announced : ι → Bool) :
    Mapped nodes (es ++ [e]) ⟨Function.update s.readers i reader, announced⟩ := by
  intro i'
  rcases eq_or_ne i' i with rfl | hne
  · simpa using hhas
  · rw [table_of_silent (hothers i' hne)]
    simpa [hne] using h i'

theorem Mapped.step (hJ : J.RoundTrips)
    (hids : Function.Injective fun i => (nodes i).peerId)
    (haddress : ∀ i, isIPAddress (nodes i).address = true) (h : Mapped nodes es s) {e : Event ι}
    {o : List (ι × Frame)} (hstep : (network P J isIPAddress nodes).step s e = some (t, o)) :
    Mapped nodes (es ++ [e]) t := by
  cases e with
  | announce i =>
      obtain ⟨rfl, -⟩ := Prod.mk.inj (Option.some.inj hstep)
      intro i'
      rw [table_of_silent rfl]
      exact h i'
  | deliver i j dial =>
      simp only [network] at hstep
      split_ifs at hstep
      obtain ⟨received, hreceived, hreceive⟩ := Option.bind_eq_some_iff.1 hstep
      obtain ⟨r, hr, hnext⟩ := Option.map_eq_some_iff.1 hreceive
      obtain ⟨rfl, -⟩ := Prod.mk.inj hnext
      obtain ⟨r', hr', hhas⟩ := (h i).deliver (P := P) hJ (haddress j) hreceived dial
      obtain rfl : r' = r := Option.some.inj (hr'.symm.trans hr)
      have hown : (nodes j).peerId ≠ (nodes i).peerId ↔ j ≠ i := hids.ne_iff
      simp only [mem_ids_table_iff hids, hown] at hhas
      have hsees : ∀ i', (Event.deliver i j dial).reached i' =
          if i = i' ∧ j ≠ i' ∧ dial.connects = true then some j else none := fun i' => rfl
      refine h.update (fun i' hne => ?_) ?_ s.announced
      · rw [hsees, if_neg fun hall => hne hall.1.symm]
      by_cases hreached : j ≠ i ∧ dial.connects = true
      · rw [table_of_reached i ((hsees i).trans (if_pos ⟨rfl, hreached⟩))]
        by_cases hj : j ∈ reached i es
        · simpa [hreached, hj] using hhas
        · simpa [hreached, hj] using hhas
      · rw [table_of_silent ((hsees i).trans (if_neg fun hall => hreached hall.2))]
        rwa [if_neg fun hall => hreached ⟨hall.1, hall.2.2⟩, List.append_nil] at hhas
  | foreign i received dial =>
      simp only [network] at hstep
      split_ifs at hstep with hforeign
      obtain ⟨r, hr, hnext⟩ := Option.map_eq_some_iff.1 hstep
      obtain ⟨rfl, -⟩ := Prod.mk.inj hnext
      obtain ⟨r', hr', hhas⟩ := (h i).foreign hforeign dial
      obtain rfl : r' = r := Option.some.inj (hr'.symm.trans hr)
      refine h.update (fun _ _ => rfl) ?_ s.announced
      rwa [table_of_silent rfl]

theorem mapped_start (nodes : ι → Node) : Mapped nodes [] (start nodes) := fun _ =>
  ⟨rfl, rfl, rfl, List.pairwise_singleton _ _, rfl⟩

theorem mapped_of_run (hJ : J.RoundTrips)
    (hids : Function.Injective fun i => (nodes i).peerId)
    (haddress : ∀ i, isIPAddress (nodes i).address = true) {os : List (ι × Frame)}
    (hrun : (network P J isIPAddress nodes).run (start nodes) es = some (s, os)) :
    Mapped nodes es s := by
  induction es using List.reverseRecOn generalizing s os with
  | nil =>
      obtain ⟨rfl, rfl⟩ := Prod.mk.inj (Option.some.inj hrun)
      exact mapped_start nodes
  | append_singleton es e ih =>
      obtain ⟨v, o, o', hpre, hlast, rfl⟩ := Machine.run_append_iff.1 hrun
      exact (ih hpre).step hJ hids haddress (Machine.run_singleton_iff.1 hlast)

theorem mem_reached_iff {i j : ι} :
    j ∈ reached i es ↔ j ≠ i ∧ ∃ dial : Dial, dial.connects = true ∧ .deliver i j dial ∈ es := by
  rw [reached, List.mem_filterMap]
  constructor
  · rintro ⟨e, he, hreached⟩
    cases e with
    | deliver i' j' dial =>
        simp only [Event.reached] at hreached
        split_ifs at hreached with hall
        obtain rfl := Option.some.inj hreached
        obtain ⟨rfl, hne, hconnects⟩ := hall
        exact ⟨hne, dial, hconnects, he⟩
    | announce i' => simp [Event.reached] at hreached
    | foreign i' received dial => simp [Event.reached] at hreached
  · rintro ⟨hne, dial, hconnects, he⟩
    exact ⟨_, he, if_pos ⟨rfl, hne, hconnects⟩⟩

/-- Whatever is lost, repeated or out of order, every reader goes on, and has written down
exactly the nodes it has reached: once each, with the address they announced, in the
order in which it reached them first. -/
theorem network_tables (P : Platform)
    (J : JsonSerializer MulticastPacket (Option MulticastPacket)) (hJ : J.RoundTrips)
    (isIPAddress : String → Bool) (nodes : ι → Node)
    (hids : Function.Injective fun i => (nodes i).peerId)
    (haddress : ∀ i, isIPAddress (nodes i).address = true) (es : List (Event ι))
    (s : Network ι) (os : List (ι × Frame))
    (hrun : (network P J isIPAddress nodes).run (start nodes) es = some (s, os)) (i : ι) :
    (s.readers i).threw = none ∧
      (s.readers i).self.connectedPeers.map PeerTable.info =
        (reached i es).eraseDups.map fun j => (nodes j).info := by
  have h := mapped_of_run hJ hids haddress hrun i
  exact ⟨h.alive, h.known⟩

def twoNodes : Bool → Node
  | false => ⟨⟨1⟩, some {}, "10.0.0.1", 50421, by decide, by decide⟩
  | true => ⟨⟨2⟩, some {}, "10.0.0.2", 50422, by decide, by decide⟩

theorem twoNodes_injective : Function.Injective fun i => (twoNodes i).peerId := by
  decide

def someDial : Dial := ⟨true, {}, PacketHelper.quiet⟩

/-- Both announce themselves, one is heard twice, and in between there is something else. -/
def chatter : List (Event Bool) :=
  [.announce true, .deliver false true someDial, .announce false, .deliver false false someDial,
    .foreign true (toUTF8Byte "THIS IS A TEST!") someDial, .deliver false true someDial,
    .deliver true false someDial]

theorem multicastPacket_roundTrips :
    (Reference.nullable Reference.multicastPacket).RoundTrips :=
  Reference.nullable_roundTrips fun _ => ⟨'\x7b', _, rfl, by decide, by decide⟩

theorem run_chatter : ∃ s os,
    (network Reference.reference (Reference.nullable Reference.multicastPacket) (fun _ => true)
      twoNodes).run (start twoNodes) chatter = some (s, os) := by
  have hruns : ((network Reference.reference (Reference.nullable Reference.multicastPacket)
      (fun _ => true) twoNodes).run (start twoNodes) chatter).isSome = true := by decide +kernel
  obtain ⟨⟨s, os⟩, hrun⟩ := Option.isSome_iff_exists.1 hruns
  exact ⟨s, os, hrun⟩

theorem network_tables_chatter : ∃ s os,
    (network Reference.reference (Reference.nullable Reference.multicastPacket) (fun _ => true)
      twoNodes).run (start twoNodes) chatter = some (s, os) ∧
      (s.readers false).self.connectedPeers.map PeerTable.info = [(twoNodes true).info] := by
  obtain ⟨s, os, hrun⟩ := run_chatter
  exact ⟨s, os, hrun, (network_tables Reference.reference _ multicastPacket_roundTrips _ twoNodes
    twoNodes_injective (fun _ => rfl) chatter s os hrun false).2⟩

/-- Every node has written down all the others, and nobody else. -/
def FullMesh (nodes : ι → Node) (s : Network ι) : Prop :=
  ∀ i, (s.readers i).self.ids.Nodup ∧
    ∀ id, id ∈ (s.readers i).self.ids ↔ ∃ j, j ≠ i ∧ (nodes j).peerId = id

/-- The nodes converge to the full mesh exactly when each has received a datagram of each
other one and could connect to it, no matter when. -/
theorem network_fullMesh_iff (P : Platform)
    (J : JsonSerializer MulticastPacket (Option MulticastPacket)) (hJ : J.RoundTrips)
    (isIPAddress : String → Bool) (nodes : ι → Node)
    (hids : Function.Injective fun i => (nodes i).peerId)
    (haddress : ∀ i, isIPAddress (nodes i).address = true) (es : List (Event ι))
    (s : Network ι) (os : List (ι × Frame))
    (hrun : (network P J isIPAddress nodes).run (start nodes) es = some (s, os)) :
    FullMesh nodes s ↔
      ∀ i j, i ≠ j → ∃ dial : Dial, dial.connects = true ∧ .deliver i j dial ∈ es := by
  have hmapped := mapped_of_run hJ hids haddress hrun
  have htable : ∀ i, (s.readers i).self.ids =
      (reached i es).eraseDups.map fun j => (nodes j).peerId := by
    intro i
    have hknown := congrArg (List.map PeerInfo.peerId) (hmapped i).known
    rwa [List.map_map, table, List.map_map] at hknown
  have hmem : ∀ i j, (nodes j).peerId ∈ (s.readers i).self.ids ↔ j ∈ reached i es := by
    intro i j
    rw [htable, ← List.mem_eraseDups (l := reached i es)]
    exact List.mem_map_of_injective hids
  constructor
  · intro hfull i j hne
    exact (mem_reached_iff.1 ((hmem i j).1 (((hfull i).2 _).2 ⟨j, hne.symm, rfl⟩))).2
  · intro hall i
    refine ⟨?_, fun id => ?_⟩
    · rw [htable]
      exact (nodup_eraseDups _).map hids
    · constructor
      · intro hid
        rw [htable, List.mem_map] at hid
        obtain ⟨j, hj, rfl⟩ := hid
        exact ⟨j, (mem_reached_iff.1 (List.mem_eraseDups.1 hj)).1, rfl⟩
      · rintro ⟨j, hne, rfl⟩
        exact (hmem i j).2 (mem_reached_iff.2 ⟨hne, hall i j hne.symm⟩)

theorem network_fullMesh_iff_chatter : ∃ s os,
    (network Reference.reference (Reference.nullable Reference.multicastPacket) (fun _ => true)
      twoNodes).run (start twoNodes) chatter = some (s, os) ∧ FullMesh twoNodes s := by
  obtain ⟨s, os, hrun⟩ := run_chatter
  refine ⟨s, os, hrun, (network_fullMesh_iff Reference.reference _ multicastPacket_roundTrips _
    twoNodes twoNodes_injective (fun _ => rfl) chatter s os hrun).2 ?_⟩
  rintro (_ | _) (_ | _) hne
  · exact absurd rfl hne
  · exact ⟨someDial, rfl, by simp [chatter]⟩
  · exact ⟨someDial, rfl, by simp [chatter]⟩
  · exact absurd rfl hne

end Network

end NETConnect
