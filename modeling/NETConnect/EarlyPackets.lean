import Mathlib.Data.List.ReduceOption
import NETConnect.KeyAgreement
import NETConnect.Leaving
import NETConnect.Reading
/-!
# Packets sent during the handshake

Other threads of a client call `SendPacket` as soon as it has connected.  The frames
they write share a channel with those of the handshake, so each frame on its way to the
server is marked with the packet it was written for, if another thread wrote it.
-/

namespace NETConnect

open Lib SocketExtensions

/-- What another thread sends: an action type and data. -/
abbrev Packet := PacketActionType × Bytes

namespace Session

/-- A session, and the marks of the frames on their way to the server. -/
structure Marked where
  session : Session
  marks : ConnId → List (Option Packet) := fun _ => []

inductive MarkedEvent
  | session (e : Event)
  /-- another thread of the client calls `SendPacket` -/
  | send (c : ConnId) (io : Ambient) (packet : Packet) (isEncryptionEnabled : Bool)
      (encryptionType : PacketEncryptionType)

inductive MarkedOutput
  | session (o : Output)
  /-- `SendPacket` has written a frame -/
  | sent (c : ConnId) (packet : Packet)
  /-- `OnDataReceived` is raised for a frame that another thread wrote -/
  | raised (c : ConnId) (packet : Packet)
  deriving DecidableEq

namespace MarkedOutput

def ofSession : MarkedOutput → Option Output
  | .session o => some o
  | _ => none

def sentOn (c : ConnId) : MarkedOutput → Option Packet
  | .sent c' packet => if c' = c then some packet else none
  | _ => none

def raisedOn (c : ConnId) : MarkedOutput → Option Packet
  | .raised c' packet => if c' = c then some packet else none
  | _ => none

end MarkedOutput

/-- The packets that a step of the session raises on a connection. -/
def Output.handsOn (c : ConnId) : Output → Option Packet
  | .server o => BaseTCPServer.Output.handsOn c o
  | .client _ _ => none

namespace Marked

variable (P : Platform) (s : Marked)

/-- The connection from which a step of the server takes the first frame. -/
def taken : Event → Option ConnId
  | .server e =>
      match s.session.server.thread.serving, e.received with
      | some c, some (.packet f) => if (s.session.toServer c).head? = some f then some c else none
      | _, _ => none
  | _ => none

/-- The marks after a step that leads to `t`. -/
def marksAfter (t : Session) (e : Event) : ConnId → List (Option Packet) :=
  match e with
  | .connect _ _ _ => Function.update s.marks s.session.connected []
  | .server _ =>
      match s.taken e with
      | some c => Function.update s.marks c (s.marks c).tail
      | none => s.marks
  | .client c _ | .alsoToServer c _ =>
      let written := (t.toServer c).length - (s.session.toServer c).length
      Function.update s.marks c (s.marks c ++ List.replicate written none)
  | .alsoToClient _ _ => s.marks

/-- What is raised in a step that takes a marked frame. -/
def raises (e : Event) (o : List Output) : List MarkedOutput :=
  match s.taken e with
  | some c =>
      if ((s.marks c).head?.join).isSome then
        (o.filterMap (Output.handsOn c)).map (.raised c)
      else []
  | none => []

def stepSession (e : Event) : Option (Marked × List MarkedOutput) :=
  ((Session.session P).step s.session e).map fun r =>
    (⟨r.1, s.marksAfter r.1 e⟩, r.2.map .session ++ s.raises e r.2)

/-- The packet is no part of a handshake, and has data. -/
def stepSend (c : ConnId) (io : Ambient) (packet : Packet) (isEncryptionEnabled : Bool)
    (encryptionType : PacketEncryptionType) : Option (Marked × List MarkedOutput) :=
  let client := s.session.clients c
  if c < s.session.connected ∧ ¬ packet.1.IsHandshake ∧ packet.2 ≠ [] then
    match (PacketHelper.sendPacket P ⟨client.settings, client.keys⟩ io (some packet.2) packet.1
      isEncryptionEnabled encryptionType).frame with
    | none => some (s, [])
    | some f =>
        let toServer := Function.update s.session.toServer c (s.session.toServer c ++ [f])
        let marks := Function.update s.marks c (s.marks c ++ [some packet])
        some (⟨{ s.session with toServer }, marks⟩, [.sent c packet])
  else none

end Marked

def markedSession (P : Platform) : Machine Marked MarkedEvent MarkedOutput where
  step s e :=
    match e with
    | .session e => s.stepSession P e
    | .send c io packet isEncryptionEnabled encryptionType =>
        s.stepSend P c io packet isEncryptionEnabled encryptionType

/-! ## The property -/

/-- What was sent on a connection was raised, once and in order and after the handshake,
or is on its way to a server that has not left the connection. -/
structure Unswallowed (s : Marked) (os : List MarkedOutput) : Prop where
  kept : ∀ c, os.filterMap (MarkedOutput.sentOn c) =
    os.filterMap (MarkedOutput.raisedOn c) ++ (s.marks c).reduceOption
  after : ∀ c, PrecededBy (fun x => (x.raisedOn c).isSome)
    (· = .session (.server (.authenticated c))) os
  heard : ∀ c, (s.marks c).reduceOption ≠ [] → ¬ s.session.server.HasLeft c

/-- A marked frame is read by the receive loop and not in a handshake, on a connection on
which a key was exchanged; it is neither sealed with RSA nor of the type that stands for
nothing. -/
structure InPlace (s : Session) (c : ConnId) (f : Frame) : Prop where
  receiving : s.server.thread = .receiving c
  exchanged : (s.server.keys c).chaChaKey ≠ none
  type_ne : f.header.packetEncryptionType ≠ .rsa
  action_ne : f.header.packetAction ≠ .empty

/-- Every marked frame that is taken is taken in place. -/
def TakesInPlace (P : Platform) (s : Marked) (e : MarkedEvent) : Prop :=
  ∀ e' c f rest packet marks r, e = .session e' → (session P).step s.session e' = some r →
    s.taken e' = some c → s.session.toServer c = f :: rest → s.marks c = some packet :: marks →
      InPlace s.session c f

/-- The packets on their way when a step of the session has taken its frame. -/
def Marked.remaining (s : Marked) (e : Event) (c : ConnId) : List Packet :=
  if s.taken e = some c then (s.marks c).tail.reduceOption else (s.marks c).reduceOption

/-- No packet that is on its way, or is sent, is left lying. -/
structure LeavesNone (P : Platform) (s : Marked) (e : MarkedEvent) : Prop where
  reading : ∀ e' c r, e = .session (.server e') →
    (session P).step s.session (.server e') = some r → s.remaining (.server e') c ≠ [] →
      ¬ BaseTCPServer.Leaves P s.session.server c e'
  sending : ∀ c io packet isEncryptionEnabled encryptionType t o,
    e = .send c io packet isEncryptionEnabled encryptionType →
    s.stepSend P c io packet isEncryptionEnabled encryptionType = some (t, o) →
    .sent c packet ∈ o → ¬ s.session.server.HasLeft c

/-- The server goes on reading for every packet, and takes it in place. -/
structure GetsThrough (P : Platform) (s : Marked) (e : MarkedEvent) : Prop where
  inPlace : TakesInPlace P s e
  leavesNone : LeavesNone P s e

/-! ## What is on its way -/

/-- The frame that `SendPacket` wrote for a packet, with `key` at hand. -/
structure WrittenFor (P : Platform) (key : Option (RandomData 32)) (packet : Packet)
    (f : Frame) : Prop where
  action : f.header.packetAction = packet.1
  data_ne : packet.2 ≠ []
  content : f.header.packetEncryptionType = .none ∧ f.packet = packet.2 ∨
    (∃ io k, key = some k ∧
      PacketHelper.IsSealed P io k.1 .chaCha20Poly1305 packet.2 f) ∨
    ∃ io publicKey, PacketHelper.IsSealed P io publicKey .rsa packet.2 f

variable {P : Platform}

theorem writtenFor_of_sendPacket {key : Option (RandomData 32)} {helper : PacketHelper}
    {io : Ambient} {packet : Packet} {isEncryptionEnabled : Bool}
    {encryptionType : PacketEncryptionType} {f : Frame}
    (hkey : helper.encryptionKeys.chaChaKey = key.map Subtype.val) (hdata : packet.2 ≠ [])
    (h : (helper.sendPacket P io (some packet.2) packet.1 isEncryptionEnabled
      encryptionType).frame = some f) : WrittenFor P key packet f := by
  refine ⟨PacketHelper.sendPacket_action P _ _ h, hdata, ?_⟩
  have halive := PacketHelper.alive_of_sendPacket P helper io h
  by_cases hselected :
      PacketHelper.selectedType helper.settings isEncryptionEnabled encryptionType = .none
  · rw [PacketHelper.sendPacket_clear P helper io halive _ _ hselected] at h
    obtain rfl := Option.some.inj h
    exact Or.inl ⟨rfl, rfl⟩
  cases hkey' : PacketHelper.usableKey helper.encryptionKeys
      (PacketHelper.selectedType helper.settings isEncryptionEnabled encryptionType) with
  | none =>
      rw [PacketHelper.sendPacket_keyless P helper io halive hdata _ hselected hkey'] at h
      obtain rfl := Option.some.inj h
      exact Or.inl ⟨rfl, rfl⟩
  | some key' =>
      have hsealed := PacketHelper.sendPacket_isSealed P helper io hdata hselected hkey' h
      rcases PacketHelper.usableKey_type hkey' with htype | htype
      · rw [htype] at hsealed
        exact Or.inr (Or.inr ⟨io, key', hsealed⟩)
      · rw [htype] at hsealed hkey'
        have hne : PacketEncryptionType.chaCha20Poly1305 ≠ .rsa := by decide
        rw [PacketHelper.usableKey, if_neg hne, if_pos rfl, hkey] at hkey'
        obtain ⟨hsome, -⟩ := Option.filter_eq_some_iff.1 hkey'
        obtain ⟨k, hk, rfl⟩ := Option.map_eq_some_iff.1 hsome
        exact Or.inr (Or.inl ⟨io, k, hk, hsealed⟩)

variable {key : Option (RandomData 32)} {packet : Packet} {f : Frame} {keys : SecurityKey}

theorem WrittenFor.opens (laws : P.ChaChaLaws) (hjson : P.packetEncrypted.RoundTrips)
    (h : WrittenFor P key packet f) (hagreed : Agreed key keys)
    (haction : f.header.packetAction ≠ .empty) (htype : f.header.packetEncryptionType ≠ .rsa) :
    autoDecrypt P keys f = .ok (some packet.2) := by
  rcases h.content with ⟨hclear, hpacket⟩ | ⟨io, k, hk, hsealed⟩ | ⟨io, publicKey, hsealed⟩
  · rw [autoDecrypt, if_neg haction, if_neg (by simp [hclear]), hpacket]
  · obtain ⟨k', hk', hstored⟩ := hagreed
    obtain rfl : k = k' := Option.some.inj (hk.symm.trans hk')
    exact autoDecrypt_of_isSealed laws hjson hstored h.data_ne haction hsealed
  · exact absurd hsealed.1 htype

theorem WrittenFor.not_opens_rsa (rsa : P.PublicKeyOpensNothing)
    (hjson : P.packetEncrypted.RoundTrips) (h : WrittenFor P key packet f)
    (hown : OwnKeys P keys) (htype : f.header.packetEncryptionType = .rsa) (data : Bytes) :
    autoDecrypt P keys f ≠ .ok (some data) := by
  rcases h.content with ⟨hclear, -⟩ | ⟨io, k, -, hsealed⟩ | ⟨io, publicKey, hsealed⟩
  · rw [htype] at hclear
    exact absurd hclear (by decide)
  · rw [hsealed.1] at htype
    exact absurd htype (by decide)
  · exact autoDecrypt_of_isSealed_rsa rsa hjson hown hsealed data

end Session

/-! ## The key of a connection -/

theorem Sound.serverTurn_keys {P : Platform} {key : Option (RandomData 32)} {l : Link}
    (h : Sound P key l) {turn : Turn} {rest : List Frame}
    (hrest : Session.takeFrom l.toServer turn.received = some rest) :
    let handled := Authentication.takeTurn (BaseTCPServer.handleAuthenticationPacket P)
      l.serverKeys turn
    handled.keys = l.serverKeys ∨
      ∃ k, key = some k ∧ handled.keys = { l.serverKeys with chaChaKey := some k.1 } := by
  intro handled
  rcases Authentication.takeTurn_cases (BaseTCPServer.handleAuthenticationPacket P)
    l.serverKeys turn with ⟨hkeys, -⟩ | ⟨f, hreceived, hne, hturn⟩
  · exact Or.inl hkeys
  have hgood := h.toServer f ((takeFrom_spec hrest).2 f hreceived hne)
  simp only [handled, hturn]
  cases BaseTCPServer.handleAuthenticationPacket_answers (P := P) turn.settings turn.io
      l.serverKeys f with
  | nothing keys_eq replies => exact Or.inl keys_eq
  | offers localKeys own keys_eq replies => exact Or.inl keys_eq
  | readies action keys_eq replies => exact Or.inl keys_eq
  | stores localKeys keyData action own stored keys_eq replies =>
      obtain ⟨k, hkey, rfl⟩ := hgood.stores action own stored
      exact Or.inr ⟨k, hkey, keys_eq⟩

namespace Session

variable {P : Platform} {s t : Session} {os : List Output} {c : ConnId}
  {key : Option (RandomData 32)} {e : BaseTCPServer.Event} {o : List BaseTCPServer.Output}

theorem agreed_of_stepServer (hinv : Invariant P s os) (h : s.stepServer P e = some (t, o))
    (hsound : Sound P key (s.link c)) (hagreed : Agreed key (s.server.keys c)) :
    Agreed key (t.server.keys c) := by
  obtain ⟨hstepped, -, -, -, -, hserved, -⟩ := stepServer_spec h
  rcases hstepped.keys with hsame | ⟨created, entropy, localKeys, -, -, -, hnew⟩ |
    ⟨io, received, c', rfl, hthread, hturn⟩
  · rw [show t.server.keys = _ from hsame]
    exact hagreed
  · rw [show t.server.keys = _ from hnew]
    rcases eq_or_ne c s.server.accepted with rfl | hne
    · rw [hinv.fresh _ (Nat.le_refl _)] at hagreed
      exact absurd hagreed not_agreed_of_serverKeys
    · rw [Function.update_of_ne hne]
      exact hagreed
  · rw [show t.server.keys = _ from hturn]
    rcases eq_or_ne c c' with rfl | hne
    · rw [Function.update_self]
      have hserving : s.server.thread.serving = some c := by rw [hthread]; rfl
      have htake : takeFrom (s.toServer c) received = some (t.toServer c) := hserved c hserving
      rcases @Sound.serverTurn_keys P key (s.link c) hsound
        ⟨s.server.self.settings, io, received⟩ _ htake with hsame | ⟨k, hk, hstored⟩
      · rw [show (Authentication.takeTurn _ (s.server.keys c) _).keys = _ from hsame]
        exact hagreed
      · rw [show (Authentication.takeTurn _ (s.server.keys c) _).keys = _ from hstored]
        exact ⟨k, hk, rfl⟩
    · rw [Function.update_of_ne hne]
      exact hagreed

theorem agreed_of_authenticated (h : s.stepServer P e = some (t, o))
    (hsound : Sound P key (s.link c)) (hmem : .authenticated c ∈ o) :
    Agreed key (s.server.keys c) := by
  obtain ⟨hstepped, -, -, -, -, hserved, -⟩ := stepServer_spec h
  obtain ⟨hthread, io, f, rfl, haction⟩ := hstepped.authenticating hmem
  have hserving : s.server.thread.serving = some c := by rw [hthread]; rfl
  have htake : takeFrom (s.toServer c) (.packet f) = some (t.toServer c) := hserved c hserving
  have hmem' : f ∈ (s.link c).toServer :=
    (takeFrom_spec htake).2 f rfl (by rw [haction]; decide)
  exact (hsound.toServer f hmem').agreed haction

/-! ## The marks follow the frames -/

theorem taken_eq_some {s : Marked} {e : Event} (h : s.taken e = some c) :
    ∃ e' f rest, e = .server e' ∧ s.session.server.thread.serving = some c ∧
      e'.received = some (.packet f) ∧ s.session.toServer c = f :: rest := by
  cases e with
  | server e' =>
      simp only [Marked.taken] at h
      split at h
      · rename_i c' f hserving hreceived
        split_ifs at h with hhead
        obtain rfl := Option.some.inj h
        obtain ⟨rest, hrest⟩ := List.head?_eq_some_iff.1 hhead
        exact ⟨e', f, rest, rfl, hserving, hreceived, hrest⟩
      · simp at h
  | connect peerId settings created => simp [Marked.taken] at h
  | client c' e' => simp [Marked.taken] at h
  | alsoToServer c' f => simp [Marked.taken] at h
  | alsoToClient c' f => simp [Marked.taken] at h

theorem toServer_of_stepServer {s : Marked} {t : Session}
    (h : s.session.stepServer P e = some (t, o)) (c : ConnId) :
    t.toServer c = if s.taken (.server e) = some c then (s.session.toServer c).tail
      else s.session.toServer c := by
  obtain ⟨-, -, -, -, -, hserved, hother⟩ := stepServer_spec h
  by_cases hserving : s.session.server.thread.serving = some c
  · have hread := hserved c hserving
    simp only [Marked.taken, hserving]
    rcases hreceived : e.received with _ | f | _
    · rw [hreceived] at hread
      simpa using (Option.some.inj hread).symm
    · rw [hreceived] at hread
      cases hchannel : s.session.toServer c with
      | nil =>
          simp only [hchannel, readFrom, takeFrom] at hread
          split_ifs at hread
          simpa using (Option.some.inj hread).symm
      | cons g rest =>
          simp only [hchannel, readFrom, takeFrom] at hread
          split_ifs at hread with hhead hnothing
          · simpa [hhead, hchannel] using (Option.some.inj hread).symm
          · simpa [Ne.symm hhead, hchannel] using (Option.some.inj hread).symm
    · rw [hreceived] at hread
      simpa using (Option.some.inj hread).symm
  · rw [hother c hserving, if_neg]
    intro htaken
    obtain ⟨-, -, -, -, hserving', -⟩ := taken_eq_some htaken
    exact hserving hserving'

theorem marksAfter_server {s : Marked} {t : Session} (c : ConnId) :
    s.marksAfter t (.server e) c =
      if s.taken (.server e) = some c then (s.marks c).tail else s.marks c := by
  simp only [Marked.marksAfter]
  cases s.taken (.server e) with
  | none => simp
  | some c' =>
      rcases eq_or_ne c c' with rfl | hne
      · simp
      · simp [Function.update_of_ne hne, Ne.symm hne]

theorem forall₂_tail {R : Frame → Option Packet → Prop} {frames : List Frame}
    {marks : List (Option Packet)} (h : List.Forall₂ R frames marks) :
    List.Forall₂ R frames.tail marks.tail := by
  cases h with
  | nil => exact List.Forall₂.nil
  | cons hhead htail => exact htail

theorem forall₂_append_none {R : Frame → Option Packet → Prop} (hnone : ∀ f, R f none)
    {frames : List Frame} {marks : List (Option Packet)} (h : List.Forall₂ R frames marks)
    (more : List Frame) :
    List.Forall₂ R (frames ++ more) (marks ++ List.replicate more.length none) := by
  apply List.rel_append h
  induction more with
  | nil => exact List.Forall₂.nil
  | cons f more ih => exact List.Forall₂.cons (hnone f) ih

theorem step_marks {s : Marked} {e : Event} {t : Session} {o : List Output}
    (h : (session P).step s.session e = some (t, o)) {R : Frame → Option Packet → Prop}
    (hnone : ∀ f, R f none) (hmarks : List.Forall₂ R (s.session.toServer c) (s.marks c)) :
    List.Forall₂ R (t.toServer c) (s.marksAfter t e c) := by
  -- frames of the client's own thread, and of others without a mark
  have happend : ∀ c' more, t.toServer = Function.update s.session.toServer c'
      (s.session.toServer c' ++ more) → List.Forall₂ R (t.toServer c)
        (Function.update s.marks c' (s.marks c' ++ List.replicate
          ((t.toServer c').length - (s.session.toServer c').length) none) c) := by
    intro c' more ht
    rw [ht]
    rcases eq_or_ne c c' with rfl | hne
    · simpa using forall₂_append_none hnone hmarks more
    · rw [Function.update_of_ne hne, Function.update_of_ne hne]
      exact hmarks
  cases e with
  | connect peerId settings created =>
      obtain ⟨rfl, -⟩ := Prod.mk.inj (Option.some.inj h)
      simp only [Marked.marksAfter, Session.connect]
      rcases eq_or_ne c s.session.connected with rfl | hne
      · simp
      · rw [Function.update_of_ne hne, Function.update_of_ne hne]
        exact hmarks
  | server e' =>
      obtain ⟨⟨t', o'⟩, hstep, hr⟩ := Option.map_eq_some_iff.1 h
      obtain ⟨rfl, -⟩ := Prod.mk.inj hr
      rw [marksAfter_server, toServer_of_stepServer hstep c]
      split_ifs
      · exact forall₂_tail hmarks
      · exact hmarks
  | client c' e' =>
      simp only [session] at h
      split_ifs at h
      obtain ⟨⟨t', o'⟩, hstep, hr⟩ := Option.map_eq_some_iff.1 h
      obtain ⟨rfl, -⟩ := Prod.mk.inj hr
      unfold stepClient at hstep
      simp only [bind, Option.bind_eq_some_iff, pure, Option.some.injEq, Prod.mk.injEq,
        Prod.exists] at hstep
      obtain ⟨toClient, -, client, o'', -, rfl, -⟩ := hstep
      exact happend c' _ rfl
  | alsoToServer c' f =>
      simp only [session] at h
      split_ifs at h
      obtain ⟨rfl, -⟩ := Prod.mk.inj (Option.some.inj h)
      exact happend c' _ rfl
  | alsoToClient c' f =>
      simp only [session] at h
      split_ifs at h
      obtain ⟨rfl, -⟩ := Prod.mk.inj (Option.some.inj h)
      exact hmarks

/-! ## The invariant -/

/-- What the session itself has emitted. -/
def sessionOutputs (os : List MarkedOutput) : List Output := os.filterMap MarkedOutput.ofSession

/-- A mark, if there is one, belongs to the frame. -/
def Marks (P : Platform) (key : Option (RandomData 32)) (f : Frame) (mark : Option Packet) :
    Prop :=
  ∀ packet, mark = some packet → WrittenFor P key packet f

structure Tracked (P : Platform) (s : Marked) (os : List MarkedOutput) : Prop where
  sound : Invariant P s.session (sessionOutputs os)
  standing : s.session.server.Standing
  marked : ∀ c key, Generated (sessionOutputs os) c key →
    List.Forall₂ (Marks P key) (s.session.toServer c) (s.marks c)
  authenticated : ∀ c key, Generated (sessionOutputs os) c key →
    .server (.authenticated c) ∈ sessionOutputs os → Agreed key (s.session.server.keys c)
  unauthenticated : ∀ c, s.session.server.thread.serving = some c →
    s.session.server.thread ≠ .authenticating c →
    .server (.authenticated c) ∉ sessionOutputs os → (s.session.server.keys c).chaChaKey = none
  unconnected : ∀ c, s.session.connected ≤ c → s.marks c = []

theorem Marks.mono {key key' : Option (RandomData 32)} (h : ∀ k, key = some k → key' = some k)
    {f : Frame} {mark : Option Packet} (hmark : Marks P key f mark) : Marks P key' f mark := by
  intro packet hpacket
  obtain ⟨action, data_ne, content⟩ := hmark packet hpacket
  refine ⟨action, data_ne, content.imp_right (Or.imp_left ?_)⟩
  rintro ⟨io, k, hk, hsealed⟩
  exact ⟨io, k, h k hk, hsealed⟩

theorem marks_none (P : Platform) (key : Option (RandomData 32)) (f : Frame) :
    Marks P key f none := by
  intro packet hpacket
  simp at hpacket

theorem Generated.unique {so : List Output} {key key' : Option (RandomData 32)}
    (h : Generated so c key) (h' : Generated so c key') : key = key' := by
  apply Option.ext
  intro k
  rw [← h k, ← h' k]

theorem Generated.mono {so so' : List Output} {key key' : Option (RandomData 32)}
    (h : Generated so c key) (h' : Generated (so ++ so') c key') :
    ∀ k, key = some k → key' = some k :=
  fun k hk => (h' k).1 (List.mem_append_left _ ((h k).2 hk))

theorem agreed_mono {key key' : Option (RandomData 32)} {keys : SecurityKey}
    (h : ∀ k, key = some k → key' = some k) (hagreed : Agreed key keys) : Agreed key' keys := by
  obtain ⟨k, hk, hstored⟩ := hagreed
  exact ⟨k, h k hk, hstored⟩

theorem step_server_or {s : Session} {e : Event} {t : Session} {o : List Output}
    (h : (session P).step s e = some (t, o)) :
    (∃ e' o', e = .server e' ∧ o = o'.map .server ∧ s.stepServer P e' = some (t, o')) ∨
      t.server = s.server ∧ s.connected ≤ t.connected ∧ ∀ x, .server x ∉ o := by
  cases e with
  | connect peerId settings created =>
      obtain ⟨rfl, rfl⟩ := Prod.mk.inj (Option.some.inj h)
      exact Or.inr ⟨rfl, Nat.le_succ _, by simp⟩
  | server e' =>
      obtain ⟨⟨t', o'⟩, hstep, hr⟩ := Option.map_eq_some_iff.1 h
      obtain ⟨rfl, rfl⟩ := Prod.mk.inj hr
      exact Or.inl ⟨e', o', rfl, rfl, hstep⟩
  | client c' e' =>
      simp only [session] at h
      split_ifs at h
      obtain ⟨⟨t', o'⟩, hstep, hr⟩ := Option.map_eq_some_iff.1 h
      obtain ⟨rfl, rfl⟩ := Prod.mk.inj hr
      obtain ⟨-, -, hserver, hconnected, -⟩ := stepClient_spec hstep
      exact Or.inr ⟨hserver, hconnected.ge, by simp⟩
  | alsoToServer c' f =>
      simp only [session] at h
      split_ifs at h
      obtain ⟨rfl, rfl⟩ := Prod.mk.inj (Option.some.inj h)
      exact Or.inr ⟨rfl, Nat.le_refl _, by simp⟩
  | alsoToClient c' f =>
      simp only [session] at h
      split_ifs at h
      obtain ⟨rfl, rfl⟩ := Prod.mk.inj (Option.some.inj h)
      exact Or.inr ⟨rfl, Nat.le_refl _, by simp⟩

theorem sessionOutputs_append (os : List MarkedOutput) (o : List Output) {more : List MarkedOutput}
    (hmore : ∀ x ∈ more, x.ofSession = none) :
    sessionOutputs (os ++ (o.map .session ++ more)) = sessionOutputs os ++ o := by
  have hsession : (o.map MarkedOutput.session).filterMap MarkedOutput.ofSession = o := by
    rw [List.filterMap_map]
    exact List.filterMap_some
  unfold sessionOutputs
  rw [List.filterMap_append, List.filterMap_append, hsession,
    List.filterMap_eq_nil_iff.2 hmore, List.append_nil]

theorem raises_ofSession (s : Marked) (e : Event) (o : List Output) :
    ∀ x ∈ s.raises e o, x.ofSession = none := by
  intro x hx
  unfold Marked.raises at hx
  split at hx
  · split_ifs at hx
    · obtain ⟨packet, -, rfl⟩ := List.mem_map.1 hx
      rfl
    · simp at hx
  · simp at hx

theorem unconnected_marksAfter {s : Marked} {e : Event} {t : Session} {o : List Output}
    (h : (session P).step s.session e = some (t, o))
    (hmarks : ∀ c, s.session.connected ≤ c → s.marks c = []) {c : ConnId}
    (hc : t.connected ≤ c) : s.marksAfter t e c = [] := by
  have hbefore : s.session.connected ≤ t.connected := by
    rcases step_server_or h with ⟨e', o', rfl, rfl, hstep⟩ | ⟨-, hle, -⟩
    · exact (stepServer_spec hstep).2.2.2.1.ge
    · exact hle
  have hold : s.marks c = [] := hmarks c (by omega)
  have hother : ∀ c', c' < s.session.connected → ∀ more,
      Function.update s.marks c' more c = [] := by
    intro c' hc' more
    have hlt : c' < c := by omega
    rw [Function.update_of_ne (Nat.ne_of_gt hlt), hold]
  cases e with
  | connect peerId settings created =>
      simp only [Marked.marksAfter]
      rcases eq_or_ne c s.session.connected with rfl | hne
      · simp
      · rw [Function.update_of_ne hne, hold]
  | server e' =>
      rw [marksAfter_server, hold]
      split_ifs <;> rfl
  | client c' e' =>
      simp only [session] at h
      split_ifs at h with hc'
      exact hother c' hc' _
  | alsoToServer c' f =>
      simp only [session] at h
      split_ifs at h with hc'
      exact hother c' hc'.1 _
  | alsoToClient c' f => exact hold

theorem agreed_of_step {so : List Output} {s : Session} {e : Event} {t : Session}
    {o : List Output} (hinv : Invariant P s so) (hstep : (session P).step s e = some (t, o))
    (hgenerated : Generated so c key)
    (hold : .server (.authenticated c) ∈ so → Agreed key (s.server.keys c))
    (hmem : .server (.authenticated c) ∈ so ++ o) : Agreed key (t.server.keys c) := by
  obtain ⟨key', hgenerated', hsound⟩ := hinv.sound c
  obtain rfl : key = key' := hgenerated.unique hgenerated'
  rcases step_server_or hstep with ⟨e', o', rfl, rfl, hserver⟩ | ⟨hserver, -, hnone⟩
  · have hbefore : Agreed key (s.server.keys c) := by
      rcases List.mem_append.1 hmem with hthen | hnow
      · exact hold hthen
      · obtain ⟨x, hx, heq⟩ := List.mem_map.1 hnow
        rw [Output.server.inj heq] at hx
        exact agreed_of_authenticated hserver hsound hx
    exact agreed_of_stepServer hinv hserver hsound hbefore
  · rw [hserver]
    rcases List.mem_append.1 hmem with hthen | hnow
    · exact hold hthen
    · exact absurd hnow (hnone _)

theorem Tracked.stepSession (rsa : P.RSALaws) (hauth : P.packetAuthentication.RoundTrips)
    (hjson : P.packetEncrypted.RoundTrips) {s : Marked} {os : List MarkedOutput}
    (h : Tracked P s os) {e : Event} {t : Session} {o : List Output}
    (hstep : (session P).step s.session e = some (t, o)) :
    Tracked P ⟨t, s.marksAfter t e⟩ (os ++ (o.map .session ++ s.raises e o)) := by
  have houtputs := sessionOutputs_append os o (raises_ofSession s e o)
  have hnext : Invariant P t (sessionOutputs os ++ o) := h.sound.step rsa hauth hjson hstep
  refine ⟨by rw [houtputs]; exact hnext, ?_, ?_, ?_, ?_, ?_⟩
  · rcases step_server_or hstep with ⟨e', o', rfl, rfl, hserver⟩ | ⟨hserver, -, -⟩
    · exact h.standing.step (stepServer_spec hserver).1
    · simp only [hserver]
      exact h.standing
  · rw [houtputs]
    intro c key' hgenerated'
    obtain ⟨key, hgenerated, -⟩ := h.sound.sound c
    apply step_marks hstep (marks_none P key')
    exact (h.marked c key hgenerated).imp fun f mark =>
      Marks.mono (hgenerated.mono hgenerated')
  · rw [houtputs]
    intro c key' hgenerated' hmem
    obtain ⟨key, hgenerated, -⟩ := h.sound.sound c
    exact agreed_mono (hgenerated.mono hgenerated')
      (agreed_of_step h.sound hstep hgenerated (h.authenticated c key hgenerated) hmem)
  · rw [houtputs]
    intro c hserving hthread hmem
    rcases step_server_or hstep with ⟨e', o', rfl, rfl, hserver⟩ | ⟨hserver, -, -⟩
    · rcases (stepServer_spec hserver).1.unauthenticated hserving hthread with
        hnow | hnone | ⟨hserving', hthread', hkeys⟩
      · exact absurd (List.mem_append_right _ (List.mem_map_of_mem hnow)) hmem
      · exact hnone
      · have hkey := h.unauthenticated c hserving' hthread'
          fun hthen => hmem (List.mem_append_left _ hthen)
        rw [show t.server.keys c = s.session.server.keys c from hkeys]
        exact hkey
    · simp only [hserver] at hserving hthread ⊢
      exact h.unauthenticated c hserving hthread
        fun hthen => hmem (List.mem_append_left _ hthen)
  · exact fun c hc => unconnected_marksAfter hstep h.unconnected hc

theorem stepSend_cases {s t : Marked} {io : Ambient} {packet : Packet}
    {isEncryptionEnabled : Bool} {encryptionType : PacketEncryptionType}
    {o : List MarkedOutput}
    (h : s.stepSend P c io packet isEncryptionEnabled encryptionType = some (t, o)) :
    t = s ∧ o = [] ∨
      c < s.session.connected ∧ ∃ f, ¬ f.header.packetAction.IsHandshake ∧
        (∀ key, (s.session.clients c).keys.chaChaKey = key.map Subtype.val →
          WrittenFor P key packet f) ∧
        t = ⟨{ s.session with
            toServer := Function.update s.session.toServer c (s.session.toServer c ++ [f]) },
          Function.update s.marks c (s.marks c ++ [some packet])⟩ ∧ o = [.sent c packet] := by
  simp only [Marked.stepSend] at h
  split_ifs at h with hcond
  obtain ⟨hc, haction, hdata⟩ := hcond
  split at h
  · obtain ⟨rfl, rfl⟩ := Prod.mk.inj (Option.some.inj h)
    exact Or.inl ⟨rfl, rfl⟩
  · rename_i f hframe
    obtain ⟨rfl, rfl⟩ := Prod.mk.inj (Option.some.inj h)
    refine Or.inr ⟨hc, f, ?_, fun key hkey => writtenFor_of_sendPacket hkey hdata hframe, rfl, rfl⟩
    rw [PacketHelper.sendPacket_action P _ _ hframe]
    exact haction

theorem Tracked.stepSend (rsa : P.RSALaws) (hauth : P.packetAuthentication.RoundTrips)
    (hjson : P.packetEncrypted.RoundTrips) {s t : Marked} {os : List MarkedOutput}
    (h : Tracked P s os) {io : Ambient} {packet : Packet} {isEncryptionEnabled : Bool}
    {encryptionType : PacketEncryptionType} {o : List MarkedOutput}
    (hstep : s.stepSend P c io packet isEncryptionEnabled encryptionType = some (t, o)) :
    Tracked P t (os ++ o) := by
  rcases stepSend_cases hstep with ⟨rfl, rfl⟩ | ⟨hc, f, haction, hwritten, rfl, rfl⟩
  · rw [List.append_nil]
    exact h
  have houtputs : sessionOutputs (os ++ [.sent c packet]) = sessionOutputs os := by
    unfold sessionOutputs
    rw [List.filterMap_append]
    exact List.append_nil _
  -- for the session it is a frame of another thread
  have halso : (session P).step s.session (.alsoToServer c f) = some ({ s.session with
      toServer := Function.update s.session.toServer c (s.session.toServer c ++ [f]) }, []) :=
    if_pos ⟨hc, haction⟩
  have hnext := h.sound.step rsa hauth hjson halso
  rw [List.append_nil] at hnext
  refine ⟨by rw [houtputs]; exact hnext, h.standing, ?_, ?_, ?_, ?_⟩
  · rw [houtputs]
    intro c' key hgenerated
    rcases eq_or_ne c' c with rfl | hne
    · simp only [Function.update_self]
      apply List.rel_append (h.marked c' key hgenerated)
      refine List.Forall₂.cons (fun packet' hpacket => ?_) List.Forall₂.nil
      obtain rfl := Option.some.inj hpacket
      obtain ⟨key', hgenerated', hsound⟩ := h.sound.sound c'
      obtain rfl : key = key' := hgenerated.unique hgenerated'
      exact hwritten key hsound.clientKey
    · simp only [Function.update_of_ne hne]
      exact h.marked c' key hgenerated
  · rw [houtputs]
    exact h.authenticated
  · rw [houtputs]
    exact h.unauthenticated
  · intro c' hc'
    have hlt : c < c' := Nat.lt_of_lt_of_le hc hc'
    simp only [Function.update_of_ne (Nat.ne_of_gt hlt)]
    exact h.unconnected c' hc'

theorem Tracked.step (rsa : P.RSALaws) (hauth : P.packetAuthentication.RoundTrips)
    (hjson : P.packetEncrypted.RoundTrips) {s t : Marked} {os : List MarkedOutput}
    (h : Tracked P s os) {e : MarkedEvent} {o : List MarkedOutput}
    (hstep : (markedSession P).step s e = some (t, o)) : Tracked P t (os ++ o) := by
  cases e with
  | session e =>
      obtain ⟨⟨t', o'⟩, hstep', hr⟩ := Option.map_eq_some_iff.1 hstep
      obtain ⟨rfl, rfl⟩ := Prod.mk.inj hr
      exact h.stepSession rsa hauth hjson hstep'
  | send c io packet isEncryptionEnabled encryptionType =>
      exact h.stepSend rsa hauth hjson hstep

/-- Nobody has connected yet, and nothing is on its way. -/
def startMarked (self : Peer) : Marked := { session := start self }

theorem tracked_start (P : Platform) (self : Peer) : Tracked P (startMarked self) [] where
  sound := invariant_start P self
  standing := BaseTCPServer.standing_start self
  marked _ _ _ := List.Forall₂.nil
  authenticated c key _ hmem := by simp [sessionOutputs] at hmem
  unauthenticated c hserving := by
    simp [startMarked, start, BaseTCPServer.start, BaseTCPServer.Thread.serving] at hserving
  unconnected _ _ := rfl

/-! ## A frame that is taken -/

theorem handsOn_of_taken {s : Marked} {e : Event} {t : Session} {o : List Output}
    (hstep : (session P).step s.session e = some (t, o)) (htaken : s.taken e = some c)
    {f : Frame} {rest : List Frame} (hchannel : s.session.toServer c = f :: rest) :
    s.session.server.thread ≠ .receiving c ∧ o.filterMap (Output.handsOn c) = [] ∨
      s.session.server.thread = .receiving c ∧ .server (.authenticated c) ∉ o ∧
        o.filterMap (Output.handsOn c) =
          BaseTCPServer.opened P (s.session.server.keys c) f := by
  obtain ⟨e', f', rest', rfl, hserving, hreceived, hchannel'⟩ := taken_eq_some htaken
  obtain ⟨rfl, -⟩ : f = f' ∧ rest = rest' := by simpa [hchannel] using hchannel'
  obtain ⟨⟨t', o'⟩, hserver, hr⟩ := Option.map_eq_some_iff.1 hstep
  obtain ⟨rfl, rfl⟩ := Prod.mk.inj hr
  have hhands : (o'.map Output.server).filterMap (Output.handsOn c) =
      o'.filterMap (BaseTCPServer.Output.handsOn c) := by
    rw [List.filterMap_map]
    rfl
  rw [hhands]
  rcases (stepServer_spec hserver).1.handsOn hserving hreceived with
    ⟨hthread, hnothing⟩ | ⟨hthread, hnone, hopened⟩
  · exact Or.inl ⟨by rw [hthread]; simp, hnothing⟩
  · refine Or.inr ⟨hthread, fun hmem => ?_, hopened⟩
    obtain ⟨x, hx, heq⟩ := List.mem_map.1 hmem
    rw [Output.server.inj heq] at hx
    exact hnone c hx

section

variable (rsa : P.PublicKeyOpensNothing) (laws : P.ChaChaLaws)
  (hjson : P.packetEncrypted.RoundTrips) {s : Marked} {os : List MarkedOutput}
  (h : Tracked P s os) {e : Event} {t : Session} {o : List Output}
  (hstep : (session P).step s.session e = some (t, o)) (htaken : s.taken e = some c)
  {f : Frame} {rest : List Frame} {packet : Packet} {marks : List (Option Packet)}
  (hchannel : s.session.toServer c = f :: rest) (hmarks : s.marks c = some packet :: marks)

include h hchannel hmarks in
theorem Tracked.writtenFor {key : Option (RandomData 32)}
    (hgenerated : Generated (sessionOutputs os) c key) : WrittenFor P key packet f := by
  have hall := h.marked c key hgenerated
  rw [hchannel, hmarks] at hall
  exact (List.forall₂_cons.1 hall).1 packet rfl

include rsa laws hjson h hstep htaken hchannel hmarks in
/-- It is raised as it was sent, and after the handshake, exactly if it is read in place. -/
theorem Tracked.raised_iff :
    o.filterMap (Output.handsOn c) = [packet] ∧
        .server (.authenticated c) ∈ sessionOutputs os ↔ InPlace s.session c f := by
  obtain ⟨key, hgenerated, hsound⟩ := h.sound.sound c
  have hwritten := h.writtenFor hchannel hmarks hgenerated
  constructor
  · rintro ⟨hraised, hauthenticated⟩
    rcases handsOn_of_taken hstep htaken hchannel with ⟨-, hnothing⟩ | ⟨hthread, -, hopened⟩
    · rw [hnothing] at hraised
      simp at hraised
    · have hopens : autoDecrypt P (s.session.server.keys c) f = .ok (some packet.2) := by
        apply BaseTCPServer.autoDecrypt_of_mem_opened
        rw [← hopened, hraised]
        exact List.mem_singleton_self _
      refine ⟨hthread, ?_, fun htype => ?_, fun haction => ?_⟩
      · obtain ⟨k, -, hstored⟩ := h.authenticated c key hgenerated hauthenticated
        rw [hstored]
        simp
      · exact hwritten.not_opens_rsa rsa hjson hsound.own htype _ hopens
      · rw [autoDecrypt, if_pos haction] at hopens
        simp at hopens
  · rintro ⟨hthread, hexchanged, htype, haction⟩
    have hagreed : Agreed key (s.session.server.keys c) :=
      hsound.serverKey.resolve_left hexchanged
    have hopens := hwritten.opens laws hjson hagreed haction htype
    rcases handsOn_of_taken hstep htaken hchannel with ⟨hother, -⟩ | ⟨-, -, hopened⟩
    · exact absurd hthread hother
    · refine ⟨?_, ?_⟩
      · rw [hopened, BaseTCPServer.opened_of_eq_ok hopens, hwritten.action]
      · by_contra hnot
        exact hexchanged (h.unauthenticated c (by rw [hthread]; rfl) (by rw [hthread]; simp) hnot)

end

/-! ## What a step does to the property -/

theorem raises_eq_nil {s : Marked} {e : Event} (o : List Output)
    (h : ∀ c packet marks, s.taken e = some c → s.marks c ≠ some packet :: marks) :
    s.raises e o = [] := by
  unfold Marked.raises
  split
  · rename_i c htaken
    cases hmarks : s.marks c with
    | nil => rfl
    | cons mark marks =>
        cases mark with
        | none => rfl
        | some packet => exact absurd hmarks (h c packet marks htaken)
  · rfl

theorem raises_of_taken {s : Marked} {e : Event} (o : List Output) {packet : Packet}
    {marks : List (Option Packet)} (htaken : s.taken e = some c)
    (hmarks : s.marks c = some packet :: marks) :
    s.raises e o = (o.filterMap (Output.handsOn c)).map (.raised c) := by
  simp [Marked.raises, htaken, hmarks]

theorem filterMap_sentOn_step (s : Marked) (e : Event) (o : List Output) (c : ConnId) :
    (o.map MarkedOutput.session ++ s.raises e o).filterMap (MarkedOutput.sentOn c) = [] := by
  apply List.filterMap_eq_nil_iff.2
  intro x hx
  rcases List.mem_append.1 hx with hsession | hraised
  · obtain ⟨y, -, rfl⟩ := List.mem_map.1 hsession
    rfl
  · unfold Marked.raises at hraised
    split at hraised
    · split_ifs at hraised
      · obtain ⟨packet, -, rfl⟩ := List.mem_map.1 hraised
        rfl
      · simp at hraised
    · simp at hraised

theorem filterMap_raisedOn_session (o : List Output) (c : ConnId) :
    (o.map MarkedOutput.session).filterMap (MarkedOutput.raisedOn c) = [] := by
  rw [List.filterMap_map]
  exact List.filterMap_eq_nil_iff.2 fun _ _ => rfl

theorem filterMap_raisedOn_map (packets : List Packet) (c c' : ConnId) :
    (packets.map (MarkedOutput.raised c)).filterMap (MarkedOutput.raisedOn c') =
      if c = c' then packets else [] := by
  rw [List.filterMap_map]
  split_ifs with hc
  · simp [MarkedOutput.raisedOn, hc]
  · simp [MarkedOutput.raisedOn, hc]

theorem filterMap_raisedOn_step (s : Marked) (e : Event) (o : List Output) (c : ConnId) :
    (o.map MarkedOutput.session ++ s.raises e o).filterMap (MarkedOutput.raisedOn c) =
      (s.raises e o).filterMap (MarkedOutput.raisedOn c) := by
  rw [List.filterMap_append, filterMap_raisedOn_session, List.nil_append]

theorem Unswallowed.kept_append_iff {s : Marked} {os : List MarkedOutput} (hold : Unswallowed s os)
    (o : List MarkedOutput) (marks : List (Option Packet)) (c : ConnId) :
    (os ++ o).filterMap (MarkedOutput.sentOn c) =
        (os ++ o).filterMap (MarkedOutput.raisedOn c) ++ marks.reduceOption ↔
      (s.marks c).reduceOption ++ o.filterMap (MarkedOutput.sentOn c) =
        o.filterMap (MarkedOutput.raisedOn c) ++ marks.reduceOption := by
  rw [List.filterMap_append, List.filterMap_append, hold.kept c, List.append_assoc,
    List.append_assoc, List.append_right_inj]

theorem Unswallowed.append {s t : Marked} {os o : List MarkedOutput} (hold : Unswallowed s os)
    (hkept : ∀ c, (s.marks c).reduceOption ++ o.filterMap (MarkedOutput.sentOn c) =
      o.filterMap (MarkedOutput.raisedOn c) ++ (t.marks c).reduceOption)
    (hafter : ∀ c, o.filterMap (MarkedOutput.raisedOn c) ≠ [] →
      .session (.server (.authenticated c)) ∈ os)
    (hheard : ∀ c, (t.marks c).reduceOption ≠ [] → ¬ t.session.server.HasLeft c) :
    Unswallowed t (os ++ o) := by
  refine ⟨?_, ?_, hheard⟩
  · intro c
    exact (hold.kept_append_iff o (t.marks c) c).2 (hkept c)
  · intro c
    apply (hold.after c).append
    rintro ⟨x, hx, hraised⟩
    obtain ⟨packet, hpacket⟩ := Option.isSome_iff_exists.1 hraised
    have hmem : packet ∈ o.filterMap (MarkedOutput.raisedOn c) :=
      List.mem_filterMap.2 ⟨x, hx, hpacket⟩
    exact ⟨_, hafter c (List.ne_nil_of_mem hmem), rfl⟩

theorem reduceOption_marksAfter {s : Marked} (hmarks : s.marks s.session.connected = [])
    (e : Event) (t : Session) (c : ConnId) :
    (s.marksAfter t e c).reduceOption = s.remaining e c := by
  unfold Marked.remaining
  have hwritten : ∀ c' n, (Function.update s.marks c'
      (s.marks c' ++ List.replicate n none) c).reduceOption = (s.marks c).reduceOption := by
    intro c' n
    rcases eq_or_ne c c' with rfl | hne
    · rw [Function.update_self, List.reduceOption_append, List.reduceOption_replicate_none,
        List.append_nil]
    · rw [Function.update_of_ne hne]
  cases e with
  | server e' =>
      rw [marksAfter_server]
      split_ifs <;> rfl
  | connect peerId settings created =>
      simp only [Marked.marksAfter, Marked.taken, reduceCtorEq, if_false]
      rcases eq_or_ne c s.session.connected with rfl | hne
      · rw [Function.update_self, hmarks]
      · rw [Function.update_of_ne hne]
  | client c' e' => exact hwritten c' _
  | alsoToServer c' f => exact hwritten c' _
  | alsoToClient c' f => rfl

theorem mem_sessionOutputs_iff (os : List MarkedOutput) (c : ConnId) :
    .server (.authenticated c) ∈ sessionOutputs os ↔
      MarkedOutput.session (.server (.authenticated c)) ∈ os := by
  rw [sessionOutputs, List.mem_filterMap]
  constructor
  · rintro ⟨x, hx, hout⟩
    cases x with
    | session y =>
        obtain rfl := Option.some.inj hout
        exact hx
    | sent c' packet => simp [MarkedOutput.ofSession] at hout
    | raised c' packet => simp [MarkedOutput.ofSession] at hout
  · intro hmem
    exact ⟨_, hmem, rfl⟩

/-- A packet that was raised in the last step was raised after the handshake, as the step
that reads a packet completes none. -/
theorem Unswallowed.authenticated_of_raised {s : Marked} {os : List MarkedOutput} {e : Event}
    {t : Session} {o : List Output} {packet : Packet}
    (hnew : Unswallowed ⟨t, s.marksAfter t e⟩ (os ++ (o.map .session ++ s.raises e o)))
    (hraises : s.raises e o = [.raised c packet]) (hnone : .server (.authenticated c) ∉ o) :
    .session (.server (.authenticated c)) ∈ os := by
  obtain ⟨a, ha, rfl⟩ := hnew.after c (os ++ o.map .session) (.raised c packet) []
    (by rw [hraises, List.append_assoc])
    (by simp [MarkedOutput.raisedOn])
  rcases List.mem_append.1 ha with hthen | hnow
  · exact hthen
  · obtain ⟨x, hx, heq⟩ := List.mem_map.1 hnow
    rw [MarkedOutput.session.inj heq] at hx
    exact absurd hx hnone

/-- The property goes on exactly if a marked frame that is taken is raised as it was sent,
and after the handshake, and the server has not left a connection with more of them. -/
theorem unswallowed_step_iff {s : Marked} {os : List MarkedOutput} (h : Tracked P s os)
    (hold : Unswallowed s os) {e : Event} {t : Session} {o : List Output}
    (hstep : (session P).step s.session e = some (t, o)) :
    Unswallowed ⟨t, s.marksAfter t e⟩ (os ++ (o.map .session ++ s.raises e o)) ↔
      (∀ c packet marks, s.taken e = some c → s.marks c = some packet :: marks →
        o.filterMap (Output.handsOn c) = [packet] ∧
          .server (.authenticated c) ∈ sessionOutputs os) ∧
      ∀ c, s.remaining e c ≠ [] → ¬ t.server.HasLeft c := by
  have hreduce := reduceOption_marksAfter (h.unconnected _ (Nat.le_refl _)) e t
  constructor
  · intro hnew
    refine ⟨fun c packet marks htaken hmarks => ?_, fun c => hreduce c ▸ hnew.heard c⟩
    have hraises := raises_of_taken o htaken hmarks
    have hraised : o.filterMap (Output.handsOn c) = [packet] := by
      have hkept := (hold.kept_append_iff _ _ c).1 (hnew.kept c)
      rw [filterMap_sentOn_step, List.append_nil, filterMap_raisedOn_step, hraises,
        filterMap_raisedOn_map, if_pos rfl, hreduce, Marked.remaining, if_pos htaken, hmarks,
        List.reduceOption_cons_of_some] at hkept
      exact (@List.append_cancel_right _ [packet] _ _ hkept).symm
    refine ⟨hraised, ?_⟩
    rw [mem_sessionOutputs_iff]
    obtain ⟨e', f, rest, -, -, -, hchannel⟩ := taken_eq_some htaken
    rcases handsOn_of_taken hstep htaken hchannel with ⟨-, hnothing⟩ | ⟨-, hnone, -⟩
    · rw [hnothing] at hraised
      simp at hraised
    · rw [hraised] at hraises
      exact hnew.authenticated_of_raised hraises hnone
  · rintro ⟨hgood, hheard⟩
    apply hold.append
    · intro c
      rw [filterMap_sentOn_step, List.append_nil, filterMap_raisedOn_step, hreduce,
        Marked.remaining]
      by_cases hmarked : ∃ c packet marks, s.taken e = some c ∧ s.marks c = some packet :: marks
      · obtain ⟨c', packet, marks, htaken, hmarks⟩ := hmarked
        rw [raises_of_taken o htaken hmarks, (hgood c' packet marks htaken hmarks).1,
          filterMap_raisedOn_map, htaken]
        rcases eq_or_ne c' c with rfl | hne
        · rw [if_pos rfl, if_pos rfl, hmarks, List.reduceOption_cons_of_some]
          rfl
        · rw [if_neg hne, if_neg (by simpa using hne), List.nil_append]
      · -- an unmarked frame, or none, is taken: the packets on their way are the same
        have hnone : ∀ c packet marks, s.taken e = some c → s.marks c ≠ some packet :: marks :=
          fun c packet marks htaken hmarks => hmarked ⟨c, packet, marks, htaken, hmarks⟩
        rw [raises_eq_nil o hnone, List.filterMap_nil, List.nil_append]
        split_ifs with htaken
        · rcases hmarks : s.marks c with _ | ⟨_ | packet, marks⟩
          · rfl
          · rfl
          · exact absurd hmarks (hnone c packet marks htaken)
        · rfl
    · intro c hraised
      rw [filterMap_raisedOn_step] at hraised
      by_contra hnot
      apply hraised
      by_cases hmarked : ∃ c packet marks, s.taken e = some c ∧ s.marks c = some packet :: marks
      · obtain ⟨c', packet, marks, htaken, hmarks⟩ := hmarked
        have hthen := (hgood c' packet marks htaken hmarks).2
        rw [mem_sessionOutputs_iff] at hthen
        rw [raises_of_taken o htaken hmarks, filterMap_raisedOn_map, if_neg]
        rintro rfl
        exact hnot hthen
      · rw [raises_eq_nil o fun c packet marks htaken hmarks =>
          hmarked ⟨c, packet, marks, htaken, hmarks⟩, List.filterMap_nil]
    · intro c
      rw [hreduce]
      exact hheard c

theorem unswallowed_stepSend_iff {s t : Marked} {os o : List MarkedOutput}
    (hold : Unswallowed s os) {io : Ambient} {packet : Packet} {isEncryptionEnabled : Bool}
    {encryptionType : PacketEncryptionType}
    (hstep : s.stepSend P c io packet isEncryptionEnabled encryptionType = some (t, o)) :
    Unswallowed t (os ++ o) ↔ (.sent c packet ∈ o → ¬ s.session.server.HasLeft c) := by
  rcases stepSend_cases hstep with ⟨rfl, rfl⟩ | ⟨-, f, -, -, rfl, rfl⟩
  · rw [List.append_nil]
    exact iff_of_true hold (by simp)
  have hraised : ∀ c', [MarkedOutput.sent c packet].filterMap (MarkedOutput.raisedOn c') = [] :=
    fun _ => rfl
  have hmarks : (s.marks c ++ [some packet]).reduceOption =
      (s.marks c).reduceOption ++ [packet] := by
    rw [List.reduceOption_append, List.reduceOption_singleton]
    rfl
  constructor
  · intro hnew _
    apply hnew.heard c
    simp only [Function.update_self, hmarks]
    simp
  · intro hheard
    apply hold.append
    · intro c'
      rw [hraised, List.nil_append]
      rcases eq_or_ne c c' with rfl | hne
      · simp only [Function.update_self, hmarks]
        simp [MarkedOutput.sentOn]
      · simp [MarkedOutput.sentOn, hne, Function.update_of_ne (Ne.symm hne)]
    · intro c' hne
      exact absurd (hraised c') hne
    · intro c' hmarked
      rcases eq_or_ne c c' with rfl | hne
      · exact hheard (List.mem_singleton_self _)
      · simp only [Function.update_of_ne (Ne.symm hne)] at hmarked
        exact hold.heard c' hmarked

theorem ne_nil_of_remaining {s : Marked} {e : Event} (h : s.remaining e c ≠ []) :
    (s.marks c).reduceOption ≠ [] := by
  unfold Marked.remaining at h
  split_ifs at h
  · intro hnil
    rcases hmarks : s.marks c with _ | ⟨_ | packet, marks⟩
    · simp [hmarks] at h
    · exact h (by simpa [hmarks] using hnil)
    · simp [hmarks] at hnil
  · exact h

theorem Tracked.heard_iff {s : Marked} {os : List MarkedOutput} (h : Tracked P s os)
    (hold : Unswallowed s os) {e : Event} {t : Session} {o : List Output}
    (hstep : (session P).step s.session e = some (t, o)) :
    (∀ c, s.remaining e c ≠ [] → ¬ t.server.HasLeft c) ↔ LeavesNone P s (.session e) := by
  have hbefore : ∀ {c}, s.remaining e c ≠ [] → ¬ s.session.server.HasLeft c :=
    fun hremaining => hold.heard _ (ne_nil_of_remaining hremaining)
  by_cases hevent : ∃ e', e = .server e'
  · obtain ⟨e', rfl⟩ := hevent
    obtain ⟨⟨t', o'⟩, hserver, hr⟩ := Option.map_eq_some_iff.1 hstep
    obtain ⟨rfl, rfl⟩ := Prod.mk.inj hr
    have hleft := h.standing.hasLeft_step_iff (stepServer_spec hserver).1
    constructor
    · refine fun hheard => ⟨fun e'' c r he _ hremaining => ?_, by simp⟩
      obtain rfl := Event.server.inj (MarkedEvent.session.inj he)
      exact fun hleaves => hheard c hremaining ((hleft c).2 (Or.inr hleaves))
    · intro hnone c hremaining hnow
      rcases (hleft c).1 hnow with hthen | hleaves
      · exact hbefore hremaining hthen
      · exact hnone.reading e' c _ rfl hstep hremaining hleaves
  · have hserver : t.server = s.session.server := by
      rcases step_server_or hstep with ⟨e', -, rfl, -, -⟩ | ⟨hserver, -, -⟩
      · exact absurd ⟨e', rfl⟩ hevent
      · exact hserver
    refine iff_of_true (fun c hremaining => ?_) ⟨fun e' c r he => ?_, by simp⟩
    · rw [hserver]
      exact hbefore hremaining
    · exact absurd ⟨e', MarkedEvent.session.inj he⟩ hevent

theorem Tracked.unswallowed_iff (rsa : P.PublicKeyOpensNothing) (laws : P.ChaChaLaws)
    (hjson : P.packetEncrypted.RoundTrips) {s t : Marked} {os o : List MarkedOutput}
    (h : Tracked P s os) (hold : Unswallowed s os) {e : MarkedEvent}
    (hstep : (markedSession P).step s e = some (t, o)) :
    Unswallowed t (os ++ o) ↔ GetsThrough P s e := by
  cases e with
  | send c io packet isEncryptionEnabled encryptionType =>
      rw [unswallowed_stepSend_iff hold hstep]
      constructor
      · intro hheard
        refine ⟨by simp [TakesInPlace], by simp, ?_⟩
        rintro c' io' packet' isEncryptionEnabled' encryptionType' t' o' he hstep' hsent
        obtain ⟨rfl, rfl, rfl, rfl, rfl⟩ := MarkedEvent.send.inj he
        obtain ⟨-, rfl⟩ := Prod.mk.inj (Option.some.inj (hstep.symm.trans hstep'))
        exact hheard hsent
      · intro hthrough
        exact hthrough.leavesNone.sending _ _ _ _ _ _ _ rfl hstep
  | session e =>
      obtain ⟨⟨t', o'⟩, hstep', hr⟩ := Option.map_eq_some_iff.1 hstep
      obtain ⟨rfl, rfl⟩ := Prod.mk.inj hr
      rw [unswallowed_step_iff h hold hstep', h.heard_iff hold hstep']
      constructor
      · rintro ⟨hgood, hnone⟩
        refine ⟨?_, hnone⟩
        rintro e' c f rest packet marks r he - htaken hchannel hmarks
        obtain rfl := MarkedEvent.session.inj he
        exact (h.raised_iff rsa laws hjson hstep' htaken hchannel hmarks).1
          (hgood c packet marks htaken hmarks)
      · rintro ⟨hplace, hnone⟩
        refine ⟨fun c packet marks htaken hmarks => ?_, hnone⟩
        obtain ⟨e', f, rest, -, -, -, hchannel⟩ := taken_eq_some htaken
        exact (h.raised_iff rsa laws hjson hstep' htaken hchannel hmarks).2
          (hplace e c f rest packet marks _ rfl hstep' htaken hchannel hmarks)

theorem getsThrough_of_blocked (s : Marked) (e : MarkedEvent)
    (h : (markedSession P).step s e = none) : GetsThrough P s e := by
  refine ⟨?_, ?_, ?_⟩
  · rintro e' c f rest packet marks r rfl hstep
    simp [markedSession, Marked.stepSession, hstep] at h
  · rintro e' c r rfl hstep
    simp [markedSession, Marked.stepSession, hstep] at h
  · rintro c io packet isEncryptionEnabled encryptionType t o rfl hstep
    simp [markedSession, hstep] at h

/-- A client connects, and its list of peers is sent at once; the server accepts it and
reads what is there. -/
def earlyPacket : List MarkedEvent :=
  let data := toUTF8Byte "[]"
  [.session (.connect .empty (some {}) ((0 : Nat), (0 : Nat))),
    .send 0 PacketHelper.quiet (.peerJoin, data) true .none,
    .session (.server (.accept ((0 : Nat), (0 : Nat)) [])), .session (.server .gate),
    .session (.server (.handshake PacketHelper.quiet
      (.packet (PacketHelper.frameOf PacketHelper.quiet data .peerJoin .none))))]

theorem not_unswallowed_earlyPacket : ¬ (markedSession Reference.reference).Throughout
    Unswallowed (startMarked { peerId := .empty }) earlyPacket := by
  intro hall
  have hend : ((markedSession Reference.reference).run (startMarked { peerId := .empty })
      earlyPacket).map (fun r => (r.2.filterMap (MarkedOutput.sentOn 0),
        r.2.filterMap (MarkedOutput.raisedOn 0), (r.1.marks 0).reduceOption)) =
          some ([(.peerJoin, toUTF8Byte "[]")], [], []) := by decide +kernel
  obtain ⟨⟨t, os⟩, hrun, hend⟩ := Option.map_eq_some_iff.1 hend
  obtain ⟨hsent, hnone⟩ := Prod.mk.inj hend
  obtain ⟨hraised, hmarks⟩ := Prod.mk.inj hnone
  have hkept := (hall.last hrun).kept 0
  rw [hsent, hraised, hmarks] at hkept
  simp at hkept

/-- Nothing that another thread sends is swallowed exactly as long as every frame of it is
read by the receive loop of a connection with a key, and the server leaves none behind. -/
theorem throughout_unswallowed_iff (P : Platform) (rsa : P.RSALaws)
    (hpublic : P.PublicKeyOpensNothing) (laws : P.ChaChaLaws)
    (hauth : P.packetAuthentication.RoundTrips) (hjson : P.packetEncrypted.RoundTrips)
    (self : Peer) (es : List MarkedEvent) :
    (markedSession P).Throughout Unswallowed (startMarked self) es ↔
      (markedSession P).Along (GetsThrough P) (startMarked self) es := by
  have hstart : Unswallowed (startMarked self) [] :=
    ⟨fun c => rfl, fun c => precededBy_nil, fun c hne => absurd rfl hne⟩
  exact Machine.throughout_iff_along (h := []) getsThrough_of_blocked
    (fun s os e t o hold htracked hstep =>
      ⟨htracked.unswallowed_iff hpublic laws hjson hold hstep,
        fun _ => htracked.step rsa hauth hjson hstep⟩) hstart (tracked_start P self) es

theorem throughout_unswallowed_iff_earlyPacket : ¬ (markedSession Reference.reference).Along
    (GetsThrough Reference.reference) (startMarked { peerId := .empty }) earlyPacket := by
  intro halong
  exact not_unswallowed_earlyPacket ((throughout_unswallowed_iff Reference.reference
    Reference.reference_rsaLaws Reference.reference_publicKeyOpensNothing
    Reference.reference_chaChaLaws Reference.packetAuthentication_roundTrips
    Reference.packetEncrypted_roundTrips { peerId := .empty } earlyPacket).2 halong)

theorem not_throughout_unswallowed :
    ¬ ∀ (P : Platform) (self : Peer) (es : List MarkedEvent), P.RSALaws →
        P.PublicKeyOpensNothing → P.ChaChaLaws → P.packetAuthentication.RoundTrips →
        P.packetEncrypted.RoundTrips →
          (markedSession P).Throughout Unswallowed (startMarked self) es := by
  intro halways
  exact not_unswallowed_earlyPacket (halways Reference.reference { peerId := .empty } earlyPacket
    Reference.reference_rsaLaws Reference.reference_publicKeyOpensNothing
    Reference.reference_chaChaLaws Reference.packetAuthentication_roundTrips
    Reference.packetEncrypted_roundTrips)

end Session

end NETConnect
