import NETConnect.Lib.Machine
import NETConnect.Peers.Peer
/-!
# `Watcher`

The loop of the form that subscribes to the clients of the connected peers.  Peers
join and leave between its turns.
-/

namespace NETConnect.Form1

open Lib

/-- `Self.ConnectedPeers`, `WiredClients`, and whether the loop still runs. -/
structure Form where
  connected : List PeerTable := []
  wired : List PeerTable := []
  running : Bool := true
  deriving DecidableEq, Repr

/-- What the loop does: a subscription to the client of a peer, a turn with the two lists
at its end, or an exception that ends the loop. -/
inductive Watched
  | subscribed (peerId : Guid)
  | turn (connected wired : List PeerTable)
  | failed (e : Exn)
  deriving DecidableEq, Repr

inductive FormEvent
  | join (peer : PeerTable)
  | leave (index : Nat)
  | turn
  deriving DecidableEq, Repr

def idsOf (entries : List PeerTable) : List Guid := entries.map fun x => x.info.peerId

/-- `WiredClients.Any(a => a.PeerId == x.PeerId)`. -/
def isWired (wired : List PeerTable) (x : PeerTable) : Bool :=
  wired.any fun a => a.info.peerId = x.info.peerId

structure Wiring where
  wired : List PeerTable
  subscribed : List Guid := []
  threw : Option Exn := none
  deriving DecidableEq, Repr

/-- The `foreach` over `NonWiredClients`; the query is evaluated on the way, with what
`WiredClients` holds by then. -/
def wireAll (wired : List PeerTable) : List PeerTable → Wiring
  | [] => { wired }
  | client :: rest =>
      if isWired wired client then wireAll wired rest
      -- `client.Client` is null
      else if client.hasClient = false then { wired, threw := some .nullReference }
      else
        let r := wireAll (wired ++ [client]) rest
        { r with subscribed := client.info.peerId :: r.subscribed }

/-- A turn of the loop. -/
def watch (s : Form) : Form × List Watched :=
  if 0 < s.connected.length ∧ s.connected.any (isWired s.wired) = false then
    let nonWiredClients := s.connected.filter fun x => !isWired s.wired x
    if 0 < nonWiredClients.length then
      let r := wireAll s.wired s.connected
      ({ s with wired := r.wired, running := r.threw.isNone },
        r.subscribed.map .subscribed ++ [match r.threw with
          | some e => .failed e
          | none => .turn s.connected r.wired])
    else (s, [.turn s.connected s.wired])
  else (s, [.turn s.connected s.wired])

def machine : Machine Form FormEvent Watched where
  step s
    | .join peer => some ({ s with connected := s.connected ++ [peer] }, [])
    | .leave index => some ({ s with connected := s.connected.eraseIdx index }, [])
    | .turn => if s.running then some (watch s) else none

/-! ## Listening to every peer once -/

def subscribedIds (os : List Watched) : List Guid :=
  os.filterMap fun
    | .subscribed peerId => some peerId
    | _ => none

/-- A turn has found the peer with a client connection. -/
def HasClient (os : List Watched) (peerId : Guid) : Prop :=
  ∃ connected wired, .turn connected wired ∈ os ∧
    ∃ x ∈ connected, x.info.peerId = peerId ∧ x.hasClient = true

structure ListensOnce (s : Form) (os : List Watched) : Prop where
  running : s.running = true
  wired : ∀ connected wired, .turn connected wired ∈ os →
    ∀ x ∈ connected, x.info.peerId ∈ idsOf wired
  nodup : (subscribedIds os).Nodup
  subscribed : ∀ peerId, peerId ∈ subscribedIds os ↔ HasClient os peerId

/-- The peers are all wired; or none is, and the first entry of each has a client. -/
def IsWirable (s : Form) : Prop :=
  (∀ x ∈ s.connected, x.info.peerId ∈ idsOf s.wired) ∨
    (∀ x ∈ s.connected, x.info.peerId ∉ idsOf s.wired) ∧
      ∀ peerId first, s.connected.find? (fun x => x.info.peerId = peerId) = some first →
        first.hasClient = true

def TurnsWirable (s : Form) : FormEvent → Prop
  | .turn => s.running = true → IsWirable s
  | _ => True

theorem isWired_iff {wired : List PeerTable} {x : PeerTable} :
    isWired wired x = true ↔ x.info.peerId ∈ idsOf wired := by
  simp [isWired, idsOf]

/-! ## The `foreach` -/

theorem idsOf_wireAll (wired entries : List PeerTable) :
    idsOf (wireAll wired entries).wired = idsOf wired ++ (wireAll wired entries).subscribed := by
  induction entries generalizing wired with
  | nil => simp [wireAll]
  | cons client rest ih =>
      rw [wireAll]
      split
      · exact ih wired
      · split
        · simp
        · rw [ih, idsOf, List.map_append]
          simp [idsOf]

theorem nodup_wireAll {wired : List PeerTable} (entries : List PeerTable)
    (h : (idsOf wired).Nodup) : (idsOf (wireAll wired entries).wired).Nodup := by
  induction entries generalizing wired with
  | nil => exact h
  | cons client rest ih =>
      rw [wireAll]
      split
      · exact ih h
      · next hnew =>
          split
          · exact h
          · refine ih ?_
            rw [idsOf, List.map_append, List.map_singleton, List.nodup_append_comm]
            exact List.nodup_cons.2 ⟨fun hmem => hnew (isWired_iff.2 hmem), h⟩

theorem hasClient_of_mem_subscribed {wired entries : List PeerTable} {peerId : Guid}
    (h : peerId ∈ (wireAll wired entries).subscribed) :
    ∃ x ∈ entries, x.info.peerId = peerId ∧ x.hasClient = true := by
  induction entries generalizing wired with
  | nil => simp [wireAll] at h
  | cons client rest ih =>
      rw [wireAll] at h
      split at h
      · obtain ⟨x, hx, hrest⟩ := ih h
        exact ⟨x, List.mem_cons_of_mem client hx, hrest⟩
      · split at h
        · simp at h
        · next hclient =>
            rcases List.mem_cons.1 h with rfl | h
            · exact ⟨client, List.mem_cons_self, rfl, by simpa using hclient⟩
            · obtain ⟨x, hx, hrest⟩ := ih h
              exact ⟨x, List.mem_cons_of_mem client hx, hrest⟩

/-- The loop comes to the end if the first entry of every peer that is new has a client. -/
theorem threw_wireAll_iff (wired entries : List PeerTable) :
    (wireAll wired entries).threw = none ↔
      ∀ peerId, peerId ∉ idsOf wired → ∀ first,
        entries.find? (fun x => x.info.peerId = peerId) = some first → first.hasClient = true := by
  induction entries generalizing wired with
  | nil => simp [wireAll]
  | cons client rest ih =>
      rw [wireAll]
      split
      · next hwired =>
          rw [ih]
          refine forall₂_congr fun peerId hpeer => ?_
          have hne : client.info.peerId ≠ peerId := by
            rintro rfl
            exact hpeer (isWired_iff.1 hwired)
          rw [List.find?_cons_of_neg (by simpa using hne)]
      · next hnew =>
          have hid : client.info.peerId ∉ idsOf wired := fun hmem => hnew (isWired_iff.2 hmem)
          split
          · next hclient =>
              refine iff_of_false (by simp) fun h => ?_
              have hfirst := h client.info.peerId hid client (List.find?_cons_of_pos (by simp))
              rw [hclient] at hfirst
              exact Bool.false_ne_true hfirst
          · next hclient =>
              rw [ih]
              constructor
              · intro h peerId hpeer first hfirst
                rcases eq_or_ne client.info.peerId peerId with rfl | hne
                · rw [List.find?_cons_of_pos (by simp), Option.some.injEq] at hfirst
                  rw [← hfirst]
                  simpa using hclient
                · rw [List.find?_cons_of_neg (by simpa using hne)] at hfirst
                  refine h peerId ?_ first hfirst
                  simpa [idsOf, hne.symm] using hpeer
              · intro h peerId hpeer first hfirst
                rw [idsOf, List.map_append, List.mem_append, not_or] at hpeer
                refine h peerId hpeer.1 first ?_
                rw [List.find?_cons_of_neg]
                · exact hfirst
                · simpa [eq_comm] using hpeer.2

theorem mem_wireAll {wired entries : List PeerTable} (h : (wireAll wired entries).threw = none)
    {x : PeerTable} (hx : x ∈ entries) : x.info.peerId ∈ idsOf (wireAll wired entries).wired := by
  induction entries generalizing wired with
  | nil => simp at hx
  | cons client rest ih =>
      rw [wireAll] at h ⊢
      split at h
      · next hwired =>
          rw [if_pos hwired]
          rcases List.mem_cons.1 hx with rfl | hx
          · rw [idsOf_wireAll]
            exact List.mem_append_left _ (isWired_iff.1 hwired)
          · exact ih h hx
      · next hnew =>
          rw [if_neg hnew]
          split at h
          · simp at h
          · next hclient =>
              rw [if_neg hclient]
              rcases List.mem_cons.1 hx with rfl | hx
              · rw [idsOf_wireAll, idsOf, List.map_append]
                simp
              · exact ih h hx

/-! ## A turn -/

/-- Between a form and what it did: every subscription is to a peer that is wired. -/
def Recorded (s : Form) (os : List Watched) : Prop := idsOf s.wired = subscribedIds os

section Log

variable {os : List Watched} {peerIds : List Guid} {connected wired : List PeerTable}

theorem subscribedIds_turn :
    subscribedIds (os ++ (peerIds.map .subscribed ++ [.turn connected wired])) =
      subscribedIds os ++ peerIds := by
  have hmap : subscribedIds (peerIds.map .subscribed) = peerIds := by
    rw [subscribedIds, List.filterMap_map]
    exact List.filterMap_some
  simp only [subscribedIds, List.filterMap_append] at hmap ⊢
  rw [hmap]
  exact congrArg _ (List.append_nil _)

theorem mem_turn_iff {connected' wired' : List PeerTable} :
    .turn connected' wired' ∈ os ++ (peerIds.map .subscribed ++ [.turn connected wired]) ↔
      .turn connected' wired' ∈ os ∨ connected' = connected ∧ wired' = wired := by
  simp

theorem hasClient_turn_iff {peerId : Guid} :
    HasClient (os ++ (peerIds.map .subscribed ++ [.turn connected wired])) peerId ↔
      HasClient os peerId ∨ ∃ x ∈ connected, x.info.peerId = peerId ∧ x.hasClient = true := by
  constructor
  · rintro ⟨connected', wired', hturn, hx⟩
    rcases mem_turn_iff.1 hturn with hold | ⟨rfl, rfl⟩
    · exact Or.inl ⟨connected', wired', hold, hx⟩
    · exact Or.inr hx
  · rintro (⟨connected', wired', hturn, hx⟩ | hx)
    · exact ⟨connected', wired', mem_turn_iff.2 (Or.inl hturn), hx⟩
    · exact ⟨connected, wired, mem_turn_iff.2 (Or.inr ⟨rfl, rfl⟩), hx⟩

theorem listensOnce_log_iff {s : Form} (h : ListensOnce s os) (hrecorded : Recorded s os)
    (hids : idsOf wired = idsOf s.wired ++ peerIds) (hnodup : (idsOf wired).Nodup)
    (hclients : ∀ peerId ∈ peerIds, ∃ x ∈ s.connected, x.info.peerId = peerId ∧
      x.hasClient = true) :
    let os' := os ++ (peerIds.map .subscribed ++ [.turn s.connected wired])
    (ListensOnce { s with wired } os' ↔ ∀ x ∈ s.connected, x.info.peerId ∈ idsOf wired) ∧
      Recorded { s with wired } os' := by
  intro os'
  have hsubscribed : subscribedIds os' = idsOf wired := by
    rw [subscribedIds_turn, hids, hrecorded]
  have hmem : ∀ peerId, peerId ∈ subscribedIds os' ↔ HasClient os peerId ∨ peerId ∈ peerIds := by
    intro peerId
    rw [subscribedIds_turn, List.mem_append, h.subscribed]
  refine ⟨⟨fun h' => ?_, fun hwired => ⟨h.running, ?_, ?_, fun peerId => ?_⟩⟩, hsubscribed.symm⟩
  · exact h'.wired s.connected wired (mem_turn_iff.2 (Or.inr ⟨rfl, rfl⟩))
  · intro connected' wired' hturn
    rcases mem_turn_iff.1 hturn with hold | ⟨rfl, rfl⟩
    · exact h.wired connected' wired' hold
    · exact hwired
  · rw [hsubscribed]
    exact hnodup
  · rw [hasClient_turn_iff]
    constructor
    · intro hpeer
      exact ((hmem peerId).1 hpeer).imp_right (hclients peerId)
    · rintro (hold | ⟨x, hx, rfl, -⟩)
      · exact (hmem peerId).2 (Or.inl hold)
      · rw [hsubscribed]
        exact hwired x hx

end Log

theorem watch_cases (s : Form) :
    (watch s = (s, [.turn s.connected s.wired]) ∧
      (IsWirable s ↔ ∀ x ∈ s.connected, x.info.peerId ∈ idsOf s.wired)) ∨
    ((watch s).1.running = (wireAll s.wired s.connected).threw.isNone ∧
      ((wireAll s.wired s.connected).threw = none →
        watch s = ({ s with wired := (wireAll s.wired s.connected).wired, running := true },
          (wireAll s.wired s.connected).subscribed.map .subscribed ++
            [.turn s.connected (wireAll s.wired s.connected).wired])) ∧
      (IsWirable s ↔ (wireAll s.wired s.connected).threw = none)) := by
  by_cases hguard : 0 < s.connected.length ∧ s.connected.any (isWired s.wired) = false
  · obtain ⟨hlength, hnone⟩ := hguard
    have hnew : ∀ x ∈ s.connected, x.info.peerId ∉ idsOf s.wired := by
      intro x hx hmem
      exact List.any_eq_false.1 hnone x hx (isWired_iff.2 hmem)
    have hall : s.connected.filter (fun x => !isWired s.wired x) = s.connected := by
      refine List.filter_eq_self.2 fun x hx => ?_
      simpa using fun hwired => hnew x hx (isWired_iff.1 hwired)
    have hwatch : watch s = ({ s with
        wired := (wireAll s.wired s.connected).wired
        running := (wireAll s.wired s.connected).threw.isNone },
        (wireAll s.wired s.connected).subscribed.map .subscribed ++
          [match (wireAll s.wired s.connected).threw with
            | some e => .failed e
            | none => .turn s.connected (wireAll s.wired s.connected).wired]) := by
      rw [watch, if_pos ⟨hlength, hnone⟩, hall]
      exact if_pos hlength
    refine Or.inr ⟨by rw [hwatch], fun hthrew => ?_, ?_⟩
    · rw [hwatch, hthrew]
      rfl
    · rw [threw_wireAll_iff]
      constructor
      · rintro (hwired | ⟨-, hfirst⟩)
        · obtain ⟨x, hx⟩ := List.exists_mem_of_length_pos hlength
          exact absurd (hwired x hx) (hnew x hx)
        · exact fun peerId _ => hfirst peerId
      · intro hfirst
        refine Or.inr ⟨hnew, fun peerId first hfound => ?_⟩
        have hid : first.info.peerId = peerId := by simpa using List.find?_some hfound
        exact hfirst peerId (hid ▸ hnew first (List.mem_of_find?_eq_some hfound)) first hfound
  · refine Or.inl ⟨by rw [watch, if_neg hguard], ?_⟩
    constructor
    · rintro (hwired | ⟨hnew, -⟩)
      · exact hwired
      · intro x hx
        refine absurd ⟨List.length_pos_of_mem hx, ?_⟩ hguard
        exact List.any_eq_false.2 fun y hy hwired => hnew y hy (isWired_iff.1 hwired)
    · exact Or.inl

theorem listensOnce_turn {s t : Form} {os o : List Watched} (h : ListensOnce s os)
    (hrecorded : Recorded s os) (hstep : watch s = (t, o)) :
    (ListensOnce t (os ++ o) ↔ IsWirable s) ∧ (IsWirable s → Recorded t (os ++ o)) := by
  have hnodup : (idsOf s.wired).Nodup := by
    rw [hrecorded]
    exact h.nodup
  rcases watch_cases s with ⟨hidle, hiff⟩ | ⟨hrunning, hwire, hiff⟩
  · obtain ⟨rfl, rfl⟩ : s = t ∧ [.turn s.connected s.wired] = o := by
      simpa [hidle] using hstep
    have hids : idsOf s.wired = idsOf s.wired ++ [] := (List.append_nil _).symm
    obtain ⟨hlistens, hrec⟩ := listensOnce_log_iff h hrecorded hids hnodup (by simp)
    exact ⟨hlistens.trans hiff.symm, fun _ => hrec⟩
  · rw [hiff]
    by_cases hthrew : (wireAll s.wired s.connected).threw = none
    · obtain ⟨rfl, rfl⟩ := Prod.ext_iff.1 ((hwire hthrew).symm.trans hstep)
      obtain ⟨hlistens, hrec⟩ := listensOnce_log_iff h hrecorded (idsOf_wireAll s.wired s.connected)
        (nodup_wireAll s.connected hnodup) fun _ => hasClient_of_mem_subscribed
      rw [h.running] at hlistens hrec
      exact ⟨iff_of_true (hlistens.2 fun x hx => mem_wireAll hthrew hx) hthrew, fun _ => hrec⟩
    · refine ⟨iff_of_false (fun h' => hthrew ?_) hthrew, fun hnone => absurd hnone hthrew⟩
      have hrun := h'.running
      rw [hstep] at hrunning
      rw [hrunning] at hrun
      exact Option.isNone_iff_eq_none.1 hrun

theorem step_listensOnce {s t : Form} {os o : List Watched} {e : FormEvent}
    (h : ListensOnce s os) (hrecorded : Recorded s os) (hstep : machine.step s e = some (t, o)) :
    (ListensOnce t (os ++ o) ↔ TurnsWirable s e) ∧ (TurnsWirable s e → Recorded t (os ++ o)) := by
  cases e with
  | join peer =>
      obtain ⟨rfl, rfl⟩ : _ = t ∧ [] = o := by simpa [machine] using hstep
      rw [List.append_nil]
      exact ⟨iff_of_true ⟨h.running, h.wired, h.nodup, h.subscribed⟩ trivial, fun _ => hrecorded⟩
  | leave index =>
      obtain ⟨rfl, rfl⟩ : _ = t ∧ [] = o := by simpa [machine] using hstep
      rw [List.append_nil]
      exact ⟨iff_of_true ⟨h.running, h.wired, h.nodup, h.subscribed⟩ trivial, fun _ => hrecorded⟩
  | turn =>
      have hwatch : watch s = (t, o) := by simpa [machine, h.running] using hstep
      obtain ⟨hiff, hrec⟩ := listensOnce_turn h hrecorded hwatch
      exact ⟨hiff.trans ⟨fun hwirable _ => hwirable, fun hturns => hturns h.running⟩,
        fun hturns => hrec (hturns h.running)⟩

theorem listensOnce_init : ListensOnce {} [] where
  running := rfl
  wired := by simp
  nodup := List.nodup_nil
  subscribed := by simp [subscribedIds, HasClient]

/-- Over every history, the loop listens to each peer once exactly as long as it finds no
new peer besides one that is wired, and none without a client. -/
theorem watcher_listensOnce_iff (history : List FormEvent) :
    machine.Throughout ListensOnce {} history ↔ machine.Along TurnsWirable {} history := by
  have hblocked : ∀ s e, machine.step s e = none → TurnsWirable s e := by
    intro s e hnone
    cases e with
    | join peer => trivial
    | leave index => trivial
    | turn => exact fun hrunning => absurd hnone (by simp [machine, hrunning])
  have hrun := Machine.throughout_iff_along (A := Recorded) hblocked
    (fun s os e t o => step_listensOnce) listensOnce_init rfl history
  simpa only [List.nil_append] using hrun

/-- A second peer joins when the first is wired. -/
theorem not_watcher_listensOnce :
    ¬ ∀ history : List FormEvent, machine.Throughout ListensOnce {} history := by
  intro halways
  let first : PeerTable := { ref := 0, info := ⟨⟨1⟩, false, none, 0⟩, hasClient := true }
  let second : PeerTable := { ref := 1, info := ⟨⟨2⟩, false, none, 0⟩, hasClient := true }
  have hlistens := (halways [.join first, .turn, .join second, .turn]).last rfl
  have hwired := hlistens.wired [first, second] [first] (by decide) second (by decide)
  exact absurd hwired (by decide)

end NETConnect.Form1
