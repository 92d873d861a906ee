import Mathlib.Data.Prod.Lex
import NETConnect.Handshake.Course
import NETConnect.Reference
/-!
# The handshake is held in its order, and comes to its end

Both of every run on which the sockets work and nobody gives the first connection up,
whatever the other clients do and whatever the other threads send.
-/

namespace NETConnect

open Lib SocketExtensions

/-! ## The reference platform -/

namespace Reference

open TextCodec

theorem length_toUTF8Byte_le (s : String) : (toUTF8Byte s).length ≤ 4 * s.toList.length := by
  rw [toUTF8Byte]
  induction s.toList with
  | nil => simp
  | cons c cs ih =>
      have hc := c.utf8Size_le_four
      rw [List.flatMap_cons, List.length_append, String.length_utf8EncodeChar, List.length_cons]
      omega

theorem length_toBase64_le (bs : Bytes) : (toBase64 bs).length ≤ 4 * bs.length := by
  induction bs using toBase64.induct with
  | case1 => simp [toBase64]
  | case2 a => simp [toBase64]
  | case3 a b => simp [toBase64]
  | case4 a b c rest ih =>
      simp only [toBase64, List.length_cons]
      omega

theorem reference_rsaWorks : reference.RSAWorks where
  create entropy := ⟨_, rfl⟩
  keySize := by
    intro keySize entropy keys hcreate
    simp only [reference, rsaCreate] at hcreate
    split_ifs at hcreate with hlegal
    obtain rfl := Option.some.inj hcreate
    obtain ⟨-, hle, -⟩ := hlegal
    have hlength : (leBytes 4 keySize).length = 4 := by simp
    simp only [reference, rsaKeySize]
    rw [List.take_left' hlength, leValue_leBytes_of_lt (by omega),
      if_pos (by rw [List.length_append, hlength]; omega)]
  encrypt := by
    intro keySize entropy keys data seed hcreate hfits
    simp only [reference, rsaCreate] at hcreate
    split_ifs at hcreate with hlegal
    obtain rfl := Option.some.inj hcreate
    obtain ⟨-, hle, -⟩ := hlegal
    have hlength : (leBytes 4 keySize).length = 4 := by simp
    simp only [reference, rsaEncrypt]
    rw [List.take_left' hlength, leValue_leBytes_of_lt (by omega), if_pos hfits]
    exact ⟨_, rfl⟩

theorem length_sessionKeyText_le (key : RandomData 32) :
    (BaseTCPClient.sessionKeyText reference (some key.1)).length ≤ 958 := by
  have hbase := length_toBase64_le key.1
  rw [key.2] at hbase
  have htext : (packetAuthentication.write (sessionAuthentication key)).length =
      50 + (toBase64 key.1).length := by
    have hnumber : ((decimal ',' (by decide)).write
        PacketEncryptionType.chaCha20Poly1305.word.toNat).length = 2 := by decide +kernel
    simp only [packetAuthentication, map, pair, after, byteArray, orElse, base64_write, before,
      enumeration, sessionAuthentication, List.length_append, List.length_cons, hnumber]
    have hrest : (byteArrays.write none).length = 4 := rfl
    rw [hrest]
    change 18 + 2 + (10 + ((toBase64 key.1).length + (0 + 1) + 1) + (13 + 4 + 1)) = _
    omega
  refine (length_toUTF8Byte_le _).trans ?_
  change 4 * (String.ofList (packetAuthentication.write (sessionAuthentication key))).toList.length ≤
    958
  rw [String.toList_ofList, htext]
  omega

theorem reference_works : reference.Works where
  rsa := reference_rsaLaws
  rsaWorks := reference_rsaWorks
  chaCha := reference_chaChaLaws
  authentication := packetAuthentication_roundTrips
  encrypted := packetEncrypted_roundTrips
  guid g := by
    have hvisible : isNullOrWhiteSpace (String.ofList (guid.write g)) = false := by
      rw [isNullOrWhiteSpace, String.toList_ofList]
      rfl
    refine ⟨g, ?_⟩
    rw [JsonSerializer.isValidJSONBytes, getString_toUTF8Byte]
    change reference.guid.isValidJSON (String.ofList (guid.write g)) = some g
    rw [JsonSerializer.isValidJSON, hvisible, if_neg Bool.false_ne_true]
    simp only [reference, String.toList_ofList, parse_write]
  short := length_sessionKeyText_le

end Reference

namespace Session

variable {P : Platform} {s t : Session} {os o : List Output}

/-! ## Before anybody connects -/

structure Unconnected (s : Session) : Prop where
  connected : s.connected = 0
  thread : s.server.thread = .accepting
  accepted : s.server.accepted = 0
  flags : s.server.isAuthenticating = false ∧ s.server.isAuthenticated = false
  client : (s.clients 0).isAuthenticated = false
  channels : s.toServer 0 = [] ∧ s.toClient 0 = []

theorem Unconnected.step (h : Unconnected s) {e : Event}
    (hstep : (session P).step s e = some (t, o)) :
    said o = [] ∧ (Unconnected t ∨ 0 < t.connected ∧ OnCourse P t 7 2) := by
  cases e with
  | connect peerId settings created =>
      obtain ⟨rfl, rfl⟩ := Prod.mk.inj (Option.some.inj hstep)
      refine ⟨rfl, Or.inr ⟨Nat.succ_pos _, .beginning (.accepting h.thread h.flags h.accepted)
        ?_ ?_ ?_⟩⟩
      · simp only [Session.connect, h.connected, Function.update_self]
        exact ⟨rfl, ⟨rfl, rfl⟩, rfl⟩
      · simpa [Session.connect, h.connected] using clear_nil
      · simpa [Session.connect, h.connected] using clear_nil
  | server e =>
      obtain ⟨⟨t', o'⟩, hserver, hr⟩ := Option.map_eq_some_iff.1 hstep
      obtain ⟨rfl, rfl⟩ := Prod.mk.inj hr
      obtain ⟨hstepped, haccept, hclients, hsame, htoClient, -, hother⟩ := stepServer_spec hserver
      have hchannel : t'.toServer 0 = s.toServer 0 := hother 0 (by simp [h.thread,
        BaseTCPServer.Thread.serving])
      have hthread := h.thread
      suffices hquiet : o' = [] ∧ t'.server.thread = .accepting ∧ t'.server.accepted = 0 ∧
          t'.server.isAuthenticating = false ∧ t'.server.isAuthenticated = false by
        obtain ⟨rfl, hthread', haccepted, hflags⟩ := hquiet
        refine ⟨rfl, Or.inl ⟨hsame.trans h.connected, hthread', haccepted, hflags, ?_, ?_, ?_⟩⟩
        · rw [hclients]
          exact h.client
        · rw [hchannel]
          exact h.channels.1
        · rw [htoClient, h.channels.2]
          rfl
      generalize hr : (t'.server, o') = r at hstepped
      cases hstepped with
      | accept hother =>
          have hlt := haccept rfl
          rw [h.connected] at hlt
          exact absurd hlt (Nat.not_lt_zero _)
      | gate hother => simp [hthread] at hother
      | handshake hother => simp [hthread] at hother
      | beat hother => simp [hthread] at hother
      | receive hother => simp [hthread] at hother
      | cancelServer =>
          obtain ⟨hs, rfl⟩ := Prod.mk.inj hr
          rw [hs]
          exact ⟨rfl, h.thread, h.accepted, h.flags⟩
      | cancelClient =>
          obtain ⟨hs, rfl⟩ := Prod.mk.inj hr
          rw [hs]
          exact ⟨rfl, h.thread, h.accepted, h.flags⟩
      | elsewhere =>
          obtain ⟨hs, rfl⟩ := Prod.mk.inj hr
          rw [hs]
          exact ⟨rfl, h.thread, h.accepted, h.flags⟩
  | client c e => simp [session, h.connected] at hstep
  | alsoToServer c f => simp [session, h.connected] at hstep
  | alsoToClient c f => simp [session, h.connected] at hstep

theorem unconnected_start (self : Peer) : Unconnected (start self) :=
  ⟨rfl, rfl, rfl, ⟨rfl, rfl⟩, rfl, rfl, rfl⟩

/-! ## The order of the messages -/

/-- What the course says of a state and what was observed up to it. -/
inductive Progressed (P : Platform) (s : Session) (os : List Output) : Prop
  | unconnected (state : Unconnected s) (silent : said os = [])
  | onCourse {remaining ahead : Nat} (le : remaining ≤ 7) (connected : 0 < s.connected)
      (course : OnCourse P s remaining ahead) (spoken : said os = script.take (7 - remaining))

theorem Progressed.step (works : P.Works) (h : Progressed P s os) {e : Event}
    (hhealthy : Healthy e) (hstep : (session P).step s e = some (t, o)) :
    Progressed P t (os ++ o) := by
  cases h with
  | unconnected state silent =>
      obtain ⟨hsaid, hnext | ⟨hconnected, hcourse⟩⟩ := state.step hstep
      · exact .unconnected hnext (by rw [said_append, silent, hsaid]; rfl)
      · exact .onCourse le_rfl hconnected hcourse (by rw [said_append, silent, hsaid]; rfl)
  | onCourse le connected course spoken =>
      obtain ⟨hconnected, hfollows⟩ := follows_of_step works connected course hhealthy hstep
      cases hfollows with
      | waits hcourse hsilent =>
          exact .onCourse le hconnected hcourse
            (by rw [said_append, spoken, hsilent, List.append_nil])
      | nears hcourse _ hsilent =>
          exact .onCourse le hconnected hcourse
            (by rw [said_append, spoken, hsilent, List.append_nil])
      | @speaks remaining' _ hnext hcourse hsaid =>
          subst hnext
          refine .onCourse (Nat.le_of_succ_le le) hconnected hcourse ?_
          have hbefore : 7 - (remaining' + 1) = 6 - remaining' := by omega
          have hafter : 7 - remaining' = 6 - remaining' + 1 := by omega
          rw [said_append, spoken, hsaid, hbefore, hafter, List.take_add]

/-- The six messages are said once each and in their order; at most one of them is under
way; the server counts the connection as authenticated when all of them are said, and the
client when it has read the last one, too. -/
structure InOrder (s : Session) (os : List Output) : Prop where
  said : said os <+: script
  alone : (messages (s.toServer 0) ++ messages (s.toClient 0)).length ≤ 1
  server : s.server.isAuthenticated = true ↔ Session.said os = script
  client : (s.clients 0).isAuthenticated = true →
    Session.said os = script ∧ messages (s.toServer 0) ++ messages (s.toClient 0) = []

theorem length_messages_of_pending {x : Frame} {ahead : Nat} {channel : List Frame}
    (h : Pending Frame.IsHandshake x ahead channel) : (messages channel).length ≤ 1 := by
  obtain ⟨front, back, rfl, -, hfront, hback⟩ := h
  rw [← List.singleton_append, messages_append, messages_append, messages_of_clear hfront,
    messages_of_clear hback, List.append_nil, List.nil_append]
  exact (List.length_filter_le _ _).trans (by simp)

theorem awaiting_isAuthenticated {server : BaseTCPServer.Server} {left : Nat}
    (h : BaseTCPServer.Awaiting P server left) : server.isAuthenticated = false := by
  cases h with
  | reading hserving => exact hserving.isAuthenticated
  | atHead thread flags => exact flags.2
  | accepting thread flags => exact flags.2

theorem Progressed.inOrder (h : Progressed P s os) : InOrder s os := by
  cases h with
  | unconnected state silent =>
      refine ⟨by rw [silent]; exact List.nil_prefix, ?_, ?_, fun hclient => ?_⟩
      · rw [state.channels.1, state.channels.2]
        exact Nat.zero_le 1
      · rw [silent, state.flags.2]
        exact iff_of_false (by decide) (by decide)
      · rw [state.client] at hclient
        exact absurd hclient (by decide)
  | @onCourse remaining ahead le connected course spoken =>
      have hsaid : said os <+: script := by
        rw [spoken]
        exact List.take_prefix _ _
      unfold OnCourse at course
      suffices hends : (messages (s.toServer 0) ++ messages (s.toClient 0)).length ≤ 1 ∧
          s.server.isAuthenticated = decide (remaining ≤ 1) ∧
          ((s.clients 0).isAuthenticated = true → remaining = 0 ∧
            messages (s.toServer 0) ++ messages (s.toClient 0) = []) by
        obtain ⟨halone, hserver, hclient⟩ := hends
        refine ⟨hsaid, halone, ?_, fun hauthenticated => ?_⟩
        · rw [hserver, spoken, decide_eq_true_iff]
          interval_cases remaining <;> decide
        · obtain ⟨rfl, hnothing⟩ := hclient hauthenticated
          exact ⟨by rw [spoken]; rfl, hnothing⟩
      have hnot : ∀ {key}, BaseTCPClient.Authenticating (s.clients 0) key →
          ¬ (s.clients 0).isAuthenticated = true := fun hclient => by simp [hclient.isAuthenticated]
      cases course with
      | beginning hserver hclient htoServer htoClient =>
          rw [messages_of_clear htoServer, messages_of_clear htoClient]
          exact ⟨by simp, awaiting_isAuthenticated hserver, by simp [hclient.flags.2]⟩
      | syn hserver hclient haction hguid htoServer htoClient =>
          rw [messages_of_clear htoClient, List.append_nil]
          exact ⟨length_messages_of_pending htoServer, awaiting_isAuthenticated hserver,
            fun h => absurd h (hnot hclient)⟩
      | synAck hserver hclient haction hpacket htoServer htoClient =>
          rw [messages_of_clear htoServer, List.nil_append]
          exact ⟨length_messages_of_pending htoClient, hserver.isAuthenticated,
            fun h => absurd h (hnot hclient)⟩
      | clientAck hserver hclient haction hbrings htoServer htoClient =>
          rw [messages_of_clear htoClient, List.append_nil]
          exact ⟨length_messages_of_pending htoServer, hserver.isAuthenticated,
            fun h => absurd h (hnot hclient)⟩
      | serverAck hserver hclient haction hbrings htoServer htoClient =>
          rw [messages_of_clear htoServer, List.nil_append]
          exact ⟨length_messages_of_pending htoClient, hserver.isAuthenticated,
            fun h => absurd h (hnot hclient)⟩
      | clientReady hserver hclient haction htoServer htoClient =>
          rw [messages_of_clear htoClient, List.append_nil]
          exact ⟨length_messages_of_pending htoServer, hserver.isAuthenticated,
            fun h => absurd h (hnot hclient)⟩
      | serverReady hserver hclient haction htoServer htoClient =>
          rw [messages_of_clear htoServer, List.nil_append]
          exact ⟨length_messages_of_pending htoClient, hserver.isAuthenticated,
            fun h => absurd h (hnot hclient)⟩
      | done hserver hclient htoServer htoClient =>
          rw [messages_of_clear htoServer, messages_of_clear htoClient]
          exact ⟨by simp, hserver.isAuthenticated, fun _ => ⟨rfl, rfl⟩⟩

/-- An undisturbed handshake is held in its order, in every interleaving. -/
theorem throughout_inOrder (P : Platform) (works : P.Works) (self : Peer) (es : List Event)
    (hhealthy : ∀ e ∈ es, Healthy e) : (session P).Throughout InOrder (start self) es := by
  intro pre post t os hsplit hrun
  have halong : (session P).Along (fun _ e => Healthy e) (start self) pre := by
    refine Machine.along_iff.2 fun pre' e post' _ _ hpre' _ => hhealthy e ?_
    rw [hsplit, hpre']
    simp
  have h : Progressed P t ([] ++ os) := halong.invariant
    (fun _ _ _ _ _ hI hG hstep => hI.step works hG hstep)
    (.unconnected (unconnected_start self) rfl) hrun
  exact h.inOrder

/-- Neither this server nor the client below seals what it need not. -/
def unsealed : Peer := { peerId := .empty, settings := none }

/-- One client connects and authenticates. -/
def unsealedSession : List (Session → Event) :=
  [fun _ => .connect .empty none ((0 : Nat), (0 : Nat)),
    fun _ => .server (.accept ((0 : Nat), (0 : Nat)) []),
    fun _ => .client 0 (.gate PacketHelper.quiet ⟨List.replicate 32 8, rfl⟩),
    fun _ => .server .gate, serverTurn, clientTurn, serverTurn, clientTurn, serverTurn, clientTurn]

theorem healthy_unsealedSession : ∀ choose ∈ unsealedSession, ∀ s, Healthy (choose s) := by
  intro choose hchoose s
  simp only [unsealedSession, List.mem_cons, List.not_mem_nil, or_false] at hchoose
  rcases hchoose with rfl | rfl | rfl | rfl | rfl | rfl | rfl | rfl | rfl | rfl
  all_goals
    first | trivial | exact ⟨rfl, _, rfl⟩ | exact fun _ => ⟨rfl, _, rfl⟩ | exact fun _ => rfl

def readingAt (seconds : Nat) : DateTime := (seconds * ticksPerSecond : Nat)

def pollAt (seconds : Nat) : PollClock where
  now := readingAt seconds
  first := (readingAt seconds, readingAt seconds)
  ping := (readingAt seconds, readingAt seconds)
  timeout := readingAt seconds

/-- What a packet is stamped with, in milliseconds from 1970 on. -/
def sendingAt (seconds : Nat) : Ambient :=
  { PacketHelper.quiet with sentAt := BitVec.ofInt 64 (seconds * 1000 - 62135596800000) }

/-- The server sends a ping, and the client, whose clock is six seconds behind, answers. -/
def pingRound : List (Session → Event) :=
  [fun _ => .server (.beat (pollAt 10) false (sendingAt 10) fun _ => PacketHelper.quiet),
    fun _ => .client 0 (.beat (pollAt 5) false PacketHelper.quiet),
    fun s => .client 0 (.receive PacketHelper.quiet (readingAt 5)
      (.packet ((s.toClient 0).headD .nothing))),
    fun s => .server (.receive PacketHelper.quiet (readingAt 11)
      (.packet ((s.toServer 0).headD .nothing)))]

/-- A thread of the client sends data, and the server reads it. -/
def dataRound : List (Session → Event) :=
  [fun _ => .alsoToServer 0 ⟨.create 1 .data .none 0, [7]⟩,
    fun _ => .server (.beat (pollAt 0) false PacketHelper.quiet fun _ => PacketHelper.quiet),
    fun s => .server (.receive PacketHelper.quiet (readingAt 0)
      (.packet ((s.toServer 0).headD .nothing)))]

theorem unsealedSession_end :
    ∃ r ∈ (session Reference.reference).play (start unsealed) unsealedSession,
      (r.2.1.server.isAuthenticated = true ∧ (r.2.1.clients 0).isAuthenticated = true ∧
        r.2.1.connected = 1 ∧ r.2.1.server.thread = .beating 0 ∧
        (r.2.1.clients 0).thread = .beating) ∧
      (∃ r' ∈ (session Reference.reference).play r.2.1 pingRound,
        (r'.2.1.server.conns 0).heartBeat.pingLog =
          [⟨readingAt 10, readingAt 5, readingAt 11⟩]) ∧
      ∃ r' ∈ (session Reference.reference).play r.2.1 dataRound,
        .server (.delivered 0 (.create 1 .data .none 0) [7]) ∈ r'.2.2 := by
  decide +kernel

theorem throughout_inOrder_unsealedSession : ∃ es s os,
    (session Reference.reference).run (start unsealed) es = some (s, os) ∧
      InOrder s os ∧ said os = script := by
  obtain ⟨⟨es, s, os⟩, hplay, ⟨hauthenticated, -⟩, -⟩ := unsealedSession_end
  have hinOrder := (throughout_inOrder Reference.reference Reference.reference_works
    unsealed es (Machine.forall_of_play hplay healthy_unsealedSession)).last
    (Machine.run_of_play hplay)
  exact ⟨es, s, os, Machine.run_of_play hplay, hinOrder, hinOrder.server.1 hauthenticated⟩

/-! ## The end -/

/-- Both ends have left the handshake, with the same key. -/
structure Completed (s : Session) (key : RandomData 32) : Prop where
  connected : 0 < s.connected
  server : BaseTCPServer.Served s.server key.1
  client : BaseTCPClient.Done (s.clients 0) key

theorem Completed.step {key : RandomData 32} (h : Completed s key) {e : Event}
    (hstep : (session P).step s e = some (t, o)) : Completed t key := by
  have hconnected : 0 < t.connected := h.connected.trans_le (connected_le_of_step hstep)
  cases seen_of_step hstep 0 with
  | made number => exact absurd number (Nat.ne_of_lt h.connected)
  | server stepped clients =>
      exact ⟨hconnected, (h.server.step stepped).1, by rw [clients]; exact h.client⟩
  | client stepped server =>
      exact ⟨hconnected, by rw [server]; exact h.server, (h.client.step stepped).1⟩
  | alsoToServer _ server clients | alsoToClient _ server clients =>
      exact ⟨hconnected, by rw [server]; exact h.server, by rw [clients]; exact h.client⟩
  | elsewhere server link =>
      have hclient : t.clients 0 = s.clients 0 := congrArg Link.client link
      exact ⟨hconnected, by rw [server]; exact h.server, by rw [hclient]; exact h.client⟩

/-- A course that has begun comes to its end if both ends are given their turns. -/
theorem eventually_completed (works : P.Works) (p : Path (session P))
    (hhealthy : ∀ n, Healthy (p.event n)) (hfair : p.Fair CanGoOn GoesOn) {n : ℕ}
    (hconnected : 0 < (p.state n).connected) {remaining ahead : Nat}
    (hcourse : OnCourse P (p.state n) remaining ahead) :
    ∃ m, n ≤ m ∧ ∃ key, Completed (p.state m) key := by
  have hgoal : ∀ s ahead, 0 < s.connected → OnCourse P s 0 ahead → ∃ key, Completed s key := by
    intro s ahead hconnected hcourse
    cases hcourse with
    | done hserver hclient => exact ⟨_, hconnected, hserver, hclient⟩
  refine hfair.eventually (α := ℕ ×ₗ ℕ)
    (fun a s => 0 < s.connected ∧ OnCourse P s (ofLex a).1 (ofLex a).2)
    (fun s => ∃ key, Completed s key) (fun a => agent (ofLex a).1) ?_ ?_
    (a := toLex (remaining, ahead)) ⟨hconnected, hcourse⟩
  · rintro a s ⟨hconnected, hcourse⟩
    rcases hcourse.canGoOn hconnected with hend | hcan
    · rw [hend] at hcourse
      exact Or.inl (hgoal s _ hconnected hcourse)
    · exact Or.inr hcan
  · rintro n a ⟨hconnected, hcourse⟩
    obtain ⟨hconnected', hfollows⟩ :=
      follows_of_step works hconnected hcourse (hhealthy n) (p.next n)
    rcases Nat.eq_zero_or_pos (ofLex a).1 with hend | hpos
    · rw [hend] at hcourse
      exact Or.inl (hgoal _ _ hconnected hcourse)
    · right
      cases hfollows with
      | waits hcourse' _ hstill =>
          exact Or.inr ⟨⟨hconnected', hcourse'⟩, hstill (Nat.ne_of_gt hpos)⟩
      | @nears ahead' hcourse' hlt _ =>
          refine Or.inl ⟨toLex ((ofLex a).1, ahead'), ?_, hconnected', hcourse'⟩
          exact Prod.Lex.lt_iff.2 (Or.inr ⟨rfl, hlt⟩)
      | @speaks remaining' ahead' hnext hcourse' _ =>
          refine Or.inl ⟨toLex (remaining', ahead'), ?_, hconnected', hcourse'⟩
          exact Prod.Lex.lt_iff.2 (Or.inl (by
            change remaining' < (ofLex a).1
            omega))

/-- On every fair run on which a client connects, the first connection is at last
authenticated at both ends, with one key, and stays so. -/
theorem eventually_authenticated (P : Platform) (works : P.Works) (self : Peer)
    (p : Path (session P)) (hstart : p.state 0 = start self)
    (hhealthy : ∀ n, Healthy (p.event n)) (hfair : p.Fair CanGoOn GoesOn)
    (hconnects : ∃ n, 0 < (p.state n).connected) :
    ∃ n key, ∀ m, n ≤ m → Completed (p.state m) key := by
  have hprogressed : ∀ n, ∃ os, Progressed P (p.state n) os := by
    intro n
    induction n with
    | zero =>
        rw [hstart]
        exact ⟨[], .unconnected (unconnected_start self) rfl⟩
    | succ n ih =>
        obtain ⟨os, h⟩ := ih
        exact ⟨_, h.step works (hhealthy n) (p.next n)⟩
  obtain ⟨n, hconnected⟩ := hconnects
  obtain ⟨os, h⟩ := hprogressed n
  cases h with
  | unconnected state => exact absurd state.connected (Nat.ne_of_gt hconnected)
  | onCourse le connected course spoken =>
      obtain ⟨m, -, key, hcompleted⟩ :=
        eventually_completed works p hhealthy hfair connected course
      refine ⟨m, key, fun k hk => ?_⟩
      exact p.invariant (I := fun s => Completed s key) (G := fun _ => True)
        (fun _ _ _ _ hI _ hstep => hI.step hstep) (fun _ => trivial) hk hcompleted

theorem step_idle (hconnected : 0 < s.connected) :
    (session P).step s (.client 0 (.elsewhere (s.clients 0).settings)) = some (s, []) := by
  simp [session, hconnected, stepClient, readFrom, BaseTCPClient.Event.received,
    BaseTCPClient.client, Function.update_eq_self]

/-- A client authenticates, and then nothing more happens. -/
theorem eventually_authenticated_unsealedSession : ∃ p : Path (session Reference.reference),
    p.state 0 = start unsealed ∧
      ∃ n key, ∀ m, n ≤ m → Completed (p.state m) key := by
  obtain ⟨⟨es, s, os⟩, hplay, ⟨-, -, hconnected, hserver, hclient⟩, -⟩ :=
    unsealedSession_end
  have hconnected' : 0 < s.connected := by
    rw [show s.connected = 1 from hconnected]
    exact Nat.one_pos
  obtain ⟨p, hstart, hlast, hevents⟩ :=
    Path.exists_of_run (Machine.run_of_play hplay) (step_idle hconnected')
  refine ⟨p, hstart, eventually_authenticated Reference.reference Reference.reference_works
    unsealed p hstart (fun n => ?_) (fun i n hcan => ?_)
    ⟨es.length, by rw [hlast _ le_rfl]; exact hconnected'⟩⟩
  · rcases hevents n with hmem | hidle
    · exact Machine.forall_of_play hplay healthy_unsealedSession _ hmem
    · rw [hidle]
      trivial
  · -- both threads are past the handshake
    have hlater := hcan (n + es.length) (Nat.le_add_right _ _)
    rw [hlast _ (Nat.le_add_left _ _)] at hlater
    cases i with
    | server =>
        simp only [CanGoOn, show s.server.thread = .beating 0 from hserver] at hlater
    | client =>
        simp only [CanGoOn, show (s.clients 0).thread = .beating from hclient] at hlater

end Session

end NETConnect
