import NETConnect.Audio.ContainsVoice
import NETConnect.Platform
/-!
# Voice streaming

The `DataAvailable` handler of `StartStreaming`, and the `PacketHelper` it captures.
A chunk that is sent is the argument of `SendVoicePacket`.
-/

namespace NETConnect.Audio

structure CancellationTokenSource where
  isCancellationRequested : Bool
  deriving DecidableEq, Repr

/-- The `PacketHelper` of a stream; of its properties only `Token` is read here. -/
structure StreamHelper where
  token : Option CancellationTokenSource := none
  deriving DecidableEq, Repr

namespace StreamHelper

/-- The constructor of the client version, which leaves `Token` alone. -/
def ofClient (_token : CancellationTokenSource) : StreamHelper := {}

/-- The one of the server version does the same. -/
def ofServer (_token : CancellationTokenSource) : StreamHelper := {}

/-- What the constructors make; the setter of `Token` is private. -/
inductive IsBuilt : StreamHelper → Prop
  | client (token : CancellationTokenSource) : IsBuilt (ofClient token)
  | server (token : CancellationTokenSource) : IsBuilt (ofServer token)

theorem IsBuilt.token_eq {helper : StreamHelper} (h : helper.IsBuilt) : helper.token = none := by
  cases h <;> rfl

end StreamHelper

/-- A captured buffer, with the readings of `DateTime.UtcNow` in its callback. -/
structure Captured where
  buffer : Bytes
  bytesRecorded : Nat
  arrived : DateTime
  /-- where voice was found -/
  voiceAt : DateTime
  /-- where the time without voice is computed -/
  now : DateTime
  deriving DecidableEq, Repr

/-- The bytes that were recorded. -/
def Captured.chunk (e : Captured) : Bytes := e.buffer.take e.bytesRecorded

/-- `DateTime.MinValue`. -/
def minValue : DateTime := (0 : Nat)

/-- `hangMs`, in ticks. -/
def hang : Nat := 300 * (ticksPerSecond / 1000)

/-- `(DateTime.UtcNow - lastVoiceTime).TotalMilliseconds < hangMs`. -/
def isHanging (utcNow lastVoiceTime : DateTime) : Bool :=
  (utcNow : Int) - (lastVoiceTime : Int) < hang

/-- The copy of the recorded bytes that is sent, if any is. -/
def copyChunk (e : Captured) (hanging : Bool) : Except Exn (Option Bytes) :=
  if hanging then
    if e.buffer.length < e.bytesRecorded then .error .argument else .ok (some e.chunk)
  else .ok none

/-- The handler, with the chunk it hands to `SendVoicePacket`. -/
def dataAvailable (helper : StreamHelper) (e : Captured) : Except Exn (Option Bytes) :=
  match helper.token with
  | none => .error .nullReference
  | some token =>
      if token.isCancellationRequested then .ok none
      else do
        -- a local variable: nothing is left of the call before
        let lastVoiceTime :=
          if ← containsVoice e.buffer e.bytesRecorded then e.voiceAt else minValue
        copyChunk e (isHanging e.now lastVoiceTime)

def IsSent (helper : StreamHelper) (e : Captured) : Prop :=
  dataAvailable helper e = .ok (some e.chunk)

def IsVoiced (e : Captured) : Prop := containsVoice e.buffer e.bytesRecorded = .ok true

/-- A buffer is sent exactly if one with voice arrived less than `hangMs` before. -/
def HangsOver (helper : StreamHelper) (captured : List Captured) : Prop :=
  ∀ (k : Nat) (e : Captured), captured[k]? = some e →
    (IsSent helper e ↔
      ∃ j ≤ k, ∃ v, captured[j]? = some v ∧ IsVoiced v ∧ e.arrived < v.arrived + hang)

/-! ## What a callback does -/

theorem dataAvailable_of_token_none {helper : StreamHelper} (h : helper.token = none)
    (e : Captured) : dataAvailable helper e = .error .nullReference := by
  rw [dataAvailable, h]

theorem not_isSent_of_token_none {helper : StreamHelper} (h : helper.token = none)
    (e : Captured) : ¬ IsSent helper e := by
  rw [IsSent, dataAvailable_of_token_none h]
  simp

theorem isHanging_iff (utcNow lastVoiceTime : DateTime) :
    isHanging utcNow lastVoiceTime = true ↔ utcNow < lastVoiceTime + hang := by
  have h : ∀ a b c : Nat, (a : Int) - (b : Int) < c ↔ a < b + c := by omega
  rw [isHanging, decide_eq_true_iff]
  exact h utcNow lastVoiceTime hang

theorem isHanging_minValue {utcNow : DateTime} (h : hang ≤ utcNow) :
    isHanging utcNow minValue = false := by
  rw [← Bool.not_eq_true, isHanging_iff, minValue, Nat.zero_add]
  exact Nat.not_lt.2 h

theorem copyChunk_eq_iff {e : Captured} (hbytes : e.bytesRecorded ≤ e.buffer.length)
    {hanging : Bool} : copyChunk e hanging = .ok (some e.chunk) ↔ hanging = true := by
  rw [copyChunk, if_neg (Nat.not_lt.2 hbytes)]
  cases hanging <;> simp

theorem copyChunk_voice_iff {e : Captured} (hbytes : e.bytesRecorded ≤ e.buffer.length)
    {hanging : DateTime → Bool} (hlate : hanging minValue = false) (voice : Except Exn Bool) :
    (do copyChunk e (hanging (if ← voice then e.voiceAt else minValue))) = .ok (some e.chunk) ↔
      voice = .ok true ∧ hanging e.voiceAt = true := by
  cases voice with
  | error x => simp [bind, Except.bind]
  | ok found =>
      cases found with
      | false => simp [bind, Except.bind, copyChunk_eq_iff hbytes, hlate]
      | true => simp [bind, Except.bind, copyChunk_eq_iff hbytes]

theorem isSent_iff_of_token {helper : StreamHelper} {token : CancellationTokenSource}
    (htoken : helper.token = some token) (hlive : token.isCancellationRequested = false)
    {e : Captured} (hbytes : e.bytesRecorded ≤ e.buffer.length) (hnow : hang ≤ e.now) :
    IsSent helper e ↔ IsVoiced e ∧ isHanging e.now e.voiceAt = true := by
  have hcallback : dataAvailable helper e = (do
      copyChunk e (isHanging e.now
        (if ← containsVoice e.buffer e.bytesRecorded then e.voiceAt else minValue))) := by
    rw [dataAvailable, htoken]
    simp only [hlive, Bool.false_eq_true, if_false]
  rw [IsSent, IsVoiced, hcallback]
  exact copyChunk_voice_iff hbytes (isHanging_minValue hnow) _

/-- So there would be no hang-over either: it ends with the first buffer without voice. -/
theorem not_hangsOver_of_pause {helper : StreamHelper} {token : CancellationTokenSource}
    (htoken : helper.token = some token) (hlive : token.isCancellationRequested = false)
    {captured : List Captured} {j k : Nat} {v e : Captured} (hjk : j ≤ k)
    (hv : captured[j]? = some v) (he : captured[k]? = some e)
    (hbytes : e.bytesRecorded ≤ e.buffer.length) (hnow : hang ≤ e.now) (hvoiced : IsVoiced v)
    (hsilent : ¬ IsVoiced e) (hsoon : e.arrived < v.arrived + hang) :
    ¬ HangsOver helper captured := by
  intro h
  have hsent : IsSent helper e := (h k e he).2 ⟨j, hjk, v, hv, hvoiced, hsoon⟩
  exact hsilent ((isSent_iff_of_token htoken hlive hbytes hnow).1 hsent).1

/-- Streaming hangs over exactly as long as nobody speaks. -/
theorem hangsOver_iff (helper : StreamHelper) (hbuilt : helper.IsBuilt)
    (captured : List Captured) :
    HangsOver helper captured ↔ ∀ e ∈ captured, ¬ IsVoiced e := by
  have hsent := not_isSent_of_token_none hbuilt.token_eq
  constructor
  · intro h e he hvoiced
    obtain ⟨k, hk⟩ := List.mem_iff_getElem?.1 he
    have hhang : 0 < hang := by decide
    exact hsent e ((h k e hk).2 ⟨k, Nat.le_refl k, e, hk, hvoiced, Nat.lt_add_of_pos_right hhang⟩)
  · intro hsilent k e _
    refine iff_of_false (hsent e) ?_
    rintro ⟨j, -, v, hv, hvoiced, -⟩
    exact hsilent v (List.mem_of_getElem? hv) hvoiced

/-- Somebody speaks, and a tenth of a second later nobody does. -/
def spoken : Captured := ⟨[0xff, 0x7f], 2, (7 : Nat), (7 : Nat), (7 : Nat)⟩

def pause : Captured := ⟨[1, 0], 2, (1000007 : Nat), (1000007 : Nat), (1000007 : Nat)⟩

theorem isVoiced_spoken : IsVoiced spoken := by
  have hloud : IsLoud spoken.buffer 500 0 := by rw [IsLoud]; decide
  exact searchVoice_loud (by decide) (by decide) hloud

theorem hangsOver_iff_pause :
    StreamHelper.IsBuilt (.ofClient ⟨false⟩) ∧ ¬ HangsOver (.ofClient ⟨false⟩) [spoken, pause] :=
  ⟨.client ⟨false⟩, fun h => (hangsOver_iff _ (.client ⟨false⟩) [spoken, pause]).1 h spoken
    List.mem_cons_self isVoiced_spoken⟩

theorem not_hangsOver :
    ¬ ∀ (helper : StreamHelper) (captured : List Captured), helper.IsBuilt →
        captured.Pairwise (fun e f => e.arrived ≤ f.arrived) → HangsOver helper captured := by
  intro halways
  have hsent : IsSent (.ofClient ⟨false⟩) spoken :=
    (halways _ [spoken] (.client ⟨false⟩) (List.pairwise_singleton _ spoken) 0 spoken rfl).2
      ⟨0, Nat.le_refl 0, spoken, rfl, isVoiced_spoken, by decide⟩
  exact not_isSent_of_token_none rfl spoken hsent

end NETConnect.Audio
