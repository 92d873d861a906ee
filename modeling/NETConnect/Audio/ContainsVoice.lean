import NETConnect.Lib.LittleEndian
import NETConnect.Packet.Header
/-!
# `ContainsVoice`

The search for a sample louder than a threshold.  It steps over a count of bytes, and
takes an absolute value in sixteen bits.
-/

namespace NETConnect.Audio

open Lib

/-- `BitConverter.ToInt16(value, startIndex)`. -/
def toInt16 (value : Bytes) (startIndex : Nat) : Except Exn (BitVec 16) :=
  if value.length ≤ startIndex then .error .argumentOutOfRange
  else if value.length < startIndex + 2 then .error .argument
  else .ok (BitVec.ofNat 16 (leValue ((value.drop startIndex).take 2)))

/-- `Math.Abs(short)`. -/
def mathAbs (value : BitVec 16) : Except Exn (BitVec 16) :=
  if 0 ≤ value.toInt then .ok value
  else if (-value).toInt < 0 then .error .overflow
  else .ok (-value)

/-- The loop of `ContainsVoice`, from the index `i` on. -/
def searchVoice (buffer : Bytes) (bytesRecorded : Nat) (threshold : BitVec 16) (i : Nat) :
    Except Exn Bool :=
  if i < bytesRecorded then do
    let sample ← toInt16 buffer i
    let volume ← mathAbs sample
    if threshold.toInt < volume.toInt then return true
    searchVoice buffer bytesRecorded threshold (i + 2)
  else return false
termination_by bytesRecorded - i

def containsVoice (buffer : Bytes) (bytesRecorded : Nat) (threshold : BitVec 16 := 500) :
    Except Exn Bool :=
  searchVoice buffer bytesRecorded threshold 0

/-! ## Samples -/

/-- The value of the sample that begins at `i`. -/
def sampleAt (buffer : Bytes) (i : Nat) : Int :=
  (BitVec.ofNat 16 (leValue ((buffer.drop i).take 2))).toInt

def IsLoud (buffer : Bytes) (threshold : BitVec 16) (i : Nat) : Prop :=
  threshold.toInt < |sampleAt buffer i|

/-- A complete sample within the recorded bytes is loud. -/
def HasVoice (buffer : Bytes) (bytesRecorded : Nat) (threshold : BitVec 16) : Prop :=
  ∃ k, 2 * k + 2 ≤ bytesRecorded ∧ IsLoud buffer threshold (2 * k)

/-- The search returns whether there is voice. -/
def FindsVoice (buffer : Bytes) (bytesRecorded : Nat) (threshold : BitVec 16) : Prop :=
  ∃ result, containsVoice buffer bytesRecorded threshold = .ok result ∧
    (result = true ↔ HasVoice buffer bytesRecorded threshold)

/-- The first loud sample has an absolute value; or none is loud, and neither is the one
that begins with a last odd byte. -/
def IsSearchable (buffer : Bytes) (bytesRecorded : Nat) (threshold : BitVec 16) : Prop :=
  (∃ k, 2 * k + 2 ≤ bytesRecorded ∧ IsLoud buffer threshold (2 * k) ∧
      (∀ j < k, ¬ IsLoud buffer threshold (2 * j)) ∧ sampleAt buffer (2 * k) ≠ -32768) ∨
    (¬ HasVoice buffer bytesRecorded threshold ∧
      (bytesRecorded % 2 = 0 ∨
        bytesRecorded < buffer.length ∧ ¬ IsLoud buffer threshold (bytesRecorded - 1)))

/-- Sixteen bits hold every absolute value but that of the least sample. -/
theorem mathAbs_eq (value : BitVec 16) :
    mathAbs value = .error .overflow ∧ value.toInt = -32768 ∨
      ∃ volume, mathAbs value = .ok volume ∧ volume.toInt = |value.toInt| ∧ value.toInt ≠ -32768 := by
  have hlow := value.le_toInt
  have hhigh := value.toInt_lt
  have hneg : (-value).toInt = (-value.toInt).bmod (2 ^ 16) := BitVec.toInt_neg
  rw [mathAbs]
  by_cases hpos : 0 ≤ value.toInt
  · exact Or.inr ⟨value, if_pos hpos, (abs_of_nonneg hpos).symm, by omega⟩
  · rw [if_neg hpos, abs_of_neg (Int.not_le.1 hpos)]
    by_cases hmin : value.toInt = -32768
    · refine Or.inl ⟨if_pos ?_, hmin⟩
      rw [hneg, hmin]
      decide
    · refine Or.inr ⟨-value, if_neg ?_, ?_, hmin⟩
      all_goals
        rw [hneg, Int.bmod_eq_of_le]
        all_goals omega

/-! ## What one turn of the loop does -/

section Turn

variable {buffer : Bytes} {bytesRecorded : Nat} {threshold : BitVec 16} {i : Nat}

theorem searchVoice_done (h : bytesRecorded ≤ i) :
    searchVoice buffer bytesRecorded threshold i = .ok false := by
  rw [searchVoice, if_neg (Nat.not_lt.2 h)]
  rfl

theorem searchVoice_cut (h : i < bytesRecorded) (hcut : buffer.length = i + 1) :
    searchVoice buffer bytesRecorded threshold i = .error .argument := by
  rw [searchVoice, if_pos h, toInt16, if_neg (by omega), if_pos (by omega)]
  rfl

theorem searchVoice_room (threshold : BitVec 16) (h : i < bytesRecorded) (hroom : i + 2 ≤ buffer.length) :
    ∃ sample : BitVec 16, sample.toInt = sampleAt buffer i ∧
      searchVoice buffer bytesRecorded threshold i = (do
        let volume ← mathAbs sample
        if threshold.toInt < volume.toInt then return true
        searchVoice buffer bytesRecorded threshold (i + 2)) := by
  refine ⟨_, rfl, ?_⟩
  rw [searchVoice, if_pos h, toInt16, if_neg (by omega), if_neg (by omega)]
  rfl

theorem searchVoice_quiet (h : i < bytesRecorded) (hroom : i + 2 ≤ buffer.length)
    (hquiet : ¬ IsLoud buffer threshold i) :
    searchVoice buffer bytesRecorded threshold i =
      searchVoice buffer bytesRecorded threshold (i + 2) := by
  obtain ⟨sample, hsample, hturn⟩ := searchVoice_room threshold h hroom
  rw [IsLoud, ← hsample] at hquiet
  rw [hturn]
  rcases mathAbs_eq sample with ⟨-, hmin⟩ | ⟨volume, habs, hvolume, -⟩
  · -- the least sample is louder than any threshold
    have hbound : threshold.toInt < 32768 := BitVec.toInt_lt
    have hleast : |(-32768 : Int)| = 32768 := by decide
    rw [hmin, hleast] at hquiet
    exact absurd hbound hquiet
  · rw [← hvolume] at hquiet
    rw [habs]
    simp only [bind, Except.bind, if_neg hquiet]

theorem searchVoice_loud (h : i < bytesRecorded) (hroom : i + 2 ≤ buffer.length)
    (hloud : IsLoud buffer threshold i) :
    searchVoice buffer bytesRecorded threshold i =
      if sampleAt buffer i = -32768 then .error .overflow else .ok true := by
  obtain ⟨sample, hsample, hturn⟩ := searchVoice_room threshold h hroom
  rw [IsLoud, ← hsample] at hloud
  rw [hturn, ← hsample]
  rcases mathAbs_eq sample with ⟨habs, hmin⟩ | ⟨volume, habs, hvolume, hne⟩
  · rw [habs, if_pos hmin]
    rfl
  · rw [habs, if_neg hne]
    simp only [bind, Except.bind, hvolume, if_pos hloud]
    rfl

theorem searchVoice_from {k : Nat} (hk : 2 * k ≤ bytesRecorded)
    (hbytes : bytesRecorded ≤ buffer.length) (hquiet : ∀ j < k, ¬ IsLoud buffer threshold (2 * j)) :
    containsVoice buffer bytesRecorded threshold =
      searchVoice buffer bytesRecorded threshold (2 * k) := by
  induction k with
  | zero => rfl
  | succ k ih =>
      rw [ih (by omega) fun j hj => hquiet j (by omega),
        searchVoice_quiet (by omega) (by omega) (hquiet k (by omega)), Nat.mul_succ]

end Turn

/-! ## Which buffers are searched -/

theorem findsVoice_iff_of_ok {buffer : Bytes} {bytesRecorded : Nat} {threshold : BitVec 16}
    {result : Bool} (h : containsVoice buffer bytesRecorded threshold = .ok result) :
    FindsVoice buffer bytesRecorded threshold ↔
      (result = true ↔ HasVoice buffer bytesRecorded threshold) := by
  constructor
  · rintro ⟨result', hresult', hiff⟩
    rw [h] at hresult'
    rwa [Except.ok.inj hresult']
  · intro hiff
    exact ⟨result, h, hiff⟩

theorem not_findsVoice_of_error {buffer : Bytes} {bytesRecorded : Nat} {threshold : BitVec 16}
    {e : Exn} (h : containsVoice buffer bytesRecorded threshold = .error e) :
    ¬ FindsVoice buffer bytesRecorded threshold := by
  rintro ⟨result, hresult, -⟩
  rw [h] at hresult
  simp at hresult

/-- With voice in the buffer, all depends on the first loud sample. -/
theorem findsVoice_iff_of_first {buffer : Bytes} {bytesRecorded k : Nat} {threshold : BitVec 16}
    (hbytes : bytesRecorded ≤ buffer.length) (hk : 2 * k + 2 ≤ bytesRecorded)
    (hloud : IsLoud buffer threshold (2 * k)) (hfirst : ∀ j < k, ¬ IsLoud buffer threshold (2 * j)) :
    FindsVoice buffer bytesRecorded threshold ↔ sampleAt buffer (2 * k) ≠ -32768 := by
  have hsearch : searchVoice buffer bytesRecorded threshold (2 * k) = _ :=
    searchVoice_loud (by omega) (by omega) hloud
  rw [← searchVoice_from (by omega) hbytes hfirst] at hsearch
  by_cases hmin : sampleAt buffer (2 * k) = -32768
  · rw [if_pos hmin] at hsearch
    exact iff_of_false (not_findsVoice_of_error hsearch) (not_not_intro hmin)
  · rw [if_neg hmin] at hsearch
    exact iff_of_true ((findsVoice_iff_of_ok hsearch).2 (iff_of_true rfl ⟨k, hk, hloud⟩)) hmin

/-- Without voice, all depends on how the recorded bytes end. -/
theorem findsVoice_iff_of_silent {buffer : Bytes} {bytesRecorded : Nat} {threshold : BitVec 16}
    (hbytes : bytesRecorded ≤ buffer.length)
    (hsilent : ¬ HasVoice buffer bytesRecorded threshold) :
    FindsVoice buffer bytesRecorded threshold ↔
      bytesRecorded % 2 = 0 ∨
        bytesRecorded < buffer.length ∧ ¬ IsLoud buffer threshold (bytesRecorded - 1) := by
  have hquiet : ∀ j < bytesRecorded / 2, ¬ IsLoud buffer threshold (2 * j) :=
    fun j hj hloud => hsilent ⟨j, by omega, hloud⟩
  have hsearch := searchVoice_from (by omega) hbytes hquiet
  rcases Nat.mod_two_eq_zero_or_one bytesRecorded with heven | hodd
  · rw [searchVoice_done (by omega)] at hsearch
    exact iff_of_true ((findsVoice_iff_of_ok hsearch).2 (iff_of_false (by simp) hsilent))
      (Or.inl heven)
  · have hlast : 2 * (bytesRecorded / 2) = bytesRecorded - 1 := by omega
    rw [hlast] at hsearch
    rcases Nat.lt_or_ge bytesRecorded buffer.length with hmore | hend
    · by_cases hloud : IsLoud buffer threshold (bytesRecorded - 1)
      · refine iff_of_false ?_ (by simp [hodd, hloud])
        rw [searchVoice_loud (by omega) (by omega) hloud] at hsearch
        split at hsearch
        · exact not_findsVoice_of_error hsearch
        · rw [findsVoice_iff_of_ok hsearch]
          simp [hsilent]
      · rw [searchVoice_quiet (by omega) (by omega) hloud, searchVoice_done (by omega)] at hsearch
        exact iff_of_true ((findsVoice_iff_of_ok hsearch).2 (iff_of_false (by simp) hsilent))
          (Or.inr ⟨hmore, hloud⟩)
    · rw [searchVoice_cut (by omega) (by omega)] at hsearch
      exact iff_of_false (not_findsVoice_of_error hsearch) (by omega)

/-- The search is exact on the searchable buffers and on no others. -/
theorem containsVoice_exact_iff (buffer : Bytes) (bytesRecorded : Nat) (threshold : BitVec 16)
    (hbytes : bytesRecorded ≤ buffer.length) :
    FindsVoice buffer bytesRecorded threshold ↔ IsSearchable buffer bytesRecorded threshold := by
  by_cases hvoice : HasVoice buffer bytesRecorded threshold
  · obtain ⟨k, hk, hloud⟩ := hvoice
    obtain ⟨m, hm, hfirst, hbefore⟩ : ∃ m ≤ k, IsLoud buffer threshold (2 * m) ∧
        ∀ j < m, ¬ IsLoud buffer threshold (2 * j) := by
      classical
      have hex : ∃ k, IsLoud buffer threshold (2 * k) := ⟨k, hloud⟩
      exact ⟨Nat.find hex, Nat.find_min' hex hloud, Nat.find_spec hex, fun j => Nat.find_min hex⟩
    rw [findsVoice_iff_of_first hbytes (by omega) hfirst hbefore]
    constructor
    · intro hmin
      exact Or.inl ⟨m, by omega, hfirst, hbefore, hmin⟩
    · rintro (⟨m', -, hfirst', hbefore', hmin⟩ | ⟨hsilent, -⟩)
      · obtain rfl : m' = m := by
          rcases Nat.lt_trichotomy m' m with hlt | heq | hlt
          · exact absurd hfirst' (hbefore m' hlt)
          · exact heq
          · exact absurd hfirst (hbefore' m hlt)
        exact hmin
      · exact absurd ⟨k, hk, hloud⟩ hsilent
  · rw [findsVoice_iff_of_silent hbytes hvoice]
    constructor
    · intro hend
      exact Or.inr ⟨hvoice, hend⟩
    · rintro (⟨k, hk, hloud, -⟩ | ⟨-, hend⟩)
      · exact absurd ⟨k, hk, hloud⟩ hvoice
      · exact hend

/-- A quiet sample, a loud one, and then the least one. -/
theorem containsVoice_exact_iff_clipped :
    FindsVoice [0x01, 0x00, 0xff, 0x7f, 0x00, 0x80] 6 500 := by
  refine (containsVoice_exact_iff _ 6 500 (by decide)).2 (Or.inl ⟨1, by decide, ?_, ?_, by decide⟩)
  · rw [IsLoud]
    decide
  · intro j hj
    obtain rfl : j = 0 := Nat.lt_one_iff.1 hj
    rw [IsLoud]
    decide

/-- The sample that a clipping microphone records. -/
theorem not_containsVoice_exact :
    ¬ ∀ (buffer : Bytes) (bytesRecorded : Nat) (threshold : BitVec 16),
        bytesRecorded ≤ buffer.length → 0 ≤ threshold.toInt →
          FindsVoice buffer bytesRecorded threshold := by
  intro halways
  have hfinds := halways [0x00, 0x80] 2 500 (by decide) (by decide)
  have hloud : IsLoud [0x00, 0x80] 500 (2 * 0) := by rw [IsLoud]; decide
  rw [findsVoice_iff_of_first (by decide) (by decide) hloud fun j hj => absurd hj (Nat.not_lt_zero j)]
    at hfinds
  exact hfinds (by decide)

end NETConnect.Audio
