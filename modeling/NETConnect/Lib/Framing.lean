import Mathlib.Data.List.Basic
import Mathlib.Tactic.Linarith
/-!
# Streams of self-delimiting frames

A stream is the concatenation of the encodings of a list of frames.  A reader is
*aligned* when what it has not read yet is the encoding of the frames it has not
yielded yet.  The arithmetic fact behind every framing argument is here once: a
reader that consumed part of a frame, and not all of it, is not aligned with any
number of frames.
-/

namespace NETConnect.Lib

variable {α β : Type*}

/-- The byte stream of a list of frames. -/
def stream (encode : α → List β) (frames : List α) : List β :=
  frames.flatMap encode

@[simp] theorem stream_nil (encode : α → List β) : stream encode [] = [] := rfl

@[simp] theorem stream_cons (encode : α → List β) (f : α) (fs : List α) :
    stream encode (f :: fs) = encode f ++ stream encode fs := by
  simp [stream]

/-- The reader has yielded the first `n` frames and the rest of the stream is unread. -/
def AlignedAt (encode : α → List β) (frames : List α) (n : Nat) (unread : List β) : Prop :=
  n ≤ frames.length ∧ unread = stream encode (frames.drop n)

theorem length_stream_drop_anti (encode : α → List β) (frames : List α) {m n : Nat}
    (h : m ≤ n) :
    (stream encode (frames.drop n)).length ≤ (stream encode (frames.drop m)).length := by
  obtain ⟨k, rfl⟩ := Nat.exists_eq_add_of_le h
  have hsplit : frames.drop m = (frames.drop m).take k ++ frames.drop (m + k) := by
    conv_lhs => rw [← List.take_append_drop k (frames.drop m), List.drop_drop]
  rw [hsplit, stream, stream, List.flatMap_append, List.length_append]
  exact Nat.le_add_left _ _

/-- With no empty frame, the unread bytes tell how many frames were yielded. -/
theorem AlignedAt.unique {encode : α → List β} {frames : List α}
    (hpos : ∀ f ∈ frames, 0 < (encode f).length) {m n : Nat} {unread : List β}
    (hm : AlignedAt encode frames m unread) (hn : AlignedAt encode frames n unread) : m = n := by
  have hstrict : ∀ {i j : Nat}, AlignedAt encode frames i unread →
      AlignedAt encode frames j unread → ¬ i < j := by
    rintro i j ⟨-, hi⟩ ⟨hj, hj'⟩ hlt
    have hbound : i < frames.length := hlt.trans_le hj
    have hsplit : frames.drop i = frames[i] :: frames.drop (i + 1) :=
      List.drop_eq_getElem_cons hbound
    have hle := length_stream_drop_anti encode frames (show i + 1 ≤ j from hlt)
    have hfirst := hpos frames[i] (List.getElem_mem hbound)
    rw [← hj', hi, hsplit, stream_cons, List.length_append] at hle
    omega
  exact Nat.le_antisymm (Nat.le_of_not_lt (hstrict hn hm)) (Nat.le_of_not_lt (hstrict hm hn))

end NETConnect.Lib
