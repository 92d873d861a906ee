import Mathlib.Order.Monotone.Defs
import NETConnect.Lib.Machine
/-!
# Actions that keep their distance

A machine that reads a clock and acts at times of its own.  `wait` gives the earliest time
of the next action after one; a state remembers a time by which the last action was made.
-/

namespace NETConnect.Lib

variable {τ : Type*} [Preorder τ] {wait : τ → τ}

/-- The times come after `since` and after each other, with the wait in between. -/
def Apart (wait : τ → τ) (since : τ) (times : List τ) : Prop :=
  (since :: times).Pairwise fun a b => wait a ≤ b

theorem apart_nil (since : τ) : Apart wait since [] := List.pairwise_singleton _ _

theorem Apart.since (hwait : Monotone wait) {since last : τ} {times : List τ}
    (h : Apart wait last times) (hle : since ≤ last) : Apart wait since times := by
  obtain ⟨hlast, htimes⟩ := List.pairwise_cons.1 h
  apply List.pairwise_cons.2
  constructor
  · intro t ht
    calc wait since ≤ wait last := hwait hle
      _ ≤ t := hlast t ht
  · exact htimes

theorem Apart.cons (hwait : Monotone wait) {since t last : τ} {times : List τ}
    (h : Apart wait last times) (hsince : since ≤ last) (hdue : wait since ≤ t) (hlast : t ≤ last) :
    Apart wait since (t :: times) := by
  have hlater := List.pairwise_cons.1 (h.since hwait hsince)
  apply List.pairwise_cons.2
  constructor
  · intro u hu
    rcases List.mem_cons.1 hu with rfl | hu
    · exact hdue
    · exact hlater.1 u hu
  · exact h.since hwait hlast

namespace Machine

variable {σ ε ο : Type*} {M : Machine σ ε ο} {time : ο → τ}

/-- What a step may do: the time it remembers is the old one or one it has read, and an
action comes after the wait and not after that time. -/
structure Paces (wait : τ → τ) (time : ο → τ) (last : σ → τ) (readings : List τ) (s t : σ)
    (o : List ο) : Prop where
  remembers : last t ∈ last s :: readings
  acts : o = [] ∨ ∃ x, o = [x] ∧ wait (last s) ≤ time x ∧ time x ≤ last t

/-- By induction on the events: if no reading is before an earlier one, the actions of a run
keep their distance. -/
theorem run_apart (hwait : Monotone wait) {last : σ → τ} {readings : ε → List τ} {I : σ → Prop}
    (hstep : ∀ s e t o, I s → (last s :: readings e).Pairwise (· ≤ ·) →
      M.step s e = some (t, o) → I t ∧ Paces wait time last (readings e) s t o)
    {s t : σ} {es : List ε} {os : List ο} (hI : I s)
    (hclock : (last s :: es.flatMap readings).Pairwise (· ≤ ·))
    (hrun : M.run s es = some (t, os)) : Apart wait (last s) (os.map time) := by
  induction es generalizing s os with
  | nil =>
      obtain ⟨-, rfl⟩ : s = t ∧ [] = os := by simpa using hrun
      exact apart_nil _
  | cons e es ih =>
      obtain ⟨v, o, o', hv, hrest, rfl⟩ := run_cons_iff.1 hrun
      rw [List.flatMap_cons, ← List.cons_append] at hclock
      obtain ⟨hhere, -, hbefore⟩ := List.pairwise_append.1 hclock
      obtain ⟨hnext, hpaces⟩ := hstep s e v o hI hhere hv
      have hle : last s ≤ last v := by
        rcases List.mem_cons.1 hpaces.remembers with hsame | hread
        · rw [hsame]
        · exact (List.pairwise_cons.1 hhere).1 _ hread
      have hlater : (last v :: es.flatMap readings).Pairwise (· ≤ ·) :=
        List.Pairwise.sublist ((List.singleton_sublist.2 hpaces.remembers).append_right _) hclock
      have hapart := ih hnext hlater hrest
      rcases hpaces.acts with rfl | ⟨x, rfl, hdue, hlast⟩
      · exact hapart.since hwait hle
      · exact hapart.cons hwait hle hdue hlast

end Machine

end NETConnect.Lib
