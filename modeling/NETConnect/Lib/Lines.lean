import Mathlib.Data.List.Basic
import Mathlib.Algebra.GroupWithZero.Nat
import Mathlib.Data.Nat.Init
/-!
# Lines of one length

A text is cut into lines of a given length; the last one may be shorter.
-/

namespace NETConnect.Lib

variable {α : Type*}

/-- The lines of a text. -/
def lines (n : Nat) [NeZero n] (s : List α) : List (List α) :=
  if s.length ≤ n then [s] else s.take n :: lines n (s.drop n)
termination_by s.length
decreasing_by
  have hpos := Nat.pos_of_neZero n
  rw [List.length_drop]
  omega

/-- The lines, with `d` between them. -/
def breakLines (n : Nat) [NeZero n] (d : α) (s : List α) : List α :=
  [d].intercalate (lines n s)

theorem insertIdx_append (s t : List α) (d : α) :
    (s ++ t).insertIdx s.length d = s ++ d :: t := by
  induction s with
  | nil => rfl
  | cons a s ih => simp only [List.cons_append, List.length_cons, List.insertIdx_succ_cons, ih]

section Lines

variable {n : Nat} [NeZero n] {d : α}

theorem lines_of_le {s : List α} (h : s.length ≤ n) : lines n s = [s] := by
  rw [lines, if_pos h]

theorem lines_of_lt {s : List α} (h : n < s.length) :
    lines n s = s.take n :: lines n (s.drop n) := by
  rw [lines, if_neg (Nat.not_le.2 h)]

theorem lines_ne_nil (s : List α) : lines n s ≠ [] := by
  rcases Nat.lt_or_ge n s.length with h | h
  · rw [lines_of_lt h]
    exact List.cons_ne_nil _ _
  · rw [lines_of_le h]
    exact List.cons_ne_nil _ _

/-- Every text fits on one line, or begins with a full line that another follows. -/
theorem lines_induction {P : List α → Prop} (last : ∀ s, s.length ≤ n → P s)
    (more : ∀ line rest, line.length = n → rest ≠ [] → P rest → P (line ++ rest))
    (s : List α) : P s := by
  induction hm : s.length using Nat.strong_induction_on generalizing s with
  | h m ih =>
      rcases Nat.lt_or_ge n s.length with h | h
      · have hpos := Nat.pos_of_neZero n
        rw [← List.take_append_drop n s]
        refine more _ _ (List.length_take_of_le (Nat.le_of_lt h)) ?_ (ih _ ?_ _ rfl)
        · exact List.ne_nil_of_length_pos (by rw [List.length_drop]; omega)
        · rw [List.length_drop]
          omega
      · exact last s h

theorem lines_append {line rest : List α} (hline : line.length = n) (hrest : rest ≠ []) :
    lines n (line ++ rest) = line :: lines n rest := by
  have hpos := List.length_pos_of_ne_nil hrest
  rw [lines_of_lt (by rw [List.length_append]; omega), List.take_left' hline,
    List.drop_left' hline]

theorem flatten_lines (s : List α) : (lines n s).flatten = s := by
  induction s using lines_induction (n := n) with
  | last s h => simp [lines_of_le h]
  | more line rest hline hrest ih => rw [lines_append hline hrest, List.flatten_cons, ih]

theorem lines_length (s : List α) :
    (∀ line ∈ (lines n s).dropLast, line.length = n) ∧
      ∀ line ∈ lines n s, line.length ≤ n := by
  induction s using lines_induction (n := n) with
  | last s h => simp [lines_of_le h, h]
  | more line rest hline hrest ih =>
      obtain ⟨hfull, hle⟩ := ih
      rw [lines_append hline hrest, List.dropLast_cons_of_ne_nil (lines_ne_nil rest)]
      exact ⟨List.forall_mem_cons.2 ⟨hline, hfull⟩, List.forall_mem_cons.2 ⟨Nat.le_of_eq hline, hle⟩⟩

theorem breakLines_of_le {s : List α} (h : s.length ≤ n) : breakLines n d s = s := by
  rw [breakLines, lines_of_le h]
  simp [List.intercalate]

theorem breakLines_append {line rest : List α} (hline : line.length = n)
    (hrest : rest ≠ []) :
    breakLines n d (line ++ rest) = line ++ d :: breakLines n d rest := by
  rw [breakLines, breakLines, lines_append hline hrest]
  obtain ⟨first, more, hlines⟩ := List.exists_cons_of_ne_nil (lines_ne_nil (n := n) rest)
  rw [hlines]
  simp [List.intercalate]

theorem filter_breakLines [DecidableEq α] {s : List α} (hs : d ∉ s) :
    (breakLines n d s).filter (· ≠ d) = s := by
  induction s using lines_induction (n := n) with
  | last s h =>
      rw [breakLines_of_le h, List.filter_eq_self]
      intro a ha
      have hne : a ≠ d := fun had => hs (by rwa [← had])
      simpa using hne
  | more line rest hline hrest ih =>
      have hkeep : line.filter (· ≠ d) = line := by
        rw [List.filter_eq_self]
        intro a ha
        have hne : a ≠ d := fun had => hs (List.mem_append_left _ (by rwa [← had]))
        simpa using hne
      rw [breakLines_append hline hrest, List.filter_append, hkeep, List.filter_cons,
        if_neg (by simp), ih fun hd => hs (List.mem_append_right _ hd)]

end Lines

end NETConnect.Lib
