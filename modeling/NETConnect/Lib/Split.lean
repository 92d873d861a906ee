import Mathlib.Data.List.Infix
/-!
# Splitting at a delimiter

A text is cut at every delimiter, or into the lines that the delimiters end.  The
two differ only in an empty last part.
-/

namespace NETConnect.Lib

variable {α β : Type*}

/-- Every text has no delimiter, or begins with a part that a delimiter ends. -/
theorem split_induction [DecidableEq α] {P : List α → Prop} (d : α)
    (last : ∀ part, d ∉ part → P part)
    (cons : ∀ part rest, d ∉ part → P rest → P (part ++ d :: rest)) (s : List α) : P s := by
  induction hlength : s.length using Nat.strong_induction_on generalizing s with
  | h n ih =>
      by_cases hd : d ∈ s
      · obtain ⟨part, rest, rfl, hpart⟩ := List.eq_append_cons_of_mem hd
        refine cons part rest hpart (ih rest.length ?_ rest rfl)
        rw [← hlength, List.length_append, List.length_cons]
        omega
      · exact last s hd

theorem suffix_append_cons_iff {d : α} {part rest : List α} (hrest : rest ≠ []) :
    [d] <:+ part ++ d :: rest ↔ [d] <:+ rest := by
  rw [List.singleton_suffix_iff_getLast?_eq_some, List.singleton_suffix_iff_getLast?_eq_some,
    List.getLast?_append_of_ne_nil _ (List.cons_ne_nil d rest), List.getLast?_cons_of_ne_nil hrest]

/-- Drop the last part if it is empty. -/
def dropEmptyEnd (parts : List (List α)) : List (List α) :=
  match parts with
  | [] => []
  | [part] => if part.isEmpty then [] else [part]
  | part :: parts => part :: dropEmptyEnd parts

@[simp] theorem dropEmptyEnd_cons {part : List α} {parts : List (List α)} (h : parts ≠ []) :
    dropEmptyEnd (part :: parts) = part :: dropEmptyEnd parts := by
  cases parts with
  | nil => exact absurd rfl h
  | cons => rfl

/-! ## Lines -/

section Lines

variable [DecidableEq α] (d : α)

/-- The lines of a text; what follows the last delimiter is one unless it is empty. -/
def splitLines (s : List α) : List (List α) := dropEmptyEnd (s.splitOn d)

variable {d}

theorem splitLines_nil : splitLines d [] = [] := rfl

theorem splitLines_of_not_mem {part : List α} (hpart : d ∉ part) (hne : part ≠ []) :
    splitLines d part = [part] := by
  rw [splitLines, List.splitOn_eq_singleton hpart, dropEmptyEnd, if_neg (by simpa using hne)]

theorem splitLines_append_cons {part : List α} (hpart : d ∉ part) (rest : List α) :
    splitLines d (part ++ d :: rest) = part :: splitLines d rest := by
  rw [splitLines, List.splitOn_append_cons_self_of_not_mem hpart,
    dropEmptyEnd_cons (List.splitOn_ne_nil d rest), splitLines]

theorem splitLines_eq_nil_iff {s : List α} : splitLines d s = [] ↔ s = [] := by
  refine ⟨fun h => ?_, fun h => by rw [h, splitLines_nil]⟩
  induction s using split_induction d with
  | last part hpart =>
      by_contra hne
      rw [splitLines_of_not_mem hpart hne] at h
      simp at h
  | cons part rest hpart ih =>
      rw [splitLines_append_cons hpart] at h
      simp at h

theorem not_mem_of_mem_splitLines {s line : List α} (hline : line ∈ splitLines d s) :
    d ∉ line := by
  induction s using split_induction d with
  | last part hpart =>
      rcases eq_or_ne part [] with rfl | hne
      · simp [splitLines_nil] at hline
      · rw [splitLines_of_not_mem hpart hne, List.mem_singleton] at hline
        rwa [hline]
  | cons part rest hpart ih =>
      rw [splitLines_append_cons hpart, List.mem_cons] at hline
      rcases hline with rfl | hrest
      · exact hpart
      · exact ih hrest

theorem intercalate_splitLines_iff {s : List α} :
    [d].intercalate (splitLines d s) = s ↔ ¬ [d] <:+ s := by
  induction s using split_induction d with
  | last part hpart =>
      refine iff_of_true ?_ fun hsuffix => hpart (hsuffix.subset List.mem_cons_self)
      rcases eq_or_ne part [] with rfl | hne
      · rfl
      · rw [splitLines_of_not_mem hpart hne, List.intercalate_singleton]
  | cons part rest hpart ih =>
      rw [splitLines_append_cons hpart]
      rcases eq_or_ne rest [] with rfl | hne
      · rw [splitLines_nil, List.intercalate_singleton]
        refine iff_of_false (fun h => ?_) fun h => h (List.suffix_append part [d])
        simpa using congrArg List.length h
      · have hlines : splitLines d rest ≠ [] := fun h => hne (splitLines_eq_nil_iff.1 h)
        rw [List.intercalate_cons_of_ne_nil hlines, suffix_append_cons_iff hne, ← ih]
        simp

/-- Lines are the parts exactly if there is a last part and it is not empty. -/
theorem splitLines_eq_splitOn_iff {s : List α} :
    splitLines d s = s.splitOn d ↔ s ≠ [] ∧ ¬ [d] <:+ s := by
  induction s using split_induction d with
  | last part hpart =>
      rw [List.splitOn_eq_singleton hpart]
      rcases eq_or_ne part [] with rfl | hne
      · simp [splitLines_nil]
      · rw [splitLines_of_not_mem hpart hne]
        exact iff_of_true rfl ⟨hne, fun hsuffix => hpart (hsuffix.subset List.mem_cons_self)⟩
  | cons part rest hpart ih =>
      rw [splitLines_append_cons hpart, List.splitOn_append_cons_self_of_not_mem hpart,
        List.cons_inj_right, ih]
      rcases eq_or_ne rest [] with rfl | hne
      · simp
      · rw [suffix_append_cons_iff hne]
        simp [hne]

end Lines

/-! ## Encoded texts -/

/-- A text is cut where its encoding is, if the delimiter has a code of its own that
occurs in no other. -/
theorem splitOn_flatMap [DecidableEq α] [DecidableEq β] {encode : α → List β} {a : α} {b : β}
    (hself : encode a = [b]) (hother : ∀ c, c ≠ a → b ∉ encode c) (s : List α) :
    (s.flatMap encode).splitOn b = (s.splitOn a).map (List.flatMap encode) := by
  have hpure : ∀ part : List α, a ∉ part → b ∉ part.flatMap encode := by
    intro part hpart hb
    obtain ⟨c, hc, hbc⟩ := List.mem_flatMap.1 hb
    exact hother c (fun h => hpart (h ▸ hc)) hbc
  induction s using split_induction a with
  | last part hpart =>
      rw [List.splitOn_eq_singleton hpart, List.splitOn_eq_singleton (hpure part hpart)]
      rfl
  | cons part rest hpart ih =>
      rw [List.flatMap_append, List.flatMap_cons, hself, List.singleton_append,
        List.splitOn_append_cons_self_of_not_mem (hpure part hpart),
        List.splitOn_append_cons_self_of_not_mem hpart, ih]
      rfl

theorem suffix_flatMap_iff {encode : α → List β} {a : α} {b : β} (hself : encode a = [b])
    (hother : ∀ c, c ≠ a → b ∉ encode c) (hne : ∀ c, encode c ≠ []) {s : List α} :
    [b] <:+ s.flatMap encode ↔ [a] <:+ s := by
  rcases List.eq_nil_or_concat s with rfl | ⟨init, c, rfl⟩
  · simp
  · simp only [List.concat_eq_append, List.flatMap_append, List.flatMap_singleton,
      List.singleton_suffix_iff_getLast?_eq_some, List.getLast?_append_of_ne_nil _ (hne c),
      List.getLast?_append_of_ne_nil _ (List.cons_ne_nil c []), List.getLast?_singleton,
      Option.some.injEq]
    constructor
    · intro h
      by_contra hc
      exact hother c hc (List.mem_of_getLast? h)
    · rintro rfl
      rw [hself, List.getLast?_singleton]

end NETConnect.Lib
