import Mathlib.Data.List.Forall2
/-!
# Calls and their answers

A caller and an answerer are joined by two channels that keep the order.  Frames may get
lost, and frames of other kinds pass by.  What the caller has noted as answered, what is
on its way back and what is on its way out make up, in this order, a part of what was
called: nothing is invented, repeated or overtaken.
-/

namespace NETConnect.Lib

variable {φ τ : Type*}

theorem exists_sublist_of_forall₂ {R : φ → τ → Prop} {l l' : List φ} {m : List τ}
    (h : List.Forall₂ R l m) (hl : l'.Sublist l) :
    ∃ m', m'.Sublist m ∧ List.Forall₂ R l' m' := by
  induction hl generalizing m with
  | slnil => exact ⟨[], List.nil_sublist m, .nil⟩
  | cons a hl ih =>
      cases h with
      | cons hhead htail =>
          obtain ⟨m', hm, hall⟩ := ih htail
          exact ⟨m', hm.cons _, hall⟩
  | cons_cons a hl ih =>
      cases h with
      | cons hhead htail =>
          obtain ⟨m', hm, hall⟩ := ih htail
          exact ⟨_ :: m', hm.cons_cons _, .cons hhead hall⟩

/-- How a call and an answer are told: what a frame calls for, whether it is an answer,
and to what. -/
structure Echo (φ τ : Type*) where
  call : φ → Option τ
  isAnswer : φ → Bool
  answers : φ → τ → Prop

namespace Echo

variable (E : Echo φ τ)

/-- `noted` was answered, `back` and `out` are the channels, and `made` was called. -/
def InStep (noted : List τ) (out back : List φ) (made : List τ) : Prop :=
  ∃ answered, List.Forall₂ E.answers (back.filter E.isAnswer) answered ∧
    (noted ++ (answered ++ out.filterMap E.call)).Sublist made

variable {E} {noted noted' made : List τ} {out out' back back' fs : List φ} {f g : φ} {t : τ}

theorem inStep_nil (made : List τ) : E.InStep [] [] [] made :=
  ⟨[], .nil, List.nil_sublist made⟩

theorem InStep.noted_sublist (h : E.InStep noted out back made) : noted.Sublist made := by
  obtain ⟨answered, -, hmade⟩ := h
  exact (List.sublist_append_left noted _).trans hmade

theorem InStep.of_sublist (h : E.InStep noted out back made) (hnoted : noted'.Sublist noted)
    (hout : out'.Sublist out) (hback : back'.Sublist back) : E.InStep noted' out' back' made := by
  obtain ⟨answered, hall, hmade⟩ := h
  obtain ⟨answered', hanswered, hall'⟩ := exists_sublist_of_forall₂ hall (hback.filter E.isAnswer)
  refine ⟨answered', hall', List.Sublist.trans ?_ hmade⟩
  exact hnoted.append (hanswered.append (hout.filterMap E.call))

theorem InStep.calls (h : E.InStep noted out back made) (fs : List φ) :
    E.InStep noted (out ++ fs) back (made ++ fs.filterMap E.call) := by
  obtain ⟨answered, hall, hmade⟩ := h
  refine ⟨answered, hall, ?_⟩
  rw [List.filterMap_append, ← List.append_assoc answered, ← List.append_assoc noted]
  exact hmade.append_right _

theorem InStep.passes (h : E.InStep noted out back made) (hfs : ∀ f ∈ fs, E.isAnswer f = false) :
    E.InStep noted out (back ++ fs) made := by
  have hnone : fs.filter E.isAnswer = [] := by
    rw [List.filter_eq_nil_iff]
    intro f hf
    simp [hfs f hf]
  obtain ⟨answered, hall, hmade⟩ := h
  refine ⟨answered, ?_, hmade⟩
  rw [List.filter_append, hnone, List.append_nil]
  exact hall

/-- The answerer takes a call and answers it. -/
theorem InStep.replies (h : E.InStep noted (f :: out) back made) (hcall : E.call f = some t)
    (hanswer : E.isAnswer g = true) (hg : E.answers g t) :
    E.InStep noted out (back ++ [g]) made := by
  obtain ⟨answered, hall, hmade⟩ := h
  refine ⟨answered ++ [t], ?_, ?_⟩
  · rw [List.filter_append, List.filter_cons_of_pos hanswer, List.filter_nil]
    exact List.rel_append hall (.cons hg .nil)
  · rw [List.filterMap_cons_some hcall] at hmade
    rw [List.append_assoc, List.singleton_append]
    exact hmade

/-- The caller takes an answer and notes it. -/
theorem InStep.notes (h : E.InStep noted out (f :: back) made) (hanswer : E.isAnswer f = true)
    (hf : ∀ t', E.answers f t' → t = t') : E.InStep (noted ++ [t]) out back made := by
  obtain ⟨answered, hall, hmade⟩ := h
  rw [List.filter_cons_of_pos hanswer] at hall
  cases hall with
  | cons hhead htail =>
      obtain rfl := hf _ hhead
      refine ⟨_, htail, ?_⟩
      rw [List.append_assoc, List.singleton_append]
      exact hmade

theorem InStep.mono {answers : φ → τ → Prop} (h : E.InStep noted out back made)
    (hanswers : ∀ f t, E.answers f t → answers f t) :
    ({ E with answers } : Echo φ τ).InStep noted out back made := by
  obtain ⟨answered, hall, hmade⟩ := h
  exact ⟨answered, hall.imp hanswers, hmade⟩

end Echo

end NETConnect.Lib
