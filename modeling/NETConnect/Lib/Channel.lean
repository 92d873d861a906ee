import Mathlib.Data.List.Forall2
/-!
# A channel that keeps the order

A frame stands for the item for which it was sent.  The first frame of the channel is
taken, and the item is raised or gets lost.
-/

namespace NETConnect.Lib

variable {φ τ : Type*}

/-- What was raised, and then what is under way, is a part of what was sent. -/
def Carries (R : φ → τ → Prop) (channel : List φ) (raised sent : List τ) : Prop :=
  ∃ pending, List.Forall₂ R channel pending ∧ (raised ++ pending).Sublist sent

/-- What was sent was raised without a gap, or is under way behind everything older. -/
def Arrives (R : φ → τ → Prop) (channel : List φ) (raised sent : List τ) : Prop :=
  ∃ older newer done pending, channel = older ++ newer ∧ List.Forall₂ R newer pending ∧
    sent = done ++ pending ∧ done <:+ raised ∧ (older ≠ [] → done = [])

variable {R R' : φ → τ → Prop} {channel : List φ} {raised sent more : List τ} {f : φ} {t : τ}

/-! ## Nothing is invented, repeated or overtaken -/

theorem carries_nil (sent : List τ) : Carries R [] [] sent :=
  ⟨[], .nil, List.nil_sublist sent⟩

theorem Carries.sublist (h : Carries R channel raised sent) : raised.Sublist sent := by
  obtain ⟨pending, -, hsent⟩ := h
  exact (List.sublist_append_left raised pending).trans hsent

theorem Carries.sends (h : Carries R channel raised sent) (hf : R f t) :
    Carries R (channel ++ [f]) raised (sent ++ [t]) := by
  obtain ⟨pending, hall, hsent⟩ := h
  refine ⟨pending ++ [t], List.rel_append hall (.cons hf .nil), ?_⟩
  rw [← List.append_assoc]
  exact hsent.append_right _

theorem Carries.takes (h : Carries R (f :: channel) raised sent)
    (hmore : more = [] ∨ ∀ t, R f t → more = [t]) : Carries R channel (raised ++ more) sent := by
  obtain ⟨pending, hall, hsent⟩ := h
  cases hall with
  | @cons _ t _ rest hhead htail =>
      refine ⟨rest, htail, List.Sublist.trans ?_ hsent⟩
      rcases hmore with rfl | hmore
      · rw [List.append_nil]
        exact (List.sublist_cons_self t rest).append_left raised
      · rw [hmore t hhead, List.append_assoc]
        exact List.Sublist.refl _

theorem Carries.cleared (h : Carries R channel raised sent) : Carries R [] raised sent := by
  refine ⟨[], .nil, ?_⟩
  rw [List.append_nil]
  exact h.sublist

theorem Carries.mono (h : Carries R channel raised sent) (hR : ∀ f t, R f t → R' f t) :
    Carries R' channel raised sent := by
  obtain ⟨pending, hall, hsent⟩ := h
  exact ⟨pending, hall.imp hR, hsent⟩

/-! ## Nothing gets lost -/

theorem arrives_start (channel : List φ) (raised : List τ) : Arrives R channel raised [] :=
  ⟨channel, [], [], [], (List.append_nil channel).symm, .nil, rfl, List.nil_suffix,
    fun _ => rfl⟩

theorem Arrives.sends (h : Arrives R channel raised sent) (hf : R f t) :
    Arrives R (channel ++ [f]) raised (sent ++ [t]) := by
  obtain ⟨older, newer, done, pending, rfl, hall, rfl, hdone, hnone⟩ := h
  exact ⟨older, newer ++ [f], done, pending ++ [t], List.append_assoc ..,
    List.rel_append hall (.cons hf .nil), List.append_assoc .., hdone, hnone⟩

theorem Arrives.takes (h : Arrives R (f :: channel) raised sent)
    (hmore : ∀ t, R f t → more = [t]) : Arrives R channel (raised ++ more) sent := by
  obtain ⟨older, newer, done, pending, hchannel, hall, rfl, hdone, hnone⟩ := h
  cases older with
  | cons g older =>
      -- nothing newer was raised so far
      obtain ⟨rfl, rfl⟩ := List.cons.inj hchannel
      obtain rfl := hnone (List.cons_ne_nil _ _)
      exact ⟨older, newer, [], pending, rfl, hall, rfl, List.nil_suffix, fun _ => rfl⟩
  | nil =>
      obtain rfl : f :: channel = newer := hchannel
      cases hall with
      | @cons _ t _ rest hhead htail =>
          refine ⟨[], channel, done ++ [t], rest, rfl, htail, List.append_cons .., ?_,
            fun h => absurd rfl h⟩
          rw [hmore t hhead]
          exact (List.suffix_append_inj_of_length_eq rfl).2 ⟨hdone, rfl⟩

end NETConnect.Lib
