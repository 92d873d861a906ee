import Mathlib.Data.List.Basic
import Mathlib.Data.List.Infix
/-!
# Machines and their runs

A machine consumes events one at a time and emits a list of observations for
each.  The step function is partial: an event that cannot happen in a state has
no successor there.  Everything below is about runs of any length, and names no
particular system.

* `run` and its composition laws;
* `Along`, a condition on every step a run takes, and `Throughout`, a property of
  every state it reaches together with what was observed so far;
* the invariant rules, with and without a condition on the steps.
-/

namespace NETConnect.Lib

/-- A partial, deterministic transition function with observations. -/
structure Machine (σ ε ο : Type*) where
  step : σ → ε → Option (σ × List ο)

namespace Machine

variable {σ ε ο : Type*} (M : Machine σ ε ο)

/-- Take every event in turn, collecting the observations. -/
def run : σ → List ε → Option (σ × List ο)
  | s, [] => some (s, [])
  | s, e :: es => (M.step s e).bind fun r => (run r.1 es).map fun r' => (r'.1, r.2 ++ r'.2)

@[simp] theorem run_nil (s : σ) : M.run s [] = some (s, []) := rfl

variable {M}

theorem run_cons_iff {s u : σ} {e : ε} {es : List ε} {os : List ο} :
    M.run s (e :: es) = some (u, os) ↔
      ∃ t o o', M.step s e = some (t, o) ∧ M.run t es = some (u, o') ∧ os = o ++ o' := by
  rw [run]
  simp only [Option.bind_eq_some_iff, Option.map_eq_some_iff, Prod.exists, Prod.mk.injEq]
  constructor
  · rintro ⟨t, o, hstep, v, o', hrun, rfl, rfl⟩
    exact ⟨t, o, o', hstep, hrun, rfl⟩
  · rintro ⟨t, o, o', hstep, hrun, rfl⟩
    exact ⟨t, o, hstep, u, o', hrun, rfl, rfl⟩

theorem run_singleton_iff {s t : σ} {e : ε} {o : List ο} :
    M.run s [e] = some (t, o) ↔ M.step s e = some (t, o) := by
  rw [run_cons_iff]
  simp

theorem run_append_iff {s u : σ} {es es' : List ε} {os : List ο} :
    M.run s (es ++ es') = some (u, os) ↔
      ∃ t o o', M.run s es = some (t, o) ∧ M.run t es' = some (u, o') ∧ os = o ++ o' := by
  induction es generalizing s os with
  | nil => simp
  | cons e es ih =>
      rw [List.cons_append, run_cons_iff]
      constructor
      · rintro ⟨t, o, o', hstep, hrun, rfl⟩
        obtain ⟨v, p, p', hv, hu, rfl⟩ := ih.1 hrun
        exact ⟨v, o ++ p, p', run_cons_iff.2 ⟨t, o, p, hstep, hv, rfl⟩, hu, by simp⟩
      · rintro ⟨v, q, p', hq, hu, rfl⟩
        obtain ⟨t, o, p, hstep, hv, rfl⟩ := run_cons_iff.1 hq
        exact ⟨t, o, p ++ p', hstep, ih.2 ⟨v, p, p', hv, hu, rfl⟩, by simp⟩

theorem run_snoc {s t u : σ} {es : List ε} {e : ε} {os o : List ο}
    (hrun : M.run s es = some (t, os)) (hstep : M.step t e = some (u, o)) :
    M.run s (es ++ [e]) = some (u, os ++ o) :=
  run_append_iff.2 ⟨t, os, o, hrun, run_singleton_iff.2 hstep, rfl⟩

/-! ## Schedules -/

variable (M) in
/-- The run that a schedule makes: each event is chosen by looking at the state.  The
events are returned with what the run returns. -/
def play : σ → List (σ → ε) → Option (List ε × σ × List ο)
  | s, [] => some ([], s, [])
  | s, choose :: rest =>
      (M.step s (choose s)).bind fun r =>
        (play r.1 rest).map fun r' => (choose s :: r'.1, r'.2.1, r.2 ++ r'.2.2)

theorem run_of_play {s t : σ} {schedule : List (σ → ε)} {es : List ε} {os : List ο}
    (h : M.play s schedule = some (es, t, os)) : M.run s es = some (t, os) := by
  induction schedule generalizing s es os with
  | nil =>
      obtain ⟨rfl, rfl, rfl⟩ : [] = es ∧ s = t ∧ [] = os := by simpa [play] using h
      rfl
  | cons choose rest ih =>
      obtain ⟨⟨u, o⟩, hstep, h⟩ := Option.bind_eq_some_iff.1 h
      obtain ⟨⟨es', t', os'⟩, hplay, hr⟩ := Option.map_eq_some_iff.1 h
      obtain ⟨rfl, rfl, rfl⟩ : choose s :: es' = es ∧ t' = t ∧ o ++ os' = os := by
        simpa using hr
      exact run_cons_iff.2 ⟨u, o, os', hstep, ih hplay, rfl⟩

/-! ## Conditions on the steps, properties of the states -/

variable (M)

/-- `G` holds of the state and the event of every step taken from `s`. -/
def Along (G : σ → ε → Prop) : σ → List ε → Prop
  | _, [] => True
  | s, e :: es => G s e ∧ ∀ t o, M.step s e = some (t, o) → Along G t es

/-- `P` holds of every state reached from `s` on the way through `es`, together
with the observations made up to it. -/
def Throughout (P : σ → List ο → Prop) (s : σ) (es : List ε) : Prop :=
  ∀ pre post t os, es = pre ++ post → M.run s pre = some (t, os) → P t os

variable {M}

theorem along_iff {G : σ → ε → Prop} {s : σ} {es : List ε} :
    M.Along G s es ↔
      ∀ pre e post t os, es = pre ++ e :: post → M.run s pre = some (t, os) → G t e := by
  induction es generalizing s with
  | nil => simp [Along]
  | cons e es ih =>
      constructor
      · rintro ⟨hhead, htail⟩ pre e' post t os hsplit hrun
        cases pre with
        | nil =>
            obtain ⟨rfl, rfl⟩ : e = e' ∧ es = post := by simpa using hsplit
            obtain ⟨rfl, rfl⟩ : s = t ∧ [] = os := by simpa using hrun
            exact hhead
        | cons p pre =>
            obtain ⟨rfl, rfl⟩ : e = p ∧ es = pre ++ e' :: post := by simpa using hsplit
            obtain ⟨v, o, o', hstep, hrest, rfl⟩ := run_cons_iff.1 hrun
            exact ih.1 (htail v o hstep) pre e' post t o' rfl hrest
      · intro h
        refine ⟨h [] e es s [] rfl rfl, fun v o hstep => ih.2 ?_⟩
        intro pre e' post t os hsplit hrun
        exact h (e :: pre) e' post t (o ++ os) (by rw [hsplit]; rfl)
          (run_cons_iff.2 ⟨v, o, os, hstep, hrun, rfl⟩)

/-- Where every event can be taken, a condition on the events alone holds along a run
exactly if it holds of all of them. -/
theorem along_forall_iff {G : ε → Prop} (htotal : ∀ s e, M.step s e ≠ none) {s : σ}
    {es : List ε} : M.Along (fun _ e => G e) s es ↔ ∀ e ∈ es, G e := by
  induction es generalizing s with
  | nil => simp [Along]
  | cons e es ih =>
      obtain ⟨⟨t, o⟩, hstep⟩ := Option.ne_none_iff_exists'.1 (htotal s e)
      rw [List.forall_mem_cons]
      constructor
      · rintro ⟨hhead, htail⟩
        exact ⟨hhead, ih.1 (htail t o hstep)⟩
      · rintro ⟨hhead, htail⟩
        exact ⟨hhead, fun t o _ => ih.2 htail⟩

theorem along_true {s : σ} {es : List ε} : M.Along (fun _ _ => True) s es :=
  along_iff.2 fun _ _ _ _ _ _ _ => trivial

theorem Throughout.last {P : σ → List ο → Prop} {s t : σ} {es : List ε} {os : List ο}
    (h : M.Throughout P s es) (hrun : M.run s es = some (t, os)) : P t os :=
  h es [] t os (by simp) hrun

theorem throughout_nil_iff {P : σ → List ο → Prop} {s : σ} : M.Throughout P s [] ↔ P s [] := by
  constructor
  · intro h
    exact h [] [] s [] rfl rfl
  · intro h pre post t os hsplit hrun
    obtain ⟨rfl, rfl⟩ : pre = [] ∧ post = [] := by simpa using hsplit.symm
    obtain ⟨rfl, rfl⟩ : s = t ∧ [] = os := by simpa using hrun
    exact h

theorem throughout_cons_iff {P : σ → List ο → Prop} {s t : σ} {e : ε} {es : List ε}
    {o : List ο} (hstep : M.step s e = some (t, o)) :
    M.Throughout P s (e :: es) ↔ P s [] ∧ M.Throughout (fun u os => P u (o ++ os)) t es := by
  constructor
  · intro h
    refine ⟨h [] (e :: es) s [] rfl rfl, fun pre post u os hsplit hrun => ?_⟩
    exact h (e :: pre) post u (o ++ os) (by rw [hsplit]; rfl)
      (run_cons_iff.2 ⟨t, o, os, hstep, hrun, rfl⟩)
  · rintro ⟨hhead, htail⟩ pre post u os hsplit hrun
    cases pre with
    | nil =>
        obtain ⟨rfl, rfl⟩ : s = u ∧ [] = os := by simpa using hrun
        exact hhead
    | cons p pre =>
        obtain ⟨rfl, hrest⟩ : e = p ∧ es = pre ++ post := by simpa using hsplit
        obtain ⟨t', o', o'', hstep', hrun', rfl⟩ := run_cons_iff.1 hrun
        obtain ⟨rfl, rfl⟩ : t = t' ∧ o = o' := by simpa [hstep] using hstep'
        exact htail pre post u o'' hrest hrun'

/-! ## Invariants -/

/-- An invariant kept by every step that satisfies `G` holds at the end of every
run all of whose steps satisfy `G`.  The observations already made are part of
what the invariant speaks about. -/
theorem Along.invariant {G : σ → ε → Prop} {I : σ → List ο → Prop}
    (hkeep : ∀ s h e t o, I s h → G s e → M.step s e = some (t, o) → I t (h ++ o))
    {s t : σ} {h os : List ο} {es : List ε} (halong : M.Along G s es) (hinit : I s h)
    (hrun : M.run s es = some (t, os)) : I t (h ++ os) := by
  induction es generalizing s h os with
  | nil =>
      obtain ⟨rfl, rfl⟩ : s = t ∧ [] = os := by simpa using hrun
      simpa using hinit
  | cons e es ih =>
      obtain ⟨v, o, o', hstep, hrest, rfl⟩ := run_cons_iff.1 hrun
      have hnext : I v (h ++ o) := hkeep s h e v o hinit halong.1 hstep
      simpa using ih (halong.2 v o hstep) hnext hrest

theorem Along.cons {G : σ → ε → Prop} {s t : σ} {e : ε} {es : List ε} {o : List ο}
    (hhead : G s e) (hstep : M.step s e = some (t, o)) (htail : M.Along G t es) :
    M.Along G s (e :: es) := by
  refine ⟨hhead, fun t' o' hstep' => ?_⟩
  obtain ⟨rfl, -⟩ : t = t' ∧ o = o' := by simpa [hstep] using hstep'
  exact htail

theorem Along.throughout {G : σ → ε → Prop} {I : σ → List ο → Prop}
    (hkeep : ∀ s h e t o, I s h → G s e → M.step s e = some (t, o) → I t (h ++ o))
    {s : σ} {es : List ε} (halong : M.Along G s es) (hinit : I s []) : M.Throughout I s es := by
  intro pre post t os hsplit hrun
  have hpre : M.Along G s pre := by
    refine along_iff.2 fun pre' e post' t' os' hpre' hrun' => ?_
    exact along_iff.1 halong pre' e (post' ++ post) t' os' (by simp [hsplit, hpre']) hrun'
  simpa using hpre.invariant hkeep hinit hrun

theorem invariant {I : σ → List ο → Prop}
    (hkeep : ∀ s h e t o, I s h → M.step s e = some (t, o) → I t (h ++ o))
    {s t : σ} {h os : List ο} {es : List ε} (hinit : I s h)
    (hrun : M.run s es = some (t, os)) : I t (h ++ os) :=
  along_true.invariant (fun s h e t o hI _ => hkeep s h e t o hI) hinit hrun

theorem state_invariant {I : σ → Prop}
    (hkeep : ∀ s e t o, I s → M.step s e = some (t, o) → I t)
    {s t : σ} {os : List ο} {es : List ε} (hinit : I s)
    (hrun : M.run s es = some (t, os)) : I t :=
  invariant (I := fun s _ => I s) (h := [])
    (fun s _ e t o hI hstep => hkeep s e t o hI hstep) hinit hrun

/-- Where a step on an event of `H` keeps `I` exactly if it satisfies `G`, and what
satisfies `G` keeps `A` too, a run of such events keeps `I` exactly if all its steps
satisfy `G`. -/
theorem throughout_iff_along_of {H : ε → Prop} {I A : σ → List ο → Prop} {G : σ → ε → Prop}
    (hblocked : ∀ s e, M.step s e = none → G s e)
    (hstep : ∀ s h e t o, H e → I s h → A s h → M.step s e = some (t, o) →
      (I t (h ++ o) ↔ G s e) ∧ (G s e → A t (h ++ o)))
    {s : σ} {h : List ο} (hI : I s h) (hA : A s h) {es : List ε} (hH : ∀ e ∈ es, H e) :
    M.Throughout (fun t os => I t (h ++ os)) s es ↔ M.Along G s es := by
  induction es generalizing s h with
  | nil =>
      refine iff_of_true (throughout_nil_iff.2 ?_) trivial
      rw [List.append_nil]
      exact hI
  | cons e es ih =>
      have hHrest : ∀ e ∈ es, H e := fun e' he' => hH e' (List.mem_cons_of_mem e he')
      cases hnext : M.step s e with
      | none =>
          refine iff_of_true (fun pre post t os hsplit hrun => ?_)
            ⟨hblocked s e hnext, fun t o h => by simp [hnext] at h⟩
          cases pre with
          | nil =>
              obtain ⟨rfl, rfl⟩ : s = t ∧ [] = os := by simpa using hrun
              rw [List.append_nil]
              exact hI
          | cons p pre =>
              obtain ⟨rfl, -⟩ : e = p ∧ es = pre ++ post := by simpa using hsplit
              obtain ⟨v, o, o', hv, -, -⟩ := run_cons_iff.1 hrun
              simp [hnext] at hv
      | some r =>
          obtain ⟨t, o⟩ := r
          obtain ⟨hkeeps, haux⟩ := hstep s h e t o (hH e List.mem_cons_self) hI hA hnext
          rw [throughout_cons_iff hnext]
          simp only [← List.append_assoc]
          constructor
          · rintro ⟨-, hrest⟩
            have hthen : I t (h ++ o) := by simpa using hrest [] es t [] rfl rfl
            have hgood : G s e := hkeeps.1 hthen
            refine ⟨hgood, fun t' o' h => ?_⟩
            obtain ⟨rfl, rfl⟩ : t = t' ∧ o = o' := by simpa [hnext] using h
            exact (ih hthen (haux hgood) hHrest).1 hrest
          · rintro ⟨hgood, hrest⟩
            refine ⟨?_, (ih (hkeeps.2 hgood) (haux hgood) hHrest).2 (hrest t o hnext)⟩
            rw [List.append_nil]
            exact hI

theorem throughout_iff_along {I A : σ → List ο → Prop} {G : σ → ε → Prop}
    (hblocked : ∀ s e, M.step s e = none → G s e)
    (hstep : ∀ s h e t o, I s h → A s h → M.step s e = some (t, o) →
      (I t (h ++ o) ↔ G s e) ∧ (G s e → A t (h ++ o)))
    {s : σ} {h : List ο} (hI : I s h) (hA : A s h) (es : List ε) :
    M.Throughout (fun t os => I t (h ++ os)) s es ↔ M.Along G s es :=
  throughout_iff_along_of (H := fun _ => True) hblocked
    (fun s h e t o _ => hstep s h e t o) hI hA fun _ _ => trivial

/-! ## Leaving events out -/

/-- Events that emit nothing and keep a relation to some other state may be left out of a
run, if the remaining ones emit the same in related states. -/
theorem run_filter {R : σ → σ → Prop} {G : ε → Prop} {loud : ε → Bool}
    (hquiet : ∀ s t e s' o, R s t → loud e = false → M.step s e = some (s', o) →
      R s' t ∧ o = [])
    (hloud : ∀ s t e s' o, R s t → G e → loud e = true → M.step s e = some (s', o) →
      ∃ t', M.step t e = some (t', o) ∧ R s' t')
    {s t u : σ} {es : List ε} {os : List ο} (hR : R s t) (hG : ∀ e ∈ es, G e)
    (hrun : M.run s es = some (u, os)) :
    ∃ v, M.run t (es.filter loud) = some (v, os) ∧ R u v := by
  induction es generalizing s t os with
  | nil =>
      obtain ⟨rfl, rfl⟩ : s = u ∧ [] = os := by simpa using hrun
      exact ⟨t, rfl, hR⟩
  | cons e es ih =>
      obtain ⟨s', o, o', hstep, hrest, rfl⟩ := run_cons_iff.1 hrun
      have hGrest : ∀ e ∈ es, G e := fun e' he' => hG e' (List.mem_cons_of_mem e he')
      cases hlabel : loud e with
      | false =>
          obtain ⟨hR', rfl⟩ := hquiet s t e s' o hR hlabel hstep
          rw [List.filter_cons_of_neg (by simp [hlabel])]
          exact ih hR' hGrest hrest
      | true =>
          obtain ⟨t', hstep', hR'⟩ := hloud s t e s' o hR (hG e List.mem_cons_self) hlabel hstep
          obtain ⟨v, hrun', hv⟩ := ih hR' hGrest hrest
          rw [List.filter_cons_of_pos hlabel]
          exact ⟨v, run_cons_iff.2 ⟨t', o, o', hstep', hrun', rfl⟩, hv⟩

end Machine

/-! ## What must have been observed before -/

theorem snoc_eq_append_cons {ο : Type*} {os pre post : List ο} {e x : ο}
    (h : os ++ [e] = pre ++ x :: post) :
    (post = [] ∧ os = pre ∧ e = x) ∨ ∃ post', post = post' ++ [e] ∧ os = pre ++ x :: post' := by
  rcases List.eq_nil_or_concat post with rfl | ⟨post', y, rfl⟩
  · obtain ⟨hpre, hx⟩ := List.append_inj' h rfl
    exact Or.inl ⟨rfl, hpre, List.singleton_inj.1 hx⟩
  · rw [List.concat_eq_append] at h ⊢
    rw [← List.cons_append, ← List.append_assoc] at h
    obtain ⟨hos, hy⟩ := List.append_inj' h rfl
    obtain rfl := List.singleton_inj.1 hy
    exact Or.inr ⟨post', rfl, hos⟩

/-- Every `D` in the list comes after an `A`. -/
def PrecededBy {ο : Type*} (D A : ο → Prop) (os : List ο) : Prop :=
  ∀ pre d post, os = pre ++ d :: post → D d → ∃ a ∈ pre, A a

theorem precededBy_nil {ο : Type*} {D A : ο → Prop} : PrecededBy D A ([] : List ο) := by
  intro pre d post hsplit
  simp at hsplit

/-- Once there is an `A`, anything may be appended; before that, what is no `D`. -/
theorem PrecededBy.append {ο : Type*} {D A : ο → Prop} {os o : List ο}
    (h : PrecededBy D A os) (hnew : (∃ d ∈ o, D d) → ∃ a ∈ os, A a) :
    PrecededBy D A (os ++ o) := by
  intro pre d post hsplit hd
  rcases List.append_eq_append_iff.1 hsplit with ⟨mid, rfl, hmid⟩ | ⟨mid, hmid, hpost⟩
  · obtain ⟨a, ha, hA⟩ := hnew ⟨d, by rw [hmid]; simp, hd⟩
    exact ⟨a, List.mem_append_left _ ha, hA⟩
  · cases mid with
    | nil =>
        rw [List.nil_append] at hpost
        obtain ⟨a, ha, hA⟩ := hnew ⟨d, by rw [← hpost]; simp, hd⟩
        exact ⟨a, by simpa [hmid] using ha, hA⟩
    | cons m mid =>
        obtain ⟨rfl, -⟩ : d = m ∧ post = mid ++ o := by simpa using hpost
        exact h pre d mid hmid hd

end NETConnect.Lib
