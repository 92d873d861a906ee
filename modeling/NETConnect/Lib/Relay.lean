import NETConnect.Lib.Machine
/-!
# Relays

A relay is a machine that is driven in rounds and is to hand on what each round
brings, once and in order.  Two things can stop it: a round may be lost before
anything is handed on, and handing on may upset the machine, which then does nothing
more.  It hands everything on exactly if neither happens too early.
-/

namespace NETConnect.Lib

namespace Machine

variable {σ ε ο : Type*} (M : Machine σ ε ο)

/-- The observations made on the way through a list of events, as far as it can be
taken. -/
def trace : σ → List ε → List ο
  | _, [] => []
  | s, e :: es =>
      match M.step s e with
      | none => []
      | some (t, o) => o ++ trace t es

variable {M} {s t : σ} {e : ε} {es es' : List ε} {o : List ο}

theorem trace_cons_of_none (h : M.step s e = none) : M.trace s (e :: es) = [] := by
  simp only [trace, h]

theorem trace_cons_of_some (h : M.step s e = some (t, o)) :
    M.trace s (e :: es) = o ++ M.trace t es := by
  simp only [trace, h]

theorem trace_append_of_run (h : M.run s es = some (t, o)) :
    M.trace s (es ++ es') = o ++ M.trace t es' := by
  induction es generalizing s o with
  | nil =>
      obtain ⟨rfl, rfl⟩ := Prod.mk.inj (Option.some.inj h)
      rfl
  | cons e es ih =>
      obtain ⟨u, p, q, hstep, hrest, rfl⟩ := run_cons_iff.1 h
      rw [List.cons_append, trace_cons_of_some hstep, ih hrest, List.append_assoc]

end Machine

/-- A way to drive a machine in rounds: the events of a round, what it brings, and
which observations count as handing on. -/
structure Relay {σ ε ο : Type*} (M : Machine σ ε ο) (ρ δ : Type*) where
  events : ρ → List ε
  brings : ρ → Option δ
  handsOn : ο → Option δ
  Alive : σ → Prop
  Lost : σ → ρ → Prop
  Upset : σ → ρ → Prop
  /-- An undisturbed round hands on what it brings, and the relay stays alive. -/
  round : ∀ {s r}, Alive s → ¬ Lost s r → (brings r ≠ none → ¬ Upset s r) →
    ∃ t o, M.run s (events r) = some (t, o) ∧ o.filterMap handsOn = (brings r).toList ∧ Alive t
  lost : ∀ {s r}, Alive s → Lost s r → ∀ es,
    (M.trace s (events r ++ es)).filterMap handsOn = []
  upset : ∀ {s r}, Alive s → ¬ Lost s r → brings r ≠ none → Upset s r → ∀ es,
    (M.trace s (events r ++ es)).filterMap handsOn = (brings r).toList

namespace Relay

variable {σ ε ο ρ δ : Type*} {M : Machine σ ε ο} (R : Relay M ρ δ)

/-- What is handed on in the rounds. -/
def handedOn (s : σ) (rs : List ρ) : List δ :=
  (M.trace s (rs.flatMap R.events)).filterMap R.handsOn

/-- As long as there is something to come no round is lost, and nobody is upset by
anything but the last that comes. -/
def Undisturbed (s : σ) (rs : List ρ) : Prop :=
  ∀ pre r post t os, rs = pre ++ r :: post → M.run s (pre.flatMap R.events) = some (t, os) →
    (r :: post).filterMap R.brings ≠ [] →
      ¬ R.Lost t r ∧ (post.filterMap R.brings ≠ [] → R.brings r ≠ none → ¬ R.Upset t r)

variable {R} {s t : σ} {r : ρ} {rs : List ρ} {o : List ο}

theorem undisturbed_of_nothing (h : rs.filterMap R.brings = []) : R.Undisturbed s rs := by
  rintro pre r post t os rfl - hsome
  rw [List.filterMap_append, List.append_eq_nil_iff] at h
  exact absurd h.2 hsome

theorem undisturbed_of_last (hlost : ¬ R.Lost s r) (h : rs.filterMap R.brings = []) :
    R.Undisturbed s (r :: rs) := by
  intro pre r' post t os hsplit hrun hsome
  cases pre with
  | nil =>
      obtain ⟨rfl, rfl⟩ := List.cons.inj hsplit
      obtain ⟨rfl, -⟩ := Prod.mk.inj (Option.some.inj hrun)
      exact ⟨hlost, fun hmore => absurd h hmore⟩
  | cons p pre =>
      have hrest : rs = pre ++ r' :: post := (List.cons.inj hsplit).2
      rw [hrest, List.filterMap_append, List.append_eq_nil_iff] at h
      exact absurd h.2 hsome

theorem undisturbed_cons_iff (hrun : M.run s (R.events r) = some (t, o)) (hlost : ¬ R.Lost s r)
    (hupset : R.brings r ≠ none → ¬ R.Upset s r) :
    R.Undisturbed s (r :: rs) ↔ R.Undisturbed t rs := by
  constructor
  · intro h pre r' post u os hsplit hpre
    apply h (r :: pre) r' post u (o ++ os) (by rw [hsplit]; rfl)
    rw [List.flatMap_cons]
    exact Machine.run_append_iff.2 ⟨t, o, os, hrun, hpre, rfl⟩
  · intro h pre r' post u os hsplit hpre hsome
    cases pre with
    | nil =>
        obtain ⟨rfl, rfl⟩ := List.cons.inj hsplit
        obtain ⟨rfl, -⟩ := Prod.mk.inj (Option.some.inj hpre)
        exact ⟨hlost, fun _ => hupset⟩
    | cons p pre =>
        obtain ⟨rfl, hrest⟩ := List.cons.inj hsplit
        rw [List.flatMap_cons] at hpre
        obtain ⟨v, p, q, hfirst, hlater, rfl⟩ := Machine.run_append_iff.1 hpre
        obtain ⟨rfl, rfl⟩ := Prod.mk.inj (Option.some.inj (hrun.symm.trans hfirst))
        exact h pre r' post u q hrest hlater hsome

/-- Everything is handed on, once and in order, exactly if the rounds are undisturbed. -/
theorem handedOn_eq_iff (halive : R.Alive s) :
    R.handedOn s rs = rs.filterMap R.brings ↔ R.Undisturbed s rs := by
  induction rs generalizing s with
  | nil => exact iff_of_true rfl (undisturbed_of_nothing rfl)
  | cons r rs ih =>
      unfold handedOn
      rw [List.flatMap_cons]
      by_cases hlost : R.Lost s r
      · -- what comes in this round or later is not handed on
        rw [R.lost halive hlost]
        constructor
        · exact fun h => undisturbed_of_nothing h.symm
        · intro h
          by_contra hsome
          exact (h [] r rs s [] rfl rfl (Ne.symm hsome)).1 hlost
      by_cases hupset : R.brings r ≠ none ∧ R.Upset s r
      · -- this is the last that is handed on
        obtain ⟨hbrings, hupset⟩ := hupset
        obtain ⟨d, hd⟩ := Option.ne_none_iff_exists'.1 hbrings
        rw [R.upset halive hlost hbrings hupset, List.filterMap_cons_some hd, hd]
        constructor
        · intro h
          exact undisturbed_of_last hlost (List.cons.inj h).2.symm
        · intro h
          by_contra hmore
          have hrest : rs.filterMap R.brings ≠ [] := fun hnil => hmore (by rw [hnil]; rfl)
          exact (h [] r rs s [] rfl rfl (by simp [hd])).2 hrest hbrings hupset
      · have hcalm : R.brings r ≠ none → ¬ R.Upset s r := fun hbrings h => hupset ⟨hbrings, h⟩
        obtain ⟨t, o, hrun, hhanded, halive'⟩ := R.round halive hlost hcalm
        rw [Machine.trace_append_of_run hrun, List.filterMap_append, hhanded,
          undisturbed_cons_iff hrun hlost hcalm, ← ih halive']
        cases hd : R.brings r with
        | none => rw [List.filterMap_cons_none hd]; rfl
        | some d =>
            rw [List.filterMap_cons_some hd]
            exact ⟨fun h => (List.cons.inj h).2, fun h => congrArg (d :: ·) h⟩

end Relay

end NETConnect.Lib
