import Mathlib.Order.WellFounded
import NETConnect.Lib.Machine
/-!
# Progress

Endless runs, and what must happen on them.  Several agents take turns in any order; a
fair run lets none of them wait for ever that could go on.

* `Path`, an endless run, and the one that a finite run begins;
* `Path.Fair.eventually`, the rule of the ranked assertions: each names the agent it
  waits for, which brings the run to a lower one;
* `Clear` and `Pending`, a channel with at most one message that matters.
-/

namespace NETConnect.Lib

variable {σ ε ο : Type*}

theorem Machine.chosen_of_play {M : Machine σ ε ο} {s t : σ} {schedule : List (σ → ε)}
    {es : List ε} {os : List ο} (h : M.play s schedule = some (es, t, os)) :
    List.Forall₂ (fun choose e => ∃ s, e = choose s) schedule es := by
  induction schedule generalizing s es os with
  | nil =>
      obtain ⟨rfl, -, -⟩ : [] = es ∧ s = t ∧ [] = os := by simpa [play] using h
      exact .nil
  | cons choose rest ih =>
      obtain ⟨⟨u, o⟩, -, h⟩ := Option.bind_eq_some_iff.1 h
      obtain ⟨⟨es', t', os'⟩, hplay, hr⟩ := Option.map_eq_some_iff.1 h
      obtain ⟨rfl, rfl, -⟩ : choose s :: es' = es ∧ t' = t ∧ o ++ os' = os := by simpa using hr
      exact .cons ⟨s, rfl⟩ (ih hplay)

theorem Machine.forall_of_play {M : Machine σ ε ο} {G : ε → Prop} {s t : σ}
    {schedule : List (σ → ε)} {es : List ε} {os : List ο}
    (h : M.play s schedule = some (es, t, os)) (hG : ∀ choose ∈ schedule, ∀ s, G (choose s)) :
    ∀ e ∈ es, G e := by
  have hchosen := M.chosen_of_play h
  clear h
  induction hchosen with
  | nil => simp
  | cons hhere _ ih =>
      obtain ⟨hhead, htail⟩ := List.forall_mem_cons.1 hG
      obtain ⟨s, rfl⟩ := hhere
      exact List.forall_mem_cons.2 ⟨hhead s, ih htail⟩

theorem Machine.flatMap_of_play {ρ : Type*} {M : Machine σ ε ο} {f : ε → List ρ}
    {s t : σ} {schedule : List (σ → ε)} {es : List ε} {os : List ο}
    (h : M.play s schedule = some (es, t, os)) (s₀ : σ)
    (hf : ∀ choose ∈ schedule, ∀ s, f (choose s) = f (choose s₀)) :
    es.flatMap f = schedule.flatMap fun choose => f (choose s₀) := by
  have hchosen := M.chosen_of_play h
  clear h
  induction hchosen with
  | nil => rfl
  | cons hhere _ ih =>
      obtain ⟨hhead, htail⟩ := List.forall_mem_cons.1 hf
      obtain ⟨s, rfl⟩ := hhere
      rw [List.flatMap_cons, List.flatMap_cons, hhead, ih htail]

theorem Machine.play_append {M : Machine σ ε ο} {s t u : σ} {schedule schedule' : List (σ → ε)}
    {es es' : List ε} {os os' : List ο} (h : M.play s schedule = some (es, t, os))
    (h' : M.play t schedule' = some (es', u, os')) :
    M.play s (schedule ++ schedule') = some (es ++ es', u, os ++ os') := by
  induction schedule generalizing s es os with
  | nil =>
      obtain ⟨rfl, rfl, rfl⟩ : [] = es ∧ s = t ∧ [] = os := by simpa [play] using h
      exact h'
  | cons choose rest ih =>
      obtain ⟨⟨v, o⟩, hstep, h⟩ := Option.bind_eq_some_iff.1 h
      obtain ⟨⟨es'', t', os''⟩, hplay, hr⟩ := Option.map_eq_some_iff.1 h
      obtain ⟨rfl, rfl, rfl⟩ : choose s :: es'' = es ∧ t' = t ∧ o ++ os'' = os := by simpa using hr
      rw [List.cons_append, play, hstep, Option.bind_some, ih hplay, Option.map_some,
        List.append_assoc]
      rfl

/-- An endless run. -/
structure Path (M : Machine σ ε ο) where
  state : ℕ → σ
  event : ℕ → ε
  emitted : ℕ → List ο
  next : ∀ n, M.step (state n) (event n) = some (state (n + 1), emitted n)

namespace Path

variable {M : Machine σ ε ο}

theorem invariant {I : σ → Prop} {G : ε → Prop} (p : Path M)
    (hkeep : ∀ s e t o, I s → G e → M.step s e = some (t, o) → I t)
    (hgood : ∀ n, G (p.event n)) {m n : ℕ} (hle : m ≤ n) (hinit : I (p.state m)) :
    I (p.state n) := by
  induction n, hle using Nat.le_induction with
  | base => exact hinit
  | succ n _ ih => exact hkeep _ _ _ _ ih (hgood n) (p.next n)

/-- One more element before a sequence. -/
def startWith {β : Type*} (x : β) (xs : ℕ → β) : ℕ → β
  | 0 => x
  | n + 1 => xs n

theorem exists_of_run {s t : σ} {es : List ε} {os : List ο} (hrun : M.run s es = some (t, os))
    {e : ε} {o : List ο} (hidle : M.step t e = some (t, o)) :
    ∃ p : Path M, p.state 0 = s ∧ (∀ n, es.length ≤ n → p.state n = t) ∧
      ∀ n, p.event n ∈ es ∨ p.event n = e := by
  induction es generalizing s os with
  | nil =>
      obtain ⟨rfl, rfl⟩ : s = t ∧ [] = os := by simpa using hrun
      exact ⟨⟨fun _ => s, fun _ => e, fun _ => o, fun _ => hidle⟩, rfl, fun _ _ => rfl,
        fun _ => Or.inr rfl⟩
  | cons e' es ih =>
      obtain ⟨u, o', os', hstep, hrest, -⟩ := Machine.run_cons_iff.1 hrun
      obtain ⟨p, hfirst, hlast, hevents⟩ := ih hrest
      refine ⟨⟨startWith s p.state, startWith e' p.event, startWith o' p.emitted, ?_⟩, rfl, ?_, ?_⟩
      · rintro (_ | n)
        · simp only [startWith, hfirst]
          exact hstep
        · exact p.next n
      · rintro (_ | n) hn
        · simp at hn
        · exact hlast n (by simpa using hn)
      · rintro (_ | n)
        · exact Or.inl List.mem_cons_self
        · exact (hevents n).imp_left (List.mem_cons_of_mem e')

/-- An agent that can go on from some time on does so at some time after it. -/
def Fair {ι : Type*} (p : Path M) (canGoOn : ι → σ → Prop) (goesOn : ι → σ → ε → Prop) : Prop :=
  ∀ i n, (∀ m, n ≤ m → canGoOn i (p.state m)) → ∃ m, n ≤ m ∧ goesOn i (p.state m) (p.event m)

/-- Of the assertions, one for each rank, each holds until a lower one does or the goal is
reached, and cannot outlast a step of the agent it waits for. -/
theorem Fair.eventually {ι α : Type*} [Preorder α] [WellFoundedLT α] {p : Path M}
    {canGoOn : ι → σ → Prop} {goesOn : ι → σ → ε → Prop} (hfair : p.Fair canGoOn goesOn)
    (At : α → σ → Prop) (Goal : σ → Prop) (agent : α → ι)
    (hcan : ∀ a s, At a s → Goal s ∨ canGoOn (agent a) s)
    (hstep : ∀ n a, At a (p.state n) → Goal (p.state n) ∨ (∃ b < a, At b (p.state (n + 1))) ∨
      At a (p.state (n + 1)) ∧ ¬ goesOn (agent a) (p.state n) (p.event n))
    {a : α} {n : ℕ} (h : At a (p.state n)) : ∃ m, n ≤ m ∧ Goal (p.state m) := by
  induction a using WellFoundedLT.induction generalizing n with
  | ind a ih =>
      by_contra! hnever
      have hstay : ∀ m, n ≤ m → At a (p.state m) ∧ ¬ goesOn (agent a) (p.state m) (p.event m) := by
        have hkeep : ∀ m, n ≤ m → At a (p.state m) →
            At a (p.state (m + 1)) ∧ ¬ goesOn (agent a) (p.state m) (p.event m) := by
          intro m hm hat
          rcases hstep m a hat with hgoal | ⟨b, hlt, hb⟩ | hsame
          · exact absurd hgoal (hnever m hm)
          · obtain ⟨k, hk, hgoal⟩ := ih b hlt hb
            exact absurd hgoal (hnever k (by omega))
          · exact hsame
        intro m hm
        have hat : At a (p.state m) := by
          induction m, hm using Nat.le_induction with
          | base => exact h
          | succ m hm ihm => exact (hkeep m hm ihm).1
        exact ⟨hat, (hkeep m hm hat).2⟩
      obtain ⟨m, hm, hgoes⟩ := hfair (agent a) n fun m hm =>
        (hcan a _ (hstay m hm).1).resolve_left (hnever m hm)
      exact (hstay m hm).2 hgoes

end Path

/-! ## Channels -/

section Channel

variable {α : Type*} (p : α → Prop)

/-- Nothing in the channel matters. -/
def Clear (channel : List α) : Prop := ∀ x ∈ channel, ¬ p x

/-- Only `x` matters, and `ahead` others come before it. -/
def Pending (x : α) (ahead : ℕ) (channel : List α) : Prop :=
  ∃ front back, channel = front ++ x :: back ∧ front.length = ahead ∧ Clear p front ∧
    Clear p back

variable {p} {x y : α} {ahead : ℕ} {channel more : List α}

theorem Clear.append (h : Clear p channel) (hmore : Clear p more) : Clear p (channel ++ more) :=
  fun y hy => (List.mem_append.1 hy).elim (h y) (hmore y)

theorem Clear.of_subset (h : Clear p channel) (hsub : ∀ y ∈ more, y ∈ channel) : Clear p more :=
  fun y hy => h y (hsub y hy)

theorem Clear.push (h : Clear p channel) (x : α) :
    Pending p x channel.length (channel ++ [x]) :=
  ⟨channel, [], rfl, rfl, h, fun y hy => by simp at hy⟩

theorem Pending.append (h : Pending p x ahead channel) (hmore : Clear p more) :
    Pending p x ahead (channel ++ more) := by
  obtain ⟨front, back, rfl, hahead, hfront, hback⟩ := h
  exact ⟨front, back ++ more, by simp, hahead, hfront, hback.append hmore⟩

theorem Pending.read (h : Pending p x ahead (y :: channel)) :
    x = y ∧ Clear p channel ∨ ¬ p y ∧ ∃ m < ahead, Pending p x m channel := by
  obtain ⟨front, back, hsplit, rfl, hfront, hback⟩ := h
  cases front with
  | nil =>
      obtain ⟨rfl, rfl⟩ := List.cons.inj hsplit
      exact Or.inl ⟨rfl, hback⟩
  | cons z front =>
      obtain ⟨rfl, rfl⟩ := List.cons.inj hsplit
      refine Or.inr ⟨hfront y List.mem_cons_self, front.length, by simp, front, back, rfl, rfl, ?_,
        hback⟩
      exact fun z hz => hfront z (List.mem_cons_of_mem y hz)

theorem Pending.ne_nil (h : Pending p x ahead channel) : channel ≠ [] := by
  obtain ⟨front, back, rfl, -⟩ := h
  simp

end Channel

end NETConnect.Lib
