import Mathlib.Data.List.Basic
/-!
# `Event`

A list of listeners, each a `std::function<void(Args...)>`.  A callable is compared by
its type and by the address that `target<void(*)(Args...)>()` returns, which is where
the `std::function` keeps the callable.
-/

namespace NETConnect.CPlusConnectApp

/-- The type of a function pointer that a `Callback` can wrap: `void(*)(Args...)`, or
another one that can be called with `Args`. -/
inductive PointerType
  | own
  | other (signature : Nat)
  deriving DecidableEq, Repr

/-- `none` is the null pointer. -/
structure FunctionPointer where
  type : PointerType
  function : Option Nat
  deriving DecidableEq, Repr

/-- `target_type()`; every lambda has a type of its own, the one in `Subscribe<T>` too. -/
inductive TypeInfo
  | void
  | functionPointer (type : PointerType)
  | subscribed (cls : Nat)
  | lambda (closure : Nat)
  deriving DecidableEq, Repr

/-- A `std::function`, as what it wraps. -/
inductive Callback
  | empty
  | functionPointer (type : PointerType) (function : Nat)
  | subscribed (cls : Nat) (object : Nat) (memberFunction : Nat)
  | lambda (closure : Nat) (captures : List Nat)
  deriving DecidableEq, Repr

/-- Where a `std::function` is: in the vector of the listeners, or a parameter. -/
inductive Location
  | listener (index : Nat)
  | parameter
  deriving DecidableEq, Repr

namespace Callback

/-- The conversion of a function pointer; nothing is wrapped for the null pointer. -/
def ofPointer (pointer : FunctionPointer) : Callback :=
  match pointer.function with
  | none => empty
  | some function => functionPointer pointer.type function

def targetType : Callback → TypeInfo
  | empty => .void
  | functionPointer type _ => .functionPointer type
  | subscribed cls _ _ => .subscribed cls
  | lambda closure _ => .lambda closure

/-- `target<void(*)(Args...)>()`: the address of the copy that is kept in the
`std::function` itself; `none` is the null pointer, for all other types. -/
def target (f : Callback) (location : Location) : Option Location :=
  if f.targetType = .functionPointer .own then some location else none

end Callback

namespace Event

/-- `operator+=`. -/
def plusAssign (listeners : List Callback) (cb : Callback) : List Callback := listeners ++ [cb]

def subscribe (listeners : List Callback) (cls object memberFunction : Nat) : List Callback :=
  listeners ++ [.subscribed cls object memberFunction]

/-- The predicate of `operator-=`. -/
def isRemoved (cb f : Callback) (index : Nat) : Bool :=
  f.targetType = cb.targetType && f.target (.listener index) = cb.target .parameter

/-- `operator-=`. -/
def minusAssign (listeners : List Callback) (cb : Callback) : List Callback :=
  (listeners.zipIdx.filter fun p => !isRemoved cb p.1 p.2).map Prod.fst

/-- Exactly the listeners that wrap the same callable are gone. -/
def RemovesExactly (listeners : List Callback) (cb : Callback) : Prop :=
  minusAssign listeners cb = listeners.filter (· ≠ cb)

/-! ## What is removed -/

/-- A pointer of the event's own type is never found: the listener keeps a copy of its
own.  Of any other type, all callables are taken for the same. -/
theorem isRemoved_iff {cb f : Callback} {index : Nat} :
    isRemoved cb f index = true ↔
      f.targetType = cb.targetType ∧ cb.targetType ≠ .functionPointer .own := by
  rw [isRemoved, Bool.and_eq_true, decide_eq_true_iff, decide_eq_true_iff]
  refine and_congr_right fun htype => ?_
  rw [Callback.target, Callback.target, htype]
  split
  · next hown => simp [hown]
  · next hother => simp [hother]

theorem minusAssign_eq (listeners : List Callback) (cb : Callback) :
    minusAssign listeners cb = listeners.filter fun f =>
      ¬ (f.targetType = cb.targetType ∧ cb.targetType ≠ .functionPointer .own) := by
  let kept (f : Callback) : Bool :=
    ¬ (f.targetType = cb.targetType ∧ cb.targetType ≠ .functionPointer .own)
  have hkept : (fun p : Callback × Nat => !isRemoved cb p.1 p.2) = kept ∘ Prod.fst := by
    funext p
    rw [Function.comp_apply, Bool.eq_iff_iff, Bool.not_eq_true', ← Bool.not_eq_true,
      isRemoved_iff, decide_eq_true_iff]
  rw [minusAssign, hkept, ← List.filter_map, List.zipIdx_map_fst]

theorem filter_eq_filter_iff {α : Type*} {p q : α → Bool} {l : List α} :
    l.filter p = l.filter q ↔ ∀ a ∈ l, p a = q a := by
  refine ⟨fun h a ha => ?_, List.filter_congr⟩
  have hmem : a ∈ l.filter p ↔ a ∈ l.filter q := by rw [h]
  rw [List.mem_filter, List.mem_filter] at hmem
  exact Bool.eq_iff_iff.2 (by simpa [ha] using hmem)

theorem removesExactly_iff_forall {listeners : List Callback} {cb : Callback} :
    RemovesExactly listeners cb ↔ ∀ f ∈ listeners,
      (f.targetType = cb.targetType ∧ cb.targetType ≠ .functionPointer .own ↔ f = cb) := by
  rw [RemovesExactly, minusAssign_eq, filter_eq_filter_iff]
  refine forall₂_congr fun f _ => ?_
  rw [Bool.eq_iff_iff, decide_eq_true_iff, decide_eq_true_iff, ne_eq, not_iff_not]

/-- The null pointer wraps nothing, a pointer of the event's own type stays, and one of
another type takes all of its type along. -/
theorem removesExactly_iff (listeners : List Callback) (pointer : FunctionPointer) :
    RemovesExactly listeners (.ofPointer pointer) ↔
      pointer.function = none ∨
        pointer.type = .own ∧ Callback.ofPointer pointer ∉ listeners ∨
        pointer.type ≠ .own ∧ ∀ f ∈ listeners,
          f.targetType = .functionPointer pointer.type → f = .ofPointer pointer := by
  obtain ⟨type, function⟩ := pointer
  rw [removesExactly_iff_forall]
  cases function with
  | none =>
      refine iff_of_true (fun f _ => ?_) (Or.inl rfl)
      cases f <;> simp [Callback.ofPointer, Callback.targetType]
  | some function =>
      have htype : (Callback.ofPointer ⟨type, some function⟩).targetType = .functionPointer type :=
        rfl
      rw [htype]
      cases type with
      | own =>
          -- nothing is removed
          simp only [ne_eq, not_true_eq_false, and_false, false_iff, false_and, or_false, true_and,
            reduceCtorEq, false_or]
          exact ⟨fun h hmem => h _ hmem rfl, fun h f hf heq => h (heq ▸ hf)⟩
      | other signature =>
          -- everything of the type is
          simp only [ne_eq, reduceCtorEq, not_false_eq_true, and_true, false_and, true_and,
            false_or, TypeInfo.functionPointer.injEq]
          refine forall₂_congr fun f _ => ⟨Iff.mp, fun h => ⟨h, ?_⟩⟩
          rintro rfl
          exact htype

theorem minusAssign_plusAssign_iff {listeners : List Callback} {cb : Callback}
    (hnew : cb ∉ listeners) :
    minusAssign (plusAssign listeners cb) cb = listeners ↔
      RemovesExactly (plusAssign listeners cb) cb := by
  have hrest : (plusAssign listeners cb).filter (· ≠ cb) = listeners := by
    have hkept : ∀ f ∈ listeners, decide (f ≠ cb) = true := by
      intro f hf
      exact decide_eq_true fun heq => hnew (heq ▸ hf)
    rw [plusAssign, List.filter_append, List.filter_eq_self.2 hkept]
    simp
  rw [RemovesExactly, hrest]

/-- A listener is added and stays. -/
theorem not_removesExactly :
    ¬ ∀ (listeners : List Callback) (pointer : FunctionPointer),
        RemovesExactly listeners (.ofPointer pointer) := by
  intro halways
  have hremoves := halways (plusAssign [] (.ofPointer ⟨.own, some 1⟩)) ⟨.own, some 1⟩
  rw [RemovesExactly] at hremoves
  exact absurd hremoves (by decide)

end Event

end NETConnect.CPlusConnectApp
