import Mathlib.Data.Fin.VecNotation
import NETConnect.Reference
/-!
# `PacketHMAC`

A packet with a MAC over its own JSON text.  Arrays are references, and `==` compares
these, so the arrays are kept on a heap: `Fin n` are the references to the `n` arrays
there are, and `Fin.castSucc` keeps them when one more is made.
-/

namespace NETConnect

open Lib TextCodec

/-- The content of every array. -/
abbrev Heap (n : Nat) := Fin n → Bytes

structure PacketHMAC (n : Nat) where
  data : Option (Fin n) := none
  nonce : Option (Fin n) := none
  tag : Option (Fin n) := none
  hmac : Option (Fin n) := none
  deriving DecidableEq, Repr

namespace PacketHMAC

/-- What is serialised. -/
structure Contents where
  data : Option Bytes
  nonce : Option Bytes
  tag : Option Bytes
  hmac : Option Bytes
  deriving DecidableEq, Repr

variable {n : Nat}

def contents (heap : Heap n) (p : PacketHMAC n) : Contents :=
  ⟨p.data.map heap, p.nonce.map heap, p.tag.map heap, p.hmac.map heap⟩

/-- The same packet when there is one more array. -/
def lift (p : PacketHMAC n) : PacketHMAC (n + 1) :=
  ⟨p.data.map Fin.castSucc, p.nonce.map Fin.castSucc, p.tag.map Fin.castSucc,
    p.hmac.map Fin.castSucc⟩

section

variable (J : JsonSerializer Contents (Option Contents)) (hmacSHA256 : Bytes → Bytes → Bytes)

/-- The bytes that `ComputeHMAC` returns, in a new array. -/
def computeHash (key : Bytes) (c : Contents) : Bytes := hmacSHA256 key (toUTF8Byte (J.toJSON c))

/-- `ComputeHMAC(Key)`. -/
def computeHMAC (heap : Heap n) (p : PacketHMAC n) (key : Bytes) : Heap (n + 1) × Fin (n + 1) :=
  (Fin.snoc (α := fun _ => Bytes) heap (computeHash J hmacSHA256 key (p.contents heap)),
    Fin.last n)

/-- `PacketHMAC(byte[] Key, data, nonce, tag)`. -/
def create (heap : Heap n) (key : Bytes) (data nonce tag : Option (Fin n)) :
    Heap (n + 1) × PacketHMAC (n + 1) :=
  let p : PacketHMAC n := { data, nonce, tag }
  let (heap', hash) := computeHMAC J hmacSHA256 heap p key
  (heap', { p.lift with hmac := some hash })

/-- `PacketHMAC(string Key, data, nonce, tag)`. -/
def createText (heap : Heap n) (key : String) (data nonce tag : Option (Fin n)) :
    Heap (n + 1) × PacketHMAC (n + 1) :=
  create J hmacSHA256 heap (toUTF8Byte key) data nonce tag

/-- `IsVerifiedHMAC(Key)`. -/
def isVerifiedHMAC (heap : Heap n) (p : PacketHMAC n) (key : Bytes) : Bool :=
  p.lift.hmac = some (computeHMAC J hmacSHA256 heap p key).2

/-- A new object from the text of a packet; its arrays are new too. -/
def copyJSON (heap : Heap n) (p : PacketHMAC n) : Option (Option (Heap 4 × PacketHMAC 4)) :=
  (J.isValidJSON (J.toJSON (p.contents heap))).map fun copy => copy.map fun c =>
    (![c.data.getD [], c.nonce.getD [], c.tag.getD [], c.hmac.getD []],
      ⟨c.data.map fun _ => 0, c.nonce.map fun _ => 1, c.tag.map fun _ => 2, c.hmac.map fun _ => 3⟩)

/-- The content is that of a packet which the constructor built with the key. -/
def Untampered (heap : Heap n) (p : PacketHMAC n) (key : Bytes) : Prop :=
  ∃ (m : Nat) (built : Heap m) (data nonce tag : Option (Fin m)),
    p.contents heap =
      (create J hmacSHA256 built key data nonce tag).2.contents
        (create J hmacSHA256 built key data nonce tag).1

/-- The packet is verified exactly if it is untampered. -/
def VerifiesExactly (heap : Heap n) (p : PacketHMAC n) (key : Bytes) : Prop :=
  isVerifiedHMAC J hmacSHA256 heap p key = true ↔ Untampered J hmacSHA256 heap p key

end

/-! ## References -/

variable {J : JsonSerializer Contents (Option Contents)} {hmacSHA256 : Bytes → Bytes → Bytes}

theorem contents_lift (heap : Heap n) (array : Bytes) (p : PacketHMAC n) :
    p.lift.contents (Fin.snoc (α := fun _ => Bytes) heap array) = p.contents heap := by
  have hkept : Fin.snoc (α := fun _ => Bytes) heap array ∘ Fin.castSucc = heap :=
    funext fun i => Fin.snoc_castSucc _ _ i
  simp only [contents, lift, Option.map_map, hkept]

theorem contents_create (heap : Heap n) (key : Bytes) (data nonce tag : Option (Fin n)) :
    (create J hmacSHA256 heap key data nonce tag).2.contents
        (create J hmacSHA256 heap key data nonce tag).1 =
      ⟨data.map heap, nonce.map heap, tag.map heap,
        some (computeHash J hmacSHA256 key
          ⟨data.map heap, nonce.map heap, tag.map heap, none⟩)⟩ := by
  let p : PacketHMAC n := { data, nonce, tag }
  have hfields := contents_lift heap (computeHash J hmacSHA256 key (p.contents heap)) p
  simp only [contents, Contents.mk.injEq] at hfields ⊢
  obtain ⟨hdata, hnonce, htag, -⟩ := hfields
  refine ⟨hdata, hnonce, htag, ?_⟩
  exact congrArg some (Fin.snoc_last (α := fun _ => Bytes) _ heap)

theorem untampered_create (heap : Heap n) (key : Bytes) (data nonce tag : Option (Fin n)) :
    Untampered J hmacSHA256 (create J hmacSHA256 heap key data nonce tag).1
      (create J hmacSHA256 heap key data nonce tag).2 key :=
  ⟨n, heap, data, nonce, tag, rfl⟩

theorem contents_copyJSON (hJ : J.RoundTrips) (heap : Heap n) (p : PacketHMAC n) :
    ∃ heap' copy, copyJSON J heap p = some (some (heap', copy)) ∧
      copy.contents heap' = p.contents heap := by
  rw [copyJSON, hJ.isValidJSON_toJSON]
  refine ⟨_, _, rfl, ?_⟩
  generalize p.contents heap = c
  obtain ⟨data, nonce, tag, hmac⟩ := c
  cases data <;> cases nonce <;> cases tag <;> cases hmac <;> rfl

theorem untampered_copyJSON (hJ : J.RoundTrips) {heap : Heap n} {p : PacketHMAC n} {key : Bytes}
    (h : Untampered J hmacSHA256 heap p key) :
    ∃ heap' copy, copyJSON J heap p = some (some (heap', copy)) ∧
      Untampered J hmacSHA256 heap' copy key := by
  obtain ⟨heap', copy, hcopy, hcontents⟩ := contents_copyJSON hJ heap p
  refine ⟨heap', copy, hcopy, ?_⟩
  rw [Untampered, hcontents]
  exact h

/-! ## Verification -/

/-- The new array is none of those the packet can refer to. -/
theorem isVerifiedHMAC_eq_false (heap : Heap n) (p : PacketHMAC n) (key : Bytes) :
    isVerifiedHMAC J hmacSHA256 heap p key = false := by
  rw [isVerifiedHMAC, decide_eq_false_iff_not]
  intro h
  obtain ⟨hash, -, hhash⟩ := Option.map_eq_some_iff.1 h
  exact Fin.castSucc_ne_last hash hhash

/-- A packet is verified exactly as long as it is a tampered one. -/
theorem verifiesExactly_iff (heap : Heap n) (p : PacketHMAC n) (key : Bytes) :
    VerifiesExactly J hmacSHA256 heap p key ↔ ¬ Untampered J hmacSHA256 heap p key := by
  rw [VerifiesExactly, isVerifiedHMAC_eq_false]
  simp

/-- The MACs of different inputs are different. -/
def Distinguishes (hmacSHA256 : Bytes → Bytes → Bytes) : Prop :=
  ∀ key message key' message', hmacSHA256 key message = hmacSHA256 key' message' →
    key = key' ∧ message = message'

theorem computeHash_again_ne (hJ : J.RoundTrips) (hhmac : Distinguishes hmacSHA256) (key : Bytes)
    (c : Contents) :
    computeHash J hmacSHA256 key
        { c with hmac := some (computeHash J hmacSHA256 key { c with hmac := none }) } ≠
      computeHash J hmacSHA256 key { c with hmac := none } := by
  intro h
  have hutf8 := (hhmac _ _ _ _ h).2
  have htext := congrArg getString hutf8
  rw [getString_toUTF8Byte, getString_toUTF8Byte] at htext
  have hread := hJ.isValidJSON_toJSON { c with hmac := none }
  rw [← htext, hJ.isValidJSON_toJSON] at hread
  simp at hread

/-- So comparing contents would not do: what `ComputeHMAC` returns for a packet is not the
MAC it has. -/
theorem hmac_create_ne (hJ : J.RoundTrips) (hhmac : Distinguishes hmacSHA256) (heap : Heap n)
    (key : Bytes) (data nonce tag : Option (Fin n)) :
    let built := create J hmacSHA256 heap key data nonce tag
    (built.2.contents built.1).hmac ≠
      some (computeHash J hmacSHA256 key (built.2.contents built.1)) := by
  intro built h
  have hagain := computeHash_again_ne hJ hhmac key
    ⟨data.map heap, nonce.map heap, tag.map heap, none⟩
  rw [contents_create] at h
  exact hagain (Option.some.inj h).symm

end PacketHMAC

/-! ## A platform to evaluate on -/

namespace Reference

def packetHMAC : TextCodec PacketHMAC.Contents :=
  (pair (after "\x7b\"data\":".toList byteArray)
    (pair (after ",\"nonce\":".toList byteArray)
      (pair (after ",\"tag\":".toList byteArray)
        ((after ",\"HMAC\":".toList byteArray).before "\x7d".toList)))).map
    (fun v => ⟨v.1, v.2.1, v.2.2.1, v.2.2.2⟩)
    (fun c => (c.data, c.nonce, c.tag, c.hmac)) (fun _ => rfl)

theorem packetHMAC_roundTrips : (nullable packetHMAC).RoundTrips :=
  nullable_roundTrips fun _ => ⟨'\x7b', _, rfl, by decide, by decide⟩

/-- Every byte of the key behind a 1, and the message behind a 0. -/
def hmacSHA256 (key message : Bytes) : Bytes := (key.flatMap fun b => [1, b]) ++ 0 :: message

theorem distinguishes_hmacSHA256 : PacketHMAC.Distinguishes hmacSHA256 := by
  intro key message key' message' h
  induction key generalizing key' with
  | nil => cases key' <;> simp_all [hmacSHA256]
  | cons b key ih =>
      cases key' with
      | nil => simp [hmacSHA256] at h
      | cons b' key' =>
          simp only [hmacSHA256, List.flatMap_cons, List.cons_append, List.nil_append,
            List.cons.injEq, true_and] at h
          obtain ⟨rfl, rfl⟩ := ih key' h.2
          exact ⟨by rw [h.1], rfl⟩

end Reference

namespace PacketHMAC

/-- A packet without data is refused right after it was built. -/
theorem not_verifiesExactly :
    ¬ ∀ (J : JsonSerializer Contents (Option Contents)) (hmacSHA256 : Bytes → Bytes → Bytes),
        J.RoundTrips → Distinguishes hmacSHA256 →
          ∀ (n : Nat) (heap : Heap n) (p : PacketHMAC n) (key : Bytes),
            VerifiesExactly J hmacSHA256 heap p key := by
  intro halways
  let built := create (Reference.nullable Reference.packetHMAC) Reference.hmacSHA256
    (n := 0) Fin.elim0 [1] none none none
  have hverified := (halways (Reference.nullable Reference.packetHMAC) Reference.hmacSHA256
    Reference.packetHMAC_roundTrips Reference.distinguishes_hmacSHA256 1 built.1 built.2 [1]).2
    (untampered_create (n := 0) Fin.elim0 [1] none none none)
  rw [isVerifiedHMAC_eq_false] at hverified
  exact Bool.false_ne_true hverified

end PacketHMAC

end NETConnect
