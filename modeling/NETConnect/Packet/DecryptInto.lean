import NETConnect.Reference
/-!
# Decrypting into an object

`DecryptInto` and `TryDecryptInto` at every target type.  What tells a failure from a
value is `data is not null`, so it matters what the default of the type is.
-/

namespace NETConnect

/-- A target type: its default, and which of its values are null.  The default of a
reference or nullable type is null, and a value type has no null. -/
structure TargetType (T : Type) where
  default : T
  isNull : T → Bool
  default_or : isNull default = true ∨ ∀ v, isNull v = false

namespace TargetType

/-- A class. -/
def reference (T : Type) : TargetType (Option T) := ⟨none, Option.isNone, Or.inl rfl⟩

/-- A struct or an enumeration. -/
def value {T : Type} (default : T) : TargetType T := ⟨default, fun _ => false, Or.inr fun _ => rfl⟩

end TargetType

namespace PacketEncrypted

variable (P : Platform) {T S : Type} (C : TargetType T) (J : JsonSerializer S T)
  (e : PacketEncrypted) (key : Option Bytes)

/-- `DecryptInto<T>(Key)`. -/
def decryptIntoType : Except Exn T := do
  let decryptedData ← toUTF8String (decrypt P e key)
  return (J.isValidJSON decryptedData).getD C.default

/-- `TryDecryptInto<T>(Key, out data)`, with its result and `data`. -/
def tryDecryptIntoType : Except Exn (Bool × T) := do
  let data ← decryptIntoType P C J e key
  return (!C.isNull data, data)

theorem tryDecryptInto_eq (J : JsonSerializer S (Option S)) :
    (tryDecryptIntoType P (.reference S) J e key).map Prod.snd = tryDecryptInto P J e key := by
  unfold tryDecryptIntoType decryptIntoType tryDecryptInto
  cases toUTF8String (decrypt P e key) with
  | error e => rfl
  | ok text =>
      simp only [bind, Except.bind, pure, Except.pure, Except.map]
      cases J.isValidJSON text <;> rfl

/-! ## What there is to return -/

/-- Decryption under the key succeeds, with this plaintext. -/
def Decrypts (plaintext : Bytes) : Prop :=
  e.encryptionType = .rsa ∧
      (∃ data, e.encryptedData = some data ∧ P.rsaDecrypt (key.getD []) data = some plaintext) ∨
    e.encryptionType = .chaCha20Poly1305 ∧
      decryptChaCha P e.encryptedData key e.nonce e.tag = some plaintext

/-- The plaintext is the JSON text of `v`. -/
def Holds (v : T) : Prop :=
  ∃ plaintext, Decrypts P e key plaintext ∧ J.isValidJSONBytes plaintext = some v

/-- There is a value to return exactly if it is returned. -/
structure SucceedsExactly (r : Except Exn (Bool × T)) : Prop where
  success : ∀ v, Holds P J e key v → C.isNull v = false → r = .ok (true, v)
  failure : (¬ ∃ v, Holds P J e key v ∧ C.isNull v = false) → ∃ v, r = .ok (false, v)

/-- ChaCha says that it failed. -/
def ChaChaFails : Prop :=
  e.encryptionType = .chaCha20Poly1305 ∧ decryptChaCha P e.encryptedData key e.nonce e.tag = none

instance : Decidable (ChaChaFails P e key) := inferInstanceAs (Decidable (_ ∧ _))

variable {P C J e key}

theorem decrypt_of_not_decrypts (h : ∀ plaintext, ¬ Decrypts P e key plaintext) :
    decrypt P e key = if ChaChaFails P e key then none else some [] := by
  unfold decrypt
  by_cases hrsa : e.encryptionType = .rsa
  · have hne : PacketEncryptionType.rsa ≠ .chaCha20Poly1305 := by decide
    rw [if_pos hrsa, if_neg fun hfails => hne (hrsa.symm.trans hfails.1), decryptRSA]
    cases hdata : e.encryptedData with
    | none => rfl
    | some data =>
        cases hplain : P.rsaDecrypt (key.getD []) data with
        | none => simp [hplain]
        | some plaintext => exact absurd (Or.inl ⟨hrsa, data, hdata, hplain⟩) (h plaintext)
  · rw [if_neg hrsa]
    by_cases hchacha : e.encryptionType = .chaCha20Poly1305
    · have hnone : decryptChaCha P e.encryptedData key e.nonce e.tag = none := by
        apply Option.eq_none_iff_forall_not_mem.2
        intro plaintext hplain
        exact h plaintext (Or.inr ⟨hchacha, hplain⟩)
      rw [if_pos hchacha, if_pos ⟨hchacha, hnone⟩, hnone]
    · rw [if_neg hchacha, if_neg fun hfails => hchacha hfails.1]

theorem Decrypts.decrypt_eq {plaintext : Bytes} (h : Decrypts P e key plaintext) :
    decrypt P e key = some plaintext := by
  have hne : PacketEncryptionType.chaCha20Poly1305 ≠ .rsa := by decide
  unfold decrypt
  rcases h with ⟨hrsa, data, hdata, hplain⟩ | ⟨hchacha, hplain⟩
  · rw [if_pos hrsa, decryptRSA, hdata, Option.bind_some, hplain]
    rfl
  · rw [if_neg (by rw [hchacha]; exact hne), if_pos hchacha]
    exact hplain

theorem Decrypts.not_chaChaFails {plaintext : Bytes} (h : Decrypts P e key plaintext) :
    ¬ ChaChaFails P e key := by
  rintro ⟨hchacha, hnone⟩
  rcases h with ⟨hrsa, -⟩ | ⟨-, hplain⟩
  · rw [hrsa] at hchacha
    exact absurd hchacha (by decide)
  · rw [hnone] at hplain
    exact absurd hplain (by simp)

theorem decryptIntoType_cases :
    ChaChaFails P e key ∧ decryptIntoType P C J e key = .error .argumentNull ∨
      ¬ ChaChaFails P e key ∧
        ((∃ v, Holds P J e key v ∧ decryptIntoType P C J e key = .ok v) ∨
          (∀ v, ¬ Holds P J e key v) ∧ decryptIntoType P C J e key = .ok C.default) := by
  by_cases hplain : ∃ plaintext, Decrypts P e key plaintext
  · obtain ⟨plaintext, hplain⟩ := hplain
    refine Or.inr ⟨hplain.not_chaChaFails, ?_⟩
    have hunique : ∀ other, Decrypts P e key other → other = plaintext := by
      intro other hother
      exact Option.some.inj (hother.decrypt_eq.symm.trans hplain.decrypt_eq)
    have hinto : decryptIntoType P C J e key =
        .ok ((J.isValidJSONBytes plaintext).getD C.default) := by
      unfold decryptIntoType
      rw [hplain.decrypt_eq]
      rfl
    cases hjson : J.isValidJSONBytes plaintext with
    | some v => exact Or.inl ⟨v, ⟨plaintext, hplain, hjson⟩, by rw [hinto, hjson]; rfl⟩
    | none =>
        refine Or.inr ⟨?_, by rw [hinto, hjson]; rfl⟩
        rintro v ⟨other, hother, hread⟩
        rw [hunique other hother, hjson] at hread
        exact absurd hread (by simp)
  · have hnone : ∀ plaintext, ¬ Decrypts P e key plaintext := not_exists.1 hplain
    have hdecrypt := decrypt_of_not_decrypts hnone
    by_cases hfails : ChaChaFails P e key
    · refine Or.inl ⟨hfails, ?_⟩
      rw [decryptIntoType, hdecrypt, if_pos hfails]
      rfl
    · refine Or.inr ⟨hfails, Or.inr ⟨?_, ?_⟩⟩
      · rintro v ⟨plaintext, hdecrypts, -⟩
        exact hnone plaintext hdecrypts
      · rw [decryptIntoType, hdecrypt, if_neg hfails]
        rfl

/-- The null of a failed ChaCha is handed to `ToUTF8String`. -/
theorem not_succeedsExactly_of_chaChaFails (hfails : ChaChaFails P e key) :
    ¬ SucceedsExactly P C J e key (tryDecryptIntoType P C J e key) := by
  intro h
  rcases @decryptIntoType_cases P T S C J e key with ⟨-, hthrows⟩ | ⟨hopens, -⟩
  · rw [tryDecryptIntoType, hthrows] at h
    obtain ⟨v, hv⟩ := h.failure fun ⟨_, ⟨_, hplain, _⟩, _⟩ =>
      hplain.not_chaChaFails hfails
    exact absurd hv (by simp [bind, Except.bind])
  · exact hopens hfails

/-- `TryDecryptInto` tells success from failure exactly if ChaCha does not fail, and the
default is null or not used. -/
theorem tryDecryptInto_succeedsExactly_iff (P : Platform) {T S : Type} (C : TargetType T)
    (J : JsonSerializer S T) (e : PacketEncrypted) (key : Option Bytes) :
    SucceedsExactly P C J e key (tryDecryptIntoType P C J e key) ↔
      ¬ ChaChaFails P e key ∧ (C.isNull C.default = true ∨ ∃ v, Holds P J e key v) := by
  rcases @decryptIntoType_cases P T S C J e key with
    ⟨hfails, -⟩ | ⟨hopens, ⟨v, hholds, hinto⟩ | ⟨hnothing, hinto⟩⟩
  · exact iff_of_false (not_succeedsExactly_of_chaChaFails hfails) fun h => h.1 hfails
  · rw [tryDecryptIntoType, hinto]
    refine iff_of_true ⟨fun w hw hsome => ?_, fun hnone => ?_⟩ ⟨hopens, Or.inr ⟨v, hholds⟩⟩
    · obtain ⟨plaintext, hplain, hread⟩ := hholds
      obtain ⟨other, hother, hread'⟩ := hw
      obtain rfl := Option.some.inj (hother.decrypt_eq.symm.trans hplain.decrypt_eq)
      obtain rfl := Option.some.inj (hread.symm.trans hread')
      simp [bind, Except.bind, pure, Except.pure, hsome]
    · have hnull : C.isNull v = true := by
        by_contra hsome
        exact hnone ⟨v, hholds, by simpa using hsome⟩
      exact ⟨v, by simp [bind, Except.bind, pure, Except.pure, hnull]⟩
  · rw [tryDecryptIntoType, hinto]
    constructor
    · intro h
      obtain ⟨v, hv⟩ := h.failure fun ⟨v, hholds, _⟩ => hnothing v hholds
      obtain ⟨hnull, -⟩ := Prod.mk.inj (Except.ok.inj hv)
      exact ⟨hopens, Or.inl (by simpa using hnull)⟩
    · rintro ⟨-, hnull | ⟨v, hholds⟩⟩
      · exact ⟨fun v hholds => absurd hholds (hnothing v),
          fun _ => ⟨C.default, by simp [bind, Except.bind, pure, Except.pure, hnull]⟩⟩
      · exact absurd hholds (hnothing v)

/-- An envelope with a forged tag. -/
theorem not_tryDecryptInto_succeedsExactly :
    ¬ ∀ (P : Platform) (T S : Type) (C : TargetType T) (J : JsonSerializer S T)
        (e : PacketEncrypted) (key : Option Bytes),
        SucceedsExactly P C J e key (tryDecryptIntoType P C J e key) := by
  intro halways
  refine not_succeedsExactly_of_chaChaFails ⟨rfl, by decide⟩
    (halways Reference.reference _ _ (.reference PacketAuthentication)
      Reference.reference.packetAuthentication
      { encryptedData := some [7], nonce := some (List.replicate 12 0)
        tag := some (List.replicate 16 0), encryptionType := .chaCha20Poly1305 }
      (some (List.replicate 32 7)))

end PacketEncrypted

end NETConnect
