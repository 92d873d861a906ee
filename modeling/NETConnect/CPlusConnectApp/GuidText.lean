import NETConnect.CPlusConnectApp.WellFormed
/-!
# Which texts are the same GUID

The constructor takes thirty-two hexadecimal digits in either case, with hyphens anywhere,
and makes the zero GUID of every other text.  The printer gives the digits back in lower
case.
-/

namespace NETConnect.CPlusConnectApp

open Lib TextCodec Reference

/-- The text without its hyphens. -/
def digitsOf (text : Bytes) : Bytes := text.filter (· ≠ ascii '-')

def Xg.Guid.isValid (guid : Xg.Guid) : Bool := guid ≠ .zero

/-- Sixteen pairs of digits. -/
def IsGuidText (text : Bytes) : Prop :=
  (digitsOf text).length = 32 ∧ ∀ ch ∈ digitsOf text, Xg.isValidHexChar ch = true

instance (text : Bytes) : Decidable (IsGuidText text) := inferInstanceAs (Decidable (_ ∧ _))

def lowerCase (ch : UInt8) : UInt8 :=
  if ascii 'A' ≤ ch ∧ ch ≤ ascii 'F' then ch + 32 else ch

/-- The digits of the GUID that a text stands for. -/
def canonical (text : Bytes) : Bytes :=
  if IsGuidText text then (digitsOf text).map lowerCase else List.replicate 32 (ascii '0')

/-! ## Digits -/

theorem exists_digitValue : ∀ ch : UInt8, Xg.isValidHexChar ch = true →
    ∃ n, n < 16 ∧ hexDigitValue ch = some n ∧ lowerCase ch = ascii (hexDigit n) := by
  have hall : ∀ n : Fin 256, Xg.isValidHexChar (UInt8.ofNat n) = true →
      ∃ m, m < 16 ∧ hexDigitValue (UInt8.ofNat n) = some m ∧
        lowerCase (UInt8.ofNat n) = ascii (hexDigit m) := by
    decide +kernel
  intro ch hvalid
  have h := hall ⟨ch.toNat, ch.toNat_lt⟩
  rw [UInt8.ofNat_toNat] at h
  exact h hvalid

theorem lowerCase_of_value {ch : UInt8} {n : Nat} (h : hexDigitValue ch = some n) :
    n < 16 ∧ lowerCase ch = ascii (hexDigit n) := by
  obtain ⟨m, hm, hvalue, hlower⟩ := exists_digitValue ch (isDigit_of_value h).2.1
  obtain rfl := Option.some.inj (hvalue.symm.trans h)
  exact ⟨hm, hlower⟩

theorem digits_of_values {chars : Bytes} {digits : List Nat}
    (h : List.Forall₂ (fun ch n => hexDigitValue ch = some n) chars digits) :
    (∀ ch ∈ chars, Xg.isValidHexChar ch = true) ∧ (∀ n ∈ digits, n < 16) ∧
      chars.map lowerCase = digits.map fun n => ascii (hexDigit n) := by
  induction h with
  | nil => simp
  | cons hhead _ ih =>
      obtain ⟨hn, hlower⟩ := lowerCase_of_value hhead
      obtain ⟨hvalid, hsmall, hmap⟩ := ih
      exact ⟨List.forall_mem_cons.2 ⟨(isDigit_of_value hhead).2.1, hvalid⟩,
        List.forall_mem_cons.2 ⟨hn, hsmall⟩, by rw [List.map_cons, List.map_cons, hlower, hmap]⟩

theorem format02x_pair {a b : Nat} (ha : a < 16) (hb : b < 16) :
    Xg.Guid.format02x (UInt8.ofNat (16 * a + b)) = [ascii (hexDigit a), ascii (hexDigit b)] := by
  have hvalue : (UInt8.ofNat (16 * a + b)).toNat = 16 * a + b := by
    rw [UInt8.toNat_ofNat']
    omega
  have hhigh : (16 * a + b) / 16 = a := by omega
  have hlow : (16 * a + b) % 16 = b := by omega
  simp only [Xg.Guid.format02x, hexByte, hvalue, hhigh, hlow, List.map_cons, List.map_nil]

theorem format02x_pairsOf {digits : List Nat} (hdigits : ∀ n ∈ digits, n < 16)
    (heven : digits.length % 2 = 0) :
    (pairsOf digits).flatMap Xg.Guid.format02x = digits.map fun n => ascii (hexDigit n) := by
  induction digits using pairsOf.induct with
  | case1 => rfl
  | case2 a => simp at heven
  | case3 a b rest ih =>
      simp only [List.mem_cons, forall_eq_or_imp] at hdigits
      obtain ⟨ha, hb, hrest⟩ := hdigits
      simp only [List.length_cons] at heven
      rw [pairsOf, List.flatMap_cons, format02x_pair ha hb, ih hrest (by omega)]
      rfl

/-! ## The constructor -/

theorem exists_digits : ∀ {chars bytes out : Bytes}, (∀ ch ∈ chars, ch ≠ ascii '-') →
    bytes.length ≤ 16 → Xg.readChars none bytes chars = some out → ∃ digits,
      List.Forall₂ (fun ch n => hexDigitValue ch = some n) chars digits ∧
        out = bytes ++ pairsOf digits ∧ 2 * bytes.length + digits.length ≤ 32
  | [], bytes, out, _, hroom, h => by
      obtain rfl := Option.some.inj h
      exact ⟨[], .nil, (List.append_nil _).symm, by rw [List.length_nil]; omega⟩
  | [a], bytes, out, hhyphen, hroom, h => by
      simp only [Xg.readChars, if_neg (hhyphen a List.mem_cons_self)] at h
      split_ifs at h with hbad
      obtain ⟨hfull, hvalid⟩ := not_or.1 hbad
      obtain ⟨n, -, hn, -⟩ := exists_digitValue a (by simpa using hvalid)
      obtain rfl := Option.some.inj h
      exact ⟨[n], .cons hn .nil, (List.append_nil _).symm, by rw [List.length_singleton]; omega⟩
  | a :: b :: rest, bytes, out, hhyphen, hroom, h => by
      simp only [List.mem_cons, forall_eq_or_imp] at hhyphen
      obtain ⟨ha, hb, hrest⟩ := hhyphen
      simp only [Xg.readChars, if_neg ha, if_neg hb] at h
      split_ifs at h with hbad hbad'
      obtain ⟨hfull, hvalid⟩ := not_or.1 hbad
      obtain ⟨-, hvalid'⟩ := not_or.1 hbad'
      obtain ⟨m, -, hm, -⟩ := exists_digitValue a (by simpa using hvalid)
      obtain ⟨n, -, hn, -⟩ := exists_digitValue b (by simpa using hvalid')
      have hroom' : (bytes ++ [Xg.hexPairToChar a b]).length ≤ 16 := by
        rw [List.length_append, List.length_singleton]
        omega
      obtain ⟨digits, hall, rfl, hlength⟩ := exists_digits hrest hroom' h
      have hpair : Xg.hexPairToChar a b = UInt8.ofNat (16 * m + n) := by
        rw [Xg.hexPairToChar, (isDigit_of_value hm).2.2, (isDigit_of_value hn).2.2,
          UInt8.ofNat_add, UInt8.ofNat_mul, UInt8.mul_comm]
        rfl
      refine ⟨m :: n :: digits, .cons hm (.cons hn hall), ?_, ?_⟩
      · rw [hpair, pairsOf, List.append_assoc, List.singleton_append]
      · simp only [List.length_append, List.length_cons] at hlength ⊢
        omega

theorem forall₂_of_isValidHexChar {chars : Bytes}
    (h : ∀ ch ∈ chars, Xg.isValidHexChar ch = true) :
    ∃ digits, List.Forall₂ (fun ch n => hexDigitValue ch = some n) chars digits := by
  induction chars with
  | nil => exact ⟨[], .nil⟩
  | cons ch chars ih =>
      obtain ⟨hhead, htail⟩ := List.forall_mem_cons.1 h
      obtain ⟨n, -, hn, -⟩ := exists_digitValue ch hhead
      obtain ⟨digits, hdigits⟩ := ih htail
      exact ⟨n :: digits, .cons hn hdigits⟩

theorem bytes_of_isGuidText {text : Bytes} (h : IsGuidText text) : ∃ digits,
    List.Forall₂ (fun ch n => hexDigitValue ch = some n) (digitsOf text) digits ∧
      (Xg.Guid.ofString text).bytes = pairsOf digits := by
  obtain ⟨hlength, hvalid⟩ := h
  obtain ⟨digits, hdigits⟩ := forall₂_of_isValidHexChar hvalid
  have hcount : digits.length = 32 := hdigits.length_eq.symm.trans hlength
  have hread : Xg.readChars none [] text = some (pairsOf digits) := by
    rw [readChars_filter, ← List.nil_append (pairsOf digits)]
    exact readChars_digits hdigits (by omega) (by rw [List.length_nil]; omega)
  have hsixteen : (pairsOf digits).length = 16 := by rw [length_pairsOf, hcount]
  refine ⟨digits, hdigits, ?_⟩
  rw [Xg.Guid.ofString, hread]
  simp only [dif_pos hsixteen]

theorem ofString_of_not_isGuidText {text : Bytes} (h : ¬ IsGuidText text) :
    Xg.Guid.ofString text = .zero := by
  rw [Xg.Guid.ofString]
  split
  · rfl
  · rename_i bytes hread
    refine dif_neg fun hlength => h ?_
    rw [readChars_filter] at hread
    have hhyphen : ∀ ch ∈ digitsOf text, ch ≠ ascii '-' := fun ch hch => by
      simpa using (List.mem_filter.1 hch).2
    obtain ⟨digits, hdigits, rfl, hcount⟩ := exists_digits hhyphen (Nat.zero_le _) hread
    rw [List.nil_append, length_pairsOf] at hlength
    rw [List.length_nil] at hcount
    exact ⟨by rw [hdigits.length_eq]; omega, (digits_of_values hdigits).1⟩

/-! ## The printer -/

theorem digitsOf_str (guid : Xg.Guid) :
    digitsOf guid.str = guid.bytes.flatMap Xg.Guid.format02x := by
  have hformat : ∀ bytes : Bytes, digitsOf (bytes.flatMap Xg.Guid.format02x) =
      bytes.flatMap Xg.Guid.format02x := by
    intro bytes
    refine List.filter_eq_self.2 fun ch hch => ?_
    obtain ⟨b, -, hb⟩ := List.mem_flatMap.1 hch
    have hlt := b.toNat_lt
    simp only [Xg.Guid.format02x, hexByte, List.map_cons, List.map_nil, List.mem_cons,
      List.not_mem_nil, or_false] at hb
    rcases hb with rfl | rfl
    · simpa using (Xg.hexDigit_byte (n := b.toNat / 16) (by omega)).2.1
    · simpa using (Xg.hexDigit_byte (n := b.toNat % 16) (by omega)).2.1
  have hsep : digitsOf [ascii '-'] = [] := by decide
  have hgroups := Xg.groups_eq guid.length_bytes
  have happend : ∀ a b, digitsOf (a ++ b) = digitsOf a ++ digitsOf b :=
    fun a b => List.filter_append ..
  simp only [Xg.Guid.str, happend, hformat, hsep, List.nil_append]
  conv_rhs => rw [← hgroups]
  simp only [List.flatMap_append, List.drop_zero, List.append_assoc]

theorem digitsOf_str_ofString (text : Bytes) :
    digitsOf (Xg.Guid.ofString text).str = canonical text := by
  rw [digitsOf_str, canonical]
  split_ifs with h
  · obtain ⟨digits, hdigits, hbytes⟩ := bytes_of_isGuidText h
    have hcount : digits.length = 32 := hdigits.length_eq.symm.trans h.1
    obtain ⟨-, hsmall, hlower⟩ := digits_of_values hdigits
    rw [hbytes, format02x_pairsOf hsmall (by omega), hlower]
  · rw [ofString_of_not_isGuidText h]
    decide

theorem ofString_digitsOf (text : Bytes) :
    Xg.Guid.ofString (digitsOf text) = Xg.Guid.ofString text := by
  rw [Xg.Guid.ofString, Xg.Guid.ofString, readChars_filter none [] text]
  rfl

theorem ofString_canonical (text : Bytes) :
    Xg.Guid.ofString (canonical text) = Xg.Guid.ofString text := by
  rw [← digitsOf_str_ofString, ofString_digitsOf, Xg.Guid.ofString_str]

theorem ofString_eq_iff (text text' : Bytes) :
    Xg.Guid.ofString text = Xg.Guid.ofString text' ↔ canonical text = canonical text' := by
  constructor
  · intro h
    rw [← digitsOf_str_ofString, h, digitsOf_str_ofString]
  · intro h
    rw [← ofString_canonical, h, ofString_canonical]

theorem lowerCase_eq_zero_iff (ch : UInt8) : lowerCase ch = ascii '0' ↔ ch = ascii '0' := by
  have hall : ∀ n : Fin 256, lowerCase (UInt8.ofNat n) = ascii '0' ↔
      UInt8.ofNat n = ascii '0' := by
    decide +kernel
  have h := hall ⟨ch.toNat, ch.toNat_lt⟩
  rwa [UInt8.ofNat_toNat] at h

theorem isValid_ofString_iff (text : Bytes) : (Xg.Guid.ofString text).isValid = true ↔
    IsGuidText text ∧ ∃ ch ∈ digitsOf text, ch ≠ ascii '0' := by
  have hzero : Xg.Guid.ofString [] = .zero := rfl
  have hnone : canonical [] = List.replicate 32 (ascii '0') := rfl
  rw [Xg.Guid.isValid, decide_eq_true_iff, ← hzero, Ne, ofString_eq_iff, hnone, canonical]
  split_ifs with h
  · have hlength : ((digitsOf text).map lowerCase).length = 32 := by rw [List.length_map, h.1]
    rw [List.eq_replicate_iff, not_and_or, not_forall]
    simp [hlength, h, lowerCase_eq_zero_iff]
  · simp [h]

/-- Exactly the texts of thirty-two digits are taken, digits count in either case, and
hyphens count nowhere. -/
theorem ofString_spec (text text' : Bytes) :
    digitsOf (Xg.Guid.ofString text).str = canonical text ∧
      ((Xg.Guid.ofString text).isValid = true ↔
        IsGuidText text ∧ ∃ ch ∈ digitsOf text, ch ≠ ascii '0') ∧
      (Xg.Guid.ofString text = Xg.Guid.ofString text' ↔ canonical text = canonical text') :=
  ⟨digitsOf_str_ofString text, isValid_ofString_iff text, ofString_eq_iff text text'⟩

end NETConnect.CPlusConnectApp
