import NETConnect.CPlusConnectApp.Base64
import NETConnect.Reference
/-!
# `xg::Guid`

The GUID class of the C++ node: sixteen bytes, read from a text by skipping every
hyphen, and printed in the groups 4, 2, 2, 2, 6.
-/

namespace NETConnect.CPlusConnectApp

open Lib TextCodec Reference

namespace Xg

structure Guid where
  bytes : Bytes
  length_bytes : bytes.length = 16
  deriving DecidableEq, Repr

namespace Guid

/-- What `zeroify` leaves. -/
def zero : Guid := ⟨List.replicate 16 0, List.length_replicate⟩

end Guid

def hexDigitToChar (ch : UInt8) : UInt8 :=
  if 47 < ch ∧ ch < 58 then ch - 48
  else if 96 < ch ∧ ch < 103 then ch - 87
  else if 64 < ch ∧ ch < 71 then ch - 55
  else 0

def isValidHexChar (ch : UInt8) : Bool :=
  (47 < ch && ch < 58) || (96 < ch && ch < 103) || (64 < ch && ch < 71)

def hexPairToChar (a b : UInt8) : UInt8 := hexDigitToChar a * 16 + hexDigitToChar b

/-- The loop of the constructor: the first character of a pair, if one is waiting, and
the bytes read so far.  `none`: the string is invalid. -/
def readChars (charOne : Option UInt8) (bytes : Bytes) : Bytes → Option Bytes
  | [] => some bytes
  | ch :: rest =>
      if ch = ascii '-' then readChars charOne bytes rest
      else if 16 ≤ bytes.length ∨ isValidHexChar ch = false then none
      else match charOne with
        | none => readChars (some ch) bytes rest
        | some one => readChars none (bytes ++ [hexPairToChar one ch]) rest

namespace Guid

/-- `Guid(const std::string& fromString)`. -/
def ofString (fromString : Bytes) : Guid :=
  match readChars none [] fromString with
  | none => zero
  | some bytes =>
      -- there are never more than sixteen
      if h : bytes.length = 16 then ⟨bytes, h⟩ else zero

/-- `%02x`. -/
def format02x (b : UInt8) : Bytes := (hexByte b).map ascii

def str (guid : Guid) : Bytes :=
  let group (start count : Nat) := ((guid.bytes.drop start).take count).flatMap format02x
  let sep := [ascii '-']
  group 0 4 ++ (sep ++ group 4 2) ++ (sep ++ group 6 2) ++ (sep ++ group 8 2) ++
    (sep ++ group 10 6)

end Guid

/-! ## Reading what was printed -/

theorem hexDigit_byte {n : Nat} (h : n < 16) :
    String.utf8EncodeChar (hexDigit n) = [ascii (hexDigit n)] ∧
      ascii (hexDigit n) ≠ ascii '-' ∧ isValidHexChar (ascii (hexDigit n)) = true ∧
      hexDigitToChar (ascii (hexDigit n)) = UInt8.ofNat n := by
  revert n
  decide

theorem hexPairToChar_hexByte (b : UInt8) :
    hexPairToChar (ascii (hexDigit (b.toNat / 16))) (ascii (hexDigit (b.toNat % 16))) = b := by
  have hb := b.toNat_lt
  obtain ⟨-, -, -, hhigh⟩ := hexDigit_byte (n := b.toNat / 16) (by omega)
  obtain ⟨-, -, -, hlow⟩ := hexDigit_byte (n := b.toNat % 16) (by omega)
  rw [hexPairToChar, hhigh, hlow]
  apply UInt8.toNat_inj.1
  simp only [UInt8.toNat_add, UInt8.toNat_mul, UInt8.toNat_ofNat', UInt8.reduceToNat]
  omega

theorem readChars_hyphen (charOne : Option UInt8) (bytes rest : Bytes) :
    readChars charOne bytes (ascii '-' :: rest) = readChars charOne bytes rest := by
  rw [readChars.eq_def]
  exact if_pos rfl

theorem readChars_format02x {bytes : Bytes} (b : UInt8) (rest : Bytes)
    (hroom : bytes.length < 16) :
    readChars none bytes (Guid.format02x b ++ rest) = readChars none (bytes ++ [b]) rest := by
  have hb := b.toNat_lt
  obtain ⟨-, hne, hvalid, -⟩ := hexDigit_byte (n := b.toNat / 16) (by omega)
  obtain ⟨-, hne', hvalid', -⟩ := hexDigit_byte (n := b.toNat % 16) (by omega)
  have hroom' : ¬ 16 ≤ bytes.length := Nat.not_le.2 hroom
  simp only [Guid.format02x, hexByte, List.map_cons, List.map_nil, List.cons_append,
    List.nil_append, readChars, if_neg hne, if_neg hne', hvalid, hvalid', hroom', false_or,
    Bool.true_eq_false, if_false, hexPairToChar_hexByte]

theorem readChars_group (group : Bytes) {bytes : Bytes} (rest : Bytes)
    (hroom : bytes.length + group.length ≤ 16) :
    readChars none bytes (group.flatMap Guid.format02x ++ rest) =
      readChars none (bytes ++ group) rest := by
  induction group generalizing bytes with
  | nil => simp
  | cons b group ih =>
      rw [List.length_cons] at hroom
      rw [List.flatMap_cons, List.append_assoc, readChars_format02x b _ (by omega),
        ih (by rw [List.length_append, List.length_singleton]; omega), List.append_assoc,
        List.singleton_append]

theorem groups_eq {bytes : Bytes} (hlength : bytes.length = 16) :
    bytes.take 4 ++ ((bytes.drop 4).take 2 ++ ((bytes.drop 6).take 2 ++
      ((bytes.drop 8).take 2 ++ (bytes.drop 10).take 6))) = bytes := by
  have hlast : (bytes.drop 10).take 6 = bytes.drop 10 :=
    List.take_of_length_le (by rw [List.length_drop]; omega)
  have hcut : ∀ m n, (bytes.drop m).take n ++ bytes.drop (m + n) = bytes.drop m := by
    intro m n
    rw [← List.drop_drop, List.take_append_drop]
  rw [hlast, hcut 8 2, hcut 6 2, hcut 4 2, List.take_append_drop]

theorem readChars_str (guid : Guid) : readChars none [] guid.str = some guid.bytes := by
  obtain ⟨bytes, hlength⟩ := guid
  have hgroup : ∀ start count, ((bytes.drop start).take count).length ≤ count :=
    fun start count => List.length_take_le _ _
  have h₀ := hgroup 0 4
  have h₁ := hgroup 4 2
  have h₂ := hgroup 6 2
  have h₃ := hgroup 8 2
  have h₄ := hgroup 10 6
  simp only [Guid.str, List.append_assoc, List.cons_append, List.nil_append]
  rw [readChars_group _ _ (by rw [List.length_nil]; omega), readChars_hyphen,
    readChars_group _ _ (by simp only [List.length_append, List.length_nil]; omega),
    readChars_hyphen,
    readChars_group _ _ (by simp only [List.length_append, List.length_nil]; omega),
    readChars_hyphen,
    readChars_group _ _ (by simp only [List.length_append, List.length_nil]; omega),
    readChars_hyphen,
    ← List.append_nil (List.flatMap _ ((bytes.drop 10).take 6)),
    readChars_group _ _ (by simp only [List.length_append, List.length_nil]; omega)]
  simp only [readChars, List.nil_append, List.append_assoc, List.drop_zero, groups_eq hlength]

theorem Guid.ofString_str (guid : Guid) : Guid.ofString guid.str = guid := by
  rw [Guid.ofString, readChars_str]
  exact dif_pos guid.length_bytes

/-- The GUID of the C++ node for one of the C# node, most significant byte first. -/
def Guid.ofCSharp (guid : NETConnect.Guid) : Guid :=
  ⟨(leBytes 16 guid.value.toNat).reverse, by simp⟩

theorem guidText_ascii (guid : NETConnect.Guid) :
    ∀ c ∈ guidText guid, String.utf8EncodeChar c = [ascii c] := by
  have hhex : ∀ bs : Bytes, ∀ c ∈ bs.flatMap hexByte, String.utf8EncodeChar c = [ascii c] := by
    intro bs c hc
    obtain ⟨b, -, hb⟩ := List.mem_flatMap.1 hc
    have hlt := b.toNat_lt
    simp only [hexByte, List.mem_cons, List.not_mem_nil, or_false] at hb
    rcases hb with rfl | rfl
    · exact (hexDigit_byte (by omega)).1
    · exact (hexDigit_byte (by omega)).1
  have hhyphen : String.utf8EncodeChar '-' = [ascii '-'] := by decide
  intro c hc
  simp only [guidText, List.mem_append, List.mem_cons] at hc
  rcases hc with (((hc | rfl | hc) | rfl | hc) | rfl | hc) | rfl | hc
  all_goals first | exact hhyphen | exact hhex _ c hc

theorem Guid.str_ofCSharp (guid : NETConnect.Guid) :
    (Guid.ofCSharp guid).str = toUTF8Byte (String.ofList (guidText guid)) := by
  rw [toUTF8Byte_ofList (guidText_ascii guid)]
  have hformat : Guid.format02x = fun b => (hexByte b).map ascii := rfl
  simp only [Guid.str, Guid.ofCSharp, guidText, hformat, List.map_append, List.map_cons,
    List.map_flatMap, List.append_assoc, List.cons_append, List.nil_append]

theorem Guid.ofString_guidText (guid : NETConnect.Guid) :
    Guid.ofString (toUTF8Byte (String.ofList (guidText guid))) = Guid.ofCSharp guid := by
  rw [← Guid.str_ofCSharp, Guid.ofString_str]

end Xg

end NETConnect.CPlusConnectApp
