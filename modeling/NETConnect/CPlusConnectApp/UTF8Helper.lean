import Mathlib.Data.List.TakeWhile
import NETConnect.Lib.Split
import NETConnect.CPlusConnectApp.Base64
import NETConnect.Multicast.Multicast
/-!
# `UTF8Helper::Split`

The loop over `getline`, and how it cuts the address text of a join, which the C#
node cuts with `Split(":")`.
-/

namespace NETConnect.CPlusConnectApp

open Lib

/-- A `std::stringstream` that is read to its end. -/
structure StringStream where
  rest : Bytes
  eof : Bool := false
  deriving DecidableEq, Repr

/-- `std::getline(ss, token, delimiter)`; `none`: the stream has failed. -/
def getline (delimiter : UInt8) (ss : StringStream) : Option (Bytes × StringStream) :=
  -- nothing is extracted: not even a delimiter is there
  if ss.eof = true ∨ ss.rest = [] then none
  else
    let token := ss.rest.takeWhile (· != delimiter)
    match ss.rest.dropWhile (· != delimiter) with
    | [] => some (token, { rest := [], eof := true })
    | _ :: rest => some (token, { rest })

theorem getline_none_of_eof {delimiter : UInt8} {rest : Bytes} :
    getline delimiter { rest, eof := true } = none := if_pos (Or.inl rfl)

theorem getline_none_of_nil {delimiter : UInt8} {eof : Bool} :
    getline delimiter { rest := [], eof } = none := if_pos (Or.inr rfl)

theorem getline_last {delimiter : UInt8} {token : Bytes} (htoken : delimiter ∉ token)
    (hne : token ≠ []) :
    getline delimiter { rest := token } = some (token, { rest := [], eof := true }) := by
  have hall : ∀ b ∈ token, (b != delimiter) = true := by
    intro b hb
    exact bne_iff_ne.2 fun h => htoken (h ▸ hb)
  rw [getline, if_neg (by simpa using hne)]
  simp only [List.takeWhile_eq_self_iff.2 hall, List.dropWhile_eq_nil_iff.2 hall]

theorem getline_delimited {delimiter : UInt8} {token : Bytes} (htoken : delimiter ∉ token)
    (rest : Bytes) :
    getline delimiter { rest := token ++ delimiter :: rest } = some (token, { rest }) := by
  have hall : ∀ b ∈ token, (b != delimiter) = true := by
    intro b hb
    exact bne_iff_ne.2 fun h => htoken (h ▸ hb)
  have hstop : (delimiter != delimiter) = false := by simp
  rw [getline, if_neg (by simp)]
  simp only [List.takeWhile_append_of_pos hall, List.dropWhile_append_of_pos hall,
    List.takeWhile_cons, List.dropWhile_cons, hstop, Bool.false_eq_true, if_false, List.append_nil]

theorem getline_shorter {delimiter : UInt8} {ss ss' : StringStream} {token : Bytes}
    (h : getline delimiter ss = some (token, ss')) : ss'.rest.length < ss.rest.length := by
  obtain ⟨text, eof⟩ := ss
  cases eof with
  | true => simp [getline_none_of_eof] at h
  | false =>
      induction text using split_induction delimiter with
      | last part hpart =>
          rcases eq_or_ne part [] with rfl | hne
          · simp [getline_none_of_nil] at h
          · obtain ⟨-, rfl⟩ := Prod.ext_iff.1 (Option.some.inj ((getline_last hpart hne).symm.trans h))
            exact List.length_pos_iff.2 hne
      | cons part rest hpart =>
          obtain ⟨-, rfl⟩ := Prod.ext_iff.1
            (Option.some.inj ((getline_delimited hpart rest).symm.trans h))
          simp only [List.length_append, List.length_cons]
          omega

namespace UTF8Helper

/-- The loop of `Split`. -/
def readTokens (delimiter : UInt8) (ss : StringStream) : List Bytes :=
  match _h : getline delimiter ss with
  | none => []
  | some (token, ss') => token :: readTokens delimiter ss'
termination_by ss.rest.length
decreasing_by exact getline_shorter _h

def split (str : Bytes) (delimiter : UInt8) : List Bytes := readTokens delimiter { rest := str }

theorem readTokens_none {delimiter : UInt8} {ss : StringStream} (h : getline delimiter ss = none) :
    readTokens delimiter ss = [] := by
  rw [readTokens]
  split <;> simp_all

theorem readTokens_some {delimiter : UInt8} {ss ss' : StringStream} {token : Bytes}
    (h : getline delimiter ss = some (token, ss')) :
    readTokens delimiter ss = token :: readTokens delimiter ss' := by
  rw [readTokens]
  split <;> simp_all

/-- `Split` cuts into lines: an empty part at the end is none. -/
theorem split_eq (str : Bytes) (delimiter : UInt8) :
    split str delimiter = splitLines delimiter str := by
  rw [split]
  induction str using split_induction delimiter with
  | last part hpart =>
      rcases eq_or_ne part [] with rfl | hne
      · rw [readTokens_none getline_none_of_nil, splitLines_nil]
      · rw [readTokens_some (getline_last hpart hne), readTokens_none getline_none_of_eof,
          splitLines_of_not_mem hpart hne]
  | cons part rest hpart ih =>
      rw [readTokens_some (getline_delimited hpart rest), ih, splitLines_append_cons hpart]

/-! ## What is lost -/

/-- No token contains the delimiter, and joined by it they are the string. -/
def LosesNothing (str : Bytes) (delimiter : UInt8) : Prop :=
  (∀ token ∈ split str delimiter, delimiter ∉ token) ∧
    [delimiter].intercalate (split str delimiter) = str

/-- Both nodes cut the address text at the same places. -/
def CutsAlike (text : String) : Prop :=
  split (toUTF8Byte text) (ascii ':') = (Multicast.splitAddress text).map toUTF8Byte

theorem losesNothing_iff (str : Bytes) (delimiter : UInt8) :
    LosesNothing str delimiter ↔ ¬ [delimiter] <:+ str := by
  rw [LosesNothing, split_eq, intercalate_splitLines_iff]
  exact and_iff_right fun token htoken => not_mem_of_mem_splitLines htoken

/-- In UTF-8 the byte of a colon stands for a colon only. -/
theorem colon_not_mem_utf8EncodeChar (c : Char) (hc : c ≠ ':') :
    ascii ':' ∉ String.utf8EncodeChar c := by
  intro hmem
  have hcode : c.val.toNat ≠ 58 := by
    intro h
    exact hc (Char.ext (UInt32.toNat_inj.1 h))
  -- all bytes of a longer code are at least 0x80
  have hbyte : ∀ n, ascii ':' = UInt8.ofNat n → n % 256 = 58 := by
    intro n h
    have := congrArg UInt8.toNat h
    rw [UInt8.toNat_ofNat'] at this
    exact this.symm
  rw [String.utf8EncodeChar] at hmem
  split at hmem
  · have := hbyte _ (List.mem_singleton.1 hmem)
    omega
  · split at hmem
    · simp only [List.mem_cons, List.not_mem_nil, or_false] at hmem
      rcases hmem with h | h <;> have := hbyte _ h <;> omega
    · split at hmem <;> simp only [List.mem_cons, List.not_mem_nil, or_false] at hmem
      · rcases hmem with h | h | h <;> have := hbyte _ h <;> omega
      · rcases hmem with h | h | h | h <;> have := hbyte _ h <;> omega

theorem splitAddress_toUTF8Byte (text : String) :
    (Multicast.splitAddress text).map toUTF8Byte = (toUTF8Byte text).splitOn (ascii ':') := by
  rw [toUTF8Byte, splitOn_flatMap (a := ':') rfl colon_not_mem_utf8EncodeChar,
    Multicast.splitAddress, List.map_map]
  refine List.map_congr_left fun part _ => ?_
  rw [Function.comp_apply, toUTF8Byte, String.toList_ofList]

theorem cutsAlike_iff (text : String) :
    CutsAlike text ↔ text ≠ "" ∧ ¬ [':'] <:+ text.toList := by
  have hnil : toUTF8Byte text = [] ↔ text = "" := by
    refine ⟨fun h => ?_, fun h => by rw [h]; rfl⟩
    by_contra hne
    exact toUTF8Byte_ne_nil hne h
  have hcolon : [ascii ':'] <:+ toUTF8Byte text ↔ [':'] <:+ text.toList :=
    suffix_flatMap_iff (a := ':') rfl colon_not_mem_utf8EncodeChar
      fun c => String.utf8EncodeChar_ne_nil
  rw [CutsAlike, split_eq, splitAddress_toUTF8Byte, splitLines_eq_splitOn_iff, hcolon, ne_eq,
    hnil]

/-- A delimiter at the end is lost, and so is the one part of an empty address. -/
theorem split_lossless_iff (str : Bytes) (delimiter : UInt8) (text : String) :
    (LosesNothing str delimiter ↔ ¬ [delimiter] <:+ str) ∧
      (CutsAlike text ↔ text ≠ "" ∧ ¬ [':'] <:+ text.toList) :=
  ⟨losesNothing_iff str delimiter, cutsAlike_iff text⟩

/-- An address without its port. -/
theorem not_split_lossless :
    ¬ ((∀ str delimiter, LosesNothing str delimiter) ∧ ∀ text, CutsAlike text) := by
  rintro ⟨hlossless, -⟩
  have hjoin := (hlossless [ascii 'a', ascii ':'] (ascii ':')).2
  rw [split_eq] at hjoin
  exact absurd hjoin (by decide)

end UTF8Helper

end NETConnect.CPlusConnectApp
