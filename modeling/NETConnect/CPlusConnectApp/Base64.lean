import NETConnect.Lib.TextCodec
import NETConnect.MyExtensions.EncodingExtensions
/-!
# `base64_decode`

The decoder of the C++ node.  It goes over its input in chunks of four characters,
takes both alphabets, and looks for padding in every chunk.  A `std::string` is its
bytes; `none` is an exception.
-/

namespace NETConnect.CPlusConnectApp

open Lib TextCodec

/-- The byte of an ASCII character. -/
def ascii (c : Char) : UInt8 := UInt8.ofNat c.toNat

def posOfChar (chr : UInt8) : Option Nat :=
  if ascii 'A' ≤ chr ∧ chr ≤ ascii 'Z' then some (chr.toNat - 'A'.toNat)
  else if ascii 'a' ≤ chr ∧ chr ≤ ascii 'z' then
    some (chr.toNat - 'a'.toNat + ('Z'.toNat - 'A'.toNat) + 1)
  else if ascii '0' ≤ chr ∧ chr ≤ ascii '9' then
    some (chr.toNat - '0'.toNat + ('Z'.toNat - 'A'.toNat) + ('z'.toNat - 'a'.toNat) + 2)
  else if chr = ascii '+' ∨ chr = ascii '-' then some 62
  else if chr = ascii '/' ∨ chr = ascii '_' then some 63
  else none

/-- What pads the last chunk, in either alphabet. -/
def isPadding (chr : UInt8) : Bool := chr = ascii '=' || chr = ascii '.'

/-- What one turn of the loop appends; `chunk` is the string from `pos` on. -/
def decodeChunk (chunk : Bytes) : Option Bytes := do
  let posOfChar1 ← posOfChar (← chunk[1]?)
  let posOfChar0 ← posOfChar (← chunk[0]?)
  let first := UInt8.ofNat ((posOfChar0 <<< 2) + ((posOfChar1 &&& 0x30) >>> 4))
  match chunk[2]? with
  | none => some [first]
  | some chr2 =>
      if isPadding chr2 then some [first]
      else do
        let posOfChar2 ← posOfChar chr2
        let second := UInt8.ofNat (((posOfChar1 &&& 0x0f) <<< 4) + ((posOfChar2 &&& 0x3c) >>> 2))
        match chunk[3]? with
        | none => some [first, second]
        | some chr3 =>
            if isPadding chr3 then some [first, second]
            else do
              let posOfChar3 ← posOfChar chr3
              let third := UInt8.ofNat (((posOfChar2 &&& 0x03) <<< 6) + posOfChar3)
              some [first, second, third]

/-- `base64_decode(s)`, without the removal of line breaks. -/
def base64Decode : Bytes → Option Bytes
  | [] => some []
  | w :: x :: y :: z :: rest => do
      let bytes ← decodeChunk [w, x, y, z]
      let more ← base64Decode rest
      some (bytes ++ more)
  -- the last chunk may be shorter
  | chunk => decodeChunk chunk

/-! ## What the C# side writes is read back -/

theorem toUTF8Byte_ofList {cs : List Char} (h : ∀ c ∈ cs, String.utf8EncodeChar c = [ascii c]) :
    toUTF8Byte (String.ofList cs) = cs.map ascii := by
  rw [toUTF8Byte, String.toList_ofList]
  induction cs with
  | nil => rfl
  | cons c cs ih =>
      rw [List.flatMap_cons, h c List.mem_cons_self, ih fun d hd => h d (List.mem_cons_of_mem c hd)]
      rfl

theorem base64Char_byte {n : Nat} (h : n < 64) :
    String.utf8EncodeChar (base64Char n) = [ascii (base64Char n)] ∧
      posOfChar (ascii (base64Char n)) = some n := by
  revert n
  decide

theorem sixBits {n : Nat} (h : n < 64) :
    (n &&& 0x30) >>> 4 = n / 16 ∧ (n &&& 0x0f) <<< 4 = n % 16 * 16 ∧
      (n &&& 0x3c) >>> 2 = n / 4 ∧ (n &&& 0x03) <<< 6 = n % 4 * 64 := by
  revert n
  decide

theorem posOfChar_spec {chr : UInt8} {i : Nat} (h : posOfChar chr = some i) :
    i < 64 ∧ isPadding chr = false := by
  have hpadding : chr.toNat ≠ 61 → chr.toNat ≠ 46 → isPadding chr = false := by
    intro hequals hdot
    rw [isPadding, Bool.or_eq_false_iff, decide_eq_false_iff_not, decide_eq_false_iff_not]
    exact ⟨fun h => hequals (congrArg UInt8.toNat h), fun h => hdot (congrArg UInt8.toNat h)⟩
  simp only [posOfChar, UInt8.le_iff_toNat_le] at h
  split at h
  · next hrange =>
      have hrange : 65 ≤ chr.toNat ∧ chr.toNat ≤ 90 := hrange
      obtain rfl : chr.toNat - 65 = i := Option.some.inj h
      exact ⟨by omega, hpadding (by omega) (by omega)⟩
  split at h
  · next hrange =>
      have hrange : 97 ≤ chr.toNat ∧ chr.toNat ≤ 122 := hrange
      obtain rfl : chr.toNat - 97 + 25 + 1 = i := Option.some.inj h
      exact ⟨by omega, hpadding (by omega) (by omega)⟩
  split at h
  · next hrange =>
      have hrange : 48 ≤ chr.toNat ∧ chr.toNat ≤ 57 := hrange
      obtain rfl : chr.toNat - 48 + 25 + 25 + 2 = i := Option.some.inj h
      exact ⟨by omega, hpadding (by omega) (by omega)⟩
  split at h
  · next hchr =>
      obtain rfl := Option.some.inj h
      rcases hchr with rfl | rfl <;> decide
  split at h
  · next hchr =>
      obtain rfl := Option.some.inj h
      rcases hchr with rfl | rfl <;> decide
  · simp at h

theorem isPadding_pads (n : Nat) : ∀ p ∈ List.replicate n (ascii '='), isPadding p = true := by
  intro p hp
  rw [List.eq_of_mem_replicate hp]
  decide

theorem decodeChunk_four {w x y z : UInt8} {i j k l : Nat} (hw : posOfChar w = some i)
    (hx : posOfChar x = some j) (hy : posOfChar y = some k) (hz : posOfChar z = some l) :
    decodeChunk [w, x, y, z] =
      some [UInt8.ofNat (i * 4 + j / 16), UInt8.ofNat (j % 16 * 16 + k / 4),
        UInt8.ofNat (k % 4 * 64 + l)] := by
  obtain ⟨hj₁, hj₂, -, -⟩ := sixBits (posOfChar_spec hx).1
  obtain ⟨-, -, hk₁, hk₂⟩ := sixBits (posOfChar_spec hy).1
  have hshift : i <<< 2 = i * 4 := Nat.shiftLeft_eq i 2
  simp only [decodeChunk, List.getElem?_cons_succ, List.getElem?_cons_zero, bind,
    Option.bind_some, hw, hx, hy, hz, (posOfChar_spec hy).2, (posOfChar_spec hz).2,
    Bool.false_eq_true, if_false, hj₁, hj₂, hk₁, hk₂, hshift]

theorem decodeChunk_three {w x y : UInt8} {i j k : Nat} (hw : posOfChar w = some i)
    (hx : posOfChar x = some j) (hy : posOfChar y = some k) {padding : Bytes}
    (hpadding : ∀ p ∈ padding, isPadding p = true) :
    decodeChunk (w :: x :: y :: padding) =
      some [UInt8.ofNat (i * 4 + j / 16), UInt8.ofNat (j % 16 * 16 + k / 4)] := by
  obtain ⟨hj₁, hj₂, -, -⟩ := sixBits (posOfChar_spec hx).1
  obtain ⟨-, -, hk₁, -⟩ := sixBits (posOfChar_spec hy).1
  have hshift : i <<< 2 = i * 4 := Nat.shiftLeft_eq i 2
  cases padding with
  | nil =>
      simp only [decodeChunk, List.getElem?_cons_succ, List.getElem?_cons_zero, List.getElem?_nil,
        bind, Option.bind_some, hw, hx, hy, (posOfChar_spec hy).2, Bool.false_eq_true, if_false,
        hj₁, hj₂, hk₁, hshift]
  | cons p padding =>
      simp only [decodeChunk, List.getElem?_cons_succ, List.getElem?_cons_zero, bind,
        Option.bind_some, hw, hx, hy, (posOfChar_spec hy).2, hpadding p List.mem_cons_self,
        Bool.false_eq_true, if_false, if_true, hj₁, hj₂, hk₁, hshift]

theorem decodeChunk_two {w x : UInt8} {i j : Nat} (hw : posOfChar w = some i)
    (hx : posOfChar x = some j) {padding : Bytes} (hpadding : ∀ p ∈ padding, isPadding p = true) :
    decodeChunk (w :: x :: padding) = some [UInt8.ofNat (i * 4 + j / 16)] := by
  obtain ⟨hj₁, -, -, -⟩ := sixBits (posOfChar_spec hx).1
  have hshift : i <<< 2 = i * 4 := Nat.shiftLeft_eq i 2
  cases padding with
  | nil =>
      simp only [decodeChunk, List.getElem?_cons_succ, List.getElem?_cons_zero, List.getElem?_nil,
        bind, Option.bind_some, hw, hx, hj₁, hshift]
  | cons p padding =>
      simp only [decodeChunk, List.getElem?_cons_succ, List.getElem?_cons_zero, bind,
        Option.bind_some, hw, hx, hpadding p List.mem_cons_self, if_true, hj₁, hshift]

theorem base64Decode_toBase64 (data : Bytes) :
    base64Decode ((toBase64 data).map ascii) = some data := by
  have hpos : ∀ n < 64, posOfChar (ascii (base64Char n)) = some n :=
    fun n hn => (base64Char_byte hn).2
  induction data using toBase64.induct with
  | case1 => rfl
  | case2 a =>
      have ha := a.toNat_lt
      have hchunk := decodeChunk_two (hpos (a.toNat / 4) (by omega))
        (hpos (a.toNat % 4 * 16) (by omega)) (isPadding_pads 2)
      rw [ofNat_eq_of_toNat (a := a) (by omega)] at hchunk
      simp only [List.replicate] at hchunk
      simp only [toBase64, List.map_cons, List.map_nil, base64Decode, hchunk, bind,
        Option.bind_some, List.append_nil]
  | case3 a b =>
      have ha := a.toNat_lt
      have hb := b.toNat_lt
      have hchunk := decodeChunk_three (hpos (a.toNat / 4) (by omega))
        (hpos (a.toNat % 4 * 16 + b.toNat / 16) (by omega)) (hpos (b.toNat % 16 * 4) (by omega))
        (isPadding_pads 1)
      rw [ofNat_eq_of_toNat (a := a) (by omega), ofNat_eq_of_toNat (a := b) (by omega)] at hchunk
      simp only [List.replicate] at hchunk
      simp only [toBase64, List.map_cons, List.map_nil, base64Decode, hchunk, bind,
        Option.bind_some, List.append_nil]
  | case4 a b c rest ih =>
      have ha := a.toNat_lt
      have hb := b.toNat_lt
      have hc := c.toNat_lt
      have hchunk := decodeChunk_four (hpos (a.toNat / 4) (by omega))
        (hpos (a.toNat % 4 * 16 + b.toNat / 16) (by omega))
        (hpos (b.toNat % 16 * 4 + c.toNat / 64) (by omega)) (hpos (c.toNat % 64) (by omega))
      rw [ofNat_eq_of_toNat (a := a) (by omega), ofNat_eq_of_toNat (a := b) (by omega),
        ofNat_eq_of_toNat (a := c) (by omega)] at hchunk
      simp only [toBase64, List.map_cons, base64Decode, hchunk, ih, bind, Option.bind_some,
        List.cons_append, List.nil_append]

theorem toBase64_ascii (data : Bytes) :
    ∀ c ∈ toBase64 data, String.utf8EncodeChar c = [ascii c] := by
  have hpad : String.utf8EncodeChar '=' = [ascii '='] := by decide
  induction data using toBase64.induct with
  | case1 => simp [toBase64]
  | case2 a =>
      have ha := a.toNat_lt
      have h₀ := (base64Char_byte (n := a.toNat / 4) (by omega)).1
      have h₁ := (base64Char_byte (n := a.toNat % 4 * 16) (by omega)).1
      simp [toBase64, h₀, h₁, hpad]
  | case3 a b =>
      have ha := a.toNat_lt
      have hb := b.toNat_lt
      have h₀ := (base64Char_byte (n := a.toNat / 4) (by omega)).1
      have h₁ := (base64Char_byte (n := a.toNat % 4 * 16 + b.toNat / 16) (by omega)).1
      have h₂ := (base64Char_byte (n := b.toNat % 16 * 4) (by omega)).1
      simp [toBase64, h₀, h₁, h₂, hpad]
  | case4 a b c rest ih =>
      have ha := a.toNat_lt
      have hb := b.toNat_lt
      have hc := c.toNat_lt
      have h₀ := (base64Char_byte (n := a.toNat / 4) (by omega)).1
      have h₁ := (base64Char_byte (n := a.toNat % 4 * 16 + b.toNat / 16) (by omega)).1
      have h₂ := (base64Char_byte (n := b.toNat % 16 * 4 + c.toNat / 64) (by omega)).1
      have h₃ := (base64Char_byte (n := c.toNat % 64) (by omega)).1
      simpa [toBase64, h₀, h₁, h₂, h₃] using ih

theorem base64Decode_text (data : Bytes) :
    base64Decode (toUTF8Byte (String.ofList (toBase64 data))) = some data := by
  rw [toUTF8Byte_ofList (toBase64_ascii data), base64Decode_toBase64]

end NETConnect.CPlusConnectApp
