import NETConnect.CPlusConnectApp.Base64
import NETConnect.Lib.Lines
/-!
# `base64_encode`

The encoder beside the decoder, in both alphabets, and its texts with line breaks: PEM
has lines of 64 characters, MIME of 76.
-/

namespace NETConnect.CPlusConnectApp

open Lib TextCodec

/-- `base64_chars[url]`. -/
def base64Chars (url : Bool) : Bytes :=
  ("ABCDEFGHIJKLMNOPQRSTUVWXYZ".toList ++ "abcdefghijklmnopqrstuvwxyz".toList ++
    "0123456789".toList ++ (if url then "-_" else "+/").toList).map ascii

/-- The character at a position. -/
def charAt (url : Bool) (i : Nat) : UInt8 := (base64Chars url)[i]?.getD 0

def trailingChar (url : Bool) : UInt8 := if url then ascii '.' else ascii '='

/-- `bytes_to_encode[i]`. -/
def byteAt (bytes : Bytes) (i : BitVec 32) : Nat := (bytes[i.toNat]?.getD 0).toNat

/-- What one turn of the loop of `base64_encode` appends; `pos` is an `unsigned int`. -/
def encodeTurn (url : Bool) (bytes : Bytes) (pos : BitVec 32) : Bytes :=
  charAt url ((byteAt bytes pos &&& 0xfc) >>> 2) ::
    if (pos + 1#32).toNat < bytes.length then
      charAt url (((byteAt bytes pos &&& 0x03) <<< 4) +
          ((byteAt bytes (pos + 1#32) &&& 0xf0) >>> 4)) ::
        if (pos + 2#32).toNat < bytes.length then
          [charAt url (((byteAt bytes (pos + 1#32) &&& 0x0f) <<< 2) +
              ((byteAt bytes (pos + 2#32) &&& 0xc0) >>> 6)),
            charAt url (byteAt bytes (pos + 2#32) &&& 0x3f)]
        else [charAt url ((byteAt bytes (pos + 1#32) &&& 0x0f) <<< 2), trailingChar url]
    else [charAt url ((byteAt bytes pos &&& 0x03) <<< 4), trailingChar url, trailingChar url]

/-- The loop, if it ends within so many turns. -/
def encodeLoop (url : Bool) (bytes : Bytes) : Nat → BitVec 32 → Option Bytes
  | 0, pos => if pos.toNat < bytes.length then none else some []
  | turns + 1, pos =>
      if pos.toNat < bytes.length then
        (encodeLoop url bytes turns (pos + 3#32)).map (encodeTurn url bytes pos ++ ·)
      else some []

/-- `base64_encode(bytes_to_encode, in_len, url)`.  The turns are enough for every length
on which it returns. -/
def base64Encode (url : Bool) (bytes : Bytes) : Option Bytes :=
  encodeLoop url bytes ((bytes.length + 2) / 3) 0#32

/-- The base64 text of a byte string, three bytes at a time. -/
def encoded (url : Bool) : Bytes → Bytes
  | [] => []
  | [a] =>
      [charAt url ((a.toNat &&& 0xfc) >>> 2), charAt url ((a.toNat &&& 0x03) <<< 4),
        trailingChar url, trailingChar url]
  | [a, b] =>
      [charAt url ((a.toNat &&& 0xfc) >>> 2),
        charAt url (((a.toNat &&& 0x03) <<< 4) + ((b.toNat &&& 0xf0) >>> 4)),
        charAt url ((b.toNat &&& 0x0f) <<< 2), trailingChar url]
  | a :: b :: c :: rest =>
      charAt url ((a.toNat &&& 0xfc) >>> 2) ::
        charAt url (((a.toNat &&& 0x03) <<< 4) + ((b.toNat &&& 0xf0) >>> 4)) ::
        charAt url (((b.toNat &&& 0x0f) <<< 2) + ((c.toNat &&& 0xc0) >>> 6)) ::
        charAt url (c.toNat &&& 0x3f) :: encoded url rest

/-! ## Line breaks -/

def newline : UInt8 := ascii '\n'

/-- The loop of `insert_linebreaks`.  With the distance zero it would not end. -/
def insertLinebreaksFrom (distance : Nat) [NeZero distance] (str : Bytes) (pos : Nat) : Bytes :=
  if pos < str.length then
    insertLinebreaksFrom distance (str.insertIdx pos newline) (pos + (distance + 1))
  else str
termination_by str.length - pos
decreasing_by
  have hpos := Nat.pos_of_neZero distance
  rw [List.length_insertIdx]
  split <;> omega

def insertLinebreaks (str : Bytes) (distance : Nat) [NeZero distance] : Bytes :=
  if str.length = 0 then [] else insertLinebreaksFrom distance str distance

/-- `encode_with_line_breaks`. -/
def encodeWithLineBreaks (lineLength : Nat) [NeZero lineLength] (s : Bytes) : Option Bytes :=
  (base64Encode false s).map fun text => insertLinebreaks text lineLength

def base64EncodePem (s : Bytes) : Option Bytes := encodeWithLineBreaks 64 s

def base64EncodeMime (s : Bytes) : Option Bytes := encodeWithLineBreaks 76 s

/-- `base64_decode(s, remove_linebreaks)`. -/
def base64DecodeLines (removeLinebreaks : Bool) (s : Bytes) : Option Bytes :=
  if s = [] then some []
  else if removeLinebreaks then base64Decode (s.filter (· ≠ newline))
  else base64Decode s

/-! ## The masks and the alphabets -/

theorem eightBits (a : UInt8) :
    (a.toNat &&& 0xfc) >>> 2 = a.toNat / 4 ∧ (a.toNat &&& 0x03) <<< 4 = a.toNat % 4 * 16 ∧
      (a.toNat &&& 0xf0) >>> 4 = a.toNat / 16 ∧ (a.toNat &&& 0x0f) <<< 2 = a.toNat % 16 * 4 ∧
      (a.toNat &&& 0xc0) >>> 6 = a.toNat / 64 ∧ a.toNat &&& 0x3f = a.toNat % 64 := by
  have ha := a.toNat_lt
  have hlow : ∀ k, a.toNat &&& (2 ^ k - 1) = a.toNat % 2 ^ k :=
    fun k => Nat.and_two_pow_sub_one_eq_mod a.toNat k
  have hhigh : ∀ j k, 8 ≤ j + k →
      (a.toNat &&& (2 ^ k - 1) <<< j) >>> j = a.toNat / 2 ^ j := by
    intro j k hjk
    have hlt : a.toNat / 2 ^ j < 2 ^ k := by
      rw [Nat.div_lt_iff_lt_mul (Nat.two_pow_pos j), ← Nat.pow_add, Nat.add_comm k j]
      exact Nat.lt_of_lt_of_le ha (Nat.pow_le_pow_right (by omega) hjk)
    rw [Nat.shiftRight_and_distrib, Nat.shiftLeft_shiftRight, Nat.shiftRight_eq_div_pow,
      Nat.and_two_pow_sub_one_eq_mod, Nat.mod_eq_of_lt hlt]
  refine ⟨hhigh 2 6 (by omega), ?_, hhigh 4 4 (by omega), ?_, hhigh 6 2 (by omega), hlow 6⟩
  · rw [Nat.shiftLeft_eq]
    exact congrArg (· * 16) (hlow 2)
  · rw [Nat.shiftLeft_eq]
    exact congrArg (· * 4) (hlow 4)

theorem encoded_one (url : Bool) (a : UInt8) :
    encoded url [a] = [charAt url (a.toNat / 4), charAt url (a.toNat % 4 * 16),
      trailingChar url, trailingChar url] := by
  obtain ⟨ha₀, ha₁, -, -, -, -⟩ := eightBits a
  rw [encoded, ha₀, ha₁]

theorem encoded_two (url : Bool) (a b : UInt8) :
    encoded url [a, b] = [charAt url (a.toNat / 4), charAt url (a.toNat % 4 * 16 + b.toNat / 16),
      charAt url (b.toNat % 16 * 4), trailingChar url] := by
  obtain ⟨ha₀, ha₁, -, -, -, -⟩ := eightBits a
  obtain ⟨-, -, hb₀, hb₁, -, -⟩ := eightBits b
  rw [encoded, ha₀, ha₁, hb₀, hb₁]

theorem encoded_three (url : Bool) (a b c : UInt8) (rest : Bytes) :
    encoded url (a :: b :: c :: rest) =
      charAt url (a.toNat / 4) :: charAt url (a.toNat % 4 * 16 + b.toNat / 16) ::
        charAt url (b.toNat % 16 * 4 + c.toNat / 64) :: charAt url (c.toNat % 64) ::
          encoded url rest := by
  obtain ⟨ha₀, ha₁, -, -, -, -⟩ := eightBits a
  obtain ⟨-, -, hb₀, hb₁, -, -⟩ := eightBits b
  obtain ⟨-, -, -, -, hc₀, hc₁⟩ := eightBits c
  rw [encoded, ha₀, ha₁, hb₀, hb₁, hc₀, hc₁]

theorem charAt_spec (url : Bool) {n : Nat} (h : n < 64) :
    posOfChar (charAt url n) = some n ∧ charAt url n ≠ newline := by
  revert n
  cases url <;> decide

theorem charAt_false {n : Nat} (h : n < 64) : charAt false n = ascii (base64Char n) := by
  revert n
  decide

theorem isPadding_trailingChar (url : Bool) : isPadding (trailingChar url) = true := by
  cases url <;> decide

theorem isPadding_trailing (url : Bool) (n : Nat) :
    ∀ p ∈ List.replicate n (trailingChar url), isPadding p = true := by
  intro p hp
  rw [List.eq_of_mem_replicate hp]
  exact isPadding_trailingChar url

/-! ## The loop -/

section Loop

variable {url : Bool} {bytes done rest : Bytes} {pos : BitVec 32} {turns : Nat}

theorem toNat_add_ofNat {k : Nat} (h : pos.toNat + k < 2 ^ 32) :
    (pos + BitVec.ofNat 32 k).toNat = pos.toNat + k := by
  have hk : (BitVec.ofNat 32 k).toNat = k := by
    rw [BitVec.toNat_ofNat, Nat.mod_eq_of_lt (by omega)]
  rw [BitVec.toNat_add_of_lt (by rwa [hk]), hk]

theorem byteAt_append {front : Bytes} {a : UInt8} (h : pos.toNat = front.length) :
    byteAt (front ++ a :: rest) pos = a.toNat := by
  rw [byteAt, h, List.getElem?_append_right (Nat.le_refl _)]
  simp

theorem encodeLoop_of_le (h : bytes.length ≤ pos.toNat) :
    encodeLoop url bytes turns pos = some [] := by
  cases turns with
  | zero => rw [encodeLoop, if_neg (Nat.not_lt.2 h)]
  | succ turns => rw [encodeLoop, if_neg (Nat.not_lt.2 h)]

theorem encodeLoop_of_lt (h : pos.toNat < bytes.length) :
    encodeLoop url bytes (turns + 1) pos =
      (encodeLoop url bytes turns (pos + 3#32)).map (encodeTurn url bytes pos ++ ·) := by
  rw [encodeLoop, if_pos h]

/-- From `2 ^ 32` bytes on the position wraps, and the loop never ends. -/
theorem encodeLoop_eq_none (h : 2 ^ 32 ≤ bytes.length) :
    encodeLoop url bytes turns pos = none := by
  induction turns generalizing pos with
  | zero => rw [encodeLoop, if_pos (pos.isLt.trans_le h)]
  | succ turns ih => rw [encodeLoop_of_lt (pos.isLt.trans_le h), ih, Option.map_none]

theorem encodeTurn_one {a : UInt8} (hpos : pos.toNat = done.length)
    (hlength : (done ++ [a]).length < 2 ^ 32) :
    encodeTurn url (done ++ [a]) pos = encoded url [a] := by
  rw [List.length_append, List.length_singleton] at hlength
  have hone : (pos + 1#32).toNat = done.length + 1 := by
    rw [toNat_add_ofNat (by omega), hpos]
  rw [encodeTurn, hone, if_neg (by simp), byteAt_append hpos, encoded]

theorem encodeTurn_two {a b : UInt8} (hpos : pos.toNat = done.length)
    (hlength : (done ++ [a, b]).length < 2 ^ 32) :
    encodeTurn url (done ++ [a, b]) pos = encoded url [a, b] := by
  simp only [List.length_append, List.length_cons, List.length_nil] at hlength
  have hone : (pos + 1#32).toNat = done.length + 1 := by
    rw [toNat_add_ofNat (by omega), hpos]
  have htwo : (pos + 2#32).toNat = done.length + 2 := by
    rw [toNat_add_ofNat (by omega), hpos]
  have hb : byteAt (done ++ [a, b]) (pos + 1#32) = b.toNat := by
    rw [List.append_cons]
    exact byteAt_append (by simpa using hone)
  rw [encodeTurn, hone, htwo, if_pos (by simp), if_neg (by simp), byteAt_append hpos, hb, encoded]

theorem encodeTurn_three {a b c : UInt8} (hpos : pos.toNat = done.length)
    (hlength : (done ++ a :: b :: c :: rest).length < 2 ^ 32) :
    encodeTurn url (done ++ a :: b :: c :: rest) pos ++ encoded url rest =
      encoded url (a :: b :: c :: rest) := by
  simp only [List.length_append, List.length_cons] at hlength
  have hone : (pos + 1#32).toNat = done.length + 1 := by
    rw [toNat_add_ofNat (by omega), hpos]
  have htwo : (pos + 2#32).toNat = done.length + 2 := by
    rw [toNat_add_ofNat (by omega), hpos]
  have hb : byteAt (done ++ a :: b :: c :: rest) (pos + 1#32) = b.toNat := by
    rw [List.append_cons]
    exact byteAt_append (by simpa using hone)
  have hc : byteAt (done ++ a :: b :: c :: rest) (pos + 2#32) = c.toNat := by
    rw [List.append_cons, List.append_cons]
    exact byteAt_append (by simpa using htwo)
  rw [encodeTurn, hone, htwo, if_pos (by simp), if_pos (by simp), byteAt_append hpos, hb, hc]
  simp only [encoded, List.cons_append, List.nil_append]

/-- Below `2 ^ 32` bytes no position wraps: it is a multiple of three, as `2 ^ 32 - 1` is. -/
theorem toNat_next (hdone : 3 ∣ done.length) (hpos : pos.toNat = done.length)
    (hrest : rest ≠ []) (hlength : (done ++ rest).length < 2 ^ 32) :
    (pos + 3#32).toNat = done.length + 3 := by
  have hlt := List.length_pos_of_ne_nil hrest
  rw [List.length_append] at hlength
  rw [toNat_add_ofNat (by omega), hpos]

theorem encodeLoop_next (hpos : pos.toNat = done.length) (hrest : rest ≠ [])
    (hturns : (rest.length + 2) / 3 ≤ turns) :
    encodeLoop url (done ++ rest) turns pos =
      (encodeLoop url (done ++ rest) (turns - 1) (pos + 3#32)).map
        (encodeTurn url (done ++ rest) pos ++ ·) := by
  have hlt := List.length_pos_of_ne_nil hrest
  obtain ⟨turns, rfl⟩ := Nat.exists_eq_add_one.2 (show 0 < turns by omega)
  exact encodeLoop_of_lt (by rw [hpos, List.length_append]; omega)

theorem encodeLoop_append (hdone : 3 ∣ done.length) (hpos : pos.toNat = done.length)
    (hlength : (done ++ rest).length < 2 ^ 32) (hturns : (rest.length + 2) / 3 ≤ turns) :
    encodeLoop url (done ++ rest) turns pos = some (encoded url rest) := by
  induction rest using encoded.induct generalizing done pos turns with
  | case1 => rw [encodeLoop_of_le (by simp [hpos]), encoded]
  | case2 a =>
      have hnext := toNat_next hdone hpos (List.cons_ne_nil _ _) hlength
      rw [encodeLoop_next hpos (List.cons_ne_nil _ _) hturns,
        encodeLoop_of_le (by rw [hnext]; simp), Option.map_some, List.append_nil,
        encodeTurn_one hpos hlength]
  | case3 a b =>
      have hnext := toNat_next hdone hpos (List.cons_ne_nil _ _) hlength
      rw [encodeLoop_next hpos (List.cons_ne_nil _ _) hturns,
        encodeLoop_of_le (by rw [hnext]; simp), Option.map_some, List.append_nil,
        encodeTurn_two hpos hlength]
  | case4 a b c rest ih =>
      have hnext := toNat_next hdone hpos (List.cons_ne_nil _ _) hlength
      have hshift : done ++ a :: b :: c :: rest = (done ++ [a, b, c]) ++ rest := by simp
      have hlater : encodeLoop url ((done ++ [a, b, c]) ++ rest) (turns - 1) (pos + 3#32) =
          some (encoded url rest) := by
        apply ih
        · rw [List.length_append]
          exact Nat.dvd_add hdone (Nat.dvd_refl 3)
        · rw [hnext, List.length_append]
          rfl
        · rw [← hshift]
          exact hlength
        · simp only [List.length_cons] at hturns
          omega
      rw [encodeLoop_next hpos (List.cons_ne_nil _ _) hturns, hshift, hlater,
        Option.map_some, ← hshift, encodeTurn_three hpos hlength]

end Loop

theorem base64Encode_eq (url : Bool) (data : Bytes) :
    base64Encode url data = if data.length < 2 ^ 32 then some (encoded url data) else none := by
  unfold base64Encode
  split_ifs with hlength
  · have h : encodeLoop url ([] ++ data) ((data.length + 2) / 3) 0#32 = some (encoded url data) :=
      encodeLoop_append (by simp) rfl hlength (Nat.le_refl _)
    exact h
  · exact encodeLoop_eq_none (Nat.not_lt.1 hlength)

/-! ## Decoding what was encoded -/

theorem base64Decode_encoded (url : Bool) (data : Bytes) :
    base64Decode (encoded url data) = some data := by
  have hpos : ∀ n < 64, posOfChar (charAt url n) = some n := fun n hn => (charAt_spec url hn).1
  induction data using encoded.induct with
  | case1 => rfl
  | case2 a =>
      have ha := a.toNat_lt
      have hchunk := decodeChunk_two (hpos (a.toNat / 4) (by omega))
        (hpos (a.toNat % 4 * 16) (by omega)) (isPadding_trailing url 2)
      rw [ofNat_eq_of_toNat (a := a) (by omega)] at hchunk
      simp only [List.replicate] at hchunk
      simp only [encoded_one, base64Decode, hchunk, bind, Option.bind_some,
        List.append_nil]
  | case3 a b =>
      have ha := a.toNat_lt
      have hb := b.toNat_lt
      have hchunk := decodeChunk_three (hpos (a.toNat / 4) (by omega))
        (hpos (a.toNat % 4 * 16 + b.toNat / 16) (by omega)) (hpos (b.toNat % 16 * 4) (by omega))
        (isPadding_trailing url 1)
      rw [ofNat_eq_of_toNat (a := a) (by omega), ofNat_eq_of_toNat (a := b) (by omega)] at hchunk
      simp only [List.replicate] at hchunk
      simp only [encoded_two, base64Decode, hchunk, bind, Option.bind_some,
        List.append_nil]
  | case4 a b c rest ih =>
      have ha := a.toNat_lt
      have hb := b.toNat_lt
      have hc := c.toNat_lt
      have hchunk := decodeChunk_four (hpos (a.toNat / 4) (by omega))
        (hpos (a.toNat % 4 * 16 + b.toNat / 16) (by omega))
        (hpos (b.toNat % 16 * 4 + c.toNat / 64) (by omega)) (hpos (c.toNat % 64) (by omega))
      rw [ofNat_eq_of_toNat (a := a) (by omega), ofNat_eq_of_toNat (a := b) (by omega),
        ofNat_eq_of_toNat (a := c) (by omega)] at hchunk
      simp only [encoded_three, base64Decode, hchunk, ih, bind,
        Option.bind_some, List.cons_append, List.nil_append]

/-- Without the URL alphabet it is the text that the C# side writes. -/
theorem encoded_eq_toBase64 (data : Bytes) :
    encoded false data = (toBase64 data).map ascii := by
  have hchar : ∀ n < 64, charAt false n = ascii (base64Char n) := fun n hn => charAt_false hn
  have hpad : trailingChar false = ascii '=' := rfl
  induction data using encoded.induct with
  | case1 => rfl
  | case2 a =>
      have ha := a.toNat_lt
      simp only [encoded_one, toBase64, hpad, List.map_cons, List.map_nil,
        hchar (a.toNat / 4) (by omega), hchar (a.toNat % 4 * 16) (by omega)]
  | case3 a b =>
      have ha := a.toNat_lt
      have hb := b.toNat_lt
      simp only [encoded_two, toBase64, hpad, List.map_cons, List.map_nil,
        hchar (a.toNat / 4) (by omega), hchar (a.toNat % 4 * 16 + b.toNat / 16) (by omega),
        hchar (b.toNat % 16 * 4) (by omega)]
  | case4 a b c rest ih =>
      have ha := a.toNat_lt
      have hb := b.toNat_lt
      have hc := c.toNat_lt
      simp only [encoded_three, toBase64, ih, List.map_cons,
        hchar (a.toNat / 4) (by omega), hchar (a.toNat % 4 * 16 + b.toNat / 16) (by omega),
        hchar (b.toNat % 16 * 4 + c.toNat / 64) (by omega), hchar (c.toNat % 64) (by omega)]

theorem forall_mem_encoded {p : UInt8 → Prop} {url : Bool}
    (hchar : ∀ n < 64, p (charAt url n)) (hpad : p (trailingChar url)) (data : Bytes) :
    ∀ chr ∈ encoded url data, p chr := by
  induction data using encoded.induct with
  | case1 => simp [encoded]
  | case2 a =>
      have ha := a.toNat_lt
      simp only [encoded_one, List.forall_mem_cons]
      exact ⟨hchar _ (by omega), hchar _ (by omega), hpad, hpad, by simp⟩
  | case3 a b =>
      have ha := a.toNat_lt
      have hb := b.toNat_lt
      simp only [encoded_two, List.forall_mem_cons]
      exact ⟨hchar _ (by omega), hchar _ (by omega), hchar _ (by omega), hpad, by simp⟩
  | case4 a b c rest ih =>
      have ha := a.toNat_lt
      have hb := b.toNat_lt
      have hc := c.toNat_lt
      simp only [encoded_three, List.forall_mem_cons]
      exact ⟨hchar _ (by omega), hchar _ (by omega), hchar _ (by omega), hchar _ (by omega), ih⟩

theorem newline_not_mem (url : Bool) (data : Bytes) : newline ∉ encoded url data := by
  intro hmem
  refine forall_mem_encoded (p := (· ≠ newline)) (fun n hn => (charAt_spec url hn).2) ?_ data
    newline hmem rfl
  cases url <;> decide

theorem length_encoded (url : Bool) (data : Bytes) :
    (encoded url data).length = (data.length + 2) / 3 * 4 := by
  induction data using encoded.induct with
  | case1 => rfl
  | case2 a => simp [encoded]
  | case3 a b => simp [encoded]
  | case4 a b c rest ih =>
      simp only [encoded, List.length_cons, ih]
      omega

/-- Every text is decoded to what was encoded, in either alphabet; in the plain one it is
the text that the C# side writes, and in the other it needs no escape in a URL. -/
theorem base64Encode_spec (data : Bytes) (h : data.length < 2 ^ 32) :
    (∀ url, (base64Encode url data).bind base64Decode = some data) ∧
      base64Encode false data = some (toUTF8Byte (String.ofList (toBase64 data))) ∧
      ∃ text, base64Encode true data = some text ∧
        ∀ chr ∈ text, chr ≠ ascii '+' ∧ chr ≠ ascii '/' ∧ chr ≠ ascii '=' := by
  have hencode : ∀ url, base64Encode url data = some (encoded url data) := by
    intro url
    rw [base64Encode_eq, if_pos h]
  refine ⟨fun url => ?_, ?_, encoded true data, hencode true, ?_⟩
  · rw [hencode]
    exact base64Decode_encoded url data
  · rw [hencode, encoded_eq_toBase64, toUTF8Byte_ofList (toBase64_ascii data)]
  · refine forall_mem_encoded (fun n hn => ?_) (by decide) data
    revert n
    decide

theorem base64Encode_spec_hi :
    (∀ url, (base64Encode url [104, 105]).bind base64Decode = some [104, 105]) ∧
      base64Encode false [104, 105] = some (toUTF8Byte "aGk=") ∧
      ∃ text, base64Encode true [104, 105] = some text ∧
        ∀ chr ∈ text, chr ≠ ascii '+' ∧ chr ≠ ascii '/' ∧ chr ≠ ascii '=' := by
  obtain ⟨hdecode, hplain, hurl⟩ := base64Encode_spec [104, 105] (by decide)
  exact ⟨hdecode, hplain.trans (by decide), hurl⟩

/-! ## The lines -/

theorem insertLinebreaksFrom_eq {distance : Nat} [NeZero distance] (s : Bytes) (done : Bytes) :
    insertLinebreaksFrom distance (done ++ s) (done.length + distance) =
      done ++ breakLines distance newline s := by
  induction s using lines_induction (n := distance) generalizing done with
  | last s h =>
      rw [insertLinebreaksFrom, if_neg (by rw [List.length_append]; omega), breakLines_of_le h]
  | more line rest hline hrest ih =>
      have hpos := List.length_pos_of_ne_nil hrest
      have hinsert : (done ++ (line ++ rest)).insertIdx (done.length + distance) newline =
          (done ++ line ++ [newline]) ++ rest := by
        rw [← List.append_assoc, ← hline, ← List.length_append, insertIdx_append,
          List.append_assoc (done ++ line), List.singleton_append]
      have hnext : done.length + distance + (distance + 1) =
          (done ++ line ++ [newline]).length + distance := by
        simp only [List.length_append, List.length_singleton, hline]
        omega
      rw [insertLinebreaksFrom, if_pos (by simp only [List.length_append]; omega), hinsert, hnext,
        ih, breakLines_append hline hrest]
      simp only [List.append_assoc, List.singleton_append]

theorem insertLinebreaks_eq (str : Bytes) (distance : Nat) [NeZero distance] :
    insertLinebreaks str distance = breakLines distance newline str := by
  unfold insertLinebreaks
  split_ifs with hempty
  · obtain rfl := List.length_eq_zero_iff.1 hempty
    exact (breakLines_of_le (Nat.zero_le _)).symm
  · have h : insertLinebreaksFrom distance ([] ++ str) (0 + distance) =
        [] ++ breakLines distance newline str := insertLinebreaksFrom_eq str []
    simpa using h

theorem decodeChunk_newline (chunk : Bytes) : decodeChunk (newline :: chunk) = none := by
  have hnone : posOfChar newline = none := by decide
  simp only [decodeChunk, List.getElem?_cons_zero, bind, Option.bind_some, hnone,
    Option.bind_none, Option.bind_fun_none]

/-- Unless it is removed, a line break between two chunks stops the decoder. -/
theorem base64Decode_newline {front : Bytes} (hfront : 4 ∣ front.length) (rest : Bytes) :
    base64Decode (front ++ newline :: rest) = none := by
  induction front using base64Decode.induct with
  | case1 =>
      rcases rest with _ | ⟨x, _ | ⟨y, _ | ⟨z, rest⟩⟩⟩
      all_goals simp [base64Decode, decodeChunk_newline]
  | case2 w x y z front ih =>
      rw [List.length_cons, List.length_cons, List.length_cons, List.length_cons] at hfront
      have hrest := ih (by omega)
      simp only [List.cons_append, base64Decode, hrest, bind, Option.bind_none,
        Option.bind_fun_none]
  | case3 front hne hfour =>
      rcases front with _ | ⟨w, _ | ⟨x, _ | ⟨y, _ | ⟨z, front⟩⟩⟩⟩
      · exact absurd rfl hne
      · simp at hfront
      · simp at hfront
      · simp at hfront
      · exact absurd rfl (hfour w x y z front)

/-- The text is the encoding in full lines, except perhaps for the last one; without its
line breaks it is decoded to what was encoded, and with them only if there are none. -/
structure Wrapped (lineLength : Nat) (data text : Bytes) : Prop where
  inLines : ∃ ls : List Bytes, text = [newline].intercalate ls ∧
    base64Encode false data = some ls.flatten ∧ (∀ line ∈ ls, newline ∉ line) ∧
    (∀ line ∈ ls.dropLast, line.length = lineLength) ∧ ∀ line ∈ ls, line.length ≤ lineLength
  removed : base64DecodeLines true text = some data
  kept : base64DecodeLines false text =
    if (data.length + 2) / 3 * 4 ≤ lineLength then some data else none

theorem encodeWithLineBreaks_eq (lineLength : Nat) [NeZero lineLength] {data : Bytes}
    (h : data.length < 2 ^ 32) :
    encodeWithLineBreaks lineLength data =
      some (breakLines lineLength newline (encoded false data)) := by
  rw [encodeWithLineBreaks, base64Encode_eq, if_pos h, Option.map_some, insertLinebreaks_eq]

theorem base64DecodeLines_of_not_newline {s : Bytes} (h : newline ∉ s) (removeLinebreaks : Bool) :
    base64DecodeLines removeLinebreaks s = base64Decode s := by
  have hkeep : s.filter (· ≠ newline) = s := by
    rw [List.filter_eq_self]
    intro chr hchr
    have hne : chr ≠ newline := fun heq => h (by rwa [← heq])
    simpa using hne
  unfold base64DecodeLines
  split_ifs with hempty
  · rw [hempty, base64Decode]
  · rw [hkeep]
  · rfl

theorem breakLines_ne_nil {lineLength : Nat} [NeZero lineLength] {s : Bytes} (hs : s ≠ []) :
    breakLines lineLength newline s ≠ [] := by
  induction s using lines_induction (n := lineLength) with
  | last s h => rwa [breakLines_of_le h]
  | more line rest hline hrest ih => simp [breakLines_append hline hrest]

theorem wrapped_breakLines (lineLength : Nat) [NeZero lineLength] (hfour : 4 ∣ lineLength)
    {data : Bytes} (h : data.length < 2 ^ 32) :
    Wrapped lineLength data (breakLines lineLength newline (encoded false data)) := by
  have hnewline := newline_not_mem false data
  have hlength := length_encoded false data
  constructor
  · obtain ⟨hfull, hle⟩ := lines_length (n := lineLength) (encoded false data)
    have hflatten := flatten_lines (n := lineLength) (encoded false data)
    refine ⟨_, rfl, ?_, fun line hline hmem => hnewline ?_, hfull, hle⟩
    · rw [base64Encode_eq, if_pos h, hflatten]
    · rw [← hflatten]
      exact List.mem_flatten_of_mem hline hmem
  · rcases eq_or_ne (encoded false data) [] with hnil | hne
    · have hdecode := base64Decode_encoded false data
      rw [hnil] at hdecode ⊢
      rw [breakLines_of_le (Nat.zero_le _), ← hdecode]
      rfl
    · rw [base64DecodeLines, if_neg (breakLines_ne_nil hne), if_pos rfl,
        filter_breakLines hnewline, base64Decode_encoded]
  · rw [← hlength]
    split_ifs with hfits
    · rw [breakLines_of_le hfits, base64DecodeLines_of_not_newline hnewline,
        base64Decode_encoded]
    · -- the first line is whole chunks, and then there is a line break
      have hlt := Nat.not_le.1 hfits
      have hne : (encoded false data).drop lineLength ≠ [] :=
        List.ne_nil_of_length_pos (by rw [List.length_drop]; omega)
      have hline : ((encoded false data).take lineLength).length = lineLength :=
        List.length_take_of_le (Nat.le_of_lt hlt)
      have hbreak := breakLines_append (d := newline) hline hne
      rw [List.take_append_drop] at hbreak
      rw [hbreak, base64DecodeLines, if_neg (by simp), if_neg Bool.false_ne_true]
      exact base64Decode_newline (by rw [hline]; exact hfour) _

theorem Wrapped.kept_iff {lineLength : Nat} {data text : Bytes}
    (h : Wrapped lineLength data text) :
    base64DecodeLines false text = some data ↔ (data.length + 2) / 3 * 4 ≤ lineLength := by
  rw [h.kept]
  split_ifs with hfits
  · exact iff_of_true rfl hfits
  · exact iff_of_false (by simp) hfits

/-- PEM and MIME texts are wrapped at 64 and 76 characters; without `remove_linebreaks`
they are decoded up to 48 and 57 bytes. -/
theorem base64EncodePem_mime_wrapped (data : Bytes) (h : data.length < 2 ^ 32) :
    ∃ pem mime, base64EncodePem data = some pem ∧ base64EncodeMime data = some mime ∧
      Wrapped 64 data pem ∧ Wrapped 76 data mime ∧
      (base64DecodeLines false pem = some data ↔ data.length ≤ 48) ∧
      (base64DecodeLines false mime = some data ↔ data.length ≤ 57) := by
  have hpem := wrapped_breakLines 64 (by decide) h
  have hmime := wrapped_breakLines 76 (by decide) h
  refine ⟨_, _, encodeWithLineBreaks_eq 64 h, encodeWithLineBreaks_eq 76 h, hpem, hmime, ?_, ?_⟩
  · rw [hpem.kept_iff]
    omega
  · rw [hmime.kept_iff]
    omega

theorem base64EncodePem_mime_wrapped_long :
    ∃ pem mime, base64EncodePem (List.replicate 50 104) = some pem ∧
      base64EncodeMime (List.replicate 50 104) = some mime ∧
      Wrapped 64 (List.replicate 50 104) pem ∧ Wrapped 76 (List.replicate 50 104) mime ∧
      base64DecodeLines false pem ≠ some (List.replicate 50 104) ∧
      base64DecodeLines false mime = some (List.replicate 50 104) := by
  obtain ⟨pem, mime, hpem, hmime, hwrapped, hwrapped', hlong, hshort⟩ :=
    base64EncodePem_mime_wrapped (List.replicate 50 104) (by decide)
  refine ⟨pem, mime, hpem, hmime, hwrapped, hwrapped', fun hkept => ?_, hshort.2 (by decide)⟩
  exact absurd (hlong.1 hkept) (by decide)

end NETConnect.CPlusConnectApp
