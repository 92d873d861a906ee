import NETConnect.CPlusConnectApp.MulticastPacket
/-!
# What the C++ node takes for a packet

The value of a well-formed text, field by field, and what `TryFromJson` lets through
besides.
-/

namespace NETConnect.CPlusConnectApp

open Lib TextCodec Reference

theorem forall₂_of_mapM {α β : Type*} {f : α → Option β} {xs : List α} {ys : List β}
    (h : xs.mapM f = some ys) : List.Forall₂ (fun x y => f x = some y) xs ys := by
  induction xs generalizing ys with
  | nil =>
      obtain rfl : [] = ys := by simpa using h
      exact List.Forall₂.nil
  | cons x xs ih =>
      rw [List.mapM_cons] at h
      obtain ⟨y, hy, h⟩ := Option.bind_eq_some_iff.1 h
      obtain ⟨rest, hrest, h⟩ := Option.bind_eq_some_iff.1 h
      obtain rfl : y :: rest = ys := Option.some.inj h
      exact List.Forall₂.cons hy (ih hrest)

/-! ## Base64 -/

/-- The bytes that six bits each make up. -/
def bytesOf : List Nat → Bytes
  | [] => []
  | [_] => []
  | [i, j] => [UInt8.ofNat (i * 4 + j / 16)]
  | [i, j, k] => [UInt8.ofNat (i * 4 + j / 16), UInt8.ofNat (j % 16 * 16 + k / 4)]
  | i :: j :: k :: l :: rest =>
      UInt8.ofNat (i * 4 + j / 16) :: UInt8.ofNat (j % 16 * 16 + k / 4) ::
        UInt8.ofNat (k % 4 * 64 + l) :: bytesOf rest

/-- The characters of base64, and of its variant for URLs. -/
def alphabetChar (url : Bool) (n : Nat) : Char :=
  if url ∧ n = 62 then '-' else if url ∧ n = 63 then '_' else base64Char n

def positionIn (url : Bool) (chr : UInt8) : Option Nat :=
  (List.range 64).find? fun n => chr = ascii (alphabetChar url n)

/-- What pads a text; in the variant for URLs it may be a dot. -/
def paddings (url : Bool) : List Char := if url then ['=', '.'] else ['=']

/-- Behind the characters stands nothing, or what makes them a multiple of four. -/
def IsPadded (url : Bool) (chars padding : Bytes) : Prop :=
  chars.length % 4 ≠ 1 ∧
    (padding = [] ∨ padding.length ≤ 2 ∧ (chars.length + padding.length) % 4 = 0 ∧
      ∃ pad ∈ paddings url, ∀ p ∈ padding, p = ascii pad)

instance (url : Bool) (chars padding : Bytes) : Decidable (IsPadded url chars padding) :=
  -- the lists are searched, not all characters and all bytes
  have (pad : Char) : Decidable (∀ p ∈ padding, p = ascii pad) :=
    List.decidableBAll _ padding
  have : Decidable (∃ pad ∈ paddings url, ∀ p ∈ padding, p = ascii pad) :=
    List.decidableBEx _ (paddings url)
  inferInstanceAs (Decidable (_ ∧ _))

/-- The value of a well-formed text in one of the two alphabets. -/
def base64ValueIn (url : Bool) (text : Bytes) : Option Bytes :=
  let chars := text.takeWhile fun c => (positionIn url c).isSome
  let padding := text.dropWhile fun c => (positionIn url c).isSome
  if IsPadded url chars padding then (chars.mapM (positionIn url)).map bytesOf else none

def base64Value (text : Bytes) : Option Bytes :=
  (base64ValueIn false text).or (base64ValueIn true text)

/-- Of two alphabets or two paddings in one text it makes nothing. -/
example : base64Value ([ascii '+', ascii '_']) = none ∧
    base64Value ([ascii 'A', ascii 'A', ascii '=', ascii '.']) = none := by decide

theorem posOfChar_of_positionIn {url : Bool} {chr : UInt8} {n : Nat}
    (h : positionIn url chr = some n) : posOfChar chr = some n := by
  have hknown : ∀ n < 64, ∀ url, posOfChar (ascii (alphabetChar url n)) = some n := by decide
  have hchr := List.find?_some h
  rw [of_decide_eq_true hchr]
  exact hknown n (List.mem_range.1 (List.mem_of_find?_eq_some h)) url

theorem isPadding_of_mem_paddings {url : Bool} {pad : Char} (h : pad ∈ paddings url) :
    isPadding (ascii pad) = true := by
  cases url
  · obtain rfl := List.mem_singleton.1 h
    decide
  · rcases List.mem_cons.1 h with rfl | h
    · decide
    · obtain rfl := List.mem_singleton.1 h
      decide

theorem base64Decode_last {w x : UInt8} (chunk : Bytes) {bytes : Bytes} (hlength : chunk.length ≤ 2)
    (h : decodeChunk (w :: x :: chunk) = some bytes) :
    base64Decode (w :: x :: chunk) = some bytes := by
  rcases chunk with _ | ⟨y, _ | ⟨z, _ | ⟨_, rest⟩⟩⟩
  · exact h
  · exact h
  · simp only [base64Decode, h, bind, Option.bind_some, List.append_nil]
  · simp only [List.length_cons] at hlength
    omega

theorem base64Decode_chars {url : Bool} {positions : List Nat} {chars padding : Bytes}
    (hchars : List.Forall₂ (fun c i => posOfChar c = some i) chars positions)
    (hpadded : IsPadded url chars padding) :
    base64Decode (chars ++ padding) = some (bytesOf positions) := by
  obtain ⟨hmod, hpadding⟩ := hpadded
  have hpads : ∀ p ∈ padding, isPadding p = true := by
    rcases hpadding with rfl | ⟨-, -, pad, hpad, hsame⟩
    · simp
    · intro p hp
      rw [hsame p hp]
      exact isPadding_of_mem_paddings hpad
  have hfill : padding.length = 0 ∨ padding.length ≤ 2 ∧ (chars.length + padding.length) % 4 = 0 := by
    rcases hpadding with rfl | ⟨htwo, hfour, -⟩
    · exact Or.inl rfl
    · exact Or.inr ⟨htwo, hfour⟩
  clear hpadding
  induction positions using bytesOf.induct generalizing chars with
  | case1 =>
      obtain rfl : chars = [] := List.forall₂_nil_right_iff.1 hchars
      rw [List.length_nil] at hfill
      obtain rfl : padding = [] := List.eq_nil_of_length_eq_zero (by omega)
      rfl
  | case2 i =>
      have hone : chars.length = 1 := hchars.length_eq
      omega
  | case3 i j =>
      obtain _ | ⟨hw, _ | ⟨hx, _ | _⟩⟩ := hchars
      simp only [List.length_cons, List.length_nil] at hfill
      exact base64Decode_last padding (by omega) (decodeChunk_two hw hx hpads)
  | case4 i j k =>
      obtain _ | ⟨hw, _ | ⟨hx, _ | ⟨hy, _ | _⟩⟩⟩ := hchars
      simp only [List.length_cons, List.length_nil] at hfill
      refine base64Decode_last (_ :: padding) ?_ (decodeChunk_three hw hx hy hpads)
      rw [List.length_cons]
      omega
  | case5 i j k l rest ih =>
      obtain _ | ⟨hw, _ | ⟨hx, _ | ⟨hy, _ | ⟨hz, hrest⟩⟩⟩⟩ := hchars
      simp only [List.length_cons] at hmod hfill
      have hmore := ih hrest (by omega) (by omega)
      simp only [List.cons_append, base64Decode, decodeChunk_four hw hx hy hz, hmore, bind,
        Option.bind_some, List.nil_append, bytesOf]

theorem base64Decode_of_valueIn {url : Bool} {text data : Bytes}
    (h : base64ValueIn url text = some data) : base64Decode text = some data := by
  rw [base64ValueIn] at h
  split at h
  · next hpadded =>
      obtain ⟨positions, hpositions, rfl⟩ := Option.map_eq_some_iff.1 h
      have hchars := (forall₂_of_mapM hpositions).imp fun _ _ => posOfChar_of_positionIn
      have hdecode := base64Decode_chars hchars hpadded
      rwa [List.takeWhile_append_dropWhile] at hdecode
  · simp at h

theorem base64Decode_of_value {text data : Bytes} (h : base64Value text = some data) :
    base64Decode text = some data := by
  rcases Option.or_eq_some_iff.1 h with hplain | ⟨-, hurl⟩
  · exact base64Decode_of_valueIn hplain
  · exact base64Decode_of_valueIn hurl

/-! ## What the decoder lets through -/

/-- Two characters, and after them what is no padding has to be characters too; nothing
behind padding is looked at. -/
def IsChunk (chunk : Bytes) : Prop :=
  (∃ w x, chunk[0]? = some w ∧ chunk[1]? = some x ∧ posOfChar w ≠ none ∧ posOfChar x ≠ none) ∧
    ∀ y, chunk[2]? = some y → isPadding y = false → posOfChar y ≠ none ∧
      ∀ z, chunk[3]? = some z → isPadding z = false → posOfChar z ≠ none

/-- Every four characters are let through, and the rest behind the fours. -/
def IsDecodable (text : Bytes) : Prop := ∀ k, 4 * k < text.length → IsChunk (text.drop (4 * k))

theorem decodeChunk_isSome_iff (chunk : Bytes) : (decodeChunk chunk).isSome ↔ IsChunk chunk := by
  rw [decodeChunk, IsChunk]
  cases hw : chunk[0]? with
  | none => cases hx : chunk[1]? <;> simp
  | some w =>
      cases hx : chunk[1]? with
      | none => simp
      | some x =>
          cases hpx : posOfChar x with
          | none => simp [hpx]
          | some j =>
              cases hpw : posOfChar w with
              | none => simp [hpw]
              | some i =>
                  cases hy : chunk[2]? with
                  | none => simp [hpx, hpw]
                  | some y =>
                      cases hpad : isPadding y with
                      | true => simp [hpx, hpw, hpad]
                      | false =>
                          cases hpy : posOfChar y with
                          | none => simp [hpx, hpw, hpad, hpy]
                          | some k =>
                              cases hz : chunk[3]? with
                              | none => simp [hpx, hpw, hpad, hpy]
                              | some z =>
                                  cases hpad' : isPadding z <;> cases hpz : posOfChar z <;>
                                    simp [hpx, hpw, hpad, hpy, hpad', hpz]

theorem isChunk_cons {w x y z : UInt8} {rest : Bytes} :
    IsChunk (w :: x :: y :: z :: rest) ↔ IsChunk [w, x, y, z] := by
  simp [IsChunk]

theorem isDecodable_cons {w x y z : UInt8} {rest : Bytes} :
    IsDecodable (w :: x :: y :: z :: rest) ↔ IsChunk [w, x, y, z] ∧ IsDecodable rest := by
  constructor
  · intro h
    refine ⟨isChunk_cons.1 (h 0 (by simp)), fun k hk => ?_⟩
    have hnext := h (k + 1) (by simp only [List.length_cons]; omega)
    rwa [Nat.mul_succ, List.drop_succ_cons, List.drop_succ_cons, List.drop_succ_cons,
      List.drop_succ_cons] at hnext
  · rintro ⟨hchunk, hrest⟩ k hk
    cases k with
    | zero => exact isChunk_cons.2 hchunk
    | succ k =>
        rw [Nat.mul_succ, List.drop_succ_cons, List.drop_succ_cons, List.drop_succ_cons,
          List.drop_succ_cons]
        exact hrest k (by simp only [List.length_cons] at hk; omega)

theorem base64Decode_isSome_iff (text : Bytes) : (base64Decode text).isSome ↔ IsDecodable text := by
  induction text using base64Decode.induct with
  | case1 => simp [base64Decode, IsDecodable]
  | case2 w x y z rest ih =>
      rw [isDecodable_cons, ← decodeChunk_isSome_iff, ← ih, base64Decode]
      cases decodeChunk [w, x, y, z] <;> cases base64Decode rest <;> simp
  | case3 chunk hne hfour =>
      obtain ⟨hlast, hlength⟩ : base64Decode chunk = decodeChunk chunk ∧
          0 < chunk.length ∧ chunk.length < 4 := by
        rcases chunk with _ | ⟨w, _ | ⟨x, _ | ⟨y, _ | ⟨z, rest⟩⟩⟩⟩
        · exact absurd rfl hne
        · exact ⟨rfl, by simp⟩
        · exact ⟨rfl, by simp⟩
        · exact ⟨rfl, by simp⟩
        · exact absurd rfl (hfour w x y z rest)
      rw [hlast, decodeChunk_isSome_iff]
      constructor
      · intro h k hk
        obtain rfl : k = 0 := by omega
        exact h
      · intro h
        exact h 0 hlength.1

/-! ## GUIDs -/

/-- The value of a hexadecimal digit, in either case. -/
def hexDigitValue (ch : UInt8) : Option Nat :=
  (List.range 16).find? fun n => ch = ascii (hexDigit n) || ch = ascii (hexDigit n).toUpper

/-- The bytes that two digits each make up. -/
def pairsOf : List Nat → Bytes
  | [] => []
  | [_] => []
  | a :: b :: rest => UInt8.ofNat (16 * a + b) :: pairsOf rest

theorem length_pairsOf (digits : List Nat) : (pairsOf digits).length = digits.length / 2 := by
  induction digits using pairsOf.induct with
  | case1 => rfl
  | case2 a => simp [pairsOf]
  | case3 a b rest ih =>
      rw [pairsOf, List.length_cons, ih, List.length_cons, List.length_cons]
      omega

/-- The value of a text of sixteen hexadecimal byte pairs, with hyphens anywhere. -/
def hexGuid (text : Bytes) : Option Xg.Guid :=
  ((text.filter (· ≠ ascii '-')).mapM hexDigitValue).bind fun digits =>
    if h : digits.length = 32 then some ⟨pairsOf digits, by rw [length_pairsOf, h]⟩ else none

/-- The constructor takes the character for the digit it is. -/
def IsDigit (ch : UInt8) (n : Nat) : Prop :=
  ch ≠ ascii '-' ∧ Xg.isValidHexChar ch = true ∧ Xg.hexDigitToChar ch = UInt8.ofNat n

instance (ch : UInt8) (n : Nat) : Decidable (IsDigit ch n) :=
  inferInstanceAs (Decidable (_ ∧ _))

theorem isDigit_of_value {ch : UInt8} {n : Nat} (h : hexDigitValue ch = some n) : IsDigit ch n := by
  have hdigit : ∀ n < 16,
      IsDigit (ascii (hexDigit n)) n ∧ IsDigit (ascii (hexDigit n).toUpper) n := by
    decide
  obtain ⟨hlower, hupper⟩ := hdigit n (List.mem_range.1 (List.mem_of_find?_eq_some h))
  have hch := List.find?_some h
  rw [Bool.or_eq_true, decide_eq_true_iff, decide_eq_true_iff] at hch
  rcases hch with rfl | rfl
  · exact hlower
  · exact hupper

theorem readChars_filter (charOne : Option UInt8) (bytes text : Bytes) :
    Xg.readChars charOne bytes text =
      Xg.readChars charOne bytes (text.filter (· ≠ ascii '-')) := by
  induction text generalizing charOne bytes with
  | nil => rfl
  | cons ch rest ih =>
      by_cases hhyphen : ch = ascii '-'
      · rw [hhyphen, Xg.readChars_hyphen, List.filter_cons_of_neg (by simp), ih]
      · rw [List.filter_cons_of_pos (by simpa using hhyphen)]
        simp only [Xg.readChars, if_neg hhyphen]
        split
        · rfl
        · cases charOne <;> exact ih _ _

theorem readChars_digits {digits : List Nat} {chars bytes : Bytes}
    (hchars : List.Forall₂ (fun ch n => hexDigitValue ch = some n) chars digits)
    (heven : digits.length % 2 = 0) (hroom : bytes.length + digits.length / 2 ≤ 16) :
    Xg.readChars none bytes chars = some (bytes ++ pairsOf digits) := by
  induction digits using pairsOf.induct generalizing chars bytes with
  | case1 =>
      obtain rfl := List.forall₂_nil_right_iff.1 hchars
      simp [Xg.readChars, pairsOf]
  | case2 a => simp at heven
  | case3 a b rest ih =>
      obtain ⟨one, chars', ha, htail, rfl⟩ := List.forall₂_cons_right_iff.1 hchars
      obtain ⟨two, chars, hb, htail', rfl⟩ := List.forall₂_cons_right_iff.1 htail
      obtain ⟨hone, hvalid, hvalue⟩ := isDigit_of_value ha
      obtain ⟨htwo, hvalid', hvalue'⟩ := isDigit_of_value hb
      simp only [List.length_cons] at heven hroom
      have hfull : ¬ 16 ≤ bytes.length := by omega
      have hpair : Xg.hexPairToChar one two = UInt8.ofNat (16 * a + b) := by
        rw [Xg.hexPairToChar, hvalue, hvalue', UInt8.ofNat_add, UInt8.ofNat_mul, UInt8.mul_comm]
        rfl
      have hroom' : (bytes ++ [UInt8.ofNat (16 * a + b)]).length + rest.length / 2 ≤ 16 := by
        rw [List.length_append, List.length_singleton]
        omega
      have hmore := ih htail' (by omega) hroom'
      simp only [Xg.readChars, if_neg hone, if_neg htwo, hvalid, hvalid', hfull, false_or,
        Bool.true_eq_false, if_false, hpair, hmore, pairsOf, List.append_assoc,
        List.singleton_append]

theorem ofString_of_value {text : Bytes} {guid : Xg.Guid} (h : hexGuid text = some guid) :
    Xg.Guid.ofString text = guid := by
  rw [hexGuid] at h
  obtain ⟨digits, hdigits, h⟩ := Option.bind_eq_some_iff.1 h
  split at h
  · next hlength =>
      obtain rfl := Option.some.inj h
      have hroom : ([] : Bytes).length + digits.length / 2 ≤ 16 := by
        rw [List.length_nil]
        omega
      have hread := readChars_digits (forall₂_of_mapM hdigits) (by omega) hroom
      rw [← readChars_filter, List.nil_append] at hread
      rw [Xg.Guid.ofString, hread]
      exact dif_pos _
  · simp at h

/-! ## Packets -/

/-- The declared action that a number stands for. -/
def declaredAction : OrderedJson → Option MulticastAction
  | .number value => if value ∈ [0, 1, 2] then some (BitVec.ofInt 8 value) else none
  | .double value =>
      if value.den = 1 ∧ value.num ∈ [0, 1, 2] then some (BitVec.ofInt 8 value.num) else none
  | _ => none

/-- The packet that a well-formed text denotes. -/
def denoted (v : OrderedJson) : Option MulticastPacket := do
  let senderId ← hexGuid (← (← v.atKey "SenderId").getString)
  let data ← base64Value (← (← v.atKey "Data").getString)
  let action ← declaredAction (← v.atKey "Action")
  some { senderId, data, action }

/-- What `get<int>()` takes. -/
def OrderedJson.IsArithmetic : OrderedJson → Prop
  | boolean _ | number _ | double _ => True
  | _ => False

/-- No step of `FromJson` throws: two strings, the second one decodable, and a number or a
truth value. -/
structure IsReadable (v : OrderedJson) : Prop where
  senderId : ∃ text, v.atKey "SenderId" = some (.string text)
  data : ∃ text, v.atKey "Data" = some (.string text) ∧ IsDecodable text
  action : ∃ value, v.atKey "Action" = some value ∧ value.IsArithmetic

/-- The text is read as the packet it denotes, and refused if it denotes none. -/
def ReadsExactly (parse : Bytes → Option OrderedJson) (json : Bytes) (packet : MulticastPacket) :
    Prop :=
  MulticastPacket.tryFromJson parse json packet =
    match (parse json).bind denoted with
    | some result => (true, result)
    | none => (false, packet)

theorem getString_eq_some_iff {v : OrderedJson} {text : Bytes} :
    v.getString = some text ↔ v = .string text := by
  cases v <;> simp [OrderedJson.getString]

theorem getInt_of_declaredAction {v : OrderedJson} {action : MulticastAction}
    (h : declaredAction v = some action) : ∃ n, v.getInt = some n ∧ n.setWidth 8 = action := by
  have hsmall : ∀ value ∈ ([0, 1, 2] : List Int),
      (BitVec.ofInt 32 value).setWidth 8 = BitVec.ofInt 8 value ∧
        -2 ^ 31 ≤ value ∧ value < 2 ^ 31 := by
    decide
  cases v with
  | number value =>
      obtain ⟨hvalue, rfl⟩ : value ∈ [0, 1, 2] ∧ BitVec.ofInt 8 value = action := by
        simpa [declaredAction] using h
      exact ⟨_, rfl, (hsmall value hvalue).1⟩
  | double value =>
      obtain ⟨⟨hden, hnum⟩, rfl⟩ : (value.den = 1 ∧ value.num ∈ [0, 1, 2]) ∧
          BitVec.ofInt 8 value.num = action := by
        simpa [declaredAction] using h
      obtain ⟨hwidth, hrange⟩ := hsmall value.num hnum
      refine ⟨_, rfl, ?_⟩
      rw [OrderedJson.truncate, hden, Nat.cast_one, Int.tdiv_one, if_pos hrange, hwidth]
  | _ => simp [declaredAction] at h

theorem getInt_ne_none_iff {v : OrderedJson} : v.getInt ≠ none ↔ v.IsArithmetic := by
  cases v <;> simp [OrderedJson.getInt, OrderedJson.IsArithmetic]

theorem fromJson_of_denoted {parse : Bytes → Option OrderedJson} {json : Bytes} {v : OrderedJson}
    {p : MulticastPacket} (hparse : parse json = some v) (h : denoted v = some p) :
    MulticastPacket.fromJson parse json = some p := by
  simp only [denoted, bind, Option.bind_eq_some_iff] at h
  obtain ⟨guid, hguid, guidStr, hguidStr, senderId, hsenderId, base, hbase, base64Data, hbase64Data,
    data, hdata, number, hnumber, action, haction, hp⟩ := h
  obtain ⟨n, hn, rfl⟩ := getInt_of_declaredAction haction
  simp only [MulticastPacket.fromJson, hparse, hguid, hguidStr, hbase, hbase64Data,
    base64Decode_of_value hdata, hnumber, hn, ofString_of_value hsenderId, bind, Option.bind_some]
  exact hp

theorem fromJson_ne_none_iff {parse : Bytes → Option OrderedJson} {json : Bytes} {v : OrderedJson}
    (hparse : parse json = some v) :
    MulticastPacket.fromJson parse json ≠ none ↔ IsReadable v := by
  rw [Option.ne_none_iff_exists']
  simp only [MulticastPacket.fromJson, hparse, bind, Option.bind_some, Option.bind_eq_some_iff]
  constructor
  · rintro ⟨p, guid, hguid, guidStr, hguidStr, base, hbase, base64Data, hbase64Data, data, hdata,
      number, hnumber, n, hn, -⟩
    rw [getString_eq_some_iff] at hguidStr hbase64Data
    subst hguidStr hbase64Data
    exact
      { senderId := ⟨guidStr, hguid⟩
        data := ⟨base64Data, hbase, (base64Decode_isSome_iff _).1 (Option.isSome_of_mem hdata)⟩
        action := ⟨number, hnumber, getInt_ne_none_iff.1 (by simp [hn])⟩ }
  · rintro ⟨⟨guidStr, hguid⟩, ⟨base64Data, hbase, hdecodable⟩, number, hnumber, harith⟩
    obtain ⟨data, hdata⟩ := Option.isSome_iff_exists.1 ((base64Decode_isSome_iff _).2 hdecodable)
    obtain ⟨n, hn⟩ := Option.ne_none_iff_exists'.1 (getInt_ne_none_iff.2 harith)
    exact ⟨_, _, hguid, guidStr, rfl, _, hbase, base64Data, rfl, data, hdata, number, hnumber, n, hn,
      rfl⟩

/-- The reader is exact on the texts that denote a packet and on those that make it throw,
and on no others. -/
theorem readsExactly_iff (parse : Bytes → Option OrderedJson) (json : Bytes)
    (packet : MulticastPacket) :
    ReadsExactly parse json packet ↔
      ∀ v, parse json = some v → IsReadable v → denoted v ≠ none := by
  rw [ReadsExactly, MulticastPacket.tryFromJson]
  cases hparse : parse json with
  | none =>
      have hnull : MulticastPacket.fromJson parse json = none := by
        simp [MulticastPacket.fromJson, hparse]
      simp [hnull]
  | some v =>
      rw [Option.bind_some]
      simp only [Option.some.injEq, forall_eq']
      cases hdenoted : denoted v with
      | some p => simp [fromJson_of_denoted hparse hdenoted]
      | none =>
          rw [← fromJson_ne_none_iff hparse]
          cases MulticastPacket.fromJson parse json <;> simp

/-- A text with the sender `x`. -/
def senderX : OrderedJson :=
  .object [("SenderId", .string [ascii 'x']), ("Data", .string []), ("Action", .number 0)]

def senderXText : Bytes :=
  toUTF8Byte "\x7b\"SenderId\":\"x\",\"Data\":\"\",\"Action\":0\x7d"

/-- It is taken for a packet of the nil GUID. -/
theorem not_readsExactly :
    ¬ ∀ (parse : Bytes → Option OrderedJson) (json : Bytes) (packet : MulticastPacket),
        ReadsExactly parse json packet := by
  intro halways
  let parse (json : Bytes) : Option OrderedJson := if json = senderXText then some senderX else none
  have hexact := halways parse senderXText ⟨Xg.Guid.zero, [7], 1⟩
  have hparse : parse senderXText = some senderX := if_pos rfl
  have hread : MulticastPacket.tryFromJson parse senderXText ⟨Xg.Guid.zero, [7], 1⟩ =
      (true, ⟨Xg.Guid.zero, [], 0⟩) := by
    rw [MulticastPacket.tryFromJson, MulticastPacket.fromJson, hparse]
    rfl
  have hnone : denoted senderX = none := rfl
  rw [ReadsExactly, hread, hparse, Option.bind_some, hnone] at hexact
  simp at hexact

end NETConnect.CPlusConnectApp
