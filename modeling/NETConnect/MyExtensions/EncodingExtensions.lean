import NETConnect.Packet.Header
/-!
# Text and JSON

`ToUTF8Byte`, `ToUTF8String`, `ToJSON` and `IsValidJSON`.  Decoding replaces what
is not UTF-8, one replacement character for each longest part that could have
begun a character, so every byte array has a text.  The serialiser itself is a
parameter of the type it serialises.
-/

namespace NETConnect

/-! ## UTF-8 -/

/-- `Encoding.UTF8.GetBytes`. -/
def toUTF8Byte (utf8String : String) : Bytes :=
  utf8String.toList.flatMap String.utf8EncodeChar

/-- Whether `second` may follow `first` in a character of three or four bytes. -/
def isSecondByte (first second : UInt8) : Bool :=
  if first = 0xE0 then 0xA0 ≤ second && second ≤ 0xBF
  else if first = 0xED then 0x80 ≤ second && second ≤ 0x9F
  else if first = 0xF0 then 0x90 ≤ second && second ≤ 0xBF
  else if first = 0xF4 then 0x80 ≤ second && second ≤ 0x8F
  else 0xE1 ≤ first && first ≤ 0xF3 && 0x80 ≤ second && second ≤ 0xBF

/-- How many bytes after the first one replacement character stands for. -/
def illFormedTail : Bytes → Nat
  | first :: second :: rest =>
      if isSecondByte first second then
        match rest with
        | third :: _ => if 0xF0 ≤ first ∧ 0x80 ≤ third ∧ third ≤ 0xBF then 2 else 1
        | [] => 1
      else 0
  | _ => 0

/-- The characters of a byte array, each of at most four bytes; `fuel` bounds their
number. -/
def decodeUTF8 : (fuel : Nat) → Bytes → List Char
  | 0, _ => []
  | _, [] => []
  | fuel + 1, b :: bs =>
      match ((b :: bs).take 4).toByteArray.utf8DecodeChar? 0 with
      | some c => c :: decodeUTF8 fuel (bs.drop (c.utf8Size - 1))
      | none => '\uFFFD' :: decodeUTF8 fuel (bs.drop (illFormedTail (b :: bs)))

/-- `Encoding.UTF8.GetString`. -/
def getString (utf8Byte : Bytes) : String :=
  String.ofList (decodeUTF8 utf8Byte.length utf8Byte)

/-- `ToUTF8String`, on an array that may be null. -/
def toUTF8String : Option Bytes → Except Exn String
  | some utf8Byte => .ok (getString utf8Byte)
  | none => .error .argumentNull

theorem decodeUTF8_encode (cs : List Char) (fuel : Nat)
    (hfuel : (cs.flatMap String.utf8EncodeChar).length ≤ fuel) :
    decodeUTF8 fuel (cs.flatMap String.utf8EncodeChar) = cs := by
  induction cs generalizing fuel with
  | nil => cases fuel <;> rfl
  | cons c cs ih =>
      have hsize := String.length_utf8EncodeChar c
      have hpos := c.utf8Size_pos
      obtain ⟨b, bs, hbytes⟩ : ∃ b bs, String.utf8EncodeChar c = b :: bs :=
        List.exists_cons_of_ne_nil (List.ne_nil_of_length_pos (by omega))
      rw [List.flatMap_cons, hbytes, List.length_append, List.length_cons] at hfuel
      obtain ⟨fuel, rfl⟩ : ∃ n, fuel = n + 1 := Nat.exists_eq_succ_of_ne_zero (by omega)
      have hdecode : (((b :: (bs ++ cs.flatMap String.utf8EncodeChar)).take 4).toByteArray
          ).utf8DecodeChar? 0 = some c := by
        have hfour : (String.utf8EncodeChar c).length ≤ 4 := by
          rw [hsize]
          exact c.utf8Size_le_four
        rw [← List.cons_append, ← hbytes, List.take_append, List.take_of_length_le hfour,
          List.toByteArray_append]
        exact ByteArray.utf8DecodeChar?_utf8EncodeChar_append
      have hdrop : bs.length = c.utf8Size - 1 := by
        rw [hbytes, List.length_cons] at hsize
        omega
      rw [List.flatMap_cons, hbytes, List.cons_append, decodeUTF8, hdecode]
      simp only
      rw [List.drop_left' hdrop, ih fuel (by omega)]

@[simp] theorem getString_toUTF8Byte (s : String) : getString (toUTF8Byte s) = s := by
  rw [getString, toUTF8Byte, decodeUTF8_encode _ _ (Nat.le_refl _), String.ofList_toList]

@[simp] theorem toUTF8String_toUTF8Byte (s : String) :
    toUTF8String (some (toUTF8Byte s)) = .ok s := by
  rw [toUTF8String, getString_toUTF8Byte]

theorem length_getString_le (b : Bytes) : (getString b).length ≤ b.length := by
  have hchars : ∀ (fuel : Nat) (b : Bytes), (decodeUTF8 fuel b).length ≤ b.length := by
    intro fuel
    induction fuel with
    | zero => simp [decodeUTF8]
    | succ fuel ih =>
        intro b
        cases b with
        | nil => simp [decodeUTF8]
        | cons b bs =>
            rw [decodeUTF8]
            split
            all_goals
              rw [List.length_cons, List.length_cons, Nat.add_le_add_iff_right]
              refine (ih _).trans ?_
              rw [List.length_drop]
              exact Nat.sub_le _ _
  simpa [getString] using hchars b.length b

theorem toUTF8Byte_ne_nil {s : String} (h : s ≠ "") : toUTF8Byte s ≠ [] := by
  intro hnil
  have hs := getString_toUTF8Byte s
  rw [hnil] at hs
  exact h hs.symm

/-! ## JSON -/

/-- `char.IsWhiteSpace`. -/
def isWhiteSpace (c : Char) : Bool :=
  let n := c.toNat
  (0x9 ≤ n && n ≤ 0xD) || n = 0x20 || n = 0x85 || n = 0xA0 || n = 0x1680 ||
    (0x2000 ≤ n && n ≤ 0x200A) || n = 0x2028 || n = 0x2029 || n = 0x202F || n = 0x205F ||
    n = 0x3000

def isNullOrWhiteSpace (s : String) : Bool := s.toList.all isWhiteSpace

/-- `JsonSerializer` at one type: `none` is an exception.  For a reference type `T`
the result of `Deserialize` is an `Option T`, as the text `null` is read as null. -/
structure JsonSerializer (T : Type) (Result : Type) where
  serialize : T → Option String
  deserialize : String → Option Result

namespace JsonSerializer

variable {T Result : Type}

/-- `ToJSON`: an exception leaves the empty text. -/
def toJSON (J : JsonSerializer T Result) (obj : T) : String := (J.serialize obj).getD ""

/-- `IsValidJSON(out data)` on a text: `none` is the result `false`. -/
def isValidJSON (J : JsonSerializer T Result) (json : String) : Option Result :=
  if isNullOrWhiteSpace json then none else J.deserialize json

/-- `IsValidJSON(out data)` on a byte array. -/
def isValidJSONBytes (J : JsonSerializer T Result) (utf8 : Bytes) : Option Result :=
  J.isValidJSON (getString utf8)

/-- Deserialising inverts serialising, which succeeds; no JSON text is blank. -/
def RoundTrips (J : JsonSerializer T (Option T)) : Prop :=
  ∀ v, ∃ s, J.serialize v = some s ∧ isNullOrWhiteSpace s = false ∧
    J.deserialize s = some (some v)

theorem RoundTrips.isValidJSON_toJSON {J : JsonSerializer T (Option T)} (h : J.RoundTrips)
    (v : T) : J.isValidJSON (J.toJSON v) = some (some v) := by
  obtain ⟨s, hs, hblank, hread⟩ := h v
  rw [toJSON, hs, Option.getD_some, isValidJSON, hblank, if_neg Bool.false_ne_true, hread]

theorem RoundTrips.isValidJSONBytes_toJSON {J : JsonSerializer T (Option T)} (h : J.RoundTrips)
    (v : T) : J.isValidJSONBytes (toUTF8Byte (J.toJSON v)) = some (some v) := by
  rw [isValidJSONBytes, getString_toUTF8Byte, h.isValidJSON_toJSON]

theorem RoundTrips.toJSON_ne_empty {J : JsonSerializer T (Option T)} (h : J.RoundTrips)
    (v : T) : J.toJSON v ≠ "" := by
  intro hempty
  have hvalid := h.isValidJSON_toJSON v
  rw [hempty, isValidJSON, if_pos (by rfl)] at hvalid
  simp at hvalid

end JsonSerializer

end NETConnect
