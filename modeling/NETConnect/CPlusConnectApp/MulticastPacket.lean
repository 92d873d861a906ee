import NETConnect.CPlusConnectApp.Guid
import NETConnect.Multicast.MulticastPacket
/-!
# The multicast packets of the C++ node

`FromJson`, `TryFromJson` and `ToJson`.  The parser and the printer of the JSON library
are parameters, as functions from and to its values.
-/

namespace NETConnect.CPlusConnectApp

open Lib TextCodec Reference

/-! ## The JSON library -/

/-- A value of `ordered_json`.  Strings are their bytes; a number is an integer of 64
bits, or a double with its value. -/
inductive OrderedJson
  | null
  | boolean (value : Bool)
  | number (value : Int)
  | double (value : Rat)
  | string (text : Bytes)
  | array (items : List OrderedJson)
  | object (members : List (String × OrderedJson))

namespace OrderedJson

/-- `at(key)`. -/
def atKey (key : String) : OrderedJson → Option OrderedJson
  | object members => members.lookup key
  | _ => none

/-- `get<std::string>()`. -/
def getString : OrderedJson → Option Bytes
  | string text => some text
  | _ => none

/-- The conversion of a double to `int`, as x86-64 does it where it is undefined. -/
def truncate (value : Rat) : BitVec 32 :=
  let whole := value.num.tdiv value.den
  if -2 ^ 31 ≤ whole ∧ whole < 2 ^ 31 then BitVec.ofInt 32 whole else 0x80000000

/-- `get<int>()`. -/
def getInt : OrderedJson → Option (BitVec 32)
  | number value => some (BitVec.ofInt 32 value)
  | double value => some (truncate value)
  | boolean value => some (BitVec.ofNat 32 value.toNat)
  | _ => none

end OrderedJson

/-! ## Packets -/

/-- `enum MulticastAction : uint8_t`. -/
abbrev MulticastAction := BitVec 8

structure MulticastPacket where
  senderId : Xg.Guid
  data : Bytes
  action : MulticastAction
  deriving DecidableEq, Repr

namespace MulticastPacket

variable (parse : Bytes → Option OrderedJson) (dump : OrderedJson → Bytes)

/-- `FromJson`; `none` is the null pointer, which every exception leads to. -/
def fromJson (json : Bytes) : Option MulticastPacket := do
  let parsed ← parse json
  let guidStr ← (← parsed.atKey "SenderId").getString
  let base64Data ← (← parsed.atKey "Data").getString
  let decodedStr ← base64Decode base64Data
  let action ← (← parsed.atKey "Action").getInt
  some { senderId := Xg.Guid.ofString guidStr, data := decodedStr, action := action.setWidth 8 }

/-- `TryFromJson(Json, Packet)`, with what is in `Packet` afterwards. -/
def tryFromJson (json : Bytes) (packet : MulticastPacket) : Bool × MulticastPacket :=
  match fromJson parse json with
  | none => (false, packet)
  | some result => (true, result)

/-- The value that `ToJson` builds: a vector of bytes is an array of numbers. -/
def toOrderedJson (p : MulticastPacket) : OrderedJson :=
  .object
    [("SenderId", .string p.senderId.str),
      ("Data", .array (p.data.map fun b => .number b.toNat)),
      ("Action", .number p.action.toNat)]

def toJson (p : MulticastPacket) : Bytes := dump p.toOrderedJson

end MulticastPacket

/-! ## What the C# node sends -/

/-- The value of the text that `System.Text.Json` writes for a packet: a GUID is its
canonical text, an array of bytes is base64, an enumeration is its number. -/
def valueOf (p : NETConnect.MulticastPacket) : OrderedJson :=
  .object
    [("SenderId", .string (toUTF8Byte (String.ofList (guidText p.senderId)))),
      ("Data", match p.data with
        | none => .null
        | some data => .string (toUTF8Byte (String.ofList (toBase64 data)))),
      ("Action", .number p.action.word.toInt)]

/-- Every packet with a declared action is serialised, and the parser returns the value
of the text. -/
def Understands (J : JsonSerializer NETConnect.MulticastPacket (Option NETConnect.MulticastPacket))
    (parse : Bytes → Option OrderedJson) : Prop :=
  ∀ p, p.action.IsDeclared →
    ∃ text, J.serialize p = some text ∧ parse (toUTF8Byte text) = some (valueOf p)

namespace MulticastPacket

theorem fromJson_valueOf {parse : Bytes → Option OrderedJson} {json data : Bytes}
    {p : NETConnect.MulticastPacket} (hparse : parse json = some (valueOf p))
    (hdata : p.data = some data) :
    fromJson parse json = some ⟨Xg.Guid.ofCSharp p.senderId, data,
      (BitVec.ofInt 32 p.action.word.toInt).setWidth 8⟩ := by
  have hsenderId : (valueOf p).atKey "SenderId" =
      some (.string (toUTF8Byte (String.ofList (guidText p.senderId)))) := rfl
  have hdata' : (valueOf p).atKey "Data" =
      some (.string (toUTF8Byte (String.ofList (toBase64 data)))) := by
    rw [valueOf, hdata]
    rfl
  have haction : (valueOf p).atKey "Action" = some (.number p.action.word.toInt) := rfl
  simp only [fromJson, hparse, bind, Option.bind_some, hsenderId, hdata', haction,
    OrderedJson.getString, OrderedJson.getInt, base64Decode_text, Xg.Guid.ofString_guidText]

theorem toNat_of_isDeclared {action : NETConnect.MulticastAction} (h : action.IsDeclared) :
    ((BitVec.ofInt 32 action.word.toInt).setWidth 8).toNat = action.word.toNat := by
  rcases h with rfl | rfl | rfl <;> decide

/-- The C++ node reads what the C# node multicasts. -/
theorem tryFromJson_sendMessage
    (J : JsonSerializer NETConnect.MulticastPacket (Option NETConnect.MulticastPacket))
    (parse : Bytes → Option OrderedJson) (hread : Understands J parse)
    (senderId : NETConnect.Guid) (data : Bytes) (action : NETConnect.MulticastAction)
    (hdeclared : action.IsDeclared) (packet : MulticastPacket) :
    ∃ datagram result, Multicast.sendMessage J senderId (some data) action = some datagram ∧
      tryFromJson parse datagram packet = (true, result) ∧
      result.senderId.str = toUTF8Byte (String.ofList (guidText senderId)) ∧
      result.data = data ∧ result.action.toNat = action.word.toNat := by
  obtain ⟨text, hserialize, hparse⟩ := hread ⟨senderId, some data, action⟩ hdeclared
  have hresult := fromJson_valueOf hparse rfl
  refine ⟨toUTF8Byte text, ⟨Xg.Guid.ofCSharp senderId, data,
    (BitVec.ofInt 32 action.word.toInt).setWidth 8⟩, ?_, ?_, Xg.Guid.str_ofCSharp senderId, rfl, ?_⟩
  · rw [Multicast.sendMessage, hserialize, Option.map_some]
  · rw [tryFromJson, hresult]
  · exact toNat_of_isDeclared hdeclared

/-- The parser, on what the C# node writes. -/
def parseMulticast (json : Bytes) : Option OrderedJson :=
  (Reference.multicastPacket.parse (NETConnect.getString json).toList).map valueOf

theorem understands_parseMulticast :
    Understands (nullable Reference.multicastPacket) parseMulticast := by
  intro p _
  refine ⟨_, rfl, ?_⟩
  rw [parseMulticast, getString_toUTF8Byte, String.toList_ofList, parse_write, Option.map_some]

/-- Of two bytes, whose base64 text is padded. -/
theorem tryFromJson_sendMessage_hi :
    ∃ datagram result,
      Multicast.sendMessage (nullable Reference.multicastPacket) ⟨1⟩ (some [104, 105]) .data =
          some datagram ∧
        tryFromJson parseMulticast datagram ⟨Xg.Guid.zero, [7], 0⟩ = (true, result) ∧
        result.senderId.str = toUTF8Byte (String.ofList (guidText ⟨1⟩)) ∧
        result.data = [104, 105] ∧ result.action.toNat = (2#32).toNat :=
  tryFromJson_sendMessage (nullable Reference.multicastPacket) parseMulticast
    understands_parseMulticast ⟨1⟩ [104, 105] .data (Or.inr (Or.inr rfl)) ⟨Xg.Guid.zero, [7], 0⟩

/-! ## What the C++ node sends -/

/-- The parser returns the value that was printed. -/
def ReadsBack (parse : Bytes → Option OrderedJson) (dump : OrderedJson → Bytes)
    (p : MulticastPacket) : Prop :=
  parse (toJson dump p) = some p.toOrderedJson

/-- The text of a packet is read back as the packet, and its data is a base64 string. -/
def IsRead (parse : Bytes → Option OrderedJson) (dump : OrderedJson → Bytes)
    (p packet : MulticastPacket) : Prop :=
  tryFromJson parse (toJson dump p) packet = (true, p) ∧
    ∃ parsed, parse (toJson dump p) = some parsed ∧
      parsed.atKey "Data" = some (.string (toUTF8Byte (String.ofList (toBase64 p.data))))

/-- No packet is read back: the reader wants a string where the printer puts an array,
and so does the C# side. -/
theorem tryFromJson_toJson (parse : Bytes → Option OrderedJson) (dump : OrderedJson → Bytes)
    (p : MulticastPacket) (hparse : ReadsBack parse dump p) (packet : MulticastPacket) :
    ¬ IsRead parse dump p packet ∧
      tryFromJson parse (toJson dump p) packet = (false, packet) ∧
      ∀ parsed text, parse (toJson dump p) = some parsed →
        parsed.atKey "Data" ≠ some (.string text) := by
  have hdata : p.toOrderedJson.atKey "Data" =
      some (.array (p.data.map fun b => .number b.toNat)) := rfl
  have hsenderId : p.toOrderedJson.atKey "SenderId" = some (.string p.senderId.str) := rfl
  rw [ReadsBack] at hparse
  have hnull : fromJson parse (toJson dump p) = none := by
    simp only [fromJson, hparse, bind, Option.bind_some, hsenderId, hdata,
      OrderedJson.getString, Option.bind_none]
  have hnot : ∀ parsed text, parse (toJson dump p) = some parsed →
      parsed.atKey "Data" ≠ some (.string text) := by
    intro parsed text hparsed
    rw [hparse] at hparsed
    rw [← Option.some.inj hparsed, hdata]
    simp
  refine ⟨?_, by rw [tryFromJson, hnull], hnot⟩
  rintro ⟨-, parsed, hparsed, hstring⟩
  exact hnot parsed _ hparsed hstring

/-- A packet with two bytes of data, and its text. -/
def twoBytes : MulticastPacket := ⟨Xg.Guid.zero, [1, 2], 0⟩

def twoBytesText : Bytes :=
  toUTF8Byte ("\x7b\"SenderId\":\"00000000-0000-0000-0000-000000000000\"," ++
    "\"Data\":[1,2],\"Action\":0\x7d")

def parseTwoBytes (json : Bytes) : Option OrderedJson :=
  if json = twoBytesText then some twoBytes.toOrderedJson else none

theorem readsBack_twoBytes : ReadsBack parseTwoBytes (fun _ => twoBytesText) twoBytes := by
  rw [ReadsBack, toJson, parseTwoBytes, if_pos rfl]

theorem tryFromJson_toJson_twoBytes :
    ¬ IsRead parseTwoBytes (fun _ => twoBytesText) twoBytes twoBytes ∧
      tryFromJson parseTwoBytes (toJson (fun _ => twoBytesText) twoBytes) twoBytes =
        (false, twoBytes) ∧
      ∀ parsed text, parseTwoBytes (toJson (fun _ => twoBytesText) twoBytes) = some parsed →
        parsed.atKey "Data" ≠ some (.string text) :=
  tryFromJson_toJson parseTwoBytes (fun _ => twoBytesText) twoBytes readsBack_twoBytes twoBytes

theorem not_isRead_toJson :
    ¬ ∀ (parse : Bytes → Option OrderedJson) (dump : OrderedJson → Bytes)
        (p packet : MulticastPacket), ReadsBack parse dump p → IsRead parse dump p packet := by
  intro halways
  obtain ⟨-, parsed, hparsed, hdata⟩ :=
    halways parseTwoBytes (fun _ => twoBytesText) twoBytes twoBytes readsBack_twoBytes
  rw [readsBack_twoBytes] at hparsed
  obtain rfl := Option.some.inj hparsed
  have harray : twoBytes.toOrderedJson.atKey "Data" =
      some (.array (twoBytes.data.map fun b => .number b.toNat)) := rfl
  rw [harray] at hdata
  simp at hdata

end MulticastPacket

end NETConnect.CPlusConnectApp
