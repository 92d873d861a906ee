import NETConnect.Reference
/-!
# Multicast packets

What a node announces itself with: `MulticastPacket` and `Multicast.SendMessage`.
-/

namespace NETConnect

open Lib TextCodec

/-- An enumeration over `int`, cast from its number without a check. -/
structure MulticastAction where
  word : BitVec 32
  deriving DecidableEq, Repr

namespace MulticastAction

def join : MulticastAction := ⟨0⟩
def leave : MulticastAction := ⟨1⟩
def data : MulticastAction := ⟨2⟩

/-- It is one of the named values. -/
def IsDeclared (a : MulticastAction) : Prop := a = join ∨ a = leave ∨ a = data

instance (a : MulticastAction) : Decidable a.IsDeclared := inferInstanceAs (Decidable (_ ∨ _))

end MulticastAction

structure MulticastPacket where
  senderId : Guid
  data : Option Bytes
  action : MulticastAction
  deriving DecidableEq, Repr

/-- `SendMessage`: the datagram it hands to the socket. -/
def Multicast.sendMessage (J : JsonSerializer MulticastPacket (Option MulticastPacket))
    (senderId : Guid) (message : Option Bytes) (action : MulticastAction) : Option Bytes :=
  (J.serialize ⟨senderId, message, action⟩).map toUTF8Byte

namespace Reference

def ofFields (v : Guid × Option Bytes × Nat) : MulticastPacket :=
  ⟨v.1, v.2.1, ⟨BitVec.ofNat 32 v.2.2⟩⟩

def fields (p : MulticastPacket) : Guid × Option Bytes × Nat :=
  (p.senderId, p.data, p.action.word.toNat)

theorem ofFields_fields (p : MulticastPacket) : ofFields (fields p) = p := by
  rw [ofFields, fields, BitVec.ofNat_toNat, BitVec.setWidth_eq]

theorem digitChar_ne_brace : ∀ d < 10, digitChar d ≠ '\x7d' := by
  decide

/-- The text of a packet, with the number of its action. -/
def multicastPacket : TextCodec MulticastPacket :=
  (pair (after "\x7b\"SenderId\":".toList guid)
    (pair (after ",\"Data\":".toList byteArray)
      (after ",\"Action\":".toList (decimal '\x7d' digitChar_ne_brace)))).map
    ofFields fields ofFields_fields

end Reference

end NETConnect
