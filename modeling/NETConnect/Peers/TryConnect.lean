import NETConnect.Peers.Peer
/-!
# Connecting to a peer

`int.Parse` and `BaseTCPClient.TryConnect`.  The endpoint is made outside the `try`
of `TryConnect`, so a port that is none comes out of it as an exception.  Whether a
text is an address, and whether the connection is made, is left to the surroundings.
-/

namespace NETConnect

/-! ## `int.Parse` -/

/-- The white space around a number. -/
def isNumberWhite (c : Char) : Bool := c.toNat = 0x20 || (0x9 ≤ c.toNat && c.toNat ≤ 0xD)

/-- The sign in front of a number. -/
def takeSign : List Char → Bool × List Char
  | '-' :: cs => (true, cs)
  | '+' :: cs => (false, cs)
  | cs => (false, cs)

/-- `int.Parse`.  A text that is no number throws before one that is too large does. -/
def parseInt (s : String) : Except Exn (BitVec 32) :=
  let (isNegative, cs) := takeSign (s.toList.dropWhile isNumberWhite)
  let digits := cs.takeWhile Char.isDigit
  let trailing := (cs.dropWhile Char.isDigit).dropWhile isNumberWhite
  if digits.isEmpty || !trailing.all (· = Char.ofNat 0) then .error .format
  else
    let magnitude := Nat.ofDigits 10 (digits.map fun c => c.toNat - 48).reverse
    if (if isNegative then 2 ^ 31 else 2 ^ 31 - 1) < magnitude then .error .overflow
    else .ok (BitVec.ofInt 32 (if isNegative then -(magnitude : Int) else magnitude))

example : parseInt " 50420 " = .ok 50420 := by decide

/-! ## `TryConnect` -/

/-- `IPEndPoint` takes the port. -/
def IsPort (port : BitVec 32) : Prop := 0 ≤ port.toInt ∧ port.toInt ≤ 65535

instance (port : BitVec 32) : Decidable (IsPort port) := inferInstanceAs (Decidable (_ ∧ _))

/-- What a call of `TryConnect` meets: whether `Connect` and `OnConnected` return, and
what the `PacketHelper` of the connection works with afterwards. -/
structure Dial where
  connects : Bool
  keys : SecurityKey
  io : Ambient
  deriving DecidableEq

namespace BaseTCPClient

/-- `TryConnect(IP, Port)`, with `IPAddress.TryParse` as `isIPAddress`. -/
def tryConnect (isIPAddress : String → Bool) (dial : Dial) (ip : Option String)
    (port : BitVec 32) : Except Exn Bool :=
  match ip with
  | none => .ok false
  | some ip =>
      if isIPAddress ip then
        if IsPort port then .ok dial.connects else .error .argumentOutOfRange
      else .ok false

/-- It throws only for a port that is none, at an address. -/
theorem tryConnect_ok_iff {isIPAddress : String → Bool} {dial : Dial} {ip : String}
    {port : BitVec 32} :
    (∃ connected, tryConnect isIPAddress dial (some ip) port = .ok connected) ↔
      (isIPAddress ip = true → IsPort port) := by
  unfold tryConnect
  by_cases haddress : isIPAddress ip = true
  · by_cases hport : IsPort port <;> simp [haddress, hport]
  · simp [haddress]

theorem tryConnect_true {isIPAddress : String → Bool} {dial : Dial} {ip : Option String}
    {port : BitVec 32} (h : tryConnect isIPAddress dial ip port = .ok true) :
    ∃ address, ip = some address ∧ isIPAddress address = true ∧ IsPort port := by
  unfold tryConnect at h
  split at h
  · simp at h
  · rename_i address
    split_ifs at h with haddress hport
    · exact ⟨address, rfl, haddress, hport⟩
    · simp at h

end BaseTCPClient

end NETConnect
