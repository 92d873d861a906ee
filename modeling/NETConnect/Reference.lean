import NETConnect.Lib.TextCodec
import NETConnect.Packet.PacketEncrypted
/-!
# A platform to evaluate on

Concrete serialisers and ciphers that satisfy the laws.  The texts are the ones
`System.Text.Json` writes.  The ciphers only look like ciphers: the keys of a pair
are told apart by their first byte and share the rest, and ChaCha's stream is one
byte repeated.
-/

namespace NETConnect.Reference

open Lib TextCodec

/-! ## Serialisers -/

/-- A reference type, whose null is the text `null`. -/
def nullable {T : Type} (codec : TextCodec T) : JsonSerializer T (Option T) where
  serialize v := some (String.ofList (codec.write v))
  deserialize s := if s = "null" then some none else (codec.parse s.toList).map some

/-- A text that begins with something visible other than an `n`. -/
def Opens (cs : List Char) : Prop := ∃ c rest, cs = c :: rest ∧ isWhiteSpace c = false ∧ c ≠ 'n'

theorem nullable_roundTrips {T : Type} {codec : TextCodec T} (h : ∀ v, Opens (codec.write v)) :
    (nullable codec).RoundTrips := by
  intro v
  obtain ⟨c, rest, hwrite, hvisible, hc⟩ := h v
  refine ⟨_, rfl, ?_, ?_⟩
  · simp [isNullOrWhiteSpace, hwrite, hvisible]
  · have hnull : String.ofList (codec.write v) ≠ "null" := by
      intro hnull
      have hlist := congrArg String.toList hnull
      rw [String.toList_ofList, hwrite] at hlist
      exact hc (List.cons.inj hlist).1
    simp only [nullable, if_neg hnull, String.toList_ofList, parse_write, Option.map_some]

def byteArray : TextCodec (Option Bytes) :=
  orElse "null".toList base64 fun _ _ => rfl

/-- A number of an enumeration, then `stop`. -/
def enumeration (stop : Char) (hstop : ∀ d < 10, digitChar d ≠ stop) :
    TextCodec PacketEncryptionType :=
  (decimal stop hstop).map (fun n => ⟨BitVec.ofNat 16 n⟩) (fun t => t.word.toNat) (by simp)

def packetEncrypted : TextCodec PacketEncrypted :=
  (pair (after "\x7b\"encryptedData\":".toList byteArray)
    (optional ",\"Nonce\":".toList base64
      (optional ",\"Tag\":".toList base64
        (after ",\"EncryptionType\":".toList (enumeration '\x7d' (by decide)))
        fun _ _ => rfl)
      (by rintro ⟨_ | _, _⟩ _ <;> rfl))).map
    (fun v => ⟨v.1, v.2.1, v.2.2.1, v.2.2.2⟩)
    (fun e => (e.encryptedData, e.nonce, e.tag, e.encryptionType)) (fun _ => rfl)

def byteArrays : TextCodec (Option (List (Option Bytes))) :=
  orElse "null".toList
    (array byteArray (by
      rintro (_ | b)
      · exact ⟨'n', _, rfl, by decide⟩
      · exact ⟨quote, _, rfl, by decide⟩))
    (by rintro (_ | _) _ <;> rfl)

def packetAuthentication : TextCodec PacketAuthentication :=
  (pair (after "\x7b\"EncryptionType\":".toList (enumeration ',' (by decide)))
    (pair (after "\"KeyData\":".toList byteArray)
      ((after ",\"ExtraData\":".toList byteArrays).before "\x7d".toList))).map
    (fun v => ⟨v.1, v.2.1, v.2.2⟩)
    (fun a => (a.encryptionType, a.keyData, a.extraData)) (fun _ => rfl)

theorem packetEncrypted_roundTrips : (nullable packetEncrypted).RoundTrips :=
  nullable_roundTrips fun _ => ⟨'\x7b', _, rfl, by decide, by decide⟩

theorem packetAuthentication_roundTrips : (nullable packetAuthentication).RoundTrips :=
  nullable_roundTrips fun _ => ⟨'\x7b', _, rfl, by decide, by decide⟩

def hexDigit (n : Nat) : Char := if n < 10 then Char.ofNat (48 + n) else Char.ofNat (87 + n)

def hexValue (c : Char) : Nat := if c.toNat < 58 then c.toNat - 48 else c.toNat - 87

theorem hexDigit_spec {n : Nat} (h : n < 16) :
    hexValue (hexDigit n) = n ∧ hexDigit n ≠ '-' ∧ hexDigit n ≠ quote := by
  revert n
  decide

def hexByte (b : UInt8) : List Char := [hexDigit (b.toNat / 16), hexDigit (b.toNat % 16)]

def ofHex : List Char → Bytes
  | c :: d :: rest => UInt8.ofNat (hexValue c * 16 + hexValue d) :: ofHex rest
  | _ => []

theorem hexByte_ne (b : UInt8) : ∀ c ∈ hexByte b, c ≠ '-' ∧ c ≠ quote := by
  have hb := b.toNat_lt
  intro c hc
  rcases List.mem_cons.1 hc with rfl | hc
  · exact (hexDigit_spec (by omega)).2
  · obtain rfl := List.mem_singleton.1 hc
    exact (hexDigit_spec (by omega)).2

theorem ofHex_hexByte (bs : Bytes) : ofHex (bs.flatMap hexByte) = bs := by
  induction bs with
  | nil => rfl
  | cons b bs ih =>
      have hb := b.toNat_lt
      obtain ⟨hhigh, -, -⟩ := hexDigit_spec (n := b.toNat / 16) (by omega)
      obtain ⟨hlow, -, -⟩ := hexDigit_spec (n := b.toNat % 16) (by omega)
      rw [List.flatMap_cons, hexByte, List.cons_append, List.cons_append, List.nil_append, ofHex,
        ih, hhigh, hlow, ofNat_eq_of_toNat (a := b) (by omega)]

/-- The 32 digits in groups of 8, 4, 4, 4 and 12. -/
def guidText (g : Guid) : List Char :=
  let hex (n count : Nat) := (((leBytes 16 g.value.toNat).reverse.drop n).take count).flatMap hexByte
  hex 0 4 ++ '-' :: hex 4 2 ++ '-' :: hex 6 2 ++ '-' :: hex 8 2 ++ '-' :: hex 10 6

def guidValue (cs : List Char) : Option Guid :=
  some ⟨BitVec.ofNat 128 (leValue (ofHex (cs.filter (· ≠ '-'))).reverse)⟩

theorem filter_hex (bs : Bytes) :
    (bs.flatMap hexByte).filter (· ≠ '-') = bs.flatMap hexByte := by
  refine List.filter_eq_self.2 fun c hc => ?_
  obtain ⟨b, -, hb⟩ := List.mem_flatMap.1 hc
  simpa using (hexByte_ne b c hb).1

theorem guidValue_guidText (g : Guid) : guidValue (guidText g) = some g := by
  obtain ⟨v⟩ := g
  have hlength : (leBytes 16 v.toNat).reverse.length = 16 := by simp
  generalize hbytes : (leBytes 16 v.toNat).reverse = bs at hlength
  have hgroups : bs.take 4 ++ ((bs.drop 4).take 2 ++ ((bs.drop 6).take 2 ++
      ((bs.drop 8).take 2 ++ (bs.drop 10).take 6))) = bs := by
    conv_rhs =>
      rw [← List.take_append_drop 4 bs, ← List.take_append_drop 2 (bs.drop 4), List.drop_drop,
        ← List.take_append_drop 2 (bs.drop 6), List.drop_drop,
        ← List.take_append_drop 2 (bs.drop 8), List.drop_drop]
    rw [List.take_of_length_le (l := bs.drop 10) (by rw [List.length_drop]; omega)]
  have hfilter : (guidText ⟨v⟩).filter (· ≠ '-') = bs.flatMap hexByte := by
    conv_rhs => rw [← hgroups]
    simp only [guidText, hbytes, List.drop_zero, List.filter_append, List.filter_cons, ne_eq,
      not_true_eq_false, decide_false, Bool.false_eq_true, if_false, List.flatMap_append]
    simp only [← ne_eq, filter_hex, List.append_assoc]
  rw [guidValue, hfilter, ofHex_hexByte, ← hbytes, List.reverse_reverse,
    leValue_leBytes_of_lt (by simpa using v.isLt), BitVec.ofNat_toNat, BitVec.setWidth_eq]

theorem guidText_ne_quote (g : Guid) : ∀ c ∈ guidText g, c ≠ quote := by
  have hhex : ∀ bs : Bytes, ∀ c ∈ bs.flatMap hexByte, c ≠ quote := by
    intro bs c hc
    obtain ⟨b, -, hb⟩ := List.mem_flatMap.1 hc
    exact (hexByte_ne b c hb).2
  have hhyphen : '-' ≠ quote := by decide
  intro c hc
  simp only [guidText, List.mem_append, List.mem_cons] at hc
  rcases hc with (((hc | rfl | hc) | rfl | hc) | rfl | hc) | rfl | hc
  all_goals first | exact hhyphen | exact hhex _ c hc

def guid : TextCodec Guid :=
  after [quote] (upTo quote guidText guidValue guidText_ne_quote guidValue_guidText)

/-! ## Ciphers -/

/-- The sizes that `RSA` accepts. -/
def IsLegalKeySize (keySize : Nat) : Prop := 512 ≤ keySize ∧ keySize ≤ 16384 ∧ keySize % 8 = 0

instance (keySize : Nat) : Decidable (IsLegalKeySize keySize) :=
  inferInstanceAs (Decidable (_ ∧ _ ∧ _))

def rsaCreate (keySize : Nat) (entropy : Bytes) : Option RSAExport :=
  if IsLegalKeySize keySize then
    some { privateKey := 1 :: (leBytes 4 keySize ++ entropy)
           publicKey := 0 :: (leBytes 4 keySize ++ entropy) }
  else none

def rsaKeySize : Bytes → Option Nat
  | 0 :: modulus => if 4 ≤ modulus.length then some (leValue (modulus.take 4)) else none
  | _ => none

/-- OAEP with SHA-256 leaves room for 66 bytes fewer than the modulus has. -/
def rsaEncrypt (publicKey data _seed : Bytes) : Option Bytes :=
  match publicKey with
  | 0 :: modulus =>
      if data.length + 66 ≤ leValue (modulus.take 4) / 8 then some (2 :: (modulus ++ data))
      else none
  | _ => none

def rsaDecrypt (privateKey data : Bytes) : Option Bytes :=
  match privateKey, data with
  | 1 :: modulus, 2 :: cipher =>
      if cipher.take modulus.length = modulus then some (cipher.drop modulus.length) else none
  | _, _ => none

def chaChaTag (key nonce data : Bytes) : Bytes :=
  leBytes 16 (leValue key + leValue nonce + leValue data)

def chaChaStream (key data : Bytes) : Bytes := data.map (· ^^^ key.headD 0)

def chaChaEncrypt (key nonce data : Bytes) : Option (Bytes × Bytes) :=
  if key.length = 32 ∧ nonce.length = 12 then
    some (chaChaStream key data, chaChaTag key nonce (chaChaStream key data))
  else none

def chaChaDecrypt (key nonce tag data : Bytes) : Option Bytes :=
  if key.length = 32 ∧ nonce.length = 12 ∧ tag = chaChaTag key nonce data then
    some (chaChaStream key data)
  else none

theorem chaChaStream_twice (key data : Bytes) :
    chaChaStream key (chaChaStream key data) = data := by
  rw [chaChaStream, chaChaStream, List.map_map]
  conv_rhs => rw [← List.map_id data]
  refine List.map_congr_left fun b _ => ?_
  rw [Function.comp_apply, UInt8.xor_assoc, UInt8.xor_self, UInt8.xor_zero, id_eq]

/-! ## The platform -/

/-- The times of a ping, as numbers of ticks. -/
def pingTracker : TextCodec PingTracker :=
  (pair (after "\x7b\"PingSentAt\":".toList (decimal ',' (by decide)))
    (pair (after "\"PingReceivedAt\":".toList (decimal ',' (by decide)))
      (after "\"PongReceivedAt\":".toList (decimal '\x7d' (by decide))))).map
    (fun v => ⟨v.1, v.2.1, v.2.2⟩)
    (fun p => (p.pingSentAt, p.pingReceivedAt, p.pongReceivedAt)) (fun _ => rfl)

theorem pingTracker_roundTrips : (nullable pingTracker).RoundTrips :=
  nullable_roundTrips fun _ => ⟨'\x7b', _, rfl, by decide, by decide⟩

/-- Of peer tables it knows the text `null` only. -/
def reference : Platform where
  guid :=
    { serialize := fun g => some (String.ofList (guid.write g))
      deserialize := fun s => guid.parse s.toList }
  byteArray := nullable base64
  packetAuthentication := nullable packetAuthentication
  packetEncrypted := nullable packetEncrypted
  pingTracker := nullable pingTracker
  peerTable :=
    { serialize := fun _ => none
      deserialize := fun s => if s = "null" then some none else none }
  peerTables :=
    { serialize := fun _ => none
      deserialize := fun s => if s = "null" then some none else none }
  hashToString data := String.ofList (toBase64 data)
  rsaCreate := rsaCreate
  rsaKeySize := rsaKeySize
  rsaEncrypt := rsaEncrypt
  rsaDecrypt := rsaDecrypt
  chaChaEncrypt := chaChaEncrypt
  chaChaDecrypt := chaChaDecrypt

theorem reference_rsaLaws : reference.RSALaws where
  decrypt_encrypt := by
    rintro keys data seed cipher ⟨keySize, entropy, hcreate⟩ hencrypt
    simp only [reference, rsaCreate] at hcreate
    split_ifs at hcreate
    obtain rfl := Option.some.inj hcreate
    simp only [reference, rsaEncrypt] at hencrypt
    split_ifs at hencrypt
    obtain rfl := Option.some.inj hencrypt
    simp only [reference, rsaDecrypt]
    rw [List.take_left' rfl, if_pos rfl, List.drop_left' rfl]
  decrypt_nil := by simp [reference, rsaDecrypt]
  keySize_nil := rfl

theorem reference_publicKeyOpensNothing : reference.PublicKeyOpensNothing := by
  rintro keys data ⟨keySize, entropy, hcreate⟩
  simp only [reference, rsaCreate] at hcreate
  split_ifs at hcreate
  obtain rfl := Option.some.inj hcreate
  simp [reference, rsaDecrypt]

theorem reference_chaChaLaws : reference.ChaChaLaws where
  encrypt_isSome := by
    intro key nonce data hnonce
    simp only [reference, chaChaEncrypt, hnonce, and_true]
    split_ifs with hkey <;> simp [hkey]
  decrypt_encrypt := by
    intro key nonce data cipher tag hencrypt
    simp only [reference, chaChaEncrypt] at hencrypt
    split_ifs at hencrypt with hsizes
    obtain ⟨rfl, rfl⟩ : chaChaStream key data = cipher ∧
        chaChaTag key nonce (chaChaStream key data) = tag := by simpa using hencrypt
    simp [reference, chaChaDecrypt, hsizes, chaChaStream_twice]
  length_decrypt := by
    intro key nonce tag data plain hdecrypt
    simp only [reference, chaChaDecrypt] at hdecrypt
    split_ifs at hdecrypt
    obtain rfl := Option.some.inj hdecrypt
    simp [chaChaStream]

theorem reference_chaChaAuthentic : reference.ChaChaAuthentic := by
  intro key nonce tag data plain hdecrypt
  simp only [reference, chaChaDecrypt] at hdecrypt
  split_ifs at hdecrypt with hsizes
  obtain rfl := Option.some.inj hdecrypt
  obtain ⟨hkey, hnonce, rfl⟩ := hsizes
  simp [reference, chaChaEncrypt, hkey, hnonce, chaChaStream_twice]

theorem reference_envelopeLonger : reference.EnvelopeLonger := by
  intro s e d hread hdata
  simp only [reference, nullable] at hread
  split_ifs at hread with hnull
  · simp at hread
  obtain ⟨e', hparse, he⟩ := Option.map_eq_some_iff.1 hread
  obtain rfl : e' = e := by simpa using he
  have hwrite := congrArg List.length (write_of_parse hparse)
  have hbase := length_le_toBase64 d
  rw [← String.length_toList, ← hwrite]
  obtain ⟨encryptedData, nonce, tag, encryptionType⟩ := e'
  obtain rfl : encryptedData = some d := hdata
  simp only [packetEncrypted, map, pair, after, byteArray, orElse, base64_write,
    List.length_append, List.length_cons]
  omega

end NETConnect.Reference
