import NETConnect.Lib.LittleEndian
import Mathlib.Data.Nat.Digits.Lemmas
/-!
# Text codecs

A codec writes a value as text and reads it back, whatever stands behind it.  The
combinators below build the codec of a record from those of its fields, and the
round trip is part of each of them.
-/

namespace NETConnect.Lib

structure TextCodec (α : Type*) where
  write : α → List Char
  read : List Char → Option (α × List Char)
  read_write : ∀ a rest, read (write a ++ rest) = some (a, rest)

namespace TextCodec

variable {α β : Type*}

/-! ## Combinators -/

/-- What is left of a text after a given beginning. -/
def strip : List Char → List Char → Option (List Char)
  | [], cs => some cs
  | _ :: _, [] => none
  | k :: ks, c :: cs => if k = c then strip ks cs else none

@[simp] theorem strip_append (key rest : List Char) : strip key (key ++ rest) = some rest := by
  induction key with
  | nil => rfl
  | cons k ks ih => simp [strip, ih]

/-- `key` and then a value. -/
def after (key : List Char) (A : TextCodec α) : TextCodec α where
  write a := key ++ A.write a
  read cs := (strip key cs).bind A.read
  read_write a rest := by simp [A.read_write]

/-- A value and then `key`. -/
def before (A : TextCodec α) (key : List Char) : TextCodec α where
  write a := A.write a ++ key
  read cs := (A.read cs).bind fun r => (strip key r.2).map fun rest => (r.1, rest)
  read_write a rest := by simp [A.read_write]

def pair (A : TextCodec α) (B : TextCodec β) : TextCodec (α × β) where
  write p := A.write p.1 ++ B.write p.2
  read cs := (A.read cs).bind fun r => (B.read r.2).map fun r' => ((r.1, r'.1), r'.2)
  read_write p rest := by simp [A.read_write, B.read_write]

/-- Another type of values with the same text. -/
def map (A : TextCodec α) (of : α → β) (rep : β → α) (h : ∀ b, of (rep b) = b) : TextCodec β where
  write b := A.write (rep b)
  read cs := (A.read cs).map fun r => (of r.1, r.2)
  read_write b rest := by simp [A.read_write, h]

/-- A value, or `key` in its place. -/
def orElse (key : List Char) (A : TextCodec α)
    (h : ∀ a rest, strip key (A.write a ++ rest) = none) : TextCodec (Option α) where
  write
    | none => key
    | some a => A.write a
  read cs := match strip key cs with
    | some rest => some (none, rest)
    | none => (A.read cs).map fun r => (some r.1, r.2)
  read_write a rest := by
    cases a with
    | none => simp
    | some a => simp [h, A.read_write]

/-- A field behind `key` that is left out when there is no value, then `B`. -/
def optional (key : List Char) (A : TextCodec α) (B : TextCodec β)
    (h : ∀ b rest, strip key (B.write b ++ rest) = none) : TextCodec (Option α × β) where
  write
    | (none, b) => B.write b
    | (some a, b) => key ++ A.write a ++ B.write b
  read cs := match strip key cs with
    | some cs => (A.read cs).bind fun r => (B.read r.2).map fun r' => ((some r.1, r'.1), r'.2)
    | none => (B.read cs).map fun r => ((none, r.1), r.2)
  read_write p rest := by
    obtain ⟨_ | a, b⟩ := p
    · simp [h, B.read_write]
    · simp [A.read_write, B.read_write]

/-! ## Lists -/

/-- The items, each but the first behind a comma, up to the closing bracket. -/
def writeItems (A : TextCodec α) : List α → List Char
  | [] => [']']
  | a :: as => ',' :: A.write a ++ writeItems A as

def readItems (A : TextCodec α) : (fuel : Nat) → List Char → Option (List α × List Char)
  | fuel + 1, ',' :: cs =>
      (A.read cs).bind fun r => (readItems A fuel r.2).map fun r' => (r.1 :: r'.1, r'.2)
  | _, ']' :: cs => some ([], cs)
  | _, _ => none

theorem readItems_writeItems (A : TextCodec α) (as : List α) (fuel : Nat) (rest : List Char)
    (hfuel : as.length ≤ fuel) :
    readItems A fuel (writeItems A as ++ rest) = some (as, rest) := by
  induction as generalizing fuel with
  | nil => cases fuel <;> simp [writeItems, readItems]
  | cons a as ih =>
      obtain ⟨fuel, rfl⟩ : ∃ n, fuel = n + 1 :=
        Nat.exists_eq_succ_of_ne_zero (by rw [List.length_cons] at hfuel; omega)
      rw [List.length_cons, Nat.add_le_add_iff_right] at hfuel
      simp [writeItems, readItems, A.read_write, ih fuel hfuel]

theorem length_le_writeItems (A : TextCodec α) (as : List α) (rest : List Char) :
    as.length ≤ (writeItems A as ++ rest).length := by
  induction as with
  | nil => simp
  | cons a as ih =>
      rw [List.length_append] at ih
      simp only [writeItems, List.length_append, List.length_cons]
      omega

/-- An array whose items do not begin like the end of one. -/
def array (A : TextCodec α) (h : ∀ a, ∃ c cs, A.write a = c :: cs ∧ c ≠ ']') :
    TextCodec (List α) where
  write
    | [] => ['[', ']']
    | a :: as => '[' :: A.write a ++ writeItems A as
  read
    | '[' :: ']' :: cs => some ([], cs)
    | '[' :: cs =>
        (A.read cs).bind fun r =>
          (readItems A r.2.length r.2).map fun r' => (r.1 :: r'.1, r'.2)
    | _ => none
  read_write as rest := by
    cases as with
    | nil => rfl
    | cons a as =>
        obtain ⟨c, cs, hwrite, hc⟩ := h a
        have hitems := readItems_writeItems A as _ rest (length_le_writeItems A as rest)
        have hread := A.read_write a (writeItems A as ++ rest)
        simp only [hwrite, List.cons_append, List.append_assoc] at hread ⊢
        split
        · rename_i heq
          simp [hc] at heq
        · rename_i heq
          obtain rfl := (List.cons.inj heq).2
          rw [hread]
          simp [hitems, -List.length_append]
        · rename_i hno
          exact absurd rfl (hno _)

/-! ## Numbers -/

def digitChar (d : Nat) : Char := Char.ofNat (48 + d)

theorem digitChar_toNat {d : Nat} (h : d < 10) : (digitChar d).toNat = 48 + d := by
  revert d
  decide

/-- The decimal digits, the most significant first. -/
def decimalDigits (n : Nat) : List Nat :=
  if n = 0 then [0] else (Nat.digits 10 n).reverse

theorem decimalDigits_lt {n d : Nat} (h : d ∈ decimalDigits n) : d < 10 := by
  rw [decimalDigits] at h
  split_ifs at h
  · obtain rfl := List.mem_singleton.1 h
    decide
  · exact Nat.digits_lt_base (by decide) (List.mem_reverse.1 h)

theorem ofDigits_decimalDigits (n : Nat) : Nat.ofDigits 10 (decimalDigits n).reverse = n := by
  rw [decimalDigits]
  split_ifs with hzero
  · simp [hzero]
  · rw [List.reverse_reverse, Nat.ofDigits_digits]

theorem span_stop {cs rest : List Char} {stop : Char} (h : ∀ c ∈ cs, c ≠ stop) :
    (cs ++ stop :: rest).span (· ≠ stop) = (cs, stop :: rest) := by
  rw [List.span_eq_takeWhile_dropWhile]
  induction cs with
  | nil => simp
  | cons c cs ih =>
      have hc : c ≠ stop := h c List.mem_cons_self
      have htail := ih fun d hd => h d (List.mem_cons_of_mem c hd)
      obtain ⟨htake, hdrop⟩ := Prod.mk.inj htail
      simp only [List.cons_append, List.takeWhile_cons, List.dropWhile_cons, ne_eq, hc,
        not_false_eq_true, decide_true, if_true]
      exact Prod.ext (congrArg (c :: ·) htake) hdrop

/-- What is written in characters other than `stop`, and then `stop`. -/
def upTo (stop : Char) (text : α → List Char) (value : List Char → Option α)
    (htext : ∀ a, ∀ c ∈ text a, c ≠ stop) (hvalue : ∀ a, value (text a) = some a) :
    TextCodec α where
  write a := text a ++ [stop]
  read cs := match cs.span (· ≠ stop) with
    | (cs, _ :: rest) => (value cs).map fun a => (a, rest)
    | (_, []) => none
  read_write a rest := by
    rw [List.append_assoc, List.singleton_append, span_stop (htext a)]
    simp [hvalue]

/-- A decimal number, then `stop`. -/
def decimal (stop : Char) (hstop : ∀ d < 10, digitChar d ≠ stop) : TextCodec Nat :=
  upTo stop (fun n => (decimalDigits n).map digitChar)
    (fun cs => some (Nat.ofDigits 10 (cs.map fun c => c.toNat - 48).reverse))
    (by
      intro n c hc
      obtain ⟨d, hd, rfl⟩ := List.mem_map.1 hc
      exact hstop d (decimalDigits_lt hd))
    (by
      intro n
      have hvalues : ((decimalDigits n).map digitChar).map (fun c => c.toNat - 48) =
          decimalDigits n := by
        rw [List.map_map]
        conv_rhs => rw [← List.map_id (decimalDigits n)]
        refine List.map_congr_left fun d hd => ?_
        simp [digitChar_toNat (decimalDigits_lt hd)]
      rw [hvalues, ofDigits_decimalDigits])

/-! ## Bytes -/

def quote : Char := Char.ofNat 34

/-- The sixty-four characters of base64. -/
def base64Char (n : Nat) : Char :=
  if n < 26 then Char.ofNat (65 + n)
  else if n < 52 then Char.ofNat (71 + n)
  else if n < 62 then Char.ofNat (n - 4)
  else if n = 62 then '+' else '/'

def base64Value (c : Char) : Nat :=
  let n := c.toNat
  if 65 ≤ n ∧ n ≤ 90 then n - 65
  else if 97 ≤ n ∧ n ≤ 122 then n - 71
  else if 48 ≤ n ∧ n ≤ 57 then n + 4
  else if c = '+' then 62 else 63

theorem base64Char_spec {n : Nat} (h : n < 64) :
    base64Value (base64Char n) = n ∧ base64Char n ≠ '=' ∧ base64Char n ≠ quote := by
  revert n
  decide

/-- Three bytes are four characters; what is missing in the last three is padded. -/
def toBase64 : List UInt8 → List Char
  | [] => []
  | [a] => [base64Char (a.toNat / 4), base64Char (a.toNat % 4 * 16), '=', '=']
  | [a, b] =>
      [base64Char (a.toNat / 4), base64Char (a.toNat % 4 * 16 + b.toNat / 16),
        base64Char (b.toNat % 16 * 4), '=']
  | a :: b :: c :: rest =>
      base64Char (a.toNat / 4) :: base64Char (a.toNat % 4 * 16 + b.toNat / 16) ::
        base64Char (b.toNat % 16 * 4 + c.toNat / 64) :: base64Char (c.toNat % 64) ::
          toBase64 rest

def ofBase64 : List Char → Option (List UInt8)
  | [] => some []
  | w :: x :: y :: z :: rest =>
      let a := UInt8.ofNat (base64Value w * 4 + base64Value x / 16)
      let b := UInt8.ofNat (base64Value x % 16 * 16 + base64Value y / 4)
      let c := UInt8.ofNat (base64Value y % 4 * 64 + base64Value z)
      if y = '=' then some [a]
      else if z = '=' then some [a, b]
      else (ofBase64 rest).map fun bs => a :: b :: c :: bs
  | _ => none

theorem ofNat_eq_of_toNat {n : Nat} {a : UInt8} (h : n = a.toNat) : UInt8.ofNat n = a := by
  rw [h, UInt8.ofNat_toNat]

theorem ofBase64_toBase64 (bs : List UInt8) : ofBase64 (toBase64 bs) = some bs := by
  induction bs using toBase64.induct with
  | case1 => rfl
  | case2 a =>
      have ha := a.toNat_lt
      obtain ⟨h₀, -, -⟩ := base64Char_spec (n := a.toNat / 4) (by omega)
      obtain ⟨h₁, -, -⟩ := base64Char_spec (n := a.toNat % 4 * 16) (by omega)
      simp only [toBase64, ofBase64, if_true, h₀, h₁]
      rw [ofNat_eq_of_toNat (a := a) (by omega)]
  | case3 a b =>
      have ha := a.toNat_lt
      have hb := b.toNat_lt
      obtain ⟨h₀, -, -⟩ := base64Char_spec (n := a.toNat / 4) (by omega)
      obtain ⟨h₁, -, -⟩ := base64Char_spec (n := a.toNat % 4 * 16 + b.toNat / 16) (by omega)
      obtain ⟨h₂, hpad, -⟩ := base64Char_spec (n := b.toNat % 16 * 4) (by omega)
      simp only [toBase64, ofBase64, if_true, h₀, h₁, h₂, hpad, if_false]
      rw [ofNat_eq_of_toNat (a := a) (by omega), ofNat_eq_of_toNat (a := b) (by omega)]
  | case4 a b c rest ih =>
      have ha := a.toNat_lt
      have hb := b.toNat_lt
      have hc := c.toNat_lt
      obtain ⟨h₀, -, -⟩ := base64Char_spec (n := a.toNat / 4) (by omega)
      obtain ⟨h₁, -, -⟩ := base64Char_spec (n := a.toNat % 4 * 16 + b.toNat / 16) (by omega)
      obtain ⟨h₂, hpad₂, -⟩ := base64Char_spec (n := b.toNat % 16 * 4 + c.toNat / 64) (by omega)
      obtain ⟨h₃, hpad₃, -⟩ := base64Char_spec (n := c.toNat % 64) (by omega)
      simp only [toBase64, ofBase64, h₀, h₁, h₂, h₃, hpad₂, hpad₃, if_false, ih, Option.map_some]
      rw [ofNat_eq_of_toNat (a := a) (by omega), ofNat_eq_of_toNat (a := b) (by omega),
        ofNat_eq_of_toNat (a := c) (by omega)]

theorem toBase64_ne_quote (bs : List UInt8) : ∀ c ∈ toBase64 bs, c ≠ quote := by
  have hchar : ∀ n, base64Char n ≠ quote := by
    intro n
    rcases Nat.lt_or_ge n 64 with hlt | hge
    · exact (base64Char_spec hlt).2.2
    · rw [base64Char, if_neg (by omega), if_neg (by omega), if_neg (by omega), if_neg (by omega)]
      decide
  have hpad : '=' ≠ quote := by decide
  induction bs using toBase64.induct with
  | case1 => simp [toBase64]
  | case2 a => simp [toBase64, hchar, hpad]
  | case3 a b => simp [toBase64, hchar, hpad]
  | case4 a b c rest ih => simpa [toBase64, hchar] using ih

/-- An array of bytes, as a string. -/
def base64 : TextCodec (List UInt8) :=
  after [quote] (upTo quote toBase64 ofBase64 toBase64_ne_quote ofBase64_toBase64)

theorem base64_write (bs : List UInt8) : base64.write bs = quote :: (toBase64 bs ++ [quote]) := rfl

theorem length_le_toBase64 (bs : List UInt8) : bs.length ≤ (toBase64 bs).length := by
  induction bs using toBase64.induct with
  | case1 => simp [toBase64]
  | case2 a => simp [toBase64]
  | case3 a b => simp [toBase64]
  | case4 a b c rest ih =>
      simp only [toBase64, List.length_cons]
      omega

/-! ## Whole texts -/

/-- The value of a text that is written exactly as the codec writes. -/
def parse (A : TextCodec α) (cs : List Char) : Option α :=
  match A.read cs with
  | some (a, []) => if A.write a = cs then some a else none
  | _ => none

theorem parse_write (A : TextCodec α) (a : α) : A.parse (A.write a) = some a := by
  have h := A.read_write a []
  rw [List.append_nil] at h
  simp [parse, h]

theorem write_of_parse {A : TextCodec α} {cs : List Char} {a : α} (h : A.parse cs = some a) :
    A.write a = cs := by
  rw [parse] at h
  split at h
  · split_ifs at h with hwrite
    obtain rfl := Option.some.inj h
    exact hwrite
  · simp at h

end TextCodec

end NETConnect.Lib
