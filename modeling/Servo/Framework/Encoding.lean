import Mathlib.Data.List.Basic

/-! # Base64 and Hexadecimal Text

    The two encodings of byte strings as ASCII text: base64 with the standard
    alphabet and canonical padding, and pairs of lower-case hexadecimal
    digits. What has been encoded is decoded to the same bytes, and a text with
    a byte outside the alphabet is not decoded at all.
-/

namespace Encoding

abbrev Bytes : Type := List UInt8

/-! ### Base64 symbols -/

/-- The symbol of six bits: letters, digits, `+` and `/`. -/
def symbol (n : Nat) : UInt8 :=
  if n < 26 then UInt8.ofNat (65 + n)
  else if n < 52 then UInt8.ofNat (71 + n)
  else if n < 62 then UInt8.ofNat (n - 4)
  else if n = 62 then 43
  else 47

/-- The six bits of a symbol. -/
def symbol_value? (c : UInt8) : Option Nat :=
  if 65 ≤ c ∧ c ≤ 90 then some (c.toNat - 65)
  else if 97 ≤ c ∧ c ≤ 122 then some (c.toNat - 71)
  else if 48 ≤ c ∧ c ≤ 57 then some (c.toNat + 4)
  else if c = 43 then some 62
  else if c = 47 then some 63
  else none

/-- The padding byte, `=`. -/
def pad : UInt8 := 61

/-- Each symbol has its value, and none is the padding. -/
theorem symbol_value?_symbol {n : Nat} (hn : n < 64) :
    symbol_value? (symbol n) = some n ∧ symbol n ≠ pad := by
  have hall : ∀ i : Fin 64, symbol_value? (symbol i) = some i.val ∧ symbol i ≠ pad := by decide
  exact hall ⟨n, hn⟩

@[simp] theorem symbol_value?_pad : symbol_value? pad = none := by decide

/-! ### Base64 text -/

def base64_encode : Bytes → Bytes
  | a :: b :: c :: rest =>
    symbol (a.toNat / 4) :: symbol (a.toNat % 4 * 16 + b.toNat / 16) ::
      symbol (b.toNat % 16 * 4 + c.toNat / 64) :: symbol (c.toNat % 64) :: base64_encode rest
  | [a, b] =>
    [symbol (a.toNat / 4), symbol (a.toNat % 4 * 16 + b.toNat / 16), symbol (b.toNat % 16 * 4),
      pad]
  | [a] => [symbol (a.toNat / 4), symbol (a.toNat % 4 * 16), pad, pad]
  | [] => []

/-- Four symbols are three bytes. -/
def decode_group (p q r s : UInt8) : Option Bytes := do
  let p ← symbol_value? p
  let q ← symbol_value? q
  let r ← symbol_value? r
  let s ← symbol_value? s
  return [UInt8.ofNat (p * 4 + q / 16), UInt8.ofNat (q % 16 * 16 + r / 4),
    UInt8.ofNat (r % 4 * 64 + s)]

/-- The last group of a text, where padding may stand and the bits it leaves over are 0. -/
def decode_last (p q r s : UInt8) : Option Bytes :=
  if s = pad then
    if r = pad then do
      let p ← symbol_value? p
      let q ← symbol_value? q
      if q % 16 = 0 then return [UInt8.ofNat (p * 4 + q / 16)] else none
    else do
      let p ← symbol_value? p
      let q ← symbol_value? q
      let r ← symbol_value? r
      if r % 4 = 0 then
        return [UInt8.ofNat (p * 4 + q / 16), UInt8.ofNat (q % 16 * 16 + r / 4)]
      else none
  else decode_group p q r s

def base64_decode : Bytes → Option Bytes
  | [] => some []
  | [p, q, r, s] => decode_last p q r s
  | p :: q :: r :: s :: rest => do
    let group ← decode_group p q r s
    let bytes ← base64_decode rest
    return group ++ bytes
  | _ => none

theorem ofNat_of_toNat_eq {b : UInt8} {n : Nat} (h : n = b.toNat) : UInt8.ofNat n = b := by
  rw [h, UInt8.ofNat_toNat]

/-- The four symbols of three bytes. -/
theorem decode_group_symbols (a b c : UInt8) :
    decode_group (symbol (a.toNat / 4)) (symbol (a.toNat % 4 * 16 + b.toNat / 16))
      (symbol (b.toNat % 16 * 4 + c.toNat / 64)) (symbol (c.toNat % 64)) = some [a, b, c] := by
  have ha := a.toNat_lt
  have hb := b.toNat_lt
  have hc := c.toNat_lt
  unfold decode_group
  rw [(symbol_value?_symbol (by omega)).1, (symbol_value?_symbol (by omega)).1,
    (symbol_value?_symbol (by omega)).1, (symbol_value?_symbol (by omega)).1]
  have hfirst : UInt8.ofNat (a.toNat / 4 * 4 + (a.toNat % 4 * 16 + b.toNat / 16) / 16) = a :=
    ofNat_of_toNat_eq (by omega)
  have hsecond : UInt8.ofNat ((a.toNat % 4 * 16 + b.toNat / 16) % 16 * 16 +
      (b.toNat % 16 * 4 + c.toNat / 64) / 4) = b := ofNat_of_toNat_eq (by omega)
  have hthird : UInt8.ofNat ((b.toNat % 16 * 4 + c.toNat / 64) % 4 * 64 + c.toNat % 64) = c :=
    ofNat_of_toNat_eq (by omega)
  simp only [Option.bind_eq_bind, Option.bind_some, hfirst, hsecond, hthird]
  rfl

/-- **Round trip** of base64. -/
theorem base64_decode_encode (bytes : Bytes) :
    base64_decode (base64_encode bytes) = some bytes := by
  induction bytes using base64_encode.induct with
  | case1 a b c rest ih =>
    have hgroup := decode_group_symbols a b c
    have hnot_pad : symbol (c.toNat % 64) ≠ pad := (symbol_value?_symbol (by omega)).2
    rw [base64_encode]
    cases hrest : base64_encode rest with
    | nil =>
      rw [hrest] at ih
      cases ih
      rw [base64_decode, decode_last, if_neg hnot_pad, hgroup]
    | cons d text =>
      rw [hrest] at ih
      rw [base64_decode, hgroup, ih]
      · rfl
      · simp
  | case2 a b =>
    have ha := a.toNat_lt
    have hb := b.toNat_lt
    rw [base64_encode, base64_decode, decode_last, if_pos rfl,
      if_neg (symbol_value?_symbol (by omega)).2, (symbol_value?_symbol (by omega)).1,
      (symbol_value?_symbol (by omega)).1, (symbol_value?_symbol (by omega)).1]
    have hfirst : UInt8.ofNat (a.toNat / 4 * 4 + (a.toNat % 4 * 16 + b.toNat / 16) / 16) = a :=
      ofNat_of_toNat_eq (by omega)
    have hsecond : UInt8.ofNat ((a.toNat % 4 * 16 + b.toNat / 16) % 16 * 16 +
        b.toNat % 16 * 4 / 4) = b := ofNat_of_toNat_eq (by omega)
    simp only [Option.bind_eq_bind, Option.bind_some, hfirst, hsecond]
    rw [if_pos (by omega)]
    rfl
  | case3 a =>
    have ha := a.toNat_lt
    rw [base64_encode, base64_decode, decode_last, if_pos rfl, if_pos rfl,
      (symbol_value?_symbol (by omega)).1, (symbol_value?_symbol (by omega)).1]
    have hfirst : UInt8.ofNat (a.toNat / 4 * 4 + a.toNat % 4 * 16 / 16) = a :=
      ofNat_of_toNat_eq (by omega)
    simp only [Option.bind_eq_bind, Option.bind_some, hfirst]
    rw [if_pos (by omega)]
    rfl
  | case4 => rfl

/-- A text that starts outside the alphabet is not decoded. -/
theorem base64_decode_of_head {c : UInt8} {text : Bytes} (h : symbol_value? c = none) :
    base64_decode (c :: text) = none := by
  unfold base64_decode
  split
  · next heq => cases heq
  · next p q r s heq =>
    cases heq
    simp only [decode_last, decode_group, h, Option.bind_eq_bind, Option.bind_none, ite_self]
  · next p q r s rest _ heq =>
    cases heq
    simp only [decode_group, h, Option.bind_eq_bind, Option.bind_none]
  · rfl

/-! ### Hexadecimal text -/

/-- The value of a hexadecimal digit, in lower or upper case. -/
def hex_value? (c : Char) : Option Nat :=
  if '0' ≤ c ∧ c ≤ '9' then some (c.toNat - 48)
  else if 'a' ≤ c ∧ c ≤ 'f' then some (c.toNat - 87)
  else if 'A' ≤ c ∧ c ≤ 'F' then some (c.toNat - 55)
  else none

theorem hex_value?_digitChar {n : Nat} (hn : n < 16) : hex_value? (Nat.digitChar n) = some n := by
  have hall : ∀ i : Fin 16, hex_value? (Nat.digitChar i) = some i.val := by decide
  exact hall ⟨n, hn⟩

def hex_chars : Bytes → List Char
  | [] => []
  | b :: bytes => Nat.digitChar (b.toNat / 16) :: Nat.digitChar (b.toNat % 16) :: hex_chars bytes

def hex_encode (bytes : Bytes) : String := String.ofList (hex_chars bytes)

def hex_bytes : List Char → Option Bytes
  | [] => some []
  | c :: d :: chars => do
    let high ← hex_value? c
    let low ← hex_value? d
    let bytes ← hex_bytes chars
    return UInt8.ofNat (high * 16 + low) :: bytes
  | [_] => none

def hex_decode (text : String) : Option Bytes := hex_bytes text.toList

/-- **Round trip** of hexadecimal text. -/
@[simp] theorem hex_decode_encode (bytes : Bytes) : hex_decode (hex_encode bytes) = some bytes := by
  rw [hex_decode, hex_encode, String.toList_ofList]
  induction bytes with
  | nil => rfl
  | cons b bytes ih =>
    have hb := b.toNat_lt
    rw [hex_chars, hex_bytes, hex_value?_digitChar (by omega), hex_value?_digitChar (by omega), ih]
    have hbyte : UInt8.ofNat (b.toNat / 16 * 16 + b.toNat % 16) = b :=
      ofNat_of_toNat_eq (by omega)
    simp only [Option.bind_eq_bind, Option.bind_some, hbyte]
    rfl

end Encoding
