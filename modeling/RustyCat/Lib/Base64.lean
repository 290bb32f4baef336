import Mathlib.Logic.Function.Basic

/-!
# Base64

The standard alphabet with padding, over lists.  Decoding is strict: the length is a
multiple of four, the padding is there, and the bits it cuts off are zero.
-/

namespace Base64

def alphabet : List Char :=
  "ABCDEFGHIJKLMNOPQRSTUVWXYZabcdefghijklmnopqrstuvwxyz0123456789+/".toList

def toChar (n : Nat) : Char := alphabet.getD n 'A'

def ofChar (c : Char) : Option Nat := alphabet.findIdx? (· = c)

def encode : List UInt8 → List Char
  | [] => []
  | [a] => [toChar (a.toNat / 4), toChar (a.toNat % 4 * 16), '=', '=']
  | [a, b] =>
    [toChar (a.toNat / 4), toChar (a.toNat % 4 * 16 + b.toNat / 16), toChar (b.toNat % 16 * 4), '=']
  | a :: b :: c :: rest =>
    toChar (a.toNat / 4) :: toChar (a.toNat % 4 * 16 + b.toNat / 16) ::
      toChar (b.toNat % 16 * 4 + c.toNat / 64) :: toChar (c.toNat % 64) :: encode rest

/-- The three bytes that four characters stand for. -/
def firstByte (w x : Nat) : UInt8 := UInt8.ofNat (w * 4 + x / 16)

def secondByte (x y : Nat) : UInt8 := UInt8.ofNat (x % 16 * 16 + y / 4)

def thirdByte (y z : Nat) : UInt8 := UInt8.ofNat (y % 4 * 64 + z)

def decode : List Char → Option (List UInt8)
  | [] => some []
  | w :: x :: y :: z :: rest => do
    let w ← ofChar w
    let x ← ofChar x
    if z = '=' then
      if rest ≠ [] then none
      else if y = '=' then
        if x % 16 = 0 then some [firstByte w x] else none
      else
        let y ← ofChar y
        if y % 4 = 0 then some [firstByte w x, secondByte x y] else none
    else
      let y ← ofChar y
      let z ← ofChar z
      let rest ← decode rest
      some (firstByte w x :: secondByte x y :: thirdByte y z :: rest)
  | _ => none

theorem toChar_spec : ∀ n < 64, ofChar (toChar n) = some n ∧ toChar n ≠ '=' := by
  decide +kernel

theorem ofChar_toChar {n : Nat} (small : n < 64) : ofChar (toChar n) = some n :=
  (toChar_spec n small).1

theorem toChar_ne_pad {n : Nat} (small : n < 64) : toChar n ≠ '=' :=
  (toChar_spec n small).2

section Bytes

variable {a : UInt8} {k : Nat}

theorem firstByte_eq (small : k < 16) : firstByte (a.toNat / 4) (a.toNat % 4 * 16 + k) = a := by
  rw [firstByte, show a.toNat / 4 * 4 + (a.toNat % 4 * 16 + k) / 16 = a.toNat by omega,
    UInt8.ofNat_toNat]

theorem secondByte_eq {j : Nat} (small : k < 4) :
    secondByte (j * 16 + a.toNat / 16) (a.toNat % 16 * 4 + k) = a := by
  have := a.toNat_lt
  rw [secondByte, show (j * 16 + a.toNat / 16) % 16 * 16 + (a.toNat % 16 * 4 + k) / 4 = a.toNat by
    omega, UInt8.ofNat_toNat]

theorem thirdByte_eq {j : Nat} : thirdByte (j * 4 + a.toNat / 64) (a.toNat % 64) = a := by
  have := a.toNat_lt
  rw [thirdByte, show (j * 4 + a.toNat / 64) % 4 * 64 + a.toNat % 64 = a.toNat by omega,
    UInt8.ofNat_toNat]

end Bytes

theorem decode_encode (bytes : List UInt8) : decode (encode bytes) = some bytes := by
  fun_induction encode bytes with
  | case1 => rfl
  | case2 a =>
    have := a.toNat_lt
    have first : firstByte (a.toNat / 4) (a.toNat % 4 * 16) = a := firstByte_eq (k := 0) (by omega)
    simp [decode, ofChar_toChar (show a.toNat / 4 < 64 by omega),
      ofChar_toChar (show a.toNat % 4 * 16 < 64 by omega), first]
  | case3 a b =>
    have := a.toNat_lt
    have := b.toNat_lt
    have second : secondByte (a.toNat % 4 * 16 + b.toNat / 16) (b.toNat % 16 * 4) = b :=
      secondByte_eq (k := 0) (by omega)
    simp [decode, ofChar_toChar (show a.toNat / 4 < 64 by omega),
      ofChar_toChar (show a.toNat % 4 * 16 + b.toNat / 16 < 64 by omega),
      ofChar_toChar (show b.toNat % 16 * 4 < 64 by omega),
      toChar_ne_pad (show b.toNat % 16 * 4 < 64 by omega),
      firstByte_eq (a := a) (show b.toNat / 16 < 16 by omega), second]
  | case4 a b c rest ih =>
    have := a.toNat_lt
    have := b.toNat_lt
    have := c.toNat_lt
    simp [decode, ofChar_toChar (show a.toNat / 4 < 64 by omega),
      ofChar_toChar (show a.toNat % 4 * 16 + b.toNat / 16 < 64 by omega),
      ofChar_toChar (show b.toNat % 16 * 4 + c.toNat / 64 < 64 by omega),
      ofChar_toChar (show c.toNat % 64 < 64 by omega),
      toChar_ne_pad (show c.toNat % 64 < 64 by omega), ih,
      firstByte_eq (a := a) (show b.toNat / 16 < 16 by omega),
      secondByte_eq (a := b) (show c.toNat / 64 < 4 by omega), thirdByte_eq]

theorem encode_injective : Function.Injective encode := by
  intro a b same
  have decoded := congrArg decode same
  rw [decode_encode, decode_encode] at decoded
  exact Option.some.inj decoded

theorem length_encode (bytes : List UInt8) :
    (encode bytes).length = (bytes.length + 2) / 3 * 4 := by
  fun_induction encode bytes with
  | case1 => rfl
  | case2 a => simp
  | case3 a b => simp
  | case4 a b c rest ih =>
    simp only [List.length_cons, ih]
    omega

end Base64
