import Notary.Lib.Utf8

/-! Bytes in the URL-safe alphabet of base64, without padding. -/

namespace Base64Url
open Utf8 List Option

def digitChar (n : ℕ) : Char :=
  if n < 26 then Char.ofNat (n + 65)
  else if n < 52 then Char.ofNat (n + 71)
  else if n < 62 then Char.ofNat (n - 4)
  else if n = 62 then '-' else '_'

def digit? (c : Char) : Option ℕ :=
  if 'A' ≤ c ∧ c ≤ 'Z' then some (c.toNat - 65)
  else if 'a' ≤ c ∧ c ≤ 'z' then some (c.toNat - 71)
  else if c.isDigit then some (c.toNat + 4)
  else if c = '-' then some 62
  else if c = '_' then some 63
  else none

theorem digit?_digitChar : ∀ n < 64, digit? (digitChar n) = some n := by decide

/-- The digits of a number of up to three bytes, the last bits filled with zeros. -/
def digits (count n : ℕ) : List Char :=
  (range count).map fun i => digitChar (n / 64 ^ (3 - i) % 64)

def encodeList : Bytes → List Char
  | a :: b :: c :: rest =>
    digits 4 ((a.toNat * 256 + b.toNat) * 256 + c.toNat) ++ encodeList rest
  | [a, b] => digits 3 ((a.toNat * 256 + b.toNat) * 256)
  | [a] => digits 2 (a.toNat * 65536)
  | [] => []

def decodeList : List Char → Option Bytes
  | p :: q :: r :: s :: rest => do
    let n := ((← digit? p) * 64 + (← digit? q)) * 4096 + (← digit? r) * 64 + (← digit? s)
    some (UInt8.ofNat (n / 65536) :: UInt8.ofNat (n / 256 % 256) :: UInt8.ofNat (n % 256) ::
      (← decodeList rest))
  | [p, q, r] => do
    let n := ((← digit? p) * 64 + (← digit? q)) * 64 + (← digit? r)
    if n % 4 = 0 then some [UInt8.ofNat (n / 1024), UInt8.ofNat (n / 4 % 256)] else none
  | [p, q] => do
    let n := (← digit? p) * 64 + (← digit? q)
    if n % 16 = 0 then some [UInt8.ofNat (n / 16)] else none
  | [_] => none
  | [] => some []

theorem decodeList_encodeList (b : Bytes) : decodeList (encodeList b) = some b := by
  have hd (n : ℕ) : digit? (digitChar (n % 64)) = some (n % 64) :=
    digit?_digitChar _ (Nat.mod_lt _ (by decide))
  have hu {n : ℕ} {x : UInt8} (h : n = x.toNat) : UInt8.ofNat n = x := by
    rw [h, UInt8.ofNat_toNat]
  fun_induction encodeList b with
  | case1 a b c rest ih =>
    have ha := a.toNat_lt
    have hb := b.toNat_lt
    have hc := c.toNat_lt
    simp only [digits, range, range.loop, map_cons, map_nil, cons_append, nil_append, decodeList,
      hd, ih, bind_eq_bind, bind_some, Nat.reducePow, Nat.reduceSub]
    rw [hu (x := a) (by omega), hu (x := b) (by omega), hu (x := c) (by omega)]
  | case2 a b =>
    have ha := a.toNat_lt
    have hb := b.toNat_lt
    simp only [digits, range, range.loop, map_cons, map_nil, decodeList, hd, bind_eq_bind,
      bind_some, Nat.reducePow, Nat.reduceSub]
    rw [if_pos (by omega), hu (x := a) (by omega), hu (x := b) (by omega)]
  | case3 a =>
    have ha := a.toNat_lt
    simp only [digits, range, range.loop, map_cons, map_nil, decodeList, hd, bind_eq_bind,
      bind_some, Nat.reducePow, Nat.reduceSub]
    rw [if_pos (by omega), hu (x := a) (by omega)]
  | case4 => rfl

def encode (b : Bytes) : String := String.ofList (encodeList b)

def decode (s : String) : Option Bytes := decodeList s.toList

theorem decode_encode (b : Bytes) : decode (encode b) = some b := by
  rw [decode, encode, String.toList_ofList, decodeList_encodeList]

example : encode (bytes "notary") = "bm90YXJ5" ∧ encode [255] = "_w" := by decide

end Base64Url
