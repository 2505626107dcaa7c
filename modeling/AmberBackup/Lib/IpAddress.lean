import Mathlib.Algebra.GroupWithZero.Nat
import Mathlib.Data.List.Basic
import Mathlib.Tactic.Common

/-! # Internet addresses and networks

An address of the sixth version has many texts: leading zeros, letters of either case, one
`::` for a run of zero groups, a tail in the notation of the fourth version, and a zone. An
address of the fourth version is compared as the mapped address of the sixth. A network is given
by one of its addresses and a number of bits, and has the addresses that agree with it in these
bits (`Ipv6.inNetwork_refl`, `Ipv6.inNetwork_of_le`).
-/

namespace IpAddress

structure Ipv4 where
  a : Fin 256
  b : Fin 256
  c : Fin 256
  d : Fin 256
  deriving DecidableEq, Repr

/-- Eight groups of 16 bits. -/
structure Ipv6 where
  groups : List UInt16
  eight : groups.length = 8
  deriving DecidableEq, Repr

/-- Two octets as a group. -/
def group (high low : Fin 256) : UInt16 := .ofNat (256 * high.val + low.val)

def Ipv4.groups (address : Ipv4) : List UInt16 :=
  [group address.a address.b, group address.c address.d]

/-- The IPv4-mapped address, in `::ffff:0:0/96`. -/
def Ipv4.mapped (address : Ipv4) : Ipv6 := ⟨[0, 0, 0, 0, 0, 0xffff] ++ address.groups, rfl⟩

/-! ## Reading -/

/-- A decimal number below 256 without leading zeros. -/
def readOctet (digits : List Char) : Option (Fin 256) :=
  if fits : (digits ≠ [] ∧ digits.all Char.isDigit ∧
      (digits.length = 1 ∨ digits.head? ≠ some '0')) ∧ Nat.ofDigitChars 10 digits 0 < 256 then
    some ⟨Nat.ofDigitChars 10 digits 0, fits.2⟩
  else none

def readIpv4 (text : List Char) : Option Ipv4 :=
  match text.splitOn '.' with
  | [a, b, c, d] =>
      match readOctet a, readOctet b, readOctet c, readOctet d with
      | some a, some b, some c, some d => some ⟨a, b, c, d⟩
      | _, _, _, _ => none
  | _ => none

def hexDigits : List Char := "0123456789abcdefABCDEF".toList

/-- The value of a hexadecimal digit. -/
def hexValue (char : Char) : Nat :=
  if char.isDigit then char.toNat - 48 else char.toLower.toNat - 87

def hexNumber (digits : List Char) : Nat :=
  digits.foldl (fun value digit => 16 * value + hexValue digit) 0

/-- One to four hexadecimal digits. -/
def readGroup (digits : List Char) : Option UInt16 :=
  if digits ≠ [] ∧ digits.length ≤ 4 ∧ digits.all hexDigits.contains then
    some (.ofNat (hexNumber digits))
  else none

/-- The pieces between the colons. -/
def pieces (text : List Char) : List (List Char) := if text = [] then [] else text.splitOn ':'

/-- Groups, of which the last two may be an address of the fourth version. -/
def readTail : List (List Char) → Option (List UInt16)
  | [] => some []
  | [last] =>
      match readIpv4 last with
      | some address => some address.groups
      | none => (readGroup last).map ([·])
  | piece :: rest =>
      match readGroup piece, readTail rest with
      | some group, some groups => some (group :: groups)
      | _, _ => none

/-- What stands before and after the first `::`. -/
def splitGap : List Char → Option (List Char × List Char)
  | [] => none
  | ':' :: ':' :: rest => some ([], rest)
  | char :: rest => (splitGap rest).map fun parts => (char :: parts.1, parts.2)

/-- The groups of a text without a zone. -/
def readGroups (text : List Char) : Option (List UInt16) :=
  match splitGap text with
  | none => readTail (pieces text)
  | some (before, after) =>
      match (pieces before).mapM readGroup, readTail (pieces after) with
      | some front, some back =>
          if front.length + back.length ≤ 7 then
            some (front ++ List.replicate (8 - (front.length + back.length)) 0 ++ back)
          else none
      | _, _ => none

/-- The characters of a zone. -/
def zoneChar (char : Char) : Bool :=
  char.isAlphanum || char = '-' || char = '.' || char = ':'

def readIpv6 (text : List Char) : Option Ipv6 :=
  let zone := text.dropWhile (· ≠ '%')
  if zone = [] ∨ (zone.tail ≠ [] ∧ zone.tail.all zoneChar) then
    match readGroups (text.takeWhile (· ≠ '%')) with
    | some groups => if eight : groups.length = 8 then some ⟨groups, eight⟩ else none
    | none => none
  else none

/-- An address of either version. -/
inductive Ip where
  | v4 (address : Ipv4)
  | v6 (address : Ipv6)
  deriving DecidableEq, Repr

def readIp (text : List Char) : Option Ip :=
  match readIpv4 text with
  | some address => some (.v4 address)
  | none => (readIpv6 text).map .v6

/-- The number of bits of an address. -/
def Ip.bits : Ip → Nat
  | .v4 _ => 32
  | .v6 _ => 128

/-- The address as one of the sixth version. -/
def Ip.wide : Ip → Ipv6
  | .v4 address => address.mapped
  | .v6 address => address

/-! ## Networks -/

def Ipv6.number (address : Ipv6) : Nat :=
  address.groups.foldl (fun value group => 65536 * value + group.toNat) 0

/-- The addresses agree in so many leading bits. -/
def Ipv6.inNetwork (address network : Ipv6) (bits : Nat) : Bool :=
  address.number / 2 ^ (128 - bits) = network.number / 2 ^ (128 - bits)

/-- A network has its own address. -/
theorem Ipv6.inNetwork_refl (address : Ipv6) (bits : Nat) :
    address.inNetwork address bits = true := decide_eq_true rfl

/-- A network with fewer bits has the addresses of one with more. -/
theorem Ipv6.inNetwork_of_le {address network : Ipv6} {fewer bits : Nat} (le : fewer ≤ bits)
    (inside : address.inNetwork network bits = true) :
    address.inNetwork network fewer = true := by
  have same := of_decide_eq_true inside
  have split : 2 ^ (128 - fewer) = 2 ^ (128 - bits) * 2 ^ ((128 - fewer) - (128 - bits)) := by
    rw [← Nat.pow_add]
    congr 1
    omega
  refine decide_eq_true ?_
  rw [split, ← Nat.div_div_eq_div_mul, ← Nat.div_div_eq_div_mul, same]

example : (readIpv6 "2001:DB8:0::ffff:1.2.3.4%eth0".toList).map Ipv6.number =
    some 0x20010db8000000000000ffff01020304 := by decide +kernel

end IpAddress
