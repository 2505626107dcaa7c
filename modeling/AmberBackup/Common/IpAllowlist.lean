import AmberBackup.Lib.IpAddress
import AmberBackup.Restic.ResticService

/-! # IP allowlists

An allowlist, of an agent or of the administrators, has single addresses and CIDR ranges. An
empty list permits every address; otherwise an address is permitted that one of the valid
entries covers (`ipAllowed_iff`).
-/

namespace AmberBackup

open IpAddress

/-- An entry by its address and its number of bits. -/
structure AllowlistEntry where
  address : Ip
  bits : Option Nat
  deriving DecidableEq, Repr

/-- One to three digits. -/
def isShortNumber (digits : List Char) : Bool :=
  1 ≤ digits.length && digits.length ≤ 3 && digits.all Char.isDigit

/-- Strips the IPv4-mapped prefix of dual-stack sockets. -/
def normalizeIp (ip : String) : String :=
  let opening := ip.toList.take 7
  let rest := ip.toList.drop 7
  if (opening.map Char.toLower = "::ffff:".toList ∧ (rest.splitOn '.').length = 4) ∧
      (rest.splitOn '.').all isShortNumber then
    String.ofList rest
  else ip

def parseEntry (raw : String) : Option AllowlistEntry :=
  match (jsTrim raw).toList.splitOn '/' with
  | [address] => (readIp address).map fun ip => { address := ip, bits := none }
  | [address, digits] =>
      match readIp address with
      | none => none
      | some ip =>
          if isShortNumber digits && Nat.ofDigitChars 10 digits 0 ≤ ip.bits then
            some { address := ip, bits := some (Nat.ofDigitChars 10 digits 0) }
          else none
  | _ => none

def isValidAllowlistEntry (raw : String) : Bool := (parseEntry raw).isSome

/-- What an entry adds to a block list covers an address. The bits of an address of the fourth
version are the last of the mapped one. -/
def AllowlistEntry.covers (entry : AllowlistEntry) (ip : Ip) : Bool :=
  ip.wide.inNetwork entry.address.wide
    (128 - entry.address.bits + entry.bits.getD entry.address.bits)

/-- Whether an address is permitted. One that is unknown is only permitted by an empty list. -/
def ipAllowed (allowlist : List String) (ip : Option String) : Bool :=
  allowlist.isEmpty ||
    match ip with
    | none => false
    | some text =>
        text ≠ "" && (readIp (normalizeIp text).toList).any fun address =>
          allowlist.any fun raw => (parseEntry raw).any fun entry => entry.covers address

/-- A list with entries permits an address that one of them covers. -/
theorem ipAllowed_iff {allowlist : List String} (filled : allowlist ≠ []) (text : String) :
    ipAllowed allowlist (some text) = true ↔
      text ≠ "" ∧ ∃ address, readIp (normalizeIp text).toList = some address ∧
        ∃ raw ∈ allowlist, ∃ entry, parseEntry raw = some entry ∧ entry.covers address = true := by
  have notEmpty : allowlist.isEmpty = false := by
    rw [List.isEmpty_eq_false_iff]
    exact filled
  unfold ipAllowed
  simp only [notEmpty, Bool.false_or, Bool.and_eq_true, decide_eq_true_eq, Option.any_eq_true,
    List.any_eq_true]

example : ipAllowed ["10.0.0.0/8", "2001:db8::/33"] (some "::FFFF:10.1.2.3") = true := by
  decide +kernel

end AmberBackup
