import Airdrop.Bytes.Hex
import Airdrop.Text.Digit
import Airdrop.Text.Split
import Airdrop.Number.Radix

/-!
# Numeric hosts

`Url.isIPv4` and `Url.isIPv6` tell which texts write an address of the internet protocol.
-/

namespace Airdrop.Url

/-- One of the four numbers of an IPv4 address: at most 255, without leading zeros. -/
def isOctet (cs : List Char) : Bool :=
  !cs.isEmpty && cs.all Text.isAsciiDigit && cs.length ≤ 3 && (cs == ['0'] || cs.head? != some '0') &&
    Radix.value 10 (cs.map fun c => c.toNat - 48) ≤ 255

def isIPv4 (cs : List Char) : Bool :=
  let parts := Text.split '.' cs
  parts.length == 4 && parts.all isOctet

def isGroup (cs : List Char) : Bool := !cs.isEmpty && cs.length ≤ 4 && cs.all fun c => (Hex.digit? c).isSome

/-- The groups of an IPv6 address; one in IPv4 form at the end stands for two. -/
def groups? (cs : List Char) : Option (List (List Char)) :=
  let parts := Text.split ':' cs
  let last := parts.getLastD []
  if last.contains '.' then if isIPv4 last then some (parts.dropLast ++ [['0'], ['0']]) else none else some parts

/-- Groups with a single gap in the middle, or all eight of them. An empty group at either end belongs to the gap. -/
def areGroups (parts : List (List Char)) : Bool :=
  match parts.tail.dropLast.findIdx? List.isEmpty with
  | none => parts.length == 8 && parts.all isGroup
  | some gap =>
    let front := parts.take (gap + 1)
    let back := parts.drop (gap + 2)
    let front := if front == [[]] then [] else front
    let back := if back == [[]] then [] else back
    front.length + back.length ≤ 7 && front.all isGroup && back.all isGroup

/-- Groups with colons between them and perhaps a zone after a percent sign. -/
def isIPv6 (cs : List Char) : Bool :=
  let (address, zone?) := match Text.cut? '%' cs with
    | some (address, zone) => (address, some zone)
    | none => (cs, none)
  let zoned := match zone? with
    | some zone => !zone.isEmpty && !zone.contains '%'
    | none => true
  zoned &&
    match groups? address with
    | some parts => 3 ≤ (Text.split ':' address).length && areGroups parts
    | none => false

end Airdrop.Url
