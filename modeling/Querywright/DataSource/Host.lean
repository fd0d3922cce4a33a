/-
  Host addresses in brackets: an IPv6 address, with a zone after a percent sign, or an address
  of a future version. An IPv4 address is recognised in order to be refused.
-/
import Querywright.Fault
import Querywright.Text.Basic
import Querywright.Text.Quoted

namespace Querywright.Host

/-- A decimal number from 0 to 255 without leading zeros. -/
def isOctet (s : List Char) : Bool :=
  !s.isEmpty && s.all Char.isDigit && s.length ≤ 3 && (s == ['0'] || s.head? != some '0') &&
    (s.foldl (fun n c => 10 * n + (c.toNat - 48)) 0) ≤ 255

/-- Whether the text is an IPv4 address. -/
def isIPv4 (s : List Char) : Bool :=
  let octets := Text.cutAtEvery '.' s
  octets.length == 4 && octets.all isOctet

/-- A hexadecimal digit. -/
def isHex (c : Char) : Bool :=
  c.isDigit || ('a' ≤ c && c ≤ 'f') || ('A' ≤ c && c ≤ 'F')

/-- One to four hexadecimal digits. -/
def isGroup (s : List Char) : Bool :=
  !s.isEmpty && s.all isHex && s.length ≤ 4

/-- The groups of an address, an IPv4 ending counting as two groups. -/
def groups? (s : List Char) : Option (List (List Char)) :=
  let groups := Text.cutAtEvery ':' s
  let last := groups.getLast?.getD []
  if groups.length < 3 then none
  else if last.contains '.' then
    if isIPv4 last then some (groups.dropLast ++ [['0'], ['0']]) else none
  else some groups

/-- The places of empty groups other than the first and the last. -/
def gaps (groups : List (List Char)) : List Nat :=
  (List.range groups.length).filter fun i =>
    0 < i && i + 1 < groups.length && (groups.getD i []).isEmpty

/-- Whether the groups before and after a gap are well formed: an empty outermost group is only
allowed next to the gap. -/
def isSplitBy (groups : List (List Char)) (gap : Nat) : Bool :=
  let front := groups.take gap
  let back := groups.drop (gap + 1)
  let front := if front == [[]] then [] else front
  let back := if back == [[]] then [] else back
  front.all isGroup && back.all isGroup && front.length + back.length < 8

/-- Whether the text is an IPv6 address without a zone. -/
def isPlainIPv6 (s : List Char) : Bool :=
  match groups? s with
  | none => false
  | some groups =>
    groups.length ≤ 9 &&
      match gaps groups with
      | [] => groups.length == 8 && groups.all isGroup
      | [gap] => isSplitBy groups gap
      | _ => false

/-- Whether the text is an IPv6 address. -/
def isIPv6 (s : List Char) : Bool :=
  match Text.cutAtFirst '%' s with
  | (address, none) => isPlainIPv6 address
  | (address, some zone) => !zone.isEmpty && !zone.contains '%' && isPlainIPv6 address

/-- Whether the text is an address of a future version: `v`, hexadecimal digits, a point and
more. -/
def isFuture (s : List Char) : Bool :=
  match s with
  | 'v' :: rest =>
    match Text.cutAtFirst '.' rest with
    | (version, some more) => !version.isEmpty && version.all isHex && !more.isEmpty
    | _ => false
  | _ => false

/-- Check the host of an authority that has brackets. -/
def checkAddress (s : List Char) : Except Fault Unit :=
  if s.head? = some 'v' then
    if isFuture s then .ok () else .error (.address .futureAddress)
  else if isIPv4 s then .error (.address .bracketedIPv4)
  else if isIPv6 s then .ok ()
  else .error (.address (.notAnAddress (Text.quote (String.ofList s))))

end Querywright.Host
