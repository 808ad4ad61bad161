import AtriumVerified.Lib.IpAddress

/-!
# The caller's address

The model of `packages/auth/src/client-ip.ts`: which header is believed under which description of
the proxies in front, the reading of a forwarded chain, and the addresses and networks that its
entries are compared with. Texts are lists of characters; `RangeError` is what an array of a
negative length raises.
-/

namespace Auth

open IpAddress

/-- `RangeError: Invalid array length`. -/
inductive RangeError where
  | invalidArrayLength
  deriving DecidableEq, Repr

/-! ## Texts -/

/-- What `.` does not match. -/
def isLineTerminator (c : Char) : Bool := c == '\n' || c == '\r' || c == '\u2028' || c == '\u2029'

/-- `(?::\d+)?$`. -/
def isPort (text : List Char) : Bool :=
  match text with
  | [] => true
  | c :: digits => c == ':' && !digits.isEmpty && digits.all Js.isDigit

/-- `/^\[(.+)\](?::\d+)?$/`: the group, when the text matches. No port holds a `]`, so the bracket
that closes is the last one. -/
def bracketed (address : List Char) : Option (List Char) :=
  match address with
  | '[' :: body =>
    match Js.splitAtLast ']' body with
    | some (inner, port) =>
      if inner ≠ [] ∧ inner.all (fun c => !isLineTerminator c) ∧ isPort port then some inner
      else none
    | none => none
  | _ => none

def mappedPrefix : List Char := "::ffff:".toList

/-- The text without the prefix of the IPv4-mapped form. -/
def unmapped (address : List Char) : List Char :=
  if mappedPrefix.isPrefixOf address then address.drop mappedPrefix.length else address

/-- The text without a port. A bare IPv6 address is never split. -/
def withoutPort (address : List Char) : List Char :=
  let host := address.takeWhile (· != ':')
  if address.count ':' = 1 ∧ host ≠ [] then host else address

/-- `normalise` after the text is trimmed. -/
def normaliseTrimmed (trimmed : List Char) : Option (List Char) :=
  let address := unmapped trimmed
  match bracketed address with
  | some inner => some inner
  | none => if withoutPort address = [] then none else some (withoutPort address)

def normalise (value : List Char) : Option (List Char) :=
  let trimmed := Js.trim value
  if trimmed = [] then none else normaliseTrimmed trimmed

/-! ## Addresses -/

/-- `ipv4Pattern`: the four groups, when the text matches. -/
def ipv4Pattern (address : List Char) : Option (List (List Char)) :=
  let parts := address.splitOn '.'
  if parts.length = 4 ∧
      parts.all (fun part => 1 ≤ part.length && part.length ≤ 3 && part.all Js.isDigit) then
    some parts
  else none

/-- The bytes of the octets of an address, when none is over 255. -/
def bytesOfOctets (octets : List (List Char)) : Option Bytes :=
  if octets.any fun octet => 255 < Js.numberOf octet then none else some (octets.map octetByte)

/-- `/^[0-9a-fA-F]{1,4}$/`. -/
def isGroup (group : List Char) : Bool :=
  1 ≤ group.length && group.length ≤ 4 && group.all isHexDigit

/-- The two bytes that `ipv6ToBytes` stores for a group. -/
def storedBytes (group : List Char) : Bytes :=
  let parsed := hexValue group
  [BitVec.ofNat 8 ((parsed >>> 8) &&& 0xff), BitVec.ofNat 8 (parsed &&& 0xff)]

/-- The groups of an address, of which a `::` leaves some out. `Array(8 - left - right)` raises for
a negative length. -/
def groupsOf : List (List Char) → Except RangeError (List (List Char))
  | [first, second] =>
    let left := Js.pieces ':' first
    let right := Js.pieces ':' second
    if 8 < left.length + right.length then .error .invalidArrayLength
    else .ok (left ++ List.replicate (8 - left.length - right.length) ['0'] ++ right)
  | halves => .ok (Js.pieces ':' (halves.headD []))

/-- The bytes of the groups of an address, when there are eight and all can be read. -/
def bytesOfGroups (groups : List (List Char)) : Option Bytes :=
  if groups.length = 8 ∧ groups.all isGroup then some (groups.flatMap storedBytes) else none

/-- `ipv6ToBytes`. -/
def ipv6ToBytes (address : List Char) : Except RangeError (Option Bytes) :=
  if ':' ∉ address then .ok none
  else
    let halves := Js.split [':', ':'] address
    if 2 < halves.length then .ok none
    else (groupsOf halves).map bytesOfGroups

/-- The first line of `ipToBytes`: what is read of a text. -/
def opened (value : List Char) : List Char :=
  if value.head? = some '[' then (normalise value).getD value else value

/-- `address.toLowerCase().startsWith('::ffff:')`. No character outside ASCII has a colon or an `f`
as its lower case. -/
def startsMapped (address : List Char) : Bool :=
  mappedPrefix.isPrefixOf (address.map Char.toLower)

/-- The rest of `ipToBytes`, where `read` reads what stands after the IPv4-mapped prefix. -/
def readAddress (read : List Char → Except RangeError (Option Bytes)) (address : List Char) :
    Except RangeError (Option Bytes) :=
  match ipv4Pattern address with
  | some octets => .ok (bytesOfOctets octets)
  | none =>
    match if startsMapped address then read (address.drop mappedPrefix.length) else .ok none with
    | .error raised => .error raised
    | .ok (some mapped) => if mapped.length = 4 then .ok (some mapped) else ipv6ToBytes address
    | .ok none => ipv6ToBytes address

/-- `ipToBytes`, for as many nested reads as `fuel`. -/
def readBytes : Nat → List Char → Except RangeError (Option Bytes)
  | 0, _ => .ok none
  | fuel + 1, value => readAddress (readBytes fuel) (opened value)

/-- `ipToBytes`; a nested read has fewer characters, so the characters bound the reads. -/
def ipToBytes (value : List Char) : Except RangeError (Option Bytes) :=
  readBytes (value.length + 1) value

/-! ## Networks -/

structure Cidr where
  bytes : Bytes
  prefix_ : Nat
  deriving DecidableEq, Repr

/-- The address and the suffix that `parseCidr` reads. -/
def cidrParts (value : List Char) : List Char × Option (List Char) :=
  match Js.splitAtLast '/' value with
  | some (address, suffix) => (address, some suffix)
  | none => (value, none)

/-- The network of an address and a suffix, when the suffix is a number of bits that it has. -/
def cidrOf (suffix : Option (List Char)) (bytes : Bytes) : Option Cidr :=
  let maxBits := bytes.length * 8
  match suffix with
  | none => some ⟨bytes, maxBits⟩
  | some digits =>
    if (digits ≠ [] ∧ digits.all Js.isDigit) ∧ Js.numberOf digits ≤ maxBits then
      some ⟨bytes, Js.numberOf digits⟩
    else none

def parseCidr (value : List Char) : Except RangeError (Option Cidr) :=
  (ipToBytes (cidrParts value).1).map fun read => read.bind (cidrOf (cidrParts value).2)

/-- The mask of the first `take` bits of a byte. -/
def mask (take : Nat) : BitVec 8 := if take = 8 then 0xff else (0xff : BitVec 8) <<< (8 - take)

/-- The loop of `withinCidr`. -/
def agreeLoop : Nat → Bytes → Bytes → Bool
  | remaining, byte :: address, other :: network =>
    if remaining = 0 then true
    else
      let take := if 8 ≤ remaining then 8 else remaining
      if byte &&& mask take = other &&& mask take then agreeLoop (remaining - 8) address network
      else false
  | _, _, _ => true

def withinCidr (address : Bytes) (network : Cidr) : Bool :=
  if address.length ≠ network.bytes.length then false
  else agreeLoop network.prefix_ address network.bytes

/-- The entries of a list of addresses, without the blank ones. -/
def entries (value : List Char) : List (List Char) :=
  ((value.splitOn ',').map Js.trim).filter fun entry => !entry.isEmpty

def parsedEntries : List (List Char) → Except RangeError (List (List Char × Cidr))
  | [] => .ok []
  | entry :: rest => do
    let network ← parseCidr entry
    let others ← parsedEntries rest
    return (network.map fun cidr => (entry, cidr)).toList ++ others

def parseTrustedProxies (raw : Option (List Char)) : Except RangeError (List (List Char)) := do
  let parsed ← parsedEntries (entries (raw.getD []))
  return parsed.map Prod.fst

/-- The networks of the trusted proxies, in `firstUntrustedHop`. -/
def networksOf (trustedProxies : List (List Char)) : Except RangeError (List Cidr) := do
  let parsed ← parsedEntries trustedProxies
  return parsed.map Prod.snd

/-! ## The caller -/

inductive ProxyStrategy where
  | unconfigured
  | socket
  | forwarded (hops : Nat) (trustedProxies : Option (List (List Char)))
  deriving DecidableEq, Repr

def forwardedHeaderNames : List String := ["x-forwarded-for", "x-real-ip"]

/-- `ClientIpOptions`, with the defaults of `clientIp`. -/
structure ClientIpOptions where
  strategy : ProxyStrategy := .unconfigured
  socketAddress : Option (List Char) := none
  headerNames : List String := forwardedHeaderNames

/-- The entries of a chain that `normalise` reads. -/
def readable (value : List Char) : List (List Char) := (value.splitOn ',').filterMap normalise

def nthFromTheRight (value : List Char) (hops : Nat) : Option (List Char) :=
  let chain := readable value
  if chain.length < hops then none else chain[chain.length - hops]?

/-- The loop of `firstUntrustedHop`, over the chain from the right. -/
def walk (networks : List Cidr) : List (List Char) → Except RangeError (Option (List Char))
  | [] => .ok none
  | entry :: older =>
    match ipToBytes entry with
    | .error raised => .error raised
    | .ok none => .ok none
    | .ok (some bytes) =>
      if networks.any (withinCidr bytes) then walk networks older else .ok (normalise entry)

def firstUntrustedHop (value : List Char) (trustedProxies : List (List Char)) :
    Except RangeError (Option (List Char)) := do
  let chain := entries value
  if chain = [] then return none
  else
    let networks ← networksOf trustedProxies
    if networks = [] then return none else walk networks chain.reverse

/-- What the chain of a header says under a forwarded strategy. -/
def foundIn (hops : Nat) (trustedProxies : Option (List (List Char))) (value : List Char) :
    Except RangeError (Option (List Char)) :=
  match trustedProxies with
  | some (proxy :: others) => firstUntrustedHop value (proxy :: others)
  | _ => .ok (nthFromTheRight value hops)

/-- The loop of `clientIp` over the header names: the first header with a value decides. -/
def searchHeaders (headers : String → Option (List Char)) (hops : Nat)
    (trustedProxies : Option (List (List Char))) (socket : Option (List Char)) :
    List String → Except RangeError (Option (List Char))
  | [] => .ok socket
  | name :: names =>
    match headers name with
    | some (c :: text) => do
      match ← foundIn hops trustedProxies (c :: text) with
      | some found => return some found
      -- A header that is present and unreadable stops the search.
      | none => return socket
    | _ => searchHeaders headers hops trustedProxies socket names

def clientIp (headers : String → Option (List Char)) (options : ClientIpOptions) :
    Except RangeError (Option (List Char)) :=
  let socket := options.socketAddress.bind normalise
  match options.strategy with
  | .unconfigured => .ok none
  | .socket => .ok socket
  | .forwarded hops trustedProxies =>
    searchHeaders headers hops trustedProxies socket options.headerNames

end Auth
