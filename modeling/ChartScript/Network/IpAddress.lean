import ChartScript.Network.Port
import ChartScript.Text.Quoted

/-!
# Addresses of hosts

An address is four octets with points between them, or eight groups of sixteen bits with colons
between them. Of the groups, a run that is zero may be left out, which two colons show; the last two
may be written as four octets; and a zone may follow behind a percent sign. `parse` reads an address
from its front and tells the first thing that is wrong with it, and `text` writes it: in octets if
it has an address in octets, else with its longest run of zeros left out.
-/

set_option autoImplicit false

namespace ChartScript

/-- Why a text is no address. Where a fault says so, it comes with the text from that place on. -/
inductive IpFault where
  | shapeless
  | onlyZone
  | leadingZero
  | largeOctet
  | emptyOctet (place : Bytes)
  | strayByte (place : Bytes)
  | tooManyOctets
  | tooFewOctets
  | emptyZone
  | longGroup (place : Bytes)
  | emptyGroup (place : Bytes)
  | misplacedOctets (place : Bytes)
  | noRoomForOctets (place : Bytes)
  | missingColon (place : Bytes)
  | openEnd (place : Bytes)
  | secondGap (place : Bytes)
  | tooManyGroups (place : Bytes)
  | tooFewGroups
  | emptyGap
  deriving DecidableEq

/-- The words for a fault. -/
def IpFault.text : IpFault → Bytes
  | .shapeless => "unable to parse IP"
  | .onlyZone => "missing IPv6 address"
  | .leadingZero => "IPv4 field has octet with leading zero"
  | .largeOctet => "IPv4 field has value >255"
  | .emptyOctet place => sited "IPv4 field must have at least one digit" place
  | .strayByte place => sited "unexpected character" place
  | .tooManyOctets => "IPv4 address too long"
  | .tooFewOctets => "IPv4 address too short"
  | .emptyZone => "zone must be a non-empty string"
  | .longGroup place => sited "each group must have 4 or fewer digits" place
  | .emptyGroup place =>
    sited "each colon-separated field must have at least one digit" place
  | .misplacedOctets place =>
    sited "embedded IPv4 address must replace the final 2 fields of the address" place
  | .noRoomForOctets place =>
    sited "too many hex fields to fit an embedded IPv4 at the end of the address" place
  | .missingColon place => sited "unexpected character, want colon" place
  | .openEnd place => sited "colon must be followed by more characters" place
  | .secondGap place => sited "multiple :: in address" place
  | .tooManyGroups place => sited "trailing garbage after address" place
  | .tooFewGroups => "address string too short"
  | .emptyGap => "the :: must expand to at least one field of zeros"
where
  /-- Words with the place they are about, if anything is left there. -/
  sited (words : String) (place : Bytes) : Bytes :=
    if place.isEmpty then words else words ++ " (at " ++ place.quote ++ ")"

/-- The address of a host. -/
inductive IpAddress where
  /-- Four octets. -/
  | short (octets : List Nat)
  /-- Eight groups, and the zone they belong to, which is empty if they belong to none. -/
  | long (groups : List Nat) (zone : Bytes)

namespace IpAddress

/-- How many groups a long address has. -/
def groupCount : Nat := 8

/-- Reads the rest of four octets; `octets` came before, and `octet` is what was read of the one at
the front. -/
def octetsFrom (octets : List Nat) (octet : Option Nat) : Bytes → Except IpFault (List Nat)
  | [] => if octets.length < 3 then .error .tooFewOctets else .ok (octets ++ octet.toList)
  | b :: rest =>
    if Port.isDigit b then
      let next := octet.getD 0 * 10 + (b.toNat - 48)
      if octet = some 0 then .error .leadingZero
      else if 255 < next then .error .largeOctet
      else octetsFrom octets (some next) rest
    else if b = 46 then
      if octet.isNone || rest.isEmpty then .error (.emptyOctet (b :: rest))
      else if octets.length = 3 then .error .tooManyOctets
      else octetsFrom (octets ++ octet.toList) none rest
    else .error (.strayByte (b :: rest))

/-- Reads four octets. -/
def parseOctets (text : Bytes) : Except IpFault (List Nat) := octetsFrom [] none text

/-- Whether a byte is a hexadecimal digit. -/
def isHexDigit (b : UInt8) : Bool := (Text.Quoted.hexByteValue? b).isSome

/-- The number that hexadecimal digits write. -/
def groupValue (digits : Bytes) : Nat :=
  digits.foldl (fun n b => n * 16 + (Text.Quoted.hexByteValue? b).getD 0) 0

/-- The groups that octets make, two octets each. -/
def groupsOfOctets : List Nat → List Nat
  | high :: low :: rest => (high * 256 + low) :: groupsOfOctets rest
  | _ => []

/-- What was read of a long address: its groups, how many of them stand before the gap, if there is
one, and what follows. -/
structure Progress where
  groups : List Nat := []
  gap : Option Nat := none
  rest : Bytes

/-- Reads on in a long address, until there is no room left for a group. -/
def groupsFrom : Nat → Progress → Except IpFault Progress
  | 0, p => .ok p
  | room + 1, p =>
    let digits := p.rest.takeWhile isHexDigit
    let groups := p.groups ++ [groupValue digits]
    if 4 < digits.length then .error (.longGroup p.rest)
    else if digits.isEmpty then .error (.emptyGroup p.rest)
    else match p.rest.drop digits.length with
      | [] => .ok { p with groups, rest := [] }
      | 46 :: _ =>
        if p.gap.isNone && room != 1 then .error (.misplacedOctets p.rest)
        else if room = 0 then .error (.noRoomForOctets p.rest)
        else (parseOctets p.rest).map fun octets =>
          { p with groups := p.groups ++ groupsOfOctets octets, rest := [] }
      | [58] => .error (.openEnd [58])
      | 58 :: 58 :: rest =>
        if p.gap.isSome then .error (.secondGap (58 :: rest))
        else if rest.isEmpty then .ok { groups, gap := some groups.length, rest }
        else groupsFrom room { groups, gap := some groups.length, rest }
      | 58 :: rest => groupsFrom room { p with groups, rest }
      | place => .error (.missingColon place)

/-- The groups of what was read, with zeros for the gap. -/
def Progress.complete (p : Progress) : Except IpFault (List Nat) :=
  if !p.rest.isEmpty then .error (.tooManyGroups p.rest)
  else match p.gap with
    | none => if p.groups.length < groupCount then .error .tooFewGroups else .ok p.groups
    | some n =>
      if p.groups.length < groupCount then
        .ok (p.groups.take n ++ List.replicate (groupCount - p.groups.length) 0 ++ p.groups.drop n)
      else .error .emptyGap

/-- Reads the groups of a long address. -/
def parseGroups (text : Bytes) : Except IpFault (List Nat) := do
  match text with
  | [58, 58] => return List.replicate groupCount 0
  | 58 :: 58 :: rest => (← groupsFrom groupCount { gap := some 0, rest }).complete
  | rest => (← groupsFrom groupCount { rest }).complete

/-- Reads a long address. -/
def parseLong (text : Bytes) : Except IpFault IpAddress :=
  let written := text.takeWhile (· != 37)
  let zone := text.drop (written.length + 1)
  if written.length < text.length && zone.isEmpty then .error .emptyZone
  else (parseGroups written).map fun groups => .long groups zone

/-- Reads an address. The first mark in it tells of which kind it is. -/
def parse (text : Bytes) : Except IpFault IpAddress :=
  match text.find? fun b => b = 46 || b = 58 || b = 37 with
  | some 46 => (parseOctets text).map .short
  | some 58 => parseLong text
  | some _ => .error .onlyZone
  | none => .error .shapeless

/-- Octets as they are written. -/
def octetsText (octets : List Nat) : Bytes := Bytes.join "." (octets.map Bytes.ofNat)

/-- A group as it is written. -/
def groupText (group : Nat) : Bytes := Bytes.ofChars (Nat.toDigits 16 group)

/-- How many groups at the front are zero. -/
def zeros (groups : List Nat) : Nat := (groups.takeWhile (· == 0)).length

/-- Where the first of the longest runs of zeros begins and how long it is; a single zero is no
run. -/
def longestRun? (groups : List Nat) : Option (Nat × Nat) :=
  (List.range groups.length).foldl (fun best i =>
    let length := zeros (groups.drop i)
    if (best.map (·.2)).getD 1 < length then some (i, length) else best) none

/-- Groups as they are written. -/
def groupsText (groups : List Nat) : Bytes :=
  let written := fun (part : List Nat) => Bytes.join ":" (part.map groupText)
  match longestRun? groups with
  | none => written groups
  | some (i, length) => written (groups.take i) ++ "::" ++ written (groups.drop (i + length))

/-- An address as it is written. -/
def text : IpAddress → Bytes
  | .short octets => octetsText octets
  | .long [0, 0, 0, 0, 0, 0xFFFF, high, low] _ =>
    octetsText [high / 256, high % 256, low / 256, low % 256]
  | .long groups zone => groupsText groups ++ if zone.isEmpty then [] else 37 :: zone

end IpAddress

end ChartScript
