import ChartScript.Network.IpAddress

/-!
# Percent escapes

In a URL any byte can be written as a percent sign and two hexadecimal digits. Which bytes need not
be depends on the part of the URL they stand in. In a host, only bytes that are not ASCII may be, and
the percent sign itself; in the zone of an address, only a blank, the percent sign, and what need not
be.
-/

set_option autoImplicit false

namespace ChartScript

/-- Why a text is no URL. -/
inductive UrlFault where
  | controlByte
  | missingScheme
  | relative
  | colonBeforeSlash
  | badEscape (written : Bytes)
  | badHostByte (written : Bytes)
  | badPort (written : Bytes)
  | unclosedBracket
  | badAddress (written : Bytes) (fault : IpFault)
  | badBrackets
  | badUser
  deriving DecidableEq

/-- The words for a fault. -/
def UrlFault.text : UrlFault → Bytes
  | .controlByte => "net/url: invalid control character in URL"
  | .missingScheme => "missing protocol scheme"
  | .relative => "invalid URI for request"
  | .colonBeforeSlash => "first path segment in URL cannot contain colon"
  | .badEscape written => "invalid URL escape " ++ written.quote
  | .badHostByte written => "invalid character " ++ written.quote ++ " in host name"
  | .badPort written => "invalid port " ++ written.quote ++ " after host"
  | .unclosedBracket => "missing ']' in host"
  | .badAddress written fault => "invalid host: ParseAddr(" ++ written.quote ++ "): " ++ fault.text
  | .badBrackets => "invalid IP-literal"
  | .badUser => "net/url: invalid userinfo"

/-- The parts of a URL that may hold escapes. -/
inductive UrlPart where
  | user
  | host
  /-- The zone of an address in a host. -/
  | zone
  | path
  | fragment
  deriving DecidableEq

namespace UrlPart

/-- The marks that stand for themselves when a part is written. -/
def marks : UrlPart → String
  | .user => "-_.~$&+,;="
  | .host | .zone => "-_.~!$&'()*+,;=:[]<>\""
  | .path => "-_.~$&+,/:;=@"
  | .fragment => "-_.~$&+,/:;=?@!()*"

/-- Whether a byte is an ASCII letter or a digit. -/
def isAlphanumeric (b : UInt8) : Bool :=
  (48 ≤ b && b ≤ 57) || (65 ≤ b && b ≤ 90) || (97 ≤ b && b ≤ 122)

/-- Whether a byte stands for itself when a part is written. -/
def keeps (part : UrlPart) (b : UInt8) : Bool :=
  isAlphanumeric b || (part.marks : Bytes).contains b

/-- A hexadecimal digit, capital letters. -/
def hexDigit (n : Nat) : UInt8 := UInt8.ofNat (if n < 10 then 48 + n else 55 + n)

/-- The escape of a byte. -/
def escapeByte (b : UInt8) : Bytes := [37, hexDigit (b.toNat / 16), hexDigit (b.toNat % 16)]

/-- A part as it is written. -/
def escape (part : UrlPart) (text : Bytes) : Bytes :=
  text.flatMap fun b => if part.keeps b then [b] else escapeByte b

/-- Whether a part belongs to a host, where few bytes may be escaped and no others may stand. -/
def isStrict (part : UrlPart) : Bool := part = .host || part = .zone

/-- Whether a byte may be escaped in a part. -/
def mayEscape (part : UrlPart) (b : UInt8) : Bool :=
  match part with
  | .host => b = 37 || 128 ≤ b
  | .zone => b = 37 || b = 32 || part.keeps b
  | _ => true

/-- The byte that two hexadecimal digits stand for in a part. -/
def escaped (part : UrlPart) (a b : UInt8) : Except UrlFault UInt8 :=
  match Text.Quoted.hexByteValue? a, Text.Quoted.hexByteValue? b with
  | some high, some low =>
    let byte := UInt8.ofNat (high * 16 + low)
    if part.mayEscape byte then .ok byte else .error (.badEscape [37, a, b])
  | _, _ => .error (.badEscape [37, a, b])

/-- The text that a part stands for. -/
def unescape (part : UrlPart) : Bytes → Except UrlFault Bytes
  | [] => .ok []
  | 37 :: a :: b :: rest =>
    match part.escaped a b with
    | .ok byte => (part.unescape rest).map (byte :: ·)
    | .error e => .error e
  | b :: rest =>
    if b = 37 then .error (.badEscape (b :: rest))
    else if part.isStrict && b < 128 && !part.keeps b then .error (.badHostByte [b])
    else (part.unescape rest).map (b :: ·)

/-- Whether a part that was read may be written as it was: nothing in it needs an escape, save a few
marks that are left alone. -/
def isWritten (part : UrlPart) (text : Bytes) : Bool :=
  text.all fun b => part.keeps b || ("!$&'()*+,;=:@[]%" : Bytes).contains b

/-- A text as it is written in a part: in the way it was, if it was read from there and that is
sound. -/
def restore (part : UrlPart) (written text : Bytes) : Bytes :=
  if part.isWritten written && (part.unescape written).toOption == some text then written
  else part.escape text

end UrlPart

end ChartScript
