import ChartScript.Text.Bytes

/-!
# Ports

A port is written as a number, with or without a sign, or as the name of a service. Numbers are read
into a word of 32 bits that is only followed up to a ceiling: once it is passed the number is too
large, whatever stands behind it.
-/

set_option autoImplicit false

namespace ChartScript.Port

/-- The services whose ports are known by name. -/
def services : List String :=
  ["domain", "ftp", "ftps", "gopher", "http", "https", "imap2", "imap3", "imaps", "pop3", "pop3s",
   "smtp", "submissions", "ssh", "telnet"]

/-- Whether a byte is a digit. -/
def isDigit (b : UInt8) : Bool := 48 ≤ b && b ≤ 57

/-- A letter from `A` to `Z` as a small one; any other byte as it is. -/
def toSmall (b : UInt8) : UInt8 := if 65 ≤ b && b ≤ 90 then b + 32 else b

/-- A number that has reached this much takes no further digit. -/
def ceiling : UInt32 := 0x40000000

/-- What a number that is too large is taken for. -/
def tooLarge : UInt32 := 0xFFFFFFFF

/-- The number that digits continue. There is none if a byte that is looked at is no digit. -/
def continued? (n : UInt32) : Bytes → Option UInt32
  | [] => some n
  | b :: rest =>
    if isDigit b then
      let next := n * 10 + (b.toUInt32 - 48)
      if ceiling ≤ n || next < n * 10 then some tooLarge else continued? next rest
    else none

/-- The number that a text writes; that of the empty text is zero. -/
def number? : Bytes → Option Int
  | 43 :: digits => (continued? 0 digits).map fun n => (n.toNat : Int)
  | 45 :: digits => (continued? 0 digits).map fun n => -(n.toNat : Int)
  | digits => (continued? 0 digits).map fun n => (n.toNat : Int)

/-- Whether a number is that of a port. -/
def isPort (n : Int) : Bool := 0 ≤ n && n ≤ 65535

/-- Whether a text is the name of a service, in letters of either case. -/
def isService (name : Bytes) : Bool :=
  services.any fun s => (s : Bytes) == name.map toSmall

end ChartScript.Port
