import ChartScript.Network.Port

/-!
# Addresses to listen on and to call

An address is a host and a port with a colon between them; a host that has colons itself stands in
brackets. A port is a number up to 65535 or the name of a service (`ChartScript.Network.Port`).
-/

set_option autoImplicit false

namespace ChartScript

/-- What is wrong with an address. -/
inductive AddressFault where
  | missingPort
  | tooManyColons
  | missingBracket
  | unexpectedOpening
  | unexpectedClosing
  | invalidPort (port : Bytes)
  | unknownPort (service : Bytes)

/-- An address that nothing can be done with. -/
structure AddressError where
  address : Bytes
  fault : AddressFault

/-- The words for an error. -/
def AddressError.text (e : AddressError) : Bytes :=
  let about := fun (subject : Bytes) (why : String) =>
    "address " ++ subject ++ ": " ++ (why : Bytes)
  match e.fault with
  | .missingPort => about e.address "missing port in address"
  | .tooManyColons => about e.address "too many colons in address"
  | .missingBracket => about e.address "missing ']' in address"
  | .unexpectedOpening => about e.address "unexpected '[' in address"
  | .unexpectedClosing => about e.address "unexpected ']' in address"
  | .invalidPort port => about port "invalid port"
  | .unknownPort service => "lookup tcp/" ++ service ++ ": unknown port"

/-- The text of an error in listening on an address. -/
def AddressError.message (e : AddressError) : Bytes := "listen tcp: " ++ e.text

namespace Address

/-- What is wrong with a port. One that is left out, and one that is zero, can be listened on. -/
def portFault? (port : Bytes) : Option AddressFault :=
  match Port.number? port with
  | some n => if Port.isPort n then none else some (.invalidPort port)
  | none => if Port.isService port then none else some (.unknownPort port)

/-- What stands before the last colon of an address, and what behind it. -/
def splitLast? (addr : Bytes) : Option (Bytes × Bytes) :=
  let port := (addr.reverse.takeWhile (· != 58)).reverse
  if port.length < addr.length then
    some (addr.take (addr.length - port.length - 1), port)
  else none

/-- What is wrong with a host that has no brackets. -/
def plainFault? (host port : Bytes) : Option AddressFault :=
  if host.contains 58 then some .tooManyColons
  else if host.contains 91 || port.contains 91 then some .unexpectedOpening
  else if host.contains 93 || port.contains 93 then some .unexpectedClosing
  else none

/-- What is wrong with an address that begins with a bracket; `inner` follows it. -/
def bracketFault? (inner port : Bytes) : Option AddressFault :=
  let host := inner.takeWhile (· != 93)
  let behind := inner.drop (host.length + 1)
  if host.length = inner.length then some .missingBracket
  else if behind.isEmpty then some .missingPort
  else if behind != 58 :: port then
    some (if behind.head? = some 58 then .tooManyColons else .missingPort)
  else if host.contains 91 || port.contains 91 then some .unexpectedOpening
  else if port.contains 93 then some .unexpectedClosing
  else none

/-- What is wrong with an address. The empty one is that of a web server. -/
def fault? (addr : Bytes) : Option AddressFault :=
  if addr.isEmpty then none
  else match splitLast? addr with
    | none => some .missingPort
    | some (host, port) =>
      let split := match addr with
        | 91 :: inner => bracketFault? inner port
        | _ => plainFault? host port
      split.or (portFault? port)

/-- The error of trying to listen on an address, or to call it. -/
def error? (addr : Bytes) : Option AddressError := (fault? addr).map fun f => ⟨addr, f⟩

/-- The address of a host and a port. -/
def join (host port : Bytes) : Bytes :=
  if host.contains 58 then 91 :: host ++ 93 :: 58 :: port else host ++ 58 :: port

end Address

end ChartScript
