import ChartScript.Network.Escape
import ChartScript.Network.Port

/-!
# URLs

A URL has a scheme, an authority (who asks, and the host with its port), a path, a query and a
fragment, and each but the path may be missing. `parse` reads one and `text` writes it; a target, as
a request names it, is read by `parseTarget` and has no fragment.
-/

set_option autoImplicit false

namespace ChartScript

/-- Who asks. -/
structure UserInfo where
  name : Bytes
  password : Option Bytes := none

/-- A URL, its escapes resolved. -/
structure Url where
  scheme : Bytes := []
  /-- What follows the scheme, if no slash does. -/
  rootless : Bytes := []
  user : Option UserInfo := none
  /-- The host, and behind a colon its port. -/
  host : Bytes := []
  /-- Whether a path follows the scheme without an authority. -/
  omitsHost : Bool := false
  path : Bytes := []
  /-- The path with its escapes. -/
  writtenPath : Bytes := []
  /-- The query; a mark alone makes an empty one. -/
  query : Option Bytes := none
  fragment : Bytes := []
  /-- The fragment with its escapes. -/
  writtenFragment : Bytes := []

/-- A text that is no URL. -/
structure UrlError where
  written : Bytes
  fault : UrlFault

/-- The text of an error. -/
def UrlError.message (e : UrlError) : Bytes :=
  "parse " ++ e.written.quote ++ ": " ++ e.fault.text

namespace Url

/-- What stands before the first `b` and what stands behind it, if there is one. -/
def cut? (b : UInt8) (text : Bytes) : Option (Bytes × Bytes) :=
  let before := text.takeWhile (· != b)
  if before.length < text.length then some (before, text.drop (before.length + 1)) else none

/-- What stands before the last `b` and what stands behind it, if there is one. -/
def cutLast? (b : UInt8) (text : Bytes) : Option (Bytes × Bytes) :=
  (cut? b text.reverse).map fun (after, before) => (before.reverse, after.reverse)

/-- Whether a byte is an ASCII letter. -/
def isLetter (b : UInt8) : Bool := UrlPart.isAlphanumeric b && !Port.isDigit b

/-- The scheme before the first colon, in small letters, and what follows it; all of a text without a
scheme follows. -/
def splitScheme (text : Bytes) : Except UrlFault (Bytes × Bytes) :=
  let scheme := text.takeWhile fun b => UrlPart.isAlphanumeric b || ("+-." : Bytes).contains b
  let rest := text.drop scheme.length
  if scheme.isEmpty then
    if rest.head? == some 58 then .error .missingScheme else .ok ([], text)
  else if (scheme.head?.any isLetter) && rest.head? == some 58 then
    .ok (scheme.map Port.toSmall, rest.drop 1)
  else .ok ([], text)

/-- Whether a text is nothing, or a colon and digits. -/
def isPortSuffix : Bytes → Bool
  | [] => true
  | b :: digits => b = 58 && digits.all Port.isDigit

/-- An address in brackets and its zone, which begins with an escaped percent sign. -/
def splitZone : Bytes → Bytes × Bytes
  | [] => ([], [])
  | b :: rest =>
    if ("%25" : Bytes).isPrefixOf (b :: rest) then ([], b :: rest)
    else
      let (address, zone) := splitZone rest
      (b :: address, zone)

/-- The text that an address in brackets stands for. It has to be a long one. -/
def parseLiteral (written : Bytes) : Except UrlFault Bytes := do
  let (address, zone) := splitZone written
  let text := (← UrlPart.host.unescape address) ++ (← UrlPart.zone.unescape zone)
  match IpAddress.parse text with
  | .ok (.long _ _) => return text
  | .ok (.short _) => .error .badBrackets
  | .error fault => .error (.badAddress text fault)

/-- A host that is an address in brackets, with its port; `inner` follows the bracket at its front. -/
def parseBracketed (inner : Bytes) : Except UrlFault Bytes := do
  match cutLast? 93 inner with
  | none => .error .unclosedBracket
  | some (written, port) =>
    if !isPortSuffix port then .error (.badPort port)
    let address ← parseLiteral written
    return 91 :: address ++ 93 :: port

/-- A host with its port. A bracket opens at its front or nowhere. -/
def parseHost (host : Bytes) : Except UrlFault Bytes :=
  if (host.drop 1).contains 91 then .error .badBrackets
  else match host with
    | 91 :: inner => parseBracketed inner
    | _ =>
      match cutLast? 58 host with
      | some (_, port) =>
        if isPortSuffix (58 :: port) then UrlPart.host.unescape host
        else .error (.badPort (58 :: port))
      | none => UrlPart.host.unescape host

/-- Who asks: a name, and behind a colon a password. -/
def parseUser (written : Bytes) : Except UrlFault UserInfo := do
  if !written.all fun b =>
      UrlPart.isAlphanumeric b || ("-._:~!$&'()*+,;=%@" : Bytes).contains b then
    .error .badUser
  match cut? 58 written with
  | none => return { name := ← UrlPart.user.unescape written }
  | some (name, password) =>
    let name ← UrlPart.user.unescape name
    let password ← UrlPart.user.unescape password
    return { name, password := some password }

/-- Who asks, and whom. -/
def parseAuthority (authority : Bytes) : Except UrlFault (Option UserInfo × Bytes) := do
  match cutLast? 64 authority with
  | none => return (none, ← parseHost authority)
  | some (user, host) =>
    let host ← parseHost host
    return (some (← parseUser user), host)

/-- Gives a URL its path. -/
def withPath (u : Url) (written : Bytes) : Except UrlFault Url := do
  return { u with path := ← UrlPart.path.unescape written, writtenPath := written }

/-- Gives a URL what follows its scheme, the query apart. -/
def withBody (u : Url) (isTarget : Bool) (body : Bytes) : Except UrlFault Url := do
  if ("/" : Bytes).isPrefixOf body then
    let isBare := u.scheme.isEmpty && (isTarget || ("///" : Bytes).isPrefixOf body)
    if ("//" : Bytes).isPrefixOf body && !isBare then
      let authority := (body.drop 2).takeWhile (· != 47)
      let (user, host) ← parseAuthority authority
      withPath { u with user, host } (body.drop (2 + authority.length))
    else withPath { u with omitsHost := !u.scheme.isEmpty } body
  else if !u.scheme.isEmpty then return { u with rootless := body }
  else if isTarget then .error .relative
  else if (body.takeWhile (· != 47)).contains 58 then .error .colonBeforeSlash
  else u.withPath body

/-- Reads a URL without its fragment. -/
def parseFrom (isTarget : Bool) (text : Bytes) : Except UrlFault Url := do
  if text.any fun b => b < 32 || b = 127 then .error .controlByte
  if text == ("*" : Bytes) then return { path := text, writtenPath := text }
  let (scheme, rest) ← splitScheme text
  match cut? 63 rest with
  | some (body, query) => withBody { scheme, query := some query } isTarget body
  | none => withBody { scheme } isTarget rest

/-- Reads the target of a request. -/
def parseTarget (text : Bytes) : Except UrlFault Url := parseFrom true text

/-- Reads a URL. -/
def parse (text : Bytes) : Except UrlError Url := do
  let (body, written) := (cut? 35 text).getD (text, [])
  let u ← (parseFrom false body).mapError (⟨body, ·⟩)
  let fragment ← (UrlPart.fragment.unescape written).mapError (⟨text, ·⟩)
  return { u with fragment, writtenFragment := written }

/-- The path with what escapes it needs. -/
def pathText (u : Url) : Bytes :=
  if u.path == ("*" : Bytes) then u.path else UrlPart.path.restore u.writtenPath u.path

/-- What follows the scheme, up to the query. `user` is how the one who asks is shown. -/
def bodyText (u : Url) (user : UserInfo → Bytes) : Bytes :=
  let isPlain := u.scheme.isEmpty && u.host.isEmpty && u.user.isNone
  let isHostless := u.host.isEmpty && u.user.isNone && (u.omitsHost || u.path.isEmpty)
  let authority : Bytes :=
    if isPlain || isHostless then []
    else
      let asking : Bytes := match u.user with
        | some info => user info ++ "@"
        | none => []
      "//" ++ asking ++ UrlPart.host.escape u.host
  let path := u.pathText
  let divider : Bytes :=
    if isPlain && (path.takeWhile (· != 47)).contains 58 then "./"
    else if !u.host.isEmpty && !path.isEmpty && path.head? != some 47 then "/"
    else []
  authority ++ divider ++ path

/-- A URL as it is written; `user` is how the one who asks is shown. -/
def textWith (u : Url) (user : UserInfo → Bytes) : Bytes :=
  let scheme : Bytes := if u.scheme.isEmpty then [] else u.scheme ++ ":"
  let body := if u.rootless.isEmpty then u.bodyText user else u.rootless
  let query : Bytes := match u.query with
    | some q => "?" ++ q
    | none => []
  let fragment : Bytes :=
    if u.fragment.isEmpty then []
    else "#" ++ UrlPart.fragment.restore u.writtenFragment u.fragment
  scheme ++ body ++ query ++ fragment

/-- A URL as it is written. -/
def text (u : Url) : Bytes := u.textWith fun info =>
  match info.password with
  | some password => UrlPart.user.escape info.name ++ ":" ++ UrlPart.user.escape password
  | none => UrlPart.user.escape info.name

end Url

end ChartScript
