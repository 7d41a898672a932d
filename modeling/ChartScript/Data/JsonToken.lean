import ChartScript.Data.Datum

/-!
# Tokens of JSON

The first step of reading JSON: a text is cut into marks, words, numbers and strings. Only strings
keep what they stand for. Two tokens may touch; whether they may follow one another is for the reader
of tokens to say, and it never lets a value follow a value, so that `01` or `truefalse` are cut here
and refused there.
-/

set_option autoImplicit false

namespace ChartScript

/-- A token of JSON. -/
inductive JsonToken where
  | openObject
  | closeObject
  | openArray
  | closeArray
  | colon
  | comma
  | null
  | bool (b : Bool)
  | number
  | text (t : Bytes)
  deriving DecidableEq

namespace JsonToken

/-- Whether a character may stand between tokens. -/
def isBlank (c : Char) : Bool := c == ' ' || c == '\t' || c == '\n' || c == '\r'

/-- Steps over digits, of which there has to be one. -/
def digits? (cs : List Char) : Option (List Char) :=
  let rest := cs.dropWhile fun c => '0' ≤ c && c ≤ '9'
  if rest.length < cs.length then some rest else none

/-- Steps over the whole part of a number: a zero, or digits that do not begin with one. -/
def whole? : List Char → Option (List Char)
  | '0' :: rest => some rest
  | cs => digits? cs

/-- Steps over the fraction of a number, if it has one. -/
def fraction? : List Char → Option (List Char)
  | '.' :: rest => digits? rest
  | cs => some cs

/-- Steps over the exponent of a number, if it has one. -/
def exponent? : List Char → Option (List Char)
  | c :: rest =>
    if c == 'e' || c == 'E' then
      match rest with
      | d :: more => if d == '+' || d == '-' then digits? more else digits? rest
      | [] => none
    else some (c :: rest)
  | [] => some []

/-- Steps over a number. -/
def number? (cs : List Char) : Option (List Char) :=
  let unsigned := match cs with
    | '-' :: rest => rest
    | _ => cs
  (whole? unsigned).bind fun r => (fraction? r).bind exponent?

/-- The code unit that four hexadecimal digits spell, and what follows them. -/
def unit? (cs : List Char) : Option (Nat × List Char) :=
  Text.Quoted.readDigits? Text.Quoted.hexValue? 16 4 0 cs

/-- The second half of a pair of surrogates, written as an escape. -/
def lowUnit? : List Char → Option (Nat × List Char)
  | '\\' :: 'u' :: rest => (unit? rest).bind fun (n, after) =>
      if 0xDC00 ≤ n && n < 0xE000 then some (n, after) else none
  | _ => none

/-- The character of an escaped code unit. Two surrogates that form a pair are one character; a
surrogate without its other half is U+FFFD. -/
def unitChar (n : Nat) (rest : List Char) : Char × List Char :=
  if 0xD800 ≤ n && n < 0xDC00 then
    match lowUnit? rest with
    | some (low, after) =>
      (Char.ofNat (0x10000 + (n - 0xD800) * 0x400 + (low - 0xDC00)), after)
    | none => ('\uFFFD', rest)
  else ((Text.Quoted.charOfCode? n).getD '\uFFFD', rest)

/-- What the characters behind a backslash stand for, and what follows them. -/
def unescape? : List Char → Option (Char × List Char)
  | [] => none
  | c :: rest =>
    match c with
    | '"' | '\\' | '/' => some (c, rest)
    | 'b' => some ('\x08', rest)
    | 'f' => some ('\x0c', rest)
    | 'n' => some ('\n', rest)
    | 'r' => some ('\r', rest)
    | 't' => some ('\t', rest)
    | 'u' => (unit? rest).map fun (n, after) => unitChar n after
    | _ => none

/-- The characters of a string up to its closing quote, and what follows it. At most `fuel`
characters are read. -/
def string? : Nat → List Char → Option (List Char × List Char)
  | 0, _ => none
  | _, [] => none
  | fuel + 1, c :: rest =>
    if c == '"' then some ([], rest)
    else if c == '\\' then
      (unescape? rest).bind fun (d, after) =>
        (string? fuel after).map fun (cs, left) => (d :: cs, left)
    else if c.toNat < 0x20 then none
    else (string? fuel rest).map fun (cs, left) => (c :: cs, left)

/-- The token at the front of a text, where no blank stands, and what follows it. -/
def next? : List Char → Option (JsonToken × List Char)
  | '\x7b' :: rest => some (.openObject, rest)
  | '\x7d' :: rest => some (.closeObject, rest)
  | '[' :: rest => some (.openArray, rest)
  | ']' :: rest => some (.closeArray, rest)
  | ':' :: rest => some (.colon, rest)
  | ',' :: rest => some (.comma, rest)
  | 'n' :: 'u' :: 'l' :: 'l' :: rest => some (.null, rest)
  | 't' :: 'r' :: 'u' :: 'e' :: rest => some (.bool true, rest)
  | 'f' :: 'a' :: 'l' :: 's' :: 'e' :: rest => some (.bool false, rest)
  | '"' :: rest => (string? (rest.length + 1) rest).map fun (cs, left) =>
      (.text (Bytes.ofChars cs), left)
  | cs => (number? cs).map fun rest => (.number, rest)

/-- The tokens of a text. At most `fuel` steps are taken. -/
def allFrom : Nat → List Char → Option (List JsonToken)
  | 0, _ => none
  | fuel + 1, cs =>
    match cs.dropWhile isBlank with
    | [] => some []
    | rest => (next? rest).bind fun (tk, after) => (allFrom fuel after).map (tk :: ·)

/-- The tokens of a text; none if it cannot be cut into tokens. -/
def all? (t : Bytes) : Option (List JsonToken) := allFrom (t.length + 1) t.chars

end JsonToken

end ChartScript
