import TlsGate.Address.Ip
import TlsGate.Address.Listen
import TlsGate.Text.LowerCase

/-!
Reading a listen address. The text is read as the authority of a URL reference: it ends at the
first slash, question mark or number sign, a host between brackets has to be an IPv6 address or an
address of a future version, and the port stands after a colon. Of what can follow or precede a
host and a port in a URL nothing is taken.
-/

set_option autoImplicit false
set_option relaxedAutoImplicit false

namespace TlsGate.Address

open TlsGate.Text

inductive AddressError where
  | brackets
  | futureAddress
  | ipv4InBrackets
  | notAnIpAddress (host : String)
  | disguisedDelimiter (authority : String)
  | portNotANumber (port : String)
  | portTooLong (digits : Nat)
  | portOutOfRange
  | portMissing
  | otherParts
  | userInfo
  deriving DecidableEq, Repr

namespace AddressError

def message : AddressError → String
  | brackets => "Invalid IPv6 URL"
  | futureAddress => "IPvFuture address is invalid"
  | ipv4InBrackets => "An IPv4 address cannot be in brackets"
  | notAnIpAddress host => quoted host ++ " does not appear to be an IPv4 or IPv6 address"
  | disguisedDelimiter authority =>
    "netloc '" ++ authority ++ "' contains invalid characters under NFKC normalization"
  | portNotANumber port => "Port could not be cast to integer value as " ++ quoted port
  | portTooLong digits =>
    "Exceeds the limit (4300 digits) for integer string conversion: value has " ++
      toString digits ++ " digits; use sys.set_int_max_str_digits() to increase the limit"
  | portOutOfRange => "Port out of range 0-65535"
  | portMissing => "Listen address port is required."
  | otherParts => "Listen address must be in a [HOST]:PORT format."
  | userInfo => "Listen address must not have user info."

end AddressError

/-- The parts of a URL reference that starts with two slashes. -/
structure Reference where
  authority : List Char
  path : List Char
  query : List Char
  fragment : List Char

def Reference.ofChars (l : List Char) : Reference :=
  let ends := fun c : Char => c = '/' || c = '?' || c = '#'
  let (beforeFragment, fragment) := cutFirst '#' (l.dropWhile (!ends ·))
  let (path, query) := cutFirst '?' beforeFragment
  ⟨l.takeWhile (!ends ·), path, query.getD [], fragment.getD []⟩

/-- Characters whose compatibility decomposition has a slash, a question mark, a number sign, an
at sign or a colon, without the ASCII ones. -/
def disguisedDelimiters : List Char :=
  [0x2047, 0x2048, 0x2049, 0x2100, 0x2101, 0x2105, 0x2106, 0x2a74, 0xfe13, 0xfe16, 0xfe55, 0xfe56,
    0xfe5f, 0xfe6b, 0xff03, 0xff0f, 0xff1a, 0xff1f, 0xff20].map Char.ofNat

def hostAndPort (l : List Char) : List Char × List Char :=
  match cutFirst '[' l with
  | (_, some inside) =>
    let (host, rest) := cutFirst ']' inside
    (host, ((cutFirst ':' (rest.getD [])).2).getD [])
  | (_, none) =>
    let (host, port) := cutFirst ':' l
    (host, port.getD [])

/-- Whether a text is an address of a future IP version: a version in hexadecimal digits after a
`v`, a dot, and one or more characters that are not line feeds. -/
def isFutureAddress (l : List Char) : Bool :=
  match l with
  | 'v' :: rest =>
    let version := rest.takeWhile isHexDigit
    !version.isEmpty &&
      match rest.dropWhile isHexDigit with
      | '.' :: address => !address.isEmpty && !address.contains '\n'
      | _ => false
  | _ => false

def checkBracketedHost (host : List Char) : Except AddressError Unit :=
  if host.head? = some 'v' then
    if isFutureAddress host then .ok () else .error .futureAddress
  else if isIpv4 host then .error .ipv4InBrackets
  else if isIpv6 host then .ok ()
  else .error (.notAnIpAddress (String.ofList host))

/-- Checks the brackets of an authority: none, or one pair around the host with nothing before it
and at most a port after it. -/
def checkBrackets (authority : List Char) : Except AddressError Unit :=
  match authority.contains '[', authority.contains ']' with
  | false, false => .ok ()
  | true, true =>
    let location := (cutLast '@' authority).2
    match cutFirst '[' location with
    | (before, some inside) =>
      let (host, after) := cutFirst ']' inside
      if !before.isEmpty then .error .brackets
      else match after.getD [] with
        | [] => checkBracketedHost host
        | c :: _ => if c = ':' then checkBracketedHost host else .error .brackets
    | (_, none) => checkBracketedHost (cutFirst ':' location).1
  | _, _ => .error .brackets

def maxDigits : Nat := 4300

def parsePort (port : List Char) : Except AddressError (Option Nat) :=
  if port.isEmpty then .ok none
  else if !port.all isDigit then .error (.portNotANumber (String.ofList port))
  else if maxDigits < port.length then .error (.portTooLong port.length)
  else
    let value := decimalValue port
    if 65535 < value then .error .portOutOfRange else .ok (some value)

def normalHost (host : List Char) : List Char :=
  match cutFirst '%' host with
  | (name, none) => toLower name
  | (name, some zone) => toLower name ++ '%' :: zone

def isDropped (c : Char) : Bool := c = '\t' || c = '\r' || c = '\n'

def parse (value : String) : Except AddressError ListenAddress := do
  let reference := Reference.ofChars (value.toList.filter (!isDropped ·))
  let authority := reference.authority
  checkBrackets authority
  if authority.any disguisedDelimiters.contains then
    throw (.disguisedDelimiter (String.ofList authority))
  let (userInfo, location) := cutLast '@' authority
  let (host, portText) := hostAndPort location
  let some port ← parsePort portText | throw .portMissing
  if !(reference.path.isEmpty && reference.query.isEmpty && reference.fragment.isEmpty) then
    throw .otherParts
  if userInfo.isSome then throw .userInfo
  return ⟨String.ofList (normalHost host), port⟩

end TlsGate.Address
