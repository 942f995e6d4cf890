import MeshLens.Text.Quoted
import MeshLens.Url.Address

/-!
# URLs in parts

A URL is cut into a scheme, an authority, a path, a query and a fragment, and put together again.
Control characters and spaces in front of it are dropped, and tabs and line ends wherever they
stand. An authority is refused when its brackets do not enclose a host that is an address, or when
a character in it is a disguised form of a delimiter.
-/

namespace MeshLens.Url

/-- A URL in parts. -/
structure Location where
  scheme : Text := []
  authority : Text := []
  path : Text := []
  query : Text := []
  fragment : Text := []
  deriving DecidableEq, Repr

/-- The characters of a scheme. -/
def isSchemeChar (c : CodePoint) : Bool :=
  Text.isLetter c || Text.isAsciiDigit c || c == '+' || c == '-' || c == '.'

/-- Whether a text can be a scheme: a letter, and then scheme characters. -/
def isScheme (s : Text) : Bool :=
  s.head?.any Text.isLetter && s.all isSchemeChar

/-- The compatibility forms beyond ASCII of the delimiters of a URL. -/
def disguisedDelimiters : Text :=
  ['⁇', '⁈', '⁉', '℀', '℁', '℅', '℆', '⩴', '︓', '︖', '﹕', '﹖', '﹟', '﹫', '＃', '／', '：', '？',
    '＠']

/-- Why a URL is refused. -/
inductive UrlError
  | misplacedBracket
  | badFutureAddress
  /-- An address of decimal numbers stands in brackets. -/
  | bracketedDottedAddress
  | notAnAddress (host : Text)
  | disguisedDelimiter (authority : Text)
  deriving DecidableEq, Repr

/-- The message of an error. -/
def UrlError.message : UrlError → Text
  | misplacedBracket => "Invalid IPv6 URL"
  | badFutureAddress => "IPvFuture address is invalid"
  | bracketedDottedAddress => "An IPv4 address cannot be in brackets"
  | notAnAddress host =>
    Text.quoted host ++ " does not appear to be an IPv4 or IPv6 address"
  | disguisedDelimiter authority =>
    "netloc '" ++ authority ++ "' contains invalid characters under NFKC normalization"

/-- Cuts a text at the first character of a class, which stays with the rest. -/
def cutBefore (stop : CodePoint → Bool) (s : Text) : Text × Text :=
  (s.takeWhile fun c => !stop c, s.dropWhile fun c => !stop c)

/-- Cuts a text after the first occurrence of a character; without one the rest is empty. -/
def cutAfter (c : CodePoint) (s : Text) : Text × Text :=
  (Text.breakOn [c] s).getD (s, [])

/-- The part of a text after the last occurrence of a character; all of it without one. -/
def afterLast (c : CodePoint) (s : Text) : Text :=
  (s.reverse.takeWhile (· ≠ c)).reverse

/-! ## Hosts in brackets -/

/-- The host of an authority that has brackets. Nothing may stand between the brackets of a host
and what is around it: the user in front, and a port behind. -/
def bracketedHost (authority : Text) : Except UrlError Text :=
  let place := afterLast '@' authority
  match Text.breakOn ['['] place with
  | none => .ok (cutAfter ':' place).1
  | some (before, rest) =>
    let (host, port) := cutAfter ']' rest
    if before ≠ [] ∨ (port ≠ [] ∧ port.head? ≠ some ':') then .error .misplacedBracket
    else .ok host

/-- Checks a host in brackets. -/
def checkHost (host : Text) : Except UrlError Unit :=
  if host.head? = some 'v' then
    if isFutureAddress host then .ok () else .error .badFutureAddress
  else if isDottedAddress host then .error .bracketedDottedAddress
  else if isColonAddress host then .ok ()
  else .error (.notAnAddress host)

/-- Checks the brackets of an authority. -/
def checkBrackets (authority : Text) : Except UrlError Unit :=
  match authority.contains (.char '['), authority.contains (.char ']') with
  | false, false => .ok ()
  | true, true => (bracketedHost authority).bind checkHost
  | _, _ => .error .misplacedBracket

/-- Checks an authority. -/
def checkAuthority (s : Text) : Except UrlError Unit := do
  checkBrackets s
  if s.any (disguisedDelimiters.contains ·) then throw (.disguisedDelimiter s)

/-- The schemes whose URLs have an authority. -/
def authoritySchemes : List Text := [
  "ftp", "http", "gopher", "nntp", "telnet", "imap", "wais", "file", "mms", "https", "shttp",
  "snews", "prospero", "rtsp", "rtspu", "rsync", "svn", "svn+ssh", "sftp", "nfs", "git", "git+ssh",
  "ws", "wss"]

namespace Location

/-- A URL without control characters and spaces in front of it, and without tabs and line ends. -/
def clean (url : Text) : Text :=
  (url.dropWhile (·.toNat ≤ 32)).filter fun c : CodePoint => c ≠ '\t' && c ≠ '\r' && c ≠ '\n'

/-- Cuts a URL into parts. -/
def parse (url : Text) : Except UrlError Location :=
  let url := clean url
  let (scheme, url) :=
    match Text.breakOn [':'] url with
    | some (scheme, rest) =>
      if isScheme scheme then (scheme.map Text.smallLetter, rest) else ([], url)
    | none => ([], url)
  let (authority, url) :=
    match Text.after? ['/', '/'] url with
    | some rest => cutBefore (fun c : CodePoint => c = '/' || c = '?' || c = '#') rest
    | none => ([], url)
  let (url, fragment) := cutAfter '#' url
  let (path, query) := cutAfter '?' url
  (checkAuthority authority).map fun () => { scheme, authority, path, query, fragment }

/-- Puts a URL together from its parts. -/
def render (l : Location) : Text :=
  let hasAuthority := l.authority ≠ [] ∨
    (l.scheme ∈ authoritySchemes ∧ (Text.after? ['/', '/'] l.path).isNone)
  let path : Text := if l.path ≠ [] ∧ l.path.head? ≠ some '/' then '/' :: l.path else l.path
  let s := if hasAuthority then "//" ++ l.authority ++ path else l.path
  let s := if l.scheme = [] then s else l.scheme ++ ":" ++ s
  let s := if l.query = [] then s else s ++ "?" ++ l.query
  if l.fragment = [] then s else s ++ "#" ++ l.fragment

end Location

end MeshLens.Url
