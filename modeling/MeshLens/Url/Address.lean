import MeshLens.Text.Basic

/-!
# Network addresses

The two numeric forms of a host: four decimal numbers joined by points, and eight hexadecimal ones
joined by colons. In the second form one run of zeros may be left out, the last two numbers may be
written in the first form, and a zone may follow after a percent sign.
-/

namespace MeshLens.Url

/-- Whether a text is a decimal number up to 255 without needless zeros. -/
def isOctet (s : Text) : Bool :=
  !s.isEmpty && s.length ≤ 3 && s.all Text.isAsciiDigit && (s == "0" || s.head? != some '0') &&
    s.foldl (fun n c => 10 * n + (c.toNat - 48)) 0 ≤ 255

/-- Whether a text is an address of four decimal numbers. -/
def isDottedAddress (s : Text) : Bool :=
  let octets := Text.splitWhere (· == .char '.') s
  octets.length == 4 && octets.all isOctet

/-- Whether a character is a hexadecimal digit. -/
def isHexDigit (c : CodePoint) : Bool :=
  Text.isAsciiDigit c || ('a' ≤ c && c ≤ 'f') || ('A' ≤ c && c ≤ 'F')

/-- Whether a text is a hexadecimal number of up to four digits. -/
def isHextet (s : Text) : Bool :=
  !s.isEmpty && s.length ≤ 4 && s.all isHexDigit

/-- The parts of an address between its colons, where a last part in decimal form counts as two
hexadecimal ones; nothing when that part is no address of its own. -/
def hexParts? (s : Text) : Option (List Text) :=
  let parts := Text.splitWhere (· == .char ':') s
  let last := parts.getLast?.getD []
  if parts.length < 3 then none
  else if last.contains (.char '.') then
    if isDottedAddress last then some (parts.dropLast ++ [Text.ofString "0", "0"]) else none
  else some parts

/-- Whether the parts on one side of a gap are numbers. The outermost part is empty where the gap
stands at that end of the address, and then it is the only one. -/
def isSide (parts : List Text) : Bool :=
  parts == [[]] || parts.all isHextet

/-- Whether eight parts are written out, or fewer around one gap. -/
def areHexParts (parts : List Text) : Bool :=
  let first := parts.headD []
  let inner := (parts.drop 1).dropLast
  let last := parts.getLast?.getD []
  if inner.contains [] then
    let before := first :: inner.takeWhile (· ≠ [])
    let after := (inner.dropWhile (· ≠ [])).drop 1 ++ [last]
    isSide before && isSide after && ((before ++ after).filter (· ≠ [])).length < 8
  else parts.length == 8 && parts.all isHextet

/-- Whether a text is an address of hexadecimal numbers, perhaps with a zone. -/
def isColonAddress (s : Text) : Bool :=
  let (address, zone) := (Text.breakOn ['%'] s).getD (s, "0")
  !zone.isEmpty && !zone.contains (.char '%') &&
    match hexParts? address with
    | some parts => areHexParts parts
    | none => false

/-- Whether a text is an address of a form yet to come: a version and, after a point, anything. -/
def isFutureAddress (s : Text) : Bool :=
  match s with
  | 'v' :: s =>
    let version := s.takeWhile isHexDigit
    match s.dropWhile isHexDigit with
    | '.' :: rest => !version.isEmpty && !rest.isEmpty
    | _ => false
  | _ => false

end MeshLens.Url
