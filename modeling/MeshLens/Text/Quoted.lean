import MeshLens.Text.CharClass
import MeshLens.Text.Surrogate

/-!
# Quoted text

The quoted form of a text, as it is shown inside lists, objects and messages: between single
quotes, or between double quotes when it holds a single quote and no double quote. The quote, the
backslash and whatever is not printable are escaped.
-/

namespace MeshLens.Text

/-- The last `width` hexadecimal digits of a number, in lower case. -/
def hexDigits (width n : Nat) : Text :=
  let all := digits 16 n
  List.replicate (width - all.length) (.char '0') ++ all

/-- The escape of a code point, of two, four or eight digits. -/
def escapeCode (n : Nat) : Text :=
  if n < 0x100 then '\\' :: 'x' :: hexDigits 2 n
  else if n < 0x10000 then '\\' :: 'u' :: hexDigits 4 n
  else '\\' :: 'U' :: hexDigits 8 n

/-- One character of a quoted text, with the given quote around the text. -/
def escapeChar (quote c : CodePoint) : Text :=
  if c = quote ∨ c = '\\' then ['\\', c]
  else if c = '\n' then ['\\', 'n']
  else if c = '\t' then ['\\', 't']
  else if c = '\r' then ['\\', 'r']
  else if isPrintable c then [c]
  else escapeCode c.toNat

/-- The quoted form of a text. -/
def quoted (s : Text) : Text :=
  let quote : CodePoint := if s.contains (.char '\'') && !s.contains (.char '"') then '"' else '\''
  quote :: s.flatMap (escapeChar quote) ++ [quote]

/-- A text in which halves of surrogate pairs are escaped, so that it can be written out. -/
def withHalvesEscaped (s : Text) : Text :=
  s.flatMap fun c => if c.isHalf then escapeCode c.toNat else [c]

/-- What is said about halves in a text that is to be written out. -/
def HalfRun.message (run : HalfRun) : Text :=
  let place := if run.more = 0 then
      "character '" ++ escapeCode run.half.toNat ++ "' in position " ++
        toString run.start
    else "characters in position " ++ toString run.start ++ "-" ++ toString (run.start + run.more)
  "'utf-8' codec can't encode " ++ place ++ ": surrogates not allowed"

end MeshLens.Text
