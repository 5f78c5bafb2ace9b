import Switchboard.Text.Character
import Switchboard.Text.Printable

/-!
# Quoted text

How a text is shown in a message: between quotes, with what cannot be printed written as an escape.
Single quotes are taken, unless the text has a single quote and no double quote.
-/

namespace Switchboard.Quoted

/-- The quote that surrounds the text. -/
def mark (cs : List Char) : Char :=
  if cs.contains '\'' && !cs.contains '"' then '"' else '\''

/-- One character between quotes of the given kind. -/
def encodeChar (quote c : Char) : List Char :=
  if c = quote || c = '\\' then ['\\', c]
  else if c = '\n' then ['\\', 'n']
  else if c = '\r' then ['\\', 'r']
  else if c = '\t' then ['\\', 't']
  else if isPrintable c then [c]
  else
    let n := c.toNat
    if n < 0x100 then '\\' :: 'x' :: toHex 2 n
    else if n < 0x10000 then '\\' :: 'u' :: toHex 4 n
    else '\\' :: 'U' :: toHex 8 n

/-- The quoted form of a text. -/
def encode (cs : List Char) : List Char :=
  let quote := mark cs
  quote :: cs.flatMap (encodeChar quote) ++ [quote]

end Switchboard.Quoted

namespace Switchboard

/-- The quoted form of a text. -/
def quoted (s : String) : String := String.ofList (Quoted.encode s.toList)

end Switchboard
