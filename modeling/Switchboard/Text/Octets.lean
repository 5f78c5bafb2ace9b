/-!
# Text as octets

UTF-8 in both directions. Reading goes octet by octet with the number of continuation octets still
owed and the range in which the next one must lie; what does not fit is one ill-formed piece and
reading starts again at the octet that did not fit. Strict reading refuses ill-formed pieces, lossy
reading puts U+FFFD in their place. `unifyBreaks` and `lines` are the line structure of text files.
-/

namespace Switchboard.Octets

/-- A character begun: continuation octets owed, bounds of the next one, and the bits so far. -/
structure Pending where
  owed : Nat
  low : UInt8
  high : UInt8
  bits : Nat

/-- What an octet at the start of a character means: a character, the beginning of one, or
nothing. -/
def start (b : UInt8) : List (Option Char) × Option Pending :=
  let n := b.toNat
  if n < 0x80 then ([some (Char.ofNat n)], none)
  else if n < 0xC2 then ([none], none)
  else if n < 0xE0 then ([], some ⟨1, 0x80, 0xBF, n - 0xC0⟩)
  else if n = 0xE0 then ([], some ⟨2, 0xA0, 0xBF, 0⟩)
  else if n = 0xED then ([], some ⟨2, 0x80, 0x9F, 0xD⟩)
  else if n < 0xF0 then ([], some ⟨2, 0x80, 0xBF, n - 0xE0⟩)
  else if n = 0xF0 then ([], some ⟨3, 0x90, 0xBF, 0⟩)
  else if n < 0xF4 then ([], some ⟨3, 0x80, 0xBF, n - 0xF0⟩)
  else if n = 0xF4 then ([], some ⟨3, 0x80, 0x8F, 4⟩)
  else ([none], none)

/-- The characters of the octets, `none` for each ill-formed piece. -/
def scan : Option Pending → List UInt8 → List (Option Char)
  | none, [] => []
  | some _, [] => [none]
  | none, b :: bs => let (out, p) := start b; out ++ scan p bs
  | some p, b :: bs =>
    if p.low ≤ b && b ≤ p.high then
      let bits := p.bits * 64 + (b.toNat - 0x80)
      if p.owed = 1 then some (Char.ofNat bits) :: scan none bs
      else scan (some ⟨p.owed - 1, 0x80, 0xBF, bits⟩) bs
    else
      let (out, q) := start b
      none :: out ++ scan q bs

/-- The characters of well-formed octets. -/
def decode? (bs : List UInt8) : Option (List Char) := (scan none bs).mapM id

/-- The characters of any octets, U+FFFD for each ill-formed piece. -/
def decodeLossy (bs : List UInt8) : List Char := (scan none bs).map (·.getD '\uFFFD')

/-- The octets of a character. -/
def encodeChar (c : Char) : List UInt8 :=
  let n := c.toNat
  let tail (k : Nat) : UInt8 := UInt8.ofNat (0x80 + n / Nat.pow 64 k % 64)
  if n < 0x80 then [UInt8.ofNat n]
  else if n < 0x800 then [UInt8.ofNat (0xC0 + n / 64), tail 0]
  else if n < 0x10000 then [UInt8.ofNat (0xE0 + n / Nat.pow 64 2), tail 1, tail 0]
  else [UInt8.ofNat (0xF0 + n / Nat.pow 64 3), tail 2, tail 1, tail 0]

/-- The octets of a text. -/
def encode (cs : List Char) : List UInt8 := cs.flatMap encodeChar

end Switchboard.Octets

namespace Switchboard

/-- Every line end (`\n`, `\r\n` or `\r`) becomes `\n`. -/
def unifyBreaks : List Char → List Char
  | [] => []
  | '\r' :: '\n' :: cs => '\n' :: unifyBreaks cs
  | '\r' :: cs => '\n' :: unifyBreaks cs
  | c :: cs => c :: unifyBreaks cs

/-- The lines of a text whose line ends are `\n`; a last line may lack its end. -/
def linesFrom (current : List Char) : List Char → List (List Char)
  | [] => if current.isEmpty then [] else [current.reverse]
  | '\n' :: cs => current.reverse :: linesFrom [] cs
  | c :: cs => linesFrom (c :: current) cs

/-- The lines of a text, whatever its line ends. -/
def lines (cs : List Char) : List (List Char) := linesFrom [] (unifyBreaks cs)

end Switchboard
