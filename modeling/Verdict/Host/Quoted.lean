namespace Verdict.Quoted

def hexDigit (n : Nat) : Char := (Nat.toDigits 16 n).getLastD '0'

-- One character between quotes: a quote, a backslash and the control characters are escaped, and
-- all others stand for themselves.
def escape (c : Char) : List Char :=
  if c = '"' then ['\\', '"']
  else if c = '\\' then ['\\', '\\']
  else if c = '\x08' then ['\\', 'b']
  else if c = '\t' then ['\\', 't']
  else if c = '\n' then ['\\', 'n']
  else if c = '\x0c' then ['\\', 'f']
  else if c = '\r' then ['\\', 'r']
  else if c.toNat < 0x20 then
    ['\\', 'u', '0', '0', hexDigit (c.toNat / 16), hexDigit (c.toNat % 16)]
  else [c]

def encode (text : List Char) : List Char := '"' :: text.flatMap escape ++ ['"']

-- What stands between quotes: a character, or the number of a UTF-16 unit.
inductive Piece
  | char (c : Char)
  | unit (n : Nat)

def hexValue? (c : Char) : Option Nat :=
  if '0' ≤ c ∧ c ≤ '9' then some (c.toNat - '0'.toNat)
  else if 'a' ≤ c ∧ c ≤ 'f' then some (c.toNat - 'a'.toNat + 10)
  else if 'A' ≤ c ∧ c ≤ 'F' then some (c.toNat - 'A'.toNat + 10)
  else none

def hexUnit? (a b c d : Char) : Option Nat := do
  return ((← hexValue? a) * 16 + (← hexValue? b)) * 256 + (← hexValue? c) * 16 + (← hexValue? d)

-- The character that a backslash and one letter stand for.
def unescape? : Char → Option Char
  | '"' => some '"'
  | '\\' => some '\\'
  | '/' => some '/'
  | 'b' => some '\x08'
  | 'f' => some '\x0c'
  | 'n' => some '\n'
  | 'r' => some '\r'
  | 't' => some '\t'
  | _ => none

-- The pieces up to the closing quote, and the text after it. A control character must be escaped.
def pieces? : List Char → Option (List Piece × List Char)
  | [] => none
  | '"' :: rest => some ([], rest)
  | '\\' :: 'u' :: a :: b :: c :: d :: rest => do
    let unit ← hexUnit? a b c d
    let (pieces, after) ← pieces? rest
    return (.unit unit :: pieces, after)
  | '\\' :: c :: rest => do
    let char ← unescape? c
    let (pieces, after) ← pieces? rest
    return (.char char :: pieces, after)
  | c :: rest => do
    if c.toNat < 0x20 then none
    let (pieces, after) ← pieces? rest
    return (.char c :: pieces, after)

def isLeading (unit : Nat) : Bool := 0xD800 ≤ unit && unit < 0xDC00

def isTrailing (unit : Nat) : Bool := 0xDC00 ≤ unit && unit < 0xE000

-- The characters of the pieces. Of the surrogates a leading and a trailing one side by side make
-- one character, and none may stand alone.
def join? : List Piece → Option (List Char)
  | [] => some []
  | .char c :: rest => (join? rest).map (c :: ·)
  | .unit high :: .unit low :: rest =>
    if isLeading high then
      if isTrailing low then
        (join? rest).map (Char.ofNat (0x10000 + (high - 0xD800) * 0x400 + (low - 0xDC00)) :: ·)
      else none
    else if isTrailing high then none
    else (join? (.unit low :: rest)).map (Char.ofNat high :: ·)
  | .unit unit :: rest =>
    if isLeading unit || isTrailing unit then none
    else (join? rest).map (Char.ofNat unit :: ·)

-- The text that was quoted, read from behind its opening quote, and what follows it.
def decode? (text : List Char) : Option (List Char × List Char) := do
  let (pieces, after) ← pieces? text
  return (← join? pieces, after)

end Verdict.Quoted
