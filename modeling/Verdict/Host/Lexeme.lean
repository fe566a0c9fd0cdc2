import Verdict.Host.Literal
import Verdict.Host.Quoted

namespace Verdict

-- The parts that the text of a host value is cut into.
inductive HostLexeme
  | openArray
  | closeArray
  | openObject
  | closeObject
  | comma
  | colon
  | string (text : String)
  | plain (value : HostValue)

namespace HostLexeme

-- The four characters that may stand between lexemes.
def isSpace (c : Char) : Bool := c = ' ' || c = '\t' || c = '\n' || c = '\r'

-- The lexeme at the start of a text, and the text after it.
def take? : List Char → Option (HostLexeme × List Char)
  | '[' :: rest => some (.openArray, rest)
  | ']' :: rest => some (.closeArray, rest)
  | '{' :: rest => some (.openObject, rest)
  | '}' :: rest => some (.closeObject, rest)
  | ',' :: rest => some (.comma, rest)
  | ':' :: rest => some (.colon, rest)
  | '"' :: rest => (Quoted.decode? rest).map fun (value, after) =>
    (.string (String.ofList value), after)
  | 'n' :: 'u' :: 'l' :: 'l' :: rest => some (.plain .null, rest)
  | 't' :: 'r' :: 'u' :: 'e' :: rest => some (.plain (.bool true), rest)
  | 'f' :: 'a' :: 'l' :: 's' :: 'e' :: rest => some (.plain (.bool false), rest)
  | text => do
    let (literal, after) ← NumberLiteral.take? text
    return (.plain (.number (← literal.number?)), after)

-- As many lexemes as the first argument allows.
def scan? : Nat → List Char → Option (List HostLexeme)
  | 0, _ => none
  | count + 1, text =>
    match text.dropWhile isSpace with
    | [] => some []
    | text => do
      let (lexeme, after) ← take? text
      return lexeme :: (← scan? count after)

-- The lexemes of a text, which are not more than its characters.
def ofText? (text : List Char) : Option (List HostLexeme) := scan? (text.length + 1) text

end HostLexeme

end Verdict
