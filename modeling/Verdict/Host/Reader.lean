import Verdict.Host.Lexeme

namespace Verdict.HostValue

-- A value that has been opened and not yet closed, with the parts of it read so far, newest first.
-- A member is an object of which a key waits for its value.
inductive Opened
  | array (before : List HostValue)
  | object (before : List (String × HostValue))
  | member (before : List (String × HostValue)) (key : String)

-- What may come next: a value, the first item or member or else the end of what was just opened,
-- a key, the colon after one, or whatever may follow a value.
inductive Expected
  | value
  | firstItem
  | firstMember
  | key
  | colon
  | separator

inductive Progress
  | inside (expected : Expected) (opened : List Opened)
  | complete (value : HostValue)

-- Arrays and objects may be nested this deep.
def maxNesting : Nat := 127

def enter? (expected : Expected) (value : Opened) (opened : List Opened) : Option Progress :=
  if opened.length < maxNesting then some (.inside expected (value :: opened)) else none

-- Puts a value where it belongs.
def place? (value : HostValue) : List Opened → Option Progress
  | [] => some (.complete value)
  | .array before :: opened => some (.inside .separator (.array (value :: before) :: opened))
  | .member before key :: opened =>
    some (.inside .separator (.object ((key, value) :: before) :: opened))
  | .object _ :: _ => none

def closeArray? : List Opened → Option Progress
  | .array before :: opened => place? (.array before.reverse) opened
  | _ => none

def closeObject? : List Opened → Option Progress
  | .object before :: opened => place? (ofMembers before.reverse) opened
  | _ => none

def takeKey? (key : String) : List Opened → Option Progress
  | .object before :: opened => some (.inside .colon (.member before key :: opened))
  | _ => none

def takeValue? (opened : List Opened) : HostLexeme → Option Progress
  | .plain value => place? value opened
  | .string value => place? (.string value) opened
  | .openArray => enter? .firstItem (.array []) opened
  | .openObject => enter? .firstMember (.object []) opened
  | _ => none

def step? : Progress → HostLexeme → Option Progress
  | .complete _, _ => none
  | .inside expected opened, lexeme =>
    match expected, lexeme with
    | .firstItem, .closeArray => closeArray? opened
    | .firstItem, _ => takeValue? opened lexeme
    | .value, _ => takeValue? opened lexeme
    | .firstMember, .closeObject => closeObject? opened
    | .firstMember, .string key => takeKey? key opened
    | .key, .string key => takeKey? key opened
    | .colon, .colon => some (.inside .value opened)
    | .separator, .closeArray => closeArray? opened
    | .separator, .closeObject => closeObject? opened
    | .separator, .comma =>
      match opened with
      | .array _ :: _ => some (.inside .value opened)
      | _ => some (.inside .key opened)
    | _, _ => none

-- The one value that a text denotes.
def read? (text : String) : Option HostValue := do
  let lexemes ← HostLexeme.ofText? text.toList
  match ← lexemes.foldlM step? (.inside .value []) with
  | .complete value => return value
  | .inside _ _ => none

end Verdict.HostValue
