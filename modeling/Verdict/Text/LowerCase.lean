import Verdict.Text.CaseClass
import Verdict.Text.CaseRuns

namespace Verdict.Text

-- The lower-case form of a character on its own. A dotted capital I keeps its dot as a mark of
-- its own; every other form is a single character.
def lowerChar (c : Char) : List Char :=
  if c.toNat < 0x80 then [c.toLower]
  else if c = 'İ' then ['i', '\u0307']
  else
    match caseRuns.find? (·.has c) with
    | some run => [run.lower c]
    | none => [c]

-- Whether a cased letter is the first character that is not passed over.
def startsCased (text : List Char) : Bool :=
  match text.dropWhile isCaseIgnorable with
  | c :: _ => isCased c
  | [] => false

-- Lower case of a text that follows `before`, which is in reverse. A capital sigma takes its final
-- form where a letter stands before it and none after it.
def lowerAfter (before : List Char) : List Char → List Char
  | [] => []
  | c :: rest =>
    (if c = 'Σ' then
      if startsCased before && !startsCased rest then ['ς'] else ['σ']
    else lowerChar c) ++ lowerAfter (c :: before) rest

def toLower (text : List Char) : List Char := lowerAfter [] text

end Verdict.Text
