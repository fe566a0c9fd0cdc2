namespace Verdict.Text

-- The characters whose codes lie from `first` to `last`, both included.
structure CodeRange where
  first : Nat
  last : Nat

def CodeRange.has (range : CodeRange) (c : Char) : Bool :=
  range.first ≤ c.toNat && c.toNat ≤ range.last

end Verdict.Text
