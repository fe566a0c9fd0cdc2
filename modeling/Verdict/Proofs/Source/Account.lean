import Mathlib.Algebra.BigOperators.Group.List.Basic
import Verdict.Proofs.Formula.Parts
import Verdict.Proofs.Source.Assembly

namespace Verdict

section Account

-- An account of formulas that is the sum of what their parts and operators count for.
variable {M : Type} [AddCommMonoid M] (size : Formula → M) (weight : Operator → M)

def Frame.total : Frame → M
  | .opened op => weight op
  | .extending op left => weight op + size left.formula

-- An operand that cannot be read counts for nothing.
def Segment.total : Segment → M
  | .operand (.ok entry) => size entry.formula
  | .operand (.error _) => 0
  | .operator op => weight op

namespace Assembly

def stackTotal (stack : List Entry) : M := (stack.map fun entry => size entry.formula).sum

-- What lies on the stack and what the waiting operators have taken from there.
def total (state : Assembly) : M :=
  stackTotal size state.stack + (state.frames.map (Frame.total size weight)).sum

theorem stackTotal_cons (entry : Entry) (stack : List Entry) :
    stackTotal size (entry :: stack) = size entry.formula + stackTotal size stack := by
  rw [stackTotal, List.map_cons, List.sum_cons]
  rfl

theorem total_cons (frame : Frame) (frames : List Frame) (stack : List Entry) (nesting : Nat) :
    total size weight ⟨stack, frame :: frames, nesting⟩ =
      stackTotal size stack + (frame.total size weight +
        (frames.map (Frame.total size weight)).sum) := by
  rw [total, List.map_cons, List.sum_cons]

theorem total_of_takeOperands {frame : Frame} {stack rest : List Entry} {op : Operator}
    {left right : Entry} (htake : takeOperands frame stack = .ok (op, left, right, rest)) :
    stackTotal size stack + frame.total size weight =
      weight op + (size left.formula + size right.formula) + stackTotal size rest := by
  unfold takeOperands at htake
  split at htake
  · cases htake
    simp only [stackTotal_cons, Frame.total]
    ac_rfl
  · cases htake
    simp only [stackTotal_cons, Frame.total]
    ac_rfl
  · cases htake

theorem formula_of_joined {op : Operator} {left right whole : Entry}
    (hjoined : Entry.joined op left right = .ok whole) :
    whole.formula = .binary op left.formula right.formula := by
  unfold Entry.joined Entry.checked at hjoined
  split at hjoined
  · cases hjoined
    rfl
  · cases hjoined

variable {size weight} (hbinary : ∀ op left right,
  size (.binary op left right) = weight op + (size left + size right))
include hbinary

-- Joining, waiting on and taking an operand back all move what is there from one place to another.
theorem total_of_settle {more : Bool} {frames : List Frame} {stack : List Entry} {nesting : Nat}
    {next : Assembly} (hsettle : settle more frames stack nesting = .ok next) :
    next.total size weight = total size weight ⟨stack, frames, nesting⟩ := by
  induction frames generalizing stack nesting with
  | nil =>
      cases hsettle
      rfl
  | cons frame frames ih =>
      obtain ⟨op, left, right, rest, htake, hcase⟩ := settle_cases hsettle
      have htaken := total_of_takeOperands size weight htake
      have hbefore : total size weight ⟨stack, frame :: frames, nesting⟩ =
          weight op + (size left.formula + size right.formula) + stackTotal size rest +
            (frames.map (Frame.total size weight)).sum := by
        rw [total_cons, ← htaken, add_assoc]
      rw [hbefore]
      rcases hcase with ⟨-, rfl⟩ | ⟨-, whole, hjoined, hsettle⟩
      · rw [total_cons, stackTotal_cons, Frame.total]
        ac_rfl
      · have hwhole : size whole.formula =
            weight op + (size left.formula + size right.formula) := by
          rw [formula_of_joined hjoined, hbinary]
        rw [ih hsettle, total, stackTotal_cons, hwhole]

theorem total_of_step {more : Bool} {state next : Assembly} {segment : Segment}
    (hstep : state.step more segment = .ok next) :
    next.total size weight = state.total size weight + segment.total size weight := by
  obtain ⟨-, ⟨op, rfl, rfl⟩ | ⟨entry, rfl, hsettle⟩⟩ := step_cases hstep
  · rw [total_cons, total, Frame.total, Segment.total]
    ac_rfl
  · have hsettled := total_of_settle hbinary hsettle
    rw [hsettled, total, stackTotal_cons, total, Segment.total]
    ac_rfl

theorem total_of_run {segments : List Segment} {state last : Assembly}
    (hrun : state.run segments = .ok last) :
    last.total size weight =
      state.total size weight + (segments.map (Segment.total size weight)).sum := by
  induction segments generalizing state with
  | nil =>
      cases hrun
      simp
  | cons segment rest ih =>
      obtain ⟨next, hstep, hrest⟩ := Except.bind_eq_ok_iff.mp hrun
      rw [ih hrest, total_of_step hbinary hstep, List.map_cons, List.sum_cons, add_assoc]

omit hbinary in
theorem total_of_finish {state : Assembly} {formula : Formula}
    (hfinish : state.finish = .ok formula) : state.total size weight = size formula := by
  unfold finish at hfinish
  split at hfinish
  · cases hfinish
  · cases hfinish
    simp [total, stackTotal]
  · cases hfinish

-- A formula counts for as much as the segments that it was made from.
theorem total_ofSegments {segments : List Segment} {formula : Formula}
    (hformula : Formula.ofSegments segments = .ok formula) :
    size formula = (segments.map (Segment.total size weight)).sum := by
  obtain ⟨last, hrun, hformula⟩ := Except.bind_eq_ok_iff.mp hformula
  have hlast : last.total size weight = _ := total_of_run hbinary hrun
  have hfinish : last.total size weight = size formula := total_of_finish hformula
  rw [← hfinish, hlast]
  simp [total, stackTotal, Assembly.start]

end Assembly

end Account

end Verdict
