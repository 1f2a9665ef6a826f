/-!
# Runs of code points

A property of characters is given by a table of runs: the first and the last code point of each
run, in increasing order.  Whether a code point belongs to a run is found by halving the table.
-/

namespace Componentry.Text

/-- Whether `n` lies in one of the runs of `runs` from position `lo` up to `hi`, found by halving.
The runs are in increasing order. -/
def inRuns (runs : Array (Nat × Nat)) (n : Nat) : (lo hi : Nat) → Bool
  | lo, hi =>
    if _h : lo < hi then
      let mid := (lo + hi) / 2
      match runs[mid]? with
      | none => false
      | some (first, last) =>
        if n < first then inRuns runs n lo mid
        else if last < n then inRuns runs n (mid + 1) hi
        else true
    else false
termination_by lo hi => hi - lo
decreasing_by all_goals omega

/-- Whether a character lies in one of the runs. -/
def isWithin (runs : Array (Nat × Nat)) (c : Char) : Bool :=
  inRuns runs c.toNat 0 runs.size

end Componentry.Text
