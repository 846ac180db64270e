import Barogrid.Binary64.Arithmetic
import Barogrid.Failure

/-!
# Statistics of lists of doubles

Mean, median, standard deviation and extremes, on doubles as they come: sums run from the left, the
median sorts by the total order of doubles (so that NaNs go to the ends), and the extremes pass over
NaNs.
-/

namespace Barogrid.Statistics

/-- The sum divided by the number of values, for a list that is not empty. -/
def meanOf (xs : List Binary64) : Binary64 := Binary64.sum xs / Binary64.ofNat xs.length

/-- The mean. -/
def mean (xs : List Binary64) : Except Failure Binary64 :=
  if xs.isEmpty then .error (.noValues "mean") else .ok (meanOf xs)

/-- The values in the total order. -/
def sorted (xs : List Binary64) : List Binary64 := xs.mergeSort Binary64.totalLE

/-- The middle value of a list that is not empty, or the mean of the two in the middle. -/
def medianOf (xs : List Binary64) : Binary64 :=
  let s := sorted xs
  let m := s.length / 2
  if s.length % 2 = 0 then (s.getD (m - 1) default + s.getD m default).half else s.getD m default

/-- The median. -/
def median (xs : List Binary64) : Except Failure Binary64 :=
  if xs.isEmpty then .error (.noValues "median") else .ok (medianOf xs)

/-- The root of the mean of the squared distances from the mean, for a list that is not empty. -/
def stdevOf (xs : List Binary64) : Binary64 :=
  let m := meanOf xs
  (meanOf (xs.map fun x => (x - m) * (x - m))).sqrt

/-- The standard deviation. -/
def stdev (xs : List Binary64) : Except Failure Binary64 :=
  if xs.isEmpty then .error (.noValues "stdev") else .ok (stdevOf xs)

/-- The logistic curve, which takes all numbers to 0 … 1. -/
def logistic [Exponential] (x : Binary64) : Binary64 := 1 / (1 + Exponential.exp (-x))

/-- The statistics shown beside a map. -/
structure Summary where
  count : Nat
  least : Binary64
  greatest : Binary64
  mean : Binary64
  median : Binary64
  stdev : Binary64
deriving DecidableEq

/-- The summary of a list that is not empty. -/
def summaryOf (xs : List Binary64) : Summary where
  count := xs.length
  least := xs.foldl Binary64.least (.infinity false)
  greatest := xs.foldl Binary64.greatest (.infinity true)
  mean := meanOf xs
  median := medianOf xs
  stdev := stdevOf xs

/-- The summary. -/
def summary (xs : List Binary64) : Except Failure Summary :=
  if xs.isEmpty then .error (.noValues "summary") else .ok (summaryOf xs)

end Barogrid.Statistics
