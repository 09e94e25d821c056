/-!
# Complaints

Not every defect ends the reading of a document. A defect that is noted only is a complaint, and it
is an error or merely a warning. What becomes of the document depends on the complaint that was
recorded last: an error that is followed by a warning is forgiven.

Of each kind of complaint no more than `ComplaintLog.greatestCount` are recorded.
-/

namespace MarkupGrammar

/-- Something noted while a document was read on. -/
inductive XmlComplaint where
  | error
  | warning
deriving DecidableEq

/-- What is remembered of complaints: how many of each kind are recorded, and the kind of the
last. -/
structure ComplaintLog where
  errors : Nat
  warnings : Nat
  last : Option XmlComplaint

namespace ComplaintLog

/-- How many complaints of one kind are recorded. -/
def greatestCount : Nat := 100

/-- No complaint yet. -/
def empty : ComplaintLog := ⟨0, 0, none⟩

/-- Records a complaint, unless there are too many of its kind already. -/
def add (log : ComplaintLog) : XmlComplaint → ComplaintLog
  | .error =>
    if log.errors < greatestCount then ⟨log.errors + 1, log.warnings, some .error⟩ else log
  | .warning =>
    if log.warnings < greatestCount then ⟨log.errors, log.warnings + 1, some .warning⟩ else log

/-- Whether there was an error. -/
def hasErrors (log : ComplaintLog) : Bool := 0 < log.errors

/-- Whether a document with these complaints counts as well formed. -/
def isForgiven (log : ComplaintLog) : Bool := log.last != some .error

end ComplaintLog

end MarkupGrammar
