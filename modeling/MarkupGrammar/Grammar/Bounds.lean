import MarkupGrammar.Json.Display

/-!
# Occurrence bounds

How often a part of a content model may occur: at least so often, and at most so often or without an
upper limit. A pair of bounds that no count can meet is not a value of `Bounds`; `Bounds.ofOccurs`
says why a pair is refused.
-/

namespace MarkupGrammar

/-- An upper limit. -/
inductive Limit where
  | finite (n : Nat)
  | unbounded
deriving DecidableEq

namespace Limit

/-- Whether a count stays within the limit. -/
def admits : Limit → Nat → Bool
  | .finite most, n => n ≤ most
  | .unbounded, _ => true

/-- Whether a value is above the limit; nothing when only a number could be. -/
def isExceededBy? : Limit → Json → Option Bool
  | .finite most, v => (Json.compare? v (.nat most)).map (· == .gt)
  | .unbounded, _ => some false

/-- The limit as a compiled module writes it. -/
def toJson : Limit → Json
  | .finite n => .nat n
  | .unbounded => .string "unbounded"

end Limit

/-- Bounds that some count can meet. -/
structure Bounds where
  least : Nat
  most : Limit
  ordered : most.admits least = true
deriving DecidableEq

/-- A bound as it is given: a value of any kind, or the absence of a bound. -/
inductive Occurs where
  | unbounded
  | given (v : Json)

namespace Occurs

/-- The bound in a message. -/
def quoted : Occurs → Text
  | .unbounded => Text.ofString "UNBOUNDED"
  | .given v => v.quoted

end Occurs

/-- Why a pair of bounds is refused. -/
inductive BoundsError where
  | badLeast (found : Occurs)
  | badMost (found : Occurs)
  | crossed (least most : Nat)

namespace BoundsError

/-- The wording of an error. -/
def message : BoundsError → Text
  | .badLeast found =>
    Text.ofString "minOccurs must be a non-negative integer, got " ++ found.quoted
  | .badMost found =>
    Text.ofString "maxOccurs must be a non-negative integer or UNBOUNDED, got " ++ found.quoted
  | .crossed least most =>
    Text.ofString "maxOccurs (" ++ Text.ofNat most ++ Text.ofString ") is lower than minOccurs ("
      ++ Text.ofNat least ++ Text.ofString ")"

end BoundsError

namespace Bounds

theorem least_le {bounds : Bounds} {most : Nat} (h : bounds.most = .finite most) :
    bounds.least ≤ most := by
  have hordered := bounds.ordered
  rw [h] at hordered
  exact of_decide_eq_true hordered

/-- Exactly once. -/
def once : Bounds := ⟨1, .finite 1, rfl⟩

/-- Never. -/
def never : Bounds := ⟨0, .finite 0, rfl⟩

/-- Once or not at all. -/
def optional : Bounds := ⟨0, .finite 1, rfl⟩

/-- Any number of times. -/
def anyNumber : Bounds := ⟨0, .unbounded, rfl⟩

/-- Once or more often. -/
def oneOrMore : Bounds := ⟨1, .unbounded, rfl⟩

/-- Bounds from natural numbers. -/
def ofLimits (least : Nat) (most : Limit) : Except BoundsError Bounds :=
  if h : most.admits least = true then .ok ⟨least, most, h⟩
  else
    match most with
    | .finite n => .error (.crossed least n)
    | .unbounded => .ok ⟨least, .unbounded, rfl⟩

/-- Bounds from values as they are given. Only integers bound a count; the lower bound is looked at
first. -/
def ofOccurs (least most : Occurs) : Except BoundsError Bounds :=
  match least with
  | .given (.int (.ofNat l)) =>
    match most with
    | .unbounded => .ok ⟨l, .unbounded, rfl⟩
    | .given (.int (.ofNat m)) => ofLimits l (.finite m)
    | _ => .error (.badMost most)
  | _ => .error (.badLeast least)

end Bounds

end MarkupGrammar
