import MarkupGrammar.Text.Basic

/-!
# UTF-8

Decoding octets never fails: what is no code point is replaced. One replacement character stands for
the longest run of octets that begins as a code point does and goes on as one does, or for a single
octet that begins none. So a truncated code point counts once, and each octet of an overlong form or
of an encoded surrogate counts for itself.

`Utf8.size` says how long a text is when it is encoded; limits on names are limits of that length.
-/

namespace MarkupGrammar

namespace Utf8

/-- How many octets encode a code point. -/
def width (c : CodePoint) : Nat :=
  if c.val < 0x80 then 1 else if c.val < 0x800 then 2 else if c.val < 0x10000 then 3 else 4

/-- The octets that encode a code point. A surrogate is encoded like its neighbours. -/
def encodeOne (c : CodePoint) : List Nat :=
  let n := c.val
  let tail (k : Nat) : Nat := 0x80 + n / Nat.pow 0x40 k % 0x40
  if n < 0x80 then [n]
  else if n < 0x800 then [0xC0 + n / 0x40, tail 0]
  else if n < 0x10000 then [0xE0 + n / 0x1000, tail 1, tail 0]
  else [0xF0 + n / 0x40000, tail 2, tail 1, tail 0]

theorem length_encodeOne (c : CodePoint) : (encodeOne c).length = width c := by
  simp only [encodeOne, width]
  split
  · rfl
  split
  · rfl
  split <;> rfl

/-- The octets that encode a text. -/
def encode (t : Text) : List Nat := t.flatMap encodeOne

/-- How many octets encode a text. -/
def size (t : Text) : Nat := t.foldl (fun n c => n + width c) 0

/-- What the first octet of a code point says: how many octets follow, between which bounds the next
one lies, and the bits it holds itself. -/
structure Lead where
  following : Nat
  low : Nat
  high : Nat
  bits : Nat

/-- What an octet says as the first of a code point; nothing when it begins none. -/
def lead? (octet : Nat) : Option Lead :=
  if octet < 0x80 then some ⟨0, 0x80, 0xBF, octet⟩
  else if octet < 0xC2 then none
  else if octet < 0xE0 then some ⟨1, 0x80, 0xBF, octet - 0xC0⟩
  else if octet = 0xE0 then some ⟨2, 0xA0, 0xBF, 0⟩
  else if octet = 0xED then some ⟨2, 0x80, 0x9F, 0xD⟩
  else if octet < 0xF0 then some ⟨2, 0x80, 0xBF, octet - 0xE0⟩
  else if octet = 0xF0 then some ⟨3, 0x90, 0xBF, 0⟩
  else if octet < 0xF4 then some ⟨3, 0x80, 0xBF, octet - 0xF0⟩
  else if octet = 0xF4 then some ⟨3, 0x80, 0x8F, 4⟩
  else none

/-- The number of a code point that goes on with some octets, and the octets that are left. -/
def takeFollowing : Nat → Nat → Nat → Nat → List Nat → Option Nat × List Nat
  | 0, _, _, bits, octets => (some bits, octets)
  | _ + 1, _, _, _, [] => (none, [])
  | n + 1, low, high, bits, octet :: octets =>
    if low ≤ octet && octet ≤ high then
      takeFollowing n 0x80 0xBF (0x40 * bits + (octet - 0x80)) octets
    else (none, octet :: octets)

theorem length_takeFollowing_le (n low high bits : Nat) (octets : List Nat) :
    (takeFollowing n low high bits octets).2.length ≤ octets.length := by
  induction octets generalizing n low high bits with
  | nil => cases n <;> simp [takeFollowing]
  | cons o os ih =>
    cases n with
    | zero => simp [takeFollowing]
    | succ n =>
      unfold takeFollowing
      split
      · exact Nat.le_succ_of_le (ih ..)
      · exact Nat.le_refl _

/-- What stands for octets that are no code point. -/
def replacement : CodePoint := CodePoint.ofNat 0xFFFD

/-- The text that octets encode. -/
def decode : List Nat → Text
  | [] => []
  | octet :: octets =>
    match lead? octet with
    | none => replacement :: decode octets
    | some lead =>
      let taken := takeFollowing lead.following lead.low lead.high lead.bits octets
      (taken.1.map CodePoint.ofNat).getD replacement :: decode taken.2
termination_by octets => octets.length
decreasing_by
  · exact Nat.lt_succ_self octets.length
  · exact Nat.lt_succ_of_le (length_takeFollowing_le ..)

end Utf8

end MarkupGrammar
