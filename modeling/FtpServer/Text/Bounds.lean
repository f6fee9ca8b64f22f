/-!
# Sets of characters by their bounds

A set of numbers is written as the numbers at which it begins and ends in turn, in rising order; the
end is no member.
-/

namespace FtpServer.Text

/-- Whether a number lies at or behind an odd number of bounds. -/
def isInside (n : Nat) : List Nat → Bool
  | [] => false
  | b :: rest => if n < b then false else !isInside n rest

@[simp] theorem isInside_nil (n : Nat) : isInside n [] = false := rfl

end FtpServer.Text
