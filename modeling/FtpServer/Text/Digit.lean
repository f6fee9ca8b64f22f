/-!
# Digits in bases up to sixteen

Letters of either case stand for the values from ten on.
-/

namespace FtpServer.Text

def hexValue (c : Char) : Option Nat :=
  if '0' ≤ c ∧ c ≤ '9' then some (c.toNat - 48)
  else if 'a' ≤ c ∧ c ≤ 'f' then some (c.toNat - 87)
  else if 'A' ≤ c ∧ c ≤ 'F' then some (c.toNat - 55)
  else none

def digitIn (radix : Nat) (c : Char) : Option Nat :=
  (hexValue c).filter (· < radix)

/-- The number that digits with these values stand for; the most significant comes first. -/
def valueIn (radix : Nat) (ds : List Nat) : Nat := ds.foldl (fun n d => n * radix + d) 0

end FtpServer.Text
