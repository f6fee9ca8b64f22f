import FtpServer.Text.Printable

/-!
# Quoted text

Text between double quotes, on one line whatever it holds: quotes and backslashes get a backslash,
and characters that cannot be shown are written by number.
-/

namespace FtpServer.Text

def hexNumber (n : Nat) : List Char := Nat.toDigits 16 n

def escape (c : Char) : List Char :=
  if c = '\x00' then ['\\', '0']
  else if c = '\t' then ['\\', 't']
  else if c = '\r' then ['\\', 'r']
  else if c = '\n' then ['\\', 'n']
  else if c = '"' ∨ c = '\\' then ['\\', c]
  else if isPrintable c then [c]
  else '\\' :: 'u' :: '\x7b' :: hexNumber c.toNat ++ ['\x7d']

def quotedChars (cs : List Char) : List Char := '"' :: cs.flatMap escape ++ ['"']

def quoted (s : String) : String := String.ofList (quotedChars s.toList)

end FtpServer.Text
