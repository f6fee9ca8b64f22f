import FtpServer.Text.Decimal
import FtpServer.Text.Split

/-!
# Replies and their framing

A reply is a three-digit code and a text that may span lines.  On the wire every line carries the
code; a dash after it announces another line and a space marks the last one.
-/

namespace FtpServer

structure Reply where
  code : Nat
  text : String
  deriving DecidableEq, Repr

namespace Reply

open Text

@[simp] def fileStatusOk : Nat := 150
@[simp] def ok : Nat := 200
@[simp] def unknownCommand : Nat := 202
@[simp] def systemType : Nat := 215
@[simp] def ready : Nat := 220
@[simp] def goodbye : Nat := 221
@[simp] def noTransfer : Nat := 225
@[simp] def transferComplete : Nat := 226
@[simp] def enteringPassive : Nat := 227
@[simp] def loginSuccess : Nat := 230
@[simp] def fileActionOk : Nat := 250
@[simp] def pathCreated : Nat := 257
@[simp] def passwordRequired : Nat := 331
@[simp] def serviceClosing : Nat := 421
@[simp] def cannotOpenData : Nat := 425
@[simp] def localError : Nat := 451
@[simp] def syntaxError : Nat := 500
@[simp] def argumentError : Nat := 501
@[simp] def badSequence : Nat := 503
@[simp] def parameterNotImplemented : Nat := 504
@[simp] def notLoggedIn : Nat := 530
@[simp] def fileUnavailable : Nat := 550
@[simp] def nameNotAllowed : Nat := 553

def dropFinal (c : Char) (cs : List Char) : List Char :=
  if cs.getLast? = some c then cs.dropLast else cs

/-- The lines of a text; one line feed at its very end adds none. -/
def lines (text : List Char) : List (List Char) :=
  (split '\n' (dropFinal '\n' text)).map (dropFinal '\r')

/-- Every line behind the code and a mark that tells the last one. -/
def frameLines (code : List Char) : List (List Char) → List Char
  | [] => []
  | [line] => code ++ ' ' :: line ++ ['\r', '\n']
  | line :: rest => code ++ '-' :: line ++ ['\r', '\n'] ++ frameLines code rest

def frameChars (r : Reply) : List Char :=
  frameLines (padded 3 r.code) (lines r.text.toList)

def frame (r : Reply) : String := String.ofList r.frameChars

end Reply

end FtpServer
