import FtpServer.Account
import FtpServer.Session.Outcome

/-!
# Logging in

`USER` names who wants to log in and `PASS` proves it.  A refused `PASS` leads back to the
beginning.  Before every refusal that reveals something about accounts there is a pause.
-/

namespace FtpServer

structure Session.Context where
  settings : Settings
  /-- Where the server root lies on the host. -/
  root : String
  /-- Our end of the control connection. -/
  control : Socket

namespace Session

open Dialogue

abbrev Step := Dialogue (Client × Outcome)

def refuseLogin (ctx : Context) (c : Client) (e : LoginError) : Step := do
  note (.loginRefused c.address e)
  if e.code = Reply.notLoggedIn then pause ctx.settings.authFailureDelayMs.toNat
  return (c, .failure e.code e.replyText)

def anonymousPrompt : String :=
  "Logging in anonymously. Send your complete e-mail address as password."

def passwordPrompt (name : String) : String := "Password required for " ++ name ++ "."

def welcome (identity : String) : String := "Logged in. Welcome, " ++ identity ++ "."

def onUser (ctx : Context) (c : Client) (name : String) : Step := do
  if c.isLoggedIn then refuseLogin ctx c .alreadyLoggedIn
  else
    match Account.checkUser ctx.settings name with
    | .error e => refuseLogin ctx c e
    | .ok () =>
      if name = Account.anonymous then
        return (c.beginLogin none, .success Reply.passwordRequired anonymousPrompt)
      else return (c.beginLogin (some name), .success Reply.passwordRequired (passwordPrompt name))

def identify (ctx : Context) (c : Client) (password : String) :
    Dialogue (Except LoginError String) := do
  match c.username with
  | none => return Account.anonymousIdentity ctx.settings password
  | some name =>
    if ← authenticate name password then return .ok name
    else return .error (.loginIncorrect name)

def onPass (ctx : Context) (c : Client) (password : String) : Step := do
  if c.stage ≠ .awaitingPassword then refuseLogin ctx c .userRequired
  else
    match ← identify ctx c password with
    | .ok identity =>
      note (.loggedIn c.address identity)
      return (c.completeLogin identity, .success Reply.loginSuccess (welcome identity))
    | .error e => refuseLogin ctx c.resetLogin e

end Session

end FtpServer
