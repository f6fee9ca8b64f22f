import FtpServer.Reply

/-!
# Control lines and commands

A control line is a verb of ASCII letters, in any case, and after one space an argument that is
kept as it stands.  Twenty verbs are known; every other one is carried along in capitals.
-/

namespace FtpServer

inductive Command
  | user (name : String)
  | pass (password : String)
  | syst
  | type (kind : String)
  | noop
  | port (address : String)
  | pasv
  | cwd (path : String)
  | cdup
  | pwd
  | mkd (path : String)
  | rmd (path : String)
  | dele (path : String)
  | rnfr (path : String)
  | rnto (path : String)
  | list (path : String)
  | retr (path : String)
  | stor (path : String)
  | abor
  | quit
  | unknown (verb : String)
  deriving DecidableEq, Repr

inductive CommandError
  | empty
  | malformedVerb (text : String)
  deriving DecidableEq, Repr

namespace CommandError

def message : CommandError → String
  | .empty => "Empty command line"
  | .malformedVerb text => "Malformed command verb: " ++ text

def code (_ : CommandError) : Nat := Reply.syntaxError

end CommandError

namespace Command

def verb : Command → String
  | .user _ => "USER"
  | .pass _ => "PASS"
  | .syst => "SYST"
  | .type _ => "TYPE"
  | .noop => "NOOP"
  | .port _ => "PORT"
  | .pasv => "PASV"
  | .cwd _ => "CWD"
  | .cdup => "CDUP"
  | .pwd => "PWD"
  | .mkd _ => "MKD"
  | .rmd _ => "RMD"
  | .dele _ => "DELE"
  | .rnfr _ => "RNFR"
  | .rnto _ => "RNTO"
  | .list _ => "LIST"
  | .retr _ => "RETR"
  | .stor _ => "STOR"
  | .abor => "ABOR"
  | .quit => "QUIT"
  | .unknown verb => verb

def argument? : Command → Option String
  | .user arg | .pass arg | .type arg | .port arg | .cwd arg | .mkd arg | .rmd arg | .dele arg
  | .rnfr arg | .rnto arg | .list arg | .retr arg | .stor arg => some arg
  | _ => none

/-- Whether the command is refused until the client has logged in. -/
def requiresLogin : Command → Bool
  | .user _ | .pass _ | .syst | .type _ | .noop | .abor | .quit | .unknown _ => false
  | _ => true

def ofVerb (verb arg : String) : Command :=
  match verb with
  | "USER" => .user arg
  | "PASS" => .pass arg
  | "SYST" => .syst
  | "TYPE" => .type arg
  | "NOOP" => .noop
  | "PORT" => .port arg
  | "PASV" => .pasv
  | "CWD" => .cwd arg
  | "CDUP" => .cdup
  | "PWD" => .pwd
  | "MKD" => .mkd arg
  | "RMD" => .rmd arg
  | "DELE" => .dele arg
  | "RNFR" => .rnfr arg
  | "RNTO" => .rnto arg
  | "LIST" => .list arg
  | "RETR" => .retr arg
  | "STOR" => .stor arg
  | "ABOR" => .abor
  | "QUIT" => .quit
  | _ => .unknown verb

/-- How much of a line without a verb an error repeats. -/
def excerptLength : Nat := 16

def parse (line : String) : Except CommandError Command :=
  let verb := line.toList.takeWhile Char.isAlpha
  let rest := line.toList.dropWhile Char.isAlpha
  if verb = [] then
    if rest = [] then .error .empty
    else .error (.malformedVerb (String.ofList (rest.take excerptLength)))
  else
    let capitals := String.ofList (verb.map Char.toUpper)
    match rest with
    | [] => .ok (ofVerb capitals "")
    | ' ' :: arg => .ok (ofVerb capitals (String.ofList arg))
    | _ => .error (.malformedVerb (String.ofList verb))

end Command

end FtpServer
