import FtpServer.Service
import Std.Time.DateTime.Timestamp

/-!
# The program

Settings come from the environment and from the working directory.  Every client that connects has
a session of its own until the program is killed.
-/

namespace FtpServer

open Text

/-- What the file at `path` holds, if it can be read. -/
def readFileAt (path : String) : IO (Option Bytes) := do
  try
    return some (← IO.FS.readBinFile path).toList
  catch _ => return none

/-- The directory, the environment and the settings files that are there. -/
def lookAround : IO Settings.Surroundings := do
  let directory := (← IO.currentDir).toString
  let block ← readFileAt "/proc/self/environ"
  let environment := Settings.readVariables (block.getD [])
  let bare : Settings.Surroundings := ⟨directory, environment, fun _ => none⟩
  let mut files : List (String × Bytes) := []
  for path in bare.settingsPaths do
    match ← readFileAt path with
    | some content => files := files ++ [(path, content)]
    | none => pure ()
  let found := files
  return { bare with file? := fun path => found.lookup path }

/-- Shows a notice with the time, if the filter lets it pass. -/
def report (filter : Log.Filter) (n : Notice) : IO Unit := do
  if filter.shows n then
    let now := Civil.ofSeconds (← Std.Time.Timestamp.now).toSecondsSinceUnixEpoch.val
    (← IO.getStderr).putStrLn ("[" ++ now.text ++ "] " ++ n.record.line)

/-- Answers a start from the host; the listener is left in `listener`. -/
def launchAnswer (filter : Log.Filter) (listener : IO.Ref (Option Network.Listener)) :
    (q : Launch.Request) → IO q.Answer
  | .prepareRoot path => Host.prepareRoot path
  | .bind host port => Host.attempt do
    let l ← Network.listen (← Network.lookUp host) port
    listener.set (some l)
    return (Network.ofHost (← l.getSockName)).text
  | .note n => report filter n

/-- Serves clients for ever, each in a session that the others do not wait for. -/
partial def acceptAll (filter : Log.Filter) (server : Server) (listener : Network.Listener) :
    IO Unit := do
  match ← Host.attempt listener.accept.block with
  | .ok control =>
    let tell (r : Record) : IO Unit := report filter ⟨Launch.partMain, r⟩
    let _ ← IO.asTask (Service.serve server control tell) .dedicated
  | .error cause => report filter ⟨Launch.partServer, .acceptFailed cause⟩
  acceptAll filter server listener

end FtpServer

open FtpServer in
def main : IO UInt32 := do
  let around ← lookAround
  let (filter, warnings) := Launch.filter around
  for line in warnings do
    (← IO.getStderr).putStrLn line
  let listener ← IO.mkRef none
  match ← (Launch.start around).interpret (launchAnswer filter listener), ← listener.get with
  | .ok server, some l =>
    acceptAll filter server l
    return 0
  | _, _ => return 1
