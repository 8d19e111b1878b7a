import BulletHell.Autopilot
import BulletHell.Config.Reader
import BulletHell.Demo
import BulletHell.Json.Printer

/-!
# The command line

Takes the path of a configuration and a number of seconds, both optional. The autopilot plays
the game, and its events are printed as one JSON record per line. A configuration that cannot
be loaded ends the program with exit code 1.
-/

namespace BulletHell

/-- The configuration named on the command line, or the demo. -/
def loadConfig (args : List String) : IO (Except ConfigError GameConfig) :=
  match args with
  | [] => pure (.ok Demo.game)
  | path :: _ => do
    try
      let document ← IO.FS.readFile path
      pure (GameConfig.parse document)
    catch _ => pure (.error .malformed)

/-- Prints events, one line each. -/
def printEvents (events : Array GameEvent) : IO Unit :=
  events.forM fun event => IO.println event.toJson.render

end BulletHell

open BulletHell in
def main (args : List String) : IO UInt32 := do
  let config ← loadConfig args
  match config.bind Catalog.ofConfig with
  | .error _ => pure 1
  | .ok catalog =>
    let _ ← (Session.new catalog).play printEvents (sessionSeconds args)
    pure 0
