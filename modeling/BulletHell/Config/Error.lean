import BulletHell.Number.Decimal
import BulletHell.Pattern.Program

/-!
# Configuration errors

What can be wrong with a game configuration. These errors only arise while a configuration is
loaded; conditions of play such as a full pool are no errors.
-/

namespace BulletHell

inductive ConfigError where
  /-- The document is not JSON or lacks the expected form. -/
  | malformed
  | noStages
  | noPlayableStages (refused : Nat)
  | invalidBpm (stage : String) (bpm : Float)
  | spawnOrder (stage : String) (index : Nat) (beat previous : Int)
  | negativeBeat (stage : String) (index : Nat) (beat : Int)
  | unknownArchetype (stage name : String)
  | unknownRoute (stage name : String)
  | routeStepOutOfRange (stage route : String) (step : Nat)
  | duplicateArchetype (name : String)
  | unknownShot (owner name : String)
  | tooManyEmitters (owner : String) (count limit : Nat)
  | noPowerLevels
  | program (owner : String) (emitter : Nat) (cause : ProgramError)

namespace ConfigError

/-- The kind of an error, as one word. -/
def kind : ConfigError → String
  | malformed => "Json"
  | noStages => "NoStages"
  | noPlayableStages _ => "NoPlayableStages"
  | invalidBpm .. => "InvalidBpm"
  | spawnOrder .. => "SpawnOrder"
  | negativeBeat .. => "NegativeBeat"
  | unknownArchetype .. => "UnknownArchetype"
  | unknownRoute .. => "UnknownRoute"
  | routeStepOutOfRange .. => "RouteStepOutOfRange"
  | duplicateArchetype _ => "DuplicateArchetype"
  | unknownShot .. => "UnknownShot"
  | tooManyEmitters .. => "TooManyEmitters"
  | noPowerLevels => "NoPowerLevels"
  | program .. => "Program"

/-- A name as messages show it. -/
def quoteName (name : String) : String :=
  "`" ++ name ++ "`"

/-- What is wrong, as a sentence. -/
def message : ConfigError → String
  | malformed => "malformed config"
  | noStages => "no stages configured"
  | noPlayableStages refused => s!"all {refused} configured stages were refused"
  | invalidBpm stage bpm =>
    "stage " ++ quoteName stage ++ ": bpm must be positive, got " ++ positional bpm
  | spawnOrder stage index beat previous =>
    "stage " ++ quoteName stage ++
      s!": spawn {index} at beat {beat} comes before beat {previous}"
  | negativeBeat stage index beat =>
    "stage " ++ quoteName stage ++ s!": spawn {index} has negative beat {beat}"
  | unknownArchetype stage name =>
    "stage " ++ quoteName stage ++ ": unknown archetype " ++ quoteName name
  | unknownRoute stage name =>
    "stage " ++ quoteName stage ++ ": unknown route " ++ quoteName name
  | routeStepOutOfRange stage route step =>
    "stage " ++ quoteName stage ++ ": route " ++ quoteName route ++ s!" has no step {step}"
  | duplicateArchetype name => "duplicate archetype name " ++ quoteName name
  | unknownShot owner name =>
    "unknown shot archetype " ++ quoteName name ++ " referenced by " ++ quoteName owner
  | tooManyEmitters owner count limit =>
    quoteName owner ++ s!" has {count} emitters, limit is {limit}"
  | noPowerLevels => "player needs at least one power level"
  | program owner emitter cause =>
    s!"emitter {emitter} of " ++ quoteName owner ++ ": " ++ cause.message

end ConfigError

end BulletHell
