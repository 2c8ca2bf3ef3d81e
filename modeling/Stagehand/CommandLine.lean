import Stagehand.Config
import Stagehand.Number.Whole

/-!
# The command line

Behind the name of the program, arguments come in pairs of a flag and its value. Of two pairs with
one flag the later counts. The first pair from the left that is not in order is the fault.
-/

namespace Stagehand

/-- What the command line asks for. -/
structure CommandLine where
  config : Option FilePath := none
  scripts : Option FilePath := none
  width : Option Nat := none
  height : Option Nat := none
  /-- How many frames to run; without a number, frames run until the program is stopped. -/
  frames : Option Nat := none
  snapshot : Option FilePath := none
  deriving DecidableEq, Repr, Inhabited

/-- Why the arguments are not in order. -/
inductive ArgumentError where
  | noFlag (text : String)
  | noValue (flag : String)
  | unknownFlag (flag : String)
  | badNumber (what value : String) (cause : Number.WholeError)
  deriving DecidableEq, Repr

/-- The wording of the fault. -/
def ArgumentError.message : ArgumentError → String
  | .noFlag text => "Unexpected argument '" ++ text ++ "'. Flags take the form --name value."
  | .noValue flag => "Expected a value after '" ++ flag ++ "'"
  | .unknownFlag flag => "Unknown flag '" ++ flag ++
    "'. Supported flags: --config, --scripts, --width, --height, --frames, --snapshot."
  | .badNumber what value _ => "Invalid " ++ what ++ " '" ++ value ++ "'"

/-- The fault with what lies behind it. -/
def ArgumentError.chain (e : ArgumentError) : String :=
  match e with
  | .badNumber _ _ cause => e.message ++ ": " ++ cause.message
  | e => e.message

namespace CommandLine

/-- Reads a number of so many bits. -/
def number (what : String) (bits : Nat) (value : String) : Except ArgumentError Nat :=
  match Number.parseWhole 10 0 ((1 <<< bits) - 1) value.toList with
  | .ok n => .ok n.toNat
  | .error e => .error (.badNumber what value e)

/-- Takes up a flag and its value. -/
def set (c : CommandLine) (flag value : String) : Except ArgumentError CommandLine :=
  match flag with
  | "--config" => .ok { c with config := some ⟨value⟩ }
  | "--scripts" => .ok { c with scripts := some ⟨value⟩ }
  | "--width" => do return { c with width := some (← number "width" 32 value) }
  | "--height" => do return { c with height := some (← number "height" 32 value) }
  | "--frames" => do return { c with frames := some (← number "frame count" 64 value) }
  | "--snapshot" => .ok { c with snapshot := some ⟨value⟩ }
  | flag => .error (.unknownFlag flag)

/-- The text has the form of a flag. -/
def isFlag (text : String) : Bool := ['-', '-'].isPrefixOf text.toList

/-- Takes up pairs of flags and values. -/
def setAll (c : CommandLine) : List String → Except ArgumentError CommandLine
  | [] => .ok c
  | [flag] => .error (if isFlag flag then .noValue flag else .noFlag flag)
  | flag :: value :: rest =>
    if isFlag flag then do setAll (← c.set flag value) rest else .error (.noFlag flag)

/-- Reads the arguments; the first one is the name of the program. -/
def parse (args : List String) : Except ArgumentError CommandLine := setAll {} (args.drop 1)

/-- What the command line puts in the place of configured values. -/
def overrides (c : CommandLine) : Overrides := ⟨c.width, c.height, c.scripts⟩

end CommandLine
end Stagehand
