import Verdict.Check
import Verdict.Json.Limits

namespace Verdict.Command

structure Options where
  text : Option String := none
  vars : Option String := none
  configFile : Option String := none
  syntaxOnly : Bool := false
  explain : Bool := false

/-- Reads the arguments of `check`. -/
def Options.read (o : Options) : List String → Option Options
  | [] => some o
  | "--vars" :: text :: rest => { o with vars := some text }.read rest
  | "--config" :: path :: rest => { o with configFile := some path }.read rest
  | "--syntax-only" :: rest => { o with syntaxOnly := true }.read rest
  | "--explain" :: rest => { o with explain := true }.read rest
  | text :: rest => if o.text.isSome then none else { o with text := some text }.read rest

def resultLine : CheckResult → String
  | .syntaxValid => "Syntax is valid"
  | .verdict holds => toString holds
  | .explained algebra holds => algebra ++ " => " ++ toString holds

def usage : String :=
  "usage: rule check RULE [--vars JSON] [--syntax-only] [--explain] [--config FILE]\n" ++
    "       rule tokens RULE"

def environmentLimits : IO Limits := do
  let length ← IO.getEnv "RULE_MAX_RULE_LENGTH"
  let depth ← IO.getEnv "RULE_MAX_NESTING_DEPTH"
  return Limits.ofEnvironment fun name => if name == "RULE_MAX_RULE_LENGTH" then length else depth

/-- Prints a message where errors go. -/
def failWith (message : String) : IO UInt32 := do
  IO.eprintln message
  return 1

/-- Reads what is left of a stream, after `text`. -/
partial def readRest (stream : IO.FS.Stream) (text : String) : IO String := do
  let line ← stream.getLine
  if line.isEmpty then return text else readRest stream (text ++ line)

/-- The limits that hold for a check. -/
def checkLimits (o : Options) : IO (Option Limits) := do
  let defaults ← environmentLimits
  match o.configFile with
  | none => return some defaults
  | some path => return Limits.ofJson? defaults (← IO.FS.readFile path)

/-- The text of the variables: an option, or else what is piped in. -/
def checkVars (o : Options) : IO (Option String) := do
  match o.vars with
  | some text => return some text
  | none =>
    if ← (← IO.getStdin).isTty then return none
    else return some (← readRest (← IO.getStdin) "")

def runCheck (o : Options) (text : String) : IO UInt32 := do
  let vars ← checkVars o
  match ← checkLimits o with
  | none => failWith "Invalid config"
  | some limits =>
    match Check.run ⟨text, vars, o.syntaxOnly, o.explain, limits⟩ with
    | .ok result => do
      IO.println (resultLine result)
      return 0
    | .error e => failWith e.message

def runTokens (text : String) : IO UInt32 := do
  for line in listing (← environmentLimits) text do
    IO.println line
  return 0

end Verdict.Command

open Verdict.Command in
/-- Runs the command that the arguments name. -/
def main (args : List String) : IO UInt32 :=
  match args with
  | ["tokens", text] => runTokens text
  | "check" :: rest =>
    match Options.read {} rest with
    | some o =>
      match o.text with
      | some text => runCheck o text
      | none => failWith usage
    | none => failWith usage
  | _ => failWith usage
