import PatternSql.CommandLine

/-!
# The program

Takes the arguments and the settings of the environment, and prints the answer.
-/

open PatternSql

/-- The settings of the environment. -/
def readSettings : IO Settings := do
  let names := [Config.dialectSetting, Config.prettySetting, Config.identifySetting]
  let values ← names.mapM fun name => return (name, ← IO.getEnv name)
  return values.filterMap fun (name, value) => value.map fun v => (name, v)

/-- Prints the answer to the arguments. -/
def main (arguments : List String) : IO UInt32 := do
  let a := answer (← readSettings) arguments
  (← IO.getStdout).putStr a.output
  (← IO.getStderr).putStr a.errors
  if let some failure := a.failure then
    (← IO.getStderr).putStrLn failure.message
  return a.exit.toUInt32
