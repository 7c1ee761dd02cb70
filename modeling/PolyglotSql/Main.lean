import PolyglotSql.Run

/-!
# PolyglotSql.Main

The program: it looks at its surroundings, leaves everything else to `PolyglotSql.process`, and
prints what became of it.
-/

open PolyglotSql

/-- Why something cannot be read. -/
def causeOf : IO.Error → String
  | .noFileOrDirectory .. => "No such file or directory (os error 2)"
  | e => toString e

/-- Reads a file, and tells whether there is one. -/
def readFile (path : String) : IO (Except String String × Bool) := do
  match ← (IO.FS.readFile path).toBaseIO with
  | .ok content => return (.ok content, true)
  | .error e@(.noFileOrDirectory ..) => return (.error (causeOf e), false)
  | .error e => return (.error (causeOf e), true)

/-- Reads standard input to its end. -/
def readInput : IO (Except String String) := do
  match ← (do (← IO.getStdin).readToEnd : IO String).toBaseIO with
  | .ok content => return .ok content
  | .error e => return .error (causeOf e)

/-- Looks at everything around the process that an invocation may need. -/
def surroundings (args : List String) : IO Surroundings := do
  let names := ["HOME", "SQL_TREE_CONFIG", "SQL_TREE_DIALECT", "SQL_TREE_QUOTE_MODE", "SQL_TREE_FORMAT",
    "CLICOLOR", "CLICOLOR_FORCE", "NO_COLOR"]
  let known ← names.mapM fun name => return (name, ← IO.getEnv name)
  let environment := fun name => (known.find? (·.1 == name)).bind (·.2)
  let (paths, readsInput) := match Invocation.read environment args with
    | .ok i => (i.paths environment, i.readsInput)
    | .error _ => ([], false)
  let files ← paths.mapM fun path => return (path, ← readFile path)
  let file? := fun path => (files.find? (·.1 == path)).map (·.2)
  let standardInput ← if readsInput then readInput else pure (.ok "")
  return {
    environment
    file := fun path => ((file? path).map (·.1)).getD (.error "not read")
    hasFile := fun path => ((file? path).map (·.2)).getD false
    standardInput
    terminal := ← (← IO.getStdout).isTty }

/-- Runs the program. -/
def main (args : List String) : IO UInt32 := do
  let ended := process args (← surroundings args)
  IO.print ended.output
  match ended.complaint with
  | some s => IO.eprintln s
  | none => pure ()
  return UInt32.ofNat ended.exitCode
