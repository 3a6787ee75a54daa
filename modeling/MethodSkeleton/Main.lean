/-
# `MethodSkeleton.Main` — the program

Everything that is decided is decided in `runProgram`; this module lends it the real files,
environment and standard streams.
-/
import MethodSkeleton.CommandLine.Run

namespace MethodSkeleton

/-- The fault that an error of the operating system is. -/
def ReadFault.ofError : IO.Error → ReadFault
  | .noFileOrDirectory .. => .notFound
  | .inappropriateType _ 20 _ => .notDirectory
  | .inappropriateType .. => .isDirectory
  | e => .other (toString e)

/-- Reads a file. -/
def readBytes (path : String) : IO (Except ReadFault ByteArray) := do
  match ← (IO.FS.readBinFile path).toBaseIO with
  | .ok bytes => return .ok bytes
  | .error e => return .error (.ofError e)

/-- The files of the operating system. -/
def systemFiles : Files IO where
  read := readBytes
  isFile path := return (← readBytes path).isOk

/-- Where the default configuration is, if the environment says where a user's are. -/
def defaultConfigPath : IO (Option String) := do
  match ← IO.getEnv "XDG_CONFIG_HOME", ← IO.getEnv "HOME" with
  | some directory, home =>
    if Path.isAbsolute directory then return some (Path.join directory "skelgen/config.toml")
    else return home.map (Path.join · ".config/skelgen/config.toml")
  | none, home => return home.map (Path.join · ".config/skelgen/config.toml")

end MethodSkeleton

/-- Runs the program on the command line's arguments. -/
def main (arguments : List String) : IO UInt32 := do
  let host : MethodSkeleton.Host IO :=
    { files := MethodSkeleton.systemFiles
      environmentConfig := ← IO.getEnv "SKELGEN_CONFIG"
      defaultConfig := ← MethodSkeleton.defaultConfigPath
      input := do (← IO.getStdin).readBinToEnd }
  let outcome ← MethodSkeleton.runProgram host arguments
  (← IO.getStdout).putStr outcome.out
  (← IO.getStderr).putStr outcome.err
  return outcome.exit.toUInt32
