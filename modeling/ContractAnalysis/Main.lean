import ContractAnalysis.CommandLine
import Std.Time.DateTime

/-!
# The program

Reads the environment, the clock and the file that the arguments name, runs the command, and prints
what it says. No language model is reached from here, and PDF files are not read.
-/

namespace ContractAnalysis

/-- The contents of a file, or why they cannot be read. -/
def readContents (path : String) : IO (Except FileFault ByteArray) := do
  try
    return .ok (← IO.FS.readBinFile path)
  catch
    | .noFileOrDirectory .. => return .error .missing
    | fault => return .error (.other (toString fault))

def readSettings : IO Settings := do
  let values ← Settings.variableNames.mapM fun name => return (name, ← IO.getEnv name)
  return Settings.ofEnvironment fun name => (values.lookup name).join

def newStamp : IO Stamp := do
  let now := (← Std.Time.Timestamp.now).toNanosecondsSinceUnixEpoch.val.toNat
  let bytes ← IO.getRandomBytes 16
  return {
    runId := RunId.ofRandom
      (BitVec.ofNat 128 (bytes.foldl (fun n byte => 256 * n + byte.toNat) 0))
    generatedAt := Timestamp.ofUnix (now / 1000000000) (now % 1000000000) }

end ContractAnalysis

open ContractAnalysis in
def main (arguments : List String) : IO UInt32 := do
  let contents ← match Invocation.parse arguments with
    | .analyze _ (some file) => readContents file
    | _ => pure (.error .missing)
  let result := runCommand arguments (← readSettings) { bytes := fun _ => contents } .unreachable
    (← newStamp)
  IO.print result.stdout
  IO.eprint result.complaint
  return result.exit.toUInt32
