import DocQuery.CommandLine.Run
import Std.Time.DateTime.Timestamp

/-!
# The command line program

Runs a query over a file of documents with the files, the environment, the clock
and the random numbers of the machine.
-/

namespace DocQuery

namespace CommandLine

def drawHex (bytes : USize) : IO (List Char) := do
  let drawn ← IO.getRandomBytes bytes
  return drawn.toList.flatMap fun byte =>
    [Json.hexDigit (byte.toNat / 16), Json.hexDigit (byte.toNat % 16)]

def drawGrouped : IO String := do
  let cs ← drawHex 16
  let version := (cs.set 12 '4').set 16 '8'
  let group := fun (start length : Nat) => String.ofList ((version.drop start).take length)
  return group 0 8 ++ "-" ++ group 8 4 ++ "-" ++ group 12 4 ++ "-" ++ group 16 4 ++ "-" ++
    group 20 12

def drawFresh : IO Fresh := do
  let resource ← drawHex 16
  let etag ← drawGrouped
  let id ← drawGrouped
  let now ← Std.Time.Timestamp.now
  return ⟨id, ⟨String.ofList resource, now.toSecondsSinceUnixEpoch.val, "\"" ++ etag ++ "\""⟩⟩

/-- Numbers from zero up to one, each the hash of a random seed and of what it is drawn for. -/
def drawNumbers : IO Draws := do
  let seed ← IO.getRandomBytes 16
  return fun indices site =>
    let word := hash (seed.toList, indices, site)
    (word >>> 11).toFloat / (Nat.pow 2 53).toFloat

def machine : World IO where
  contents path := do
    try
      return some (← IO.FS.readFile path)
    catch _ => return none
  save path text := do
    try
      IO.FS.writeFile path text
      return true
    catch _ => return false
  environment names := do
    let values ← names.mapM fun name => do
      return (name, ← IO.getEnv name)
    return fun name => (values.lookup name).bind id
  draw := drawFresh
  numbers := drawNumbers

end CommandLine

end DocQuery

def main (arguments : List String) : IO UInt32 := do
  let outcome ← DocQuery.CommandLine.run DocQuery.CommandLine.machine arguments
  IO.print outcome.output
  if outcome.complaint ≠ "" then IO.eprintln outcome.complaint
  return outcome.exitCode.toUInt32
