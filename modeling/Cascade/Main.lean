import Cascade.CommandLine.Reply

/-!
# The program

Reads the files that the arguments name and writes the reply.
-/

namespace Cascade.CommandLine

/-- What has been opened: a file, if it can be read. -/
def readPlace (handle : IO.FS.Handle) : IO Place := do
  try
    return .file (← handle.readBinToEnd).toList
  catch _ =>
    return .directory

def findPlace (path : String) : IO Place := do
  try
    readPlace (← IO.FS.Handle.mk path .read)
  catch _ =>
    return .nothing

def findPlaces : Invocation → IO (List (String × Place))
  | .replay config script _ =>
      return [(config, ← findPlace config), (script, ← findPlace script)]
  | _ => return []

/-- A fresh name for a transaction: sixteen random bytes in hexadecimal. -/
def freshName : IO String := do
  let bytes ← IO.getRandomBytes 16
  return String.ofList (bytes.toList.flatMap
    (fun byte => [Json.hexDigit (byte.toNat / 16), Json.hexDigit (byte.toNat % 16)]))

end Cascade.CommandLine

open Cascade.CommandLine in
def main (arguments : List String) : IO UInt32 := do
  let invocation := parseArguments arguments
  let places ← findPlaces invocation
  let reply := replyTo invocation (fun path => (places.lookup path).getD .nothing) (← freshName)
  for line in reply.errors do
    IO.eprintln line
  for line in reply.output do
    IO.println line
  return UInt32.ofNat reply.exit
