import Flowchart.CommandLine
import Std.Time

/-!
The program as it is called: it reads the file, looks where files can be written, and carries out
the effects of a run.
-/

namespace Flowchart.CommandLine

def refusalNow? (path : Path) : IO (Option Refusal) := do
  if let some refusal := path.malformed? then return some refusal
  if Path.isLongName path.name then return some (.tooLong path)
  match path.parts.getLast? with
  | none => return some (.isDirectory path)
  | some _ =>
      let parent : Path := { path with parts := path.parts.dropLast }
      try
        let parent ← IO.FS.realPath parent.text
        if !(← parent.isDir) then return some (.notDirectory path)
        if ← (parent / String.ofList path.name).isDir then return some (.isDirectory path)
        return none
      catch _ => return some (.missing path)

def refusalsNow (texts : List String) : IO (List (Path × Refusal)) := do
  let mut refusals := []
  for text in texts do
    let path := Path.read text
    if let some refusal ← refusalNow? path then
      refusals := (path, refusal) :: refusals
  return refusals

def stampNow : IO Stamp := do
  let clock := (← Std.Time.Timestamp.now).toWallTime Std.Time.TimeZone.Offset.zero
  let time := (Std.Time.PlainDateTime.ofWallTime clock).format "uuuu-MM-dd'T'HH:mm:ss'Z'"
  let bytes := (← IO.getRandomBytes 16).toList
  let marked := bytes.mapIdx fun index byte =>
    if index = 6 then 0x40 ||| byte &&& 0x0F else if index = 8 then 0x80 ||| byte &&& 0x3F else byte
  let digits := marked.flatMap fun byte =>
    [Json.hexDigit (byte.toNat / 16), Json.hexDigit (byte.toNat % 16)]
  let groups := [digits.take 8, (digits.drop 8).take 4, (digits.drop 12).take 4,
    (digits.drop 16).take 4, digits.drop 20]
  return ⟨time, String.ofList (List.intercalate ['-'] groups)⟩

def carryOut : Effect → IO Unit
  | .print text => IO.println text
  | .write path text => IO.FS.writeFile path.text text

def bytesOf? (path : Option String) : IO (Option ByteArray) := do
  match path with
  | none => return none
  | some path => try return some (← IO.FS.readBinFile (Path.read path).text) catch _ => return none

def exitStatus (texts : List String) : IO UInt32 := do
  let bytes ← match Arguments.read texts with
    | .ok arguments => bytesOf? arguments.file
    | .error _ => pure none
  match request texts fun _ => .ok bytes.isSome with
  | .error error =>
      IO.eprintln error.message
      return usageStatus.toUInt32
  | .ok .help =>
      IO.println usage
      return 0
  | .ok (.refused refusal) =>
      IO.eprintln refusal.message
      return 1
  | .ok (.run arguments path) =>
      match bytes.bind decode? with
      | none =>
          IO.eprintln "the file is not in UTF-8"
          return 1
      | some source =>
          let refusals ← refusalsNow
            [arguments.emitJson, arguments.graphDot, arguments.receiptOut].reduceOption
          let surroundings : Surroundings :=
            { stamp := ← stampNow
              seed := ← IO.rand 0 0xFFFFFFFF
              refusal? := fun path => refusals.lookup path }
          let outcome := run surroundings arguments path source
          outcome.effects.forM carryOut
          match outcome.ending with
          | .ok status => return status.toUInt32
          | .error refusal =>
              IO.eprintln refusal.message
              return 1

end Flowchart.CommandLine

def main (arguments : List String) : IO UInt32 := Flowchart.CommandLine.exitStatus arguments
