import PixelFont.Command.Reach
import PixelFont.Font.Record
import PixelFont.Json.Writer

/-!
The command line. What a run may look at is read from the disk into a tree of files; then the run
is computed, what it changed in the tree is written back, and its notices are printed. A font is
written as a record of its tables.
-/

set_option autoImplicit false

namespace PixelFont.Main

/-! ### Reading the disk -/

/-- The text of a place. -/
def placeText (place : Place) : String :=
  "/" ++ "/".intercalate place

/-- The barrier that an error of an access stands for. -/
def barrierOf : IO.Error → Barrier
  | .permissionDenied .. => .denied
  | _ => .inputOutput

/-- The tree with a directory that is barred further. -/
def bar (tree : FileTree) (place : Place) (change : Barriers → Barriers) : FileTree :=
  match tree.node? place with
  | some (.directory barriers) => tree.put place (.directory (change barriers))
  | _ => tree

/-- The tree with what stands at a place of the disk. Whether it can be written shows only in
writing. -/
def lookAt (tree : FileTree) (place : Place) : IO FileTree := do
  let path := (← IO.currentDir) / placeText place
  match ← path.metadata.toBaseIO with
  | .error (.permissionDenied ..) =>
    return bar tree place.dropLast fun barriers ↦ { barriers with lookup := some .denied }
  | .error _ => return tree
  | .ok found =>
    if place.isEmpty then return tree
    else if found.type == .dir then return tree.put place .directory
    else
      match ← (IO.FS.readBinFile path).toBaseIO with
      | .error error =>
        return tree.put place (.file (.bytes []) { reading := some (barrierOf error) })
      | .ok bytes => return tree.put place (.file (.bytes bytes.toList))

/-- The tree with what stands directly inside a place of the disk, if that is a directory. -/
def lookInside (tree : FileTree) (place : Place) : IO FileTree := do
  let path := (← IO.currentDir) / placeText place
  match ← path.readDir.toBaseIO with
  | .error error =>
    return bar tree place fun barriers ↦ { barriers with reading := some (barrierOf error) }
  | .ok entries =>
    entries.toList.foldlM (fun tree entry ↦ lookAt tree (place ++ [entry.fileName])) tree

/-- The tree with what stands on the way to a path and directly inside it. -/
def lookAlong (tree : FileTree) (path : Path) : IO FileTree := do
  let places := (List.range (path.components.length + 1)).map fun count ↦
    (Path.ofComponents path.root (path.components.take count)).resolve tree.workingDirectory
  let reached ← places.foldlM lookAt tree
  lookInside reached (path.resolve tree.workingDirectory)

/-- The tree with the directory in use and what the run of some arguments may look at. -/
def snapshot (arguments : List String) : IO FileTree := do
  let here := (← IO.currentDir).toString.splitOn "/"
  let empty := FileTree.empty (here.filter (· != ""))
  let first ← (Command.reach {} empty arguments).foldlM lookAlong empty
  (Command.reach {} first arguments).foldlM lookAlong first

/-! ### Writing back -/

/-- The bytes of a file. -/
def fileBytes : FileContent → List UInt8
  | .bytes bytes => bytes
  | .font font => Text.Utf8.encode (Json.write font.toValue).toList

/-- Writing of what stands at a place, if it is new there. -/
def writeBack (before : FileTree) (entry : Place × FileNode) : IO Unit := do
  if before.node? entry.1 != some entry.2 then
    match entry.2 with
    | .directory _ => IO.FS.createDir (placeText entry.1)
    | .file content _ => IO.FS.writeBinFile (placeText entry.1) (fileBytes content).toByteArray

/-- The line of an event in the log file. -/
def logLine (event : LogEvent) : String :=
  event.level.name ++ " | " ++ event.logger ++ " | " ++ Json.write event.toValue

/-- Writing of the events of a run at the end of the log file. -/
def writeLog (conclusion : Command.Conclusion) : IO Unit := do
  match conclusion.logFile with
  | none => return
  | some path =>
    let handle ← IO.FS.Handle.mk path.toText .append
    for event in conclusion.log do
      handle.putStrLn (logLine event)

/-! ### Telling -/

/-- The number of glyphs that a notice tells to be compiled. -/
def compiledCount : Notice → Nat
  | .success statistics => statistics.compiled
  | _ => 0

/-- What is measured of a run that took some milliseconds. -/
def measures (conclusion : Command.Conclusion) (time : Nat) : Measures where
  elapsed := Amount.duration (Number.Binary64.ofFraction ⟨false, time, 1000⟩)
  size := fun path ↦ Amount.fileSize
    ((conclusion.tree.read path).toOption.map fun content ↦ (fileBytes content).length)
  average := fun _ ↦ Amount.milliseconds
    ((Number.Binary64.ofInt time).divNat (max 1 (Number.total compiledCount conclusion.notices)))

/-- The lines that tell of a run that went wrong beyond its notices. -/
def complaint : Command.Ending → List String
  | .broken fault => [fault.message]
  | .status 2 => Notice.usageLines
  | .status _ => []

end PixelFont.Main

open PixelFont

/-- Runs the command that the arguments ask for and gives its status. -/
def main (arguments : List String) : IO UInt32 := do
  let start ← IO.monoMsNow
  let tree ← Main.snapshot arguments
  let conclusion := Command.run {} tree arguments
  conclusion.tree.entries.forM (Main.writeBack tree)
  Main.writeLog conclusion
  let finish ← IO.monoMsNow
  let measures := Main.measures conclusion (finish - start)
  for line in conclusion.notices.flatMap (Notice.lines measures) do
    IO.println line
  for line in Main.complaint conclusion.ending do
    IO.eprintln line
  return conclusion.ending.code.toUInt32
