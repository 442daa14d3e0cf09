import Quilt.Command.Run

namespace Quilt

/-- Turns a failure of the system into a fault of the file. -/
def attempt {α : Type} (act : IO α) : ExceptT FileFault IO α :=
  ExceptT.mk do
    match ← act.toBaseIO with
    | .ok a => return .ok a
    | .error e => return .error (.refused (toString e))

def systemFiles : Files IO where
  readText path := attempt (IO.FS.readFile path.toText)
  readImage format path := do
    match ImageLibrary.decode? format (← attempt (IO.FS.readBinFile path.toText)) with
    | some raster => return raster
    | none => throw .notImage
  makeDirs path := do
    unless path.toText.isEmpty do attempt (IO.FS.createDirAll path.toText)
  writeText path content := attempt (IO.FS.writeFile path.toText content)
  writeImage path raster := attempt (IO.FS.writeBinFile path.toText (Png.encode raster))

end Quilt

def main (args : List String) : IO UInt32 := do
  let outcome ← Quilt.Command.perform Quilt.systemFiles args
  let output ← IO.getStdout
  let messages ← IO.getStderr
  output.putStr outcome.printed
  for line in outcome.report do messages.putStrLn line
  return outcome.status.toUInt32
