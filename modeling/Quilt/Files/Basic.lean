import Quilt.Files.Path
import Quilt.Image.Library

namespace Quilt

inductive FileFault where
  | missing | isDirectory | notDirectory | nameTooLong | notText | notImage
  /-- A reason that only the system knows. -/
  | refused (reason : String)
deriving DecidableEq, Repr

namespace FileFault

def text : FileFault → String
  | missing => "No such file or directory (os error 2)"
  | notDirectory => "Not a directory (os error 20)"
  | isDirectory => "Is a directory (os error 21)"
  | nameTooLong => "File name too long (os error 36)"
  | notText => "not a text"
  | notImage => "not an image"
  | refused reason => reason

def toError (task : String) (path : Path) (fault : FileFault) : Error :=
  .reported .other (task ++ " '" ++ path.toText ++ "': " ++ fault.text)

end FileFault

structure Files (m : Type → Type) where
  readText : Path → ExceptT FileFault m String
  readImage : ImageFormat → Path → ExceptT FileFault m Raster
  /-- Makes a directory and those above it, as far as they are missing. -/
  makeDirs : Path → ExceptT FileFault m Unit
  writeText : Path → String → ExceptT FileFault m Unit
  writeImage : Path → Raster → ExceptT FileFault m Unit

end Quilt
