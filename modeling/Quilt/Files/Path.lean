namespace Quilt

structure Path where
  parts : List String
deriving DecidableEq, Repr

namespace Path

/-- The runs of characters between slashes, one more than there are slashes. -/
def splitSlash : List Char → List (List Char)
  | [] => [[]]
  | c :: cs =>
    if c = '/' then [] :: splitSlash cs
    else match splitSlash cs with
      | [] => [[c]]
      | run :: runs => (c :: run) :: runs

def ofString (s : String) : Path := ⟨(splitSlash s.toList).map String.ofList⟩

def toText (path : Path) : String := "/".intercalate path.parts

def nameLimit : Nat := 255

def lengthLimit : Nat := 4095

def isTooLong (path : Path) : Bool := decide (lengthLimit < path.toText.utf8ByteSize)

def isAbsolute (path : Path) : Bool :=
  match path.parts with
  | "" :: _ :: _ => true
  | _ => false

/-- Whether a part stays in the directory reached so far. -/
def stays (part : String) : Bool := part == "" || part == "."

def dropStaying (parts : List String) : List String := (parts.reverse.dropWhile stays).reverse

/-- The directory that holds what the path names. No parts stand for the working directory. -/
def parent (path : Path) : Path := ⟨dropStaying (dropStaying path.parts).dropLast⟩

def join (dir : Path) (name : String) : Path :=
  ⟨(if dir.parts.getLast? = some "" then dir.parts.dropLast else dir.parts) ++ [name]⟩

/-- The stem and the extension of a name. A dot in front belongs to the stem. -/
def splitExtension (name : List Char) : List Char × Option (List Char) :=
  let after := name.reverse.takeWhile (· ≠ '.')
  match (name.reverse.dropWhile (· ≠ '.')).tail.reverse with
  | [] => (name, none)
  | stem => (stem, some after.reverse)

def extension? (path : Path) : Option String := do
  let name ← (dropStaying path.parts).getLast?
  if name = ".." then none
  let extension ← (splitExtension name.toList).2
  return String.ofList extension

/-- A name with another extension. The old one is cut off behind its dot first: where that leaves
two dots, they are the way back and no name that could be extended. -/
def extendName (name extension : String) : String :=
  match splitExtension name.toList with
  | (['.'], some _) => ".."
  | (stem, _) => String.ofList stem ++ "." ++ extension

/-- The path of the neighbour that has the stem of the name and another extension. -/
def withExtension (path : Path) (extension : String) : Path :=
  match path.parts.getLast? with
  | none => path
  | some name =>
    if stays name || name == ".." then path
    else ⟨path.parts.dropLast ++ [extendName name extension]⟩

end Path

end Quilt
