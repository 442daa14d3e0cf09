import Quilt.Formula.Token

namespace Quilt

inductive ErrorKind where
  | parse | shape | bounds | internal | serialization | other
deriving DecidableEq, Repr

namespace ErrorKind

def all : List ErrorKind := [parse, shape, bounds, internal, serialization, other]

def name : ErrorKind → String
  | parse => "parse"
  | shape => "shape"
  | bounds => "bounds"
  | internal => "internal"
  | serialization => "serde"
  | other => "other"

def label : ErrorKind → String
  | parse => "parse error: "
  | shape => "shape error: "
  | bounds => "bounds error: "
  | internal => "internal error: "
  | serialization => "serialization error: "
  | other => ""

end ErrorKind

def maxColors : Nat := 10

inductive Error where
  | noColors
  | tooManyColors (count : Nat)
  | selectionSize (count : Nat)
  | selectionOutside (slot count : Nat)
  | colorCount (count : Nat)
  | formula (e : Formula.Error)
  | noRows
  | noColumns
  | emptyGrid
  | raggedRow (row width expected : Nat)
  | cellColors (row col count expected : Nat)
  | cellChannels (row col color count : Nat)
  | cellFormula (row col color channel : Nat) (e : Formula.Error)
  | cellSelection (row col count expected : Nat)
  | cellSlot (row col slot numcolors : Nat)
  | tooDeep (depth limit : Nat)
  | tooManyPixels (rows cols depth limit : Nat)
  | rasterOverflow
  | rasterBytes (count expected width height : Nat)
  | stateColors (count expected : Nat)
  | baseSize (baseWidth baseHeight width height : Nat)
  | requestSyntax
  | requestNoColors
  | colorChannels (color count : Nat)
  | colorNotFinite (color : Nat)
  | driftNothing
  | driftNoFormula (row col color channel : Nat)
  | driftNoSlot (row col slot : Nat)
  | frameCount (expected written : Nat)
  /-- An error that a frame sink or the file system brings in. -/
  | reported (kind : ErrorKind) (detail : String)
deriving DecidableEq, Repr

namespace Error

def kind : Error → ErrorKind
  | noColors | tooManyColors _ | selectionOutside .. | colorCount _ | cellSlot .. | tooDeep ..
  | tooManyPixels .. | rasterOverflow | requestNoColors => .bounds
  | selectionSize _ | noRows | noColumns | emptyGrid | raggedRow .. | cellColors ..
  | cellChannels .. | cellSelection .. | rasterBytes .. | stateColors .. | baseSize ..
  | colorChannels .. | colorNotFinite _ | driftNothing | driftNoFormula .. | driftNoSlot .. => .shape
  | formula _ | cellFormula .. => .parse
  | frameCount .. => .internal
  | requestSyntax => .serialization
  | reported kind _ => kind

def detail : Error → String
  | noColors => "at least one color is required"
  | tooManyColors count => s!"too many colors ({count} exceeds {maxColors})"
  | selectionSize count => s!"selection has {count} slots, expected 1..={maxColors}"
  | selectionOutside slot count => s!"selection reads slot {slot}, state has {count} colors"
  | colorCount count => s!"color count {count} is outside 1..={maxColors}"
  | formula e => e.message
  | noRows => "grid has no rows"
  | noColumns => "grid has no columns"
  | emptyGrid => "grid must have at least one row and column"
  | raggedRow row width expected => s!"row {row} has width {width}, expected {expected}"
  | cellColors row col count expected =>
    s!"cell ({row},{col}) has {count} color functions, expected {expected}"
  | cellChannels row col color count =>
    s!"cell ({row},{col}) color {color} has {count} channel expressions, expected 3"
  | cellFormula row col color channel e =>
    s!"cell ({row},{col}) color {color} channel {channel}: " ++ e.message
  | cellSelection row col count expected =>
    s!"cell ({row},{col}) selects {count} slots, expected {expected}"
  | cellSlot row col slot numcolors =>
    s!"cell ({row},{col}) selects slot {slot}, only {numcolors} colors exist"
  | tooDeep depth limit => s!"iterations {depth} exceed the maximum of {limit}"
  | tooManyPixels rows cols depth limit =>
    s!"a {rows}x{cols} grid at {depth} iterations exceeds {limit} pixels"
  | rasterOverflow => "raster dimensions overflow"
  | rasterBytes count expected width height =>
    s!"raster data has {count} bytes, expected {expected} for {width}x{height}"
  | stateColors count expected => s!"state has {count} colors, grid expects {expected}"
  | baseSize baseWidth baseHeight width height =>
    s!"base image is {baseWidth}x{baseHeight}, quilt is {width}x{height}"
  | requestSyntax => "the text is no request"
  | requestNoColors => "must have at least one color"
  | colorChannels color count => s!"color {color} has {count} channels, expected 3"
  | colorNotFinite color => s!"color {color} has a non-finite channel"
  | driftNothing => "cannot drift an empty request"
  | driftNoFormula row col color channel =>
    s!"no formula at cell ({row},{col}) color {color} channel {channel}"
  | driftNoSlot row col slot => s!"no selection slot {slot} at cell ({row},{col})"
  | frameCount expected written => s!"expected {expected} frames, wrote {written}"
  | reported _ detail => detail

def message (e : Error) : String := e.kind.label ++ e.detail

/-- Whether an error fails the request it arose in. No kind is excepted. -/
def failsRequest (_ : Error) : Bool := true

end Error

end Quilt
