import Quilt.Files.Path
import Quilt.Render.Sink

namespace Quilt

inductive LogEntry where
  | requestWritten (path : Path)
  | sequenceStarted (config : FrameConfig) (dir : Path)
  | frameWritten (index : Nat) (path : Path)
deriving DecidableEq, Repr

namespace LogEntry

def isDetail : LogEntry → Bool
  | frameWritten .. => true
  | _ => false

def text : LogEntry → String
  | requestWritten path => s!"INFO wrote request path={path.toText}"
  | sequenceStarted config dir =>
    s!"INFO writing png sequence width={config.width} height={config.height} " ++
      s!"frames={config.frames} dir={dir.toText}"
  | frameWritten index path => s!"DEBUG wrote frame idx={index} path={path.toText}"

end LogEntry

end Quilt
