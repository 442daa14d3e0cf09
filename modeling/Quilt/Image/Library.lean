import Quilt.Render.Raster

namespace Quilt

inductive ImageFormat where
  | png | netpbm | farbfeld | targa | bitmap | icon | qoi | radiance | tiff | dds
deriving DecidableEq, Repr

namespace ImageFormat

def all : List ImageFormat :=
  [png, netpbm, farbfeld, targa, bitmap, icon, qoi, radiance, tiff, dds]

def extensions : ImageFormat → List String
  | png => ["png", "apng"]
  | netpbm => ["pbm", "pam", "ppm", "pgm", "pnm"]
  | farbfeld => ["ff"]
  | targa => ["tga"]
  | bitmap => ["bmp"]
  | icon => ["ico"]
  | qoi => ["qoi"]
  | radiance => ["hdr"]
  | tiff => ["tif", "tiff"]
  | dds => ["dds"]

/-- The format with an extension, in small or capital letters. -/
def ofExtension? (extension : String) : Option ImageFormat :=
  all.find? fun format => format.extensions.contains extension.toLower

end ImageFormat

def pngSignature : Array UInt8 := #[0x89, 0x50, 0x4E, 0x47, 0x0D, 0x0A, 0x1A, 0x0A]

/-- How image files are read and images are resized. -/
class ImageLibrary where
  decode? : ImageFormat → ByteArray → Option Raster
  extract_of_decode? : ∀ {file raster}, decode? .png file = some raster →
    (file.extract 0 8).data = pngSignature
  resize : Raster → (width height : Nat) → Raster

end Quilt
