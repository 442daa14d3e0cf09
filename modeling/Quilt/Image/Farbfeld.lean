import Quilt.Image.ByteReader
import Quilt.Image.Samples

namespace Quilt.Farbfeld

open ByteReader

def decode : ByteReader Raster := do
  signature "farbfeld"
  let width ← highFirst 4
  let height ← highFirst 4
  let samples := wideSamples (← bytes (8 * (width * height)))
  Raster.ofSamples? width height 4 (samples.map narrowSample)

end Quilt.Farbfeld
