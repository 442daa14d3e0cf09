import Quilt.Image.Dds
import Quilt.Image.Farbfeld
import Quilt.Image.Icon
import Quilt.Image.Library
import Quilt.Image.Netpbm
import Quilt.Image.Png
import Quilt.Image.Qoi
import Quilt.Image.Radiance
import Quilt.Image.Resample
import Quilt.Image.Targa
import Quilt.Image.Tiff

namespace Quilt

def ImageFormat.decode? (format : ImageFormat) (file : ByteArray) : Option Raster :=
  let bytes := file.data.toList
  match format with
  | png => Png.decode? file
  | netpbm => Netpbm.decode.read? bytes
  | farbfeld => Farbfeld.decode.read? bytes
  | targa => Targa.decode.read? bytes
  | bitmap => Bitmap.decode? bytes
  | icon => Icon.decode? bytes
  | qoi => Qoi.decode.read? bytes
  | radiance => Radiance.decode.read? bytes
  | tiff => Tiff.decode? bytes
  | dds => Dds.decode.read? bytes

theorem Png.extract_of_decode? {file : ByteArray} {raster : Raster}
    (h : decode? file = some raster) : (file.extract 0 8).data = pngSignature := by
  by_cases hsignature : (file.extract 0 8).data ≠ pngSignature
  · rw [decode?, if_pos hsignature] at h
    cases h
  · exact Decidable.not_not.1 hsignature

instance : ImageLibrary where
  decode? := ImageFormat.decode?
  extract_of_decode? := Png.extract_of_decode?
  resize := Raster.resample

end Quilt
