import Stagehand.FilePath
import Stagehand.Image.Png
import Stagehand.Image.Radiance
import Stagehand.Text.Quoted

/-!
# Image files

The format of a file that is read is told from its first bytes, whatever its name; the format of a
file that is written, from the extension of its name. Two formats can be read and only one of them
written, but the others are known by name.
-/

namespace Stagehand

/-- A format of image files. -/
inductive ImageFormat where
  | png | jpeg | gif | webP | pnm | tiff | tga | dds | bmp | ico | hdr | openExr | farbfeld | avif
  | qoi | pcx
  deriving DecidableEq, Repr

/-- The name of a format. -/
def ImageFormat.name : ImageFormat → String
  | .png => "Png" | .jpeg => "Jpeg" | .gif => "Gif" | .webP => "WebP" | .pnm => "Pnm"
  | .tiff => "Tiff" | .tga => "Tga" | .dds => "Dds" | .bmp => "Bmp" | .ico => "Ico"
  | .hdr => "Hdr" | .openExr => "OpenExr" | .farbfeld => "Farbfeld" | .avif => "Avif"
  | .qoi => "Qoi" | .pcx => "Pcx"

/-- The first bytes of files of a format. -/
def imageSignatures : List (List UInt8 × ImageFormat) := [
  ([0x89, 0x50, 0x4e, 0x47, 0x0d, 0x0a, 0x1a, 0x0a], .png),
  ([0xff, 0xd8, 0xff], .jpeg),
  ([0x47, 0x49, 0x46, 0x38, 0x39, 0x61], .gif),
  ([0x47, 0x49, 0x46, 0x38, 0x37, 0x61], .gif),
  ([0x4d, 0x4d, 0x00, 0x2a], .tiff),
  ([0x49, 0x49, 0x2a, 0x00], .tiff),
  ([0x44, 0x44, 0x53, 0x20], .dds),
  ([0x42, 0x4d], .bmp),
  ([0x00, 0x00, 0x01, 0x00], .ico),
  ([0x23, 0x3f, 0x52, 0x41, 0x44, 0x49, 0x41, 0x4e, 0x43, 0x45], .hdr),
  ([0x76, 0x2f, 0x31, 0x01], .openExr),
  ([0x71, 0x6f, 0x69, 0x66], .qoi),
  ([0x50, 0x31], .pnm), ([0x50, 0x32], .pnm), ([0x50, 0x33], .pnm), ([0x50, 0x34], .pnm),
  ([0x50, 0x35], .pnm), ([0x50, 0x36], .pnm), ([0x50, 0x37], .pnm),
  ([0x66, 0x61, 0x72, 0x62, 0x66, 0x65, 0x6c, 0x64], .farbfeld)]

/-- Bytes with gaps, where any byte can stand. -/
def fits : List (Option UInt8) → List UInt8 → Bool
  | [], _ => true
  | _ :: _, [] => false
  | wanted :: ws, b :: bs => (wanted.isNone || wanted == some b) && fits ws bs

/-- The bytes of a text, as a signature without gaps. -/
def solid (text : String) : List (Option UInt8) := text.toUTF8.toList.map some

/-- The first bytes of files of the formats that are a kind of container. -/
def containerSignatures : List (List (Option UInt8) × ImageFormat) := [
  (solid "RIFF" ++ [none, none, none, none] ++ solid "WEBP", .webP),
  ([some 0, some 0, none, none] ++ solid "ftypavif", .avif)]

/-- The format that the first bytes of a file tell. -/
def ImageFormat.ofBytes? (bytes : ByteArray) : Option ImageFormat :=
  let lead := bytes.data.toList.take 16
  match imageSignatures.find? fun (signature, _) => signature.isPrefixOf lead with
  | some (_, format) => some format
  | none => (containerSignatures.find? fun (signature, _) => fits signature lead).map (·.2)

/-- The format that an extension tells, in upper or lower case. -/
def ImageFormat.ofExtension? (extension : String) : Option ImageFormat :=
  match extension.toLower with
  | "png" | "apng" => some .png
  | "jpg" | "jpeg" | "jfif" => some .jpeg
  | "gif" => some .gif
  | "webp" => some .webP
  | "tif" | "tiff" => some .tiff
  | "tga" => some .tga
  | "dds" => some .dds
  | "bmp" => some .bmp
  | "ico" => some .ico
  | "hdr" => some .hdr
  | "exr" => some .openExr
  | "pbm" | "pam" | "ppm" | "pgm" | "pnm" => some .pnm
  | "ff" => some .farbfeld
  | "avif" => some .avif
  | "qoi" => some .qoi
  | "pcx" => some .pcx
  | _ => none

/-- Why an image could not be read or written. -/
inductive ImageError where
  | unknownFormat
  | unknownExtension (extension : String)
  | cannotRead (format : ImageFormat)
  | cannotWrite (format : ImageFormat)
  /-- The format cannot hold pixels of four bytes. -/
  | cannotHold (format : ImageFormat)
  | png (fault : Png.Fault)
  | radiance (fault : Radiance.Fault)
  | zeroWidth
  | zeroHeight
  deriving DecidableEq, Repr

/-- A file that is not of the format it begins like: the fault is told as the reason, and told again
with what lies behind it. -/
def malformed (format : ImageFormat) (faults : List String) : String :=
  ": ".intercalate (("Format error decoding " ++ format.name) :: faults.take 1 ++ faults)

/-- The wording of the fault. -/
def ImageError.message : ImageError → String
  | .unknownFormat => "The image format could not be determined"
  | .unknownExtension extension =>
    "The file extension \x60." ++ Text.quoted extension ++
      "\x60 was not recognized as an image format"
  | .cannotRead format => "The image format " ++ format.name ++ " is not supported"
  | .cannotWrite format => "The image format \x60" ++ format.name ++ "\x60 is not supported"
  | .cannotHold format =>
    "The encoder or decoder for " ++ format.name ++ " does not support the color type \x60Rgba8\x60"
  | .png fault =>
    if fault = .truncated || fault = .tooLarge then fault.message
    else malformed .png [fault.message]
  | .radiance fault =>
    if fault.isMalformed then malformed .hdr (fault.message :: fault.reason?.toList)
    else fault.message
  | .zeroWidth => "Zero width not allowed"
  | .zeroHeight => "Zero height not allowed"

/-- The image in a file. -/
def Image.decode (bytes : ByteArray) : Except ImageError Image :=
  match ImageFormat.ofBytes? bytes with
  | none => .error .unknownFormat
  | some .png => (Png.decode bytes).mapError .png
  | some .hdr => (Radiance.decode bytes).mapError .radiance
  | some format => .error (.cannotRead format)

/-- The format to write a file of this name in. -/
def ImageFormat.ofPath (path : FilePath) : Except ImageError ImageFormat :=
  match path.extension? with
  | none => .error .unknownFormat
  | some extension =>
    match ofExtension? extension with
    | some format => .ok format
    | none => .error (.unknownExtension extension)

/-- The file of an image in a format. -/
def Image.encode (image : Image) (format : ImageFormat) : Except ImageError ByteArray :=
  match format with
  | .png =>
    if image.width = 0 then .error .zeroWidth
    else if image.height = 0 then .error .zeroHeight
    else .ok (Png.ofImage image)
  | .hdr => .error (.cannotHold .hdr)
  | format => .error (.cannotWrite format)

end Stagehand
