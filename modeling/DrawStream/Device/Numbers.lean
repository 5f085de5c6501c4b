/-! # Numbers of the graphics interface that are not choices of a caller -/
namespace DrawStream.Device

/-- The answer of a device that has no error to report. -/
def noError : Nat := 0

/-- The two-dimensional texture target. -/
def texture2D : Nat := 0x0DE1

/-- Texture parameter: filter when a texture is magnified. -/
def magFilter : Nat := 0x2800

/-- Texture parameter: filter when a texture is shrunk. -/
def minFilter : Nat := 0x2801

/-- Texture parameter: what lies beyond the left and right edge. -/
def wrapS : Nat := 0x2802

/-- Texture parameter: what lies beyond the lower and upper edge. -/
def wrapT : Nat := 0x2803

/-- Storage parameter: alignment of the rows of uploaded texels. -/
def unpackAlignment : Nat := 0x0CF5

end DrawStream.Device
