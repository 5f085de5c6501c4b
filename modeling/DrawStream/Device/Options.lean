import DrawStream.Choice

/-! # The choices a graphics device offers, with the numbers it knows them by -/
namespace DrawStream

/-- What consecutive vertices form. -/
inductive DrawMode
  | points | lines | lineLoop | lineStrip | triangles | triangleStrip | triangleFan
  deriving DecidableEq, Repr

namespace DrawMode

/-- The device's number. -/
def number : DrawMode → Nat
  | points => 0
  | lines => 1
  | lineLoop => 2
  | lineStrip => 3
  | triangles => 4
  | triangleStrip => 5
  | triangleFan => 6

instance : Choice DrawMode where
  all := [.points, .lines, .lineLoop, .lineStrip, .triangles, .triangleStrip, .triangleFan]
  word
    | .points => "points"
    | .lines => "lines"
    | .lineLoop => "line_loop"
    | .lineStrip => "line_strip"
    | .triangles => "triangles"
    | .triangleStrip => "triangle_strip"
    | .triangleFan => "triangle_fan"
  label
    | .points => "Points"
    | .lines => "Lines"
    | .lineLoop => "LineLoop"
    | .lineStrip => "LineStrip"
    | .triangles => "Triangles"
    | .triangleStrip => "TriangleStrip"
    | .triangleFan => "TriangleFan"

end DrawMode

/-- How wide the indices of an index buffer are. -/
inductive IndexType
  | unsignedByte | unsignedShort | unsignedInt
  deriving DecidableEq, Repr

namespace IndexType

/-- The device's number. -/
def number : IndexType → Nat
  | unsignedByte => 0x1401
  | unsignedShort => 0x1403
  | unsignedInt => 0x1405

instance : Choice IndexType where
  all := [.unsignedByte, .unsignedShort, .unsignedInt]
  word
    | .unsignedByte => "unsigned_byte"
    | .unsignedShort => "unsigned_short"
    | .unsignedInt => "unsigned_int"
  label
    | .unsignedByte => "UnsignedByte"
    | .unsignedShort => "UnsignedShort"
    | .unsignedInt => "UnsignedInt"

end IndexType

/-- How often the contents of a buffer will change. -/
inductive BufferUsage
  | staticDraw | dynamicDraw | streamDraw
  deriving DecidableEq, Repr

namespace BufferUsage

/-- The device's number. -/
def number : BufferUsage → Nat
  | staticDraw => 0x88E4
  | dynamicDraw => 0x88E8
  | streamDraw => 0x88E0

instance : Choice BufferUsage where
  all := [.staticDraw, .dynamicDraw, .streamDraw]
  word
    | .staticDraw => "static_draw"
    | .dynamicDraw => "dynamic_draw"
    | .streamDraw => "stream_draw"
  label
    | .staticDraw => "StaticDraw"
    | .dynamicDraw => "DynamicDraw"
    | .streamDraw => "StreamDraw"

end BufferUsage

/-- What a texel is made of. -/
inductive TextureFormat
  | luminance | alpha | luminanceAlpha | rgb | rgba
  deriving DecidableEq, Repr

namespace TextureFormat

/-- The device's number. -/
def number : TextureFormat → Nat
  | luminance => 0x1909
  | alpha => 0x1906
  | luminanceAlpha => 0x190A
  | rgb => 0x1907
  | rgba => 0x1908

/-- Numbers per texel. -/
def components : TextureFormat → Nat
  | luminance | alpha => 1
  | luminanceAlpha => 2
  | rgb => 3
  | rgba => 4

instance : Choice TextureFormat where
  all := [.luminance, .alpha, .luminanceAlpha, .rgb, .rgba]
  word
    | .luminance => "luminance"
    | .alpha => "alpha"
    | .luminanceAlpha => "luminance_alpha"
    | .rgb => "rgb"
    | .rgba => "rgba"
  label
    | .luminance => "Luminance"
    | .alpha => "Alpha"
    | .luminanceAlpha => "LuminanceAlpha"
    | .rgb => "Rgb"
    | .rgba => "Rgba"

end TextureFormat

/-- How texels are combined when a texture is scaled. -/
inductive TextureFilter
  | nearest
  | linear
  | nearestMipmapNearest
  | linearMipmapNearest
  | nearestMipmapLinear
  | linearMipmapLinear
  deriving DecidableEq, Repr

namespace TextureFilter

/-- The device's number. -/
def number : TextureFilter → Nat
  | nearest => 0x2600
  | linear => 0x2601
  | nearestMipmapNearest => 0x2700
  | linearMipmapNearest => 0x2701
  | nearestMipmapLinear => 0x2702
  | linearMipmapLinear => 0x2703

instance : Choice TextureFilter where
  all := [.nearest, .linear, .nearestMipmapNearest, .linearMipmapNearest,
    .nearestMipmapLinear, .linearMipmapLinear]
  word
    | .nearest => "nearest"
    | .linear => "linear"
    | .nearestMipmapNearest => "nearest_mipmap_nearest"
    | .linearMipmapNearest => "linear_mipmap_nearest"
    | .nearestMipmapLinear => "nearest_mipmap_linear"
    | .linearMipmapLinear => "linear_mipmap_linear"
  label
    | .nearest => "Nearest"
    | .linear => "Linear"
    | .nearestMipmapNearest => "NearestMipmapNearest"
    | .linearMipmapNearest => "LinearMipmapNearest"
    | .nearestMipmapLinear => "NearestMipmapLinear"
    | .linearMipmapLinear => "LinearMipmapLinear"

end TextureFilter

/-- What lies beyond the edge of a texture. -/
inductive TextureWrap
  | «repeat» | clampToEdge | mirroredRepeat
  deriving DecidableEq, Repr

namespace TextureWrap

/-- The device's number. -/
def number : TextureWrap → Nat
  | «repeat» => 0x2901
  | clampToEdge => 0x812F
  | mirroredRepeat => 0x8370

instance : Choice TextureWrap where
  all := [.«repeat», .clampToEdge, .mirroredRepeat]
  word
    | .«repeat» => "repeat"
    | .clampToEdge => "clamp_to_edge"
    | .mirroredRepeat => "mirrored_repeat"
  label
    | .«repeat» => "Repeat"
    | .clampToEdge => "ClampToEdge"
    | .mirroredRepeat => "MirroredRepeat"

end TextureWrap

/-- The two stages of a program. -/
inductive Stage
  | vertex | fragment
  deriving DecidableEq, Repr

namespace Stage

/-- The device's number. -/
def number : Stage → Nat
  | vertex => 0x8B31
  | fragment => 0x8B30

instance : Choice Stage where
  all := [.vertex, .fragment]
  word
    | .vertex => "vertex"
    | .fragment => "fragment"
  label
    | .vertex => "Vertex"
    | .fragment => "Fragment"

end Stage

/-- The two places a buffer is bound to. -/
inductive BufferTarget
  | array | elements
  deriving DecidableEq, Repr

namespace BufferTarget

/-- The device's number. -/
def number : BufferTarget → Nat
  | array => 0x8892
  | elements => 0x8893

/-- The name in descriptions. -/
def label : BufferTarget → String
  | array => "Array"
  | elements => "ElementArray"

end BufferTarget
end DrawStream
