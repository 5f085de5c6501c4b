import DrawStream.Record
import DrawStream.Device.Options

/-! # Parts of commands that have several forms

Each of these parts is a union: its forms carry no name in command text, and the
first form that a value fits is taken. -/
namespace DrawStream.Command

/-- The number by which a sender addresses an object. -/
abbrev Id := Word .u32

/-- A size, an offset or a count. -/
abbrev Count := Word .size

/-- The storage asked for an object. -/
inductive Storage
  | bytes (n : Count)
  /-- Height and width. -/
  | texture (shape : Count × Count) (format : TextureFormat)
  deriving DecidableEq

namespace Storage

/-- The fields of texture storage. -/
def textureFields : List Field :=
  [.required "shape" (Count × Count), .plainChoice "format" TextureFormat]

instance : Codec Storage where
  read := Codec.firstOf "StorageSize" [
    fun v => bytes <$> Codec.read v,
    fun v => (fun (shape, format, ()) => texture shape format) <$> Slots.ofObject textureFields v]
  encode number
    | bytes n => Codec.encode number n
    | texture shape format => .object (Slots.encode number textureFields (shape, format, ()))
  describe
    | bytes n => "Bytes(" ++ Codec.describe n ++ ")"
    | texture shape format => Slots.describeAs "Texture" textureFields (shape, format, ())

end Storage

/-- Where uploaded data goes. -/
inductive Offset
  /-- A byte of a buffer. -/
  | linear (n : Count)
  /-- A texel: row and column. -/
  | texel (place : Count × Count)
  deriving DecidableEq

namespace Offset

/-- The beginning of a buffer or texture. -/
def start : Offset := linear (.zero _)

instance : Codec Offset where
  read := Codec.firstOf "DataOffset" [
    fun v => linear <$> Codec.read v,
    fun v => texel <$> Codec.read v]
  encode number
    | linear n => Codec.encode number n
    | texel place => Codec.encode number place
  describe
    | linear n => "Linear(" ++ Codec.describe n ++ ")"
    | texel place => "Texel(" ++ Codec.describe place ++ ")"

end Offset

/-- Where an attribute takes its numbers from. -/
inductive Source
  | buffer (buffer : Id) (stride : Word .i32) (offset : Count)
  | constant (values : List Single)
  deriving DecidableEq

namespace Source

/-- The fields of a source in a buffer. -/
def bufferFields : List Field :=
  [.required "buffer" Id, .required "stride" (Word .i32), .required "offset" Count]

instance : Codec Source where
  read := Codec.firstOf "AttributeSource" [
    fun v => (fun (id, stride, offset, ()) => buffer id stride offset) <$>
      Slots.ofObject bufferFields v,
    fun v => constant <$> Codec.read v]
  encode number
    | buffer id stride offset =>
      .object (Slots.encode number bufferFields (id, stride, offset, ()))
    | constant values => Codec.encode number values
  describe
    | buffer id stride offset => Slots.describeAs "Buffer" bufferFields (id, stride, offset, ())
    | constant values => "Constant(" ++ Codec.describe values ++ ")"

end Source

/-- Which vertices are drawn. -/
inductive Selection
  | elements (indices : Id) (type : IndexType) (count : Count)
  | range (first count : Count)
  deriving DecidableEq

namespace Selection

/-- The fields of a selection by indices. -/
def elementFields : List Field :=
  [.required "index_buffer" Id, .plainChoice "index_type" IndexType, .required "count" Count]

/-- The fields of a selection of consecutive vertices. -/
def rangeFields : List Field := [.required "first" Count, .required "count" Count]

instance : Codec Selection where
  read := Codec.firstOf "DrawSelection" [
    fun v => (fun (id, type, count, ()) => elements id type count) <$>
      Slots.ofObject elementFields v,
    fun v => (fun (first, count, ()) => range first count) <$> Slots.ofObject rangeFields v]
  encode number
    | elements id type count =>
      .object (Slots.encode number elementFields (id, type, count, ()))
    | range first count => .object (Slots.encode number rangeFields (first, count, ()))
  describe
    | elements id type count => Slots.describeAs "Elements" elementFields (id, type, count, ())
    | range first count => Slots.describeAs "Range" rangeFields (first, count, ())

end Selection
end DrawStream.Command
