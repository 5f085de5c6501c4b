import DrawStream.Choice

/-! # The kinds of objects that commands create -/
namespace DrawStream

/-- The kinds of objects. -/
inductive ObjectKind
  | vertexBuffer | indexBuffer | texture | program
  deriving DecidableEq, Repr

namespace ObjectKind

/-- The kind as messages call it. -/
def noun : ObjectKind → String
  | vertexBuffer => "vertex buffer"
  | indexBuffer => "index buffer"
  | texture => "texture"
  | program => "program"

/-- Command text and descriptions use the same name. -/
def name : ObjectKind → String
  | vertexBuffer => "VertexBuffer"
  | indexBuffer => "IndexBuffer"
  | texture => "Texture2D"
  | program => "Program"

instance : Choice ObjectKind where
  all := [.vertexBuffer, .indexBuffer, .texture, .program]
  word := name
  label := name

end ObjectKind
end DrawStream
