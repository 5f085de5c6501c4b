/-! # UTF-8

Bytes are read from the front, one sequence after the other.  A sequence is a leading
byte with the continuation bytes that it announces; `Lead.ofByte?` says how many these
are and which bytes may come first among them, so that neither overlong forms nor
surrogates nor numbers beyond the last code point are sequences.  A leading byte whose
sequence breaks off is a flaw together with the continuation bytes that did fit, and
so is any byte that leads nothing; reading goes on behind the flaw. -/
namespace DrawStream.Text.Utf8

/-- What a leading byte announces. -/
structure Lead where
  /-- The bits of the code point that the leading byte holds. -/
  bits : Nat
  /-- How many continuation bytes follow. -/
  count : Nat
  /-- The least continuation byte that may follow at once. -/
  least : UInt8 := 0x80
  /-- The greatest continuation byte that may follow at once. -/
  greatest : UInt8 := 0xBF

/-- What a byte announces, if it can lead a sequence. -/
def Lead.ofByte? (b : UInt8) : Option Lead :=
  let n := b.toNat
  if n < 0x80 then some { bits := n, count := 0 }
  else if n < 0xC2 then none
  else if n < 0xE0 then some { bits := n - 0xC0, count := 1 }
  else if n = 0xE0 then some { bits := 0, count := 2, least := 0xA0 }
  else if n = 0xED then some { bits := 0xD, count := 2, greatest := 0x9F }
  else if n < 0xF0 then some { bits := n - 0xE0, count := 2 }
  else if n = 0xF0 then some { bits := 0, count := 3, least := 0x90 }
  else if n < 0xF4 then some { bits := n - 0xF0, count := 3 }
  else if n = 0xF4 then some { bits := 4, count := 3, greatest := 0x8F }
  else none

/-- Reads what a leading byte has announced: the code point, or nothing for a flaw, and
the bytes behind it. -/
def follow (lead : Lead) : List UInt8 → Option Nat × List UInt8
  | [] => if lead.count = 0 then (some lead.bits, []) else (none, [])
  | b :: rest =>
    if lead.count = 0 then (some lead.bits, b :: rest)
    else if lead.least ≤ b ∧ b ≤ lead.greatest then
      follow { bits := lead.bits * 64 + (b.toNat - 0x80), count := lead.count - 1 } rest
    else (none, b :: rest)

theorem length_follow_le (lead : Lead) (bytes : List UInt8) :
    (follow lead bytes).2.length ≤ bytes.length := by
  induction bytes generalizing lead with
  | nil => unfold follow; split <;> simp
  | cons b rest ih =>
    unfold follow
    split
    · exact Nat.le_refl _
    · split
      · exact Nat.le_succ_of_le (ih _)
      · exact Nat.le_refl _

/-- Reads the sequence that `b` leads. -/
def sequence (b : UInt8) (rest : List UInt8) : Option Char × List UInt8 :=
  match Lead.ofByte? b with
  | none => (none, rest)
  | some lead =>
    let (code, rest) := follow lead rest
    (code.map Char.ofNat, rest)

theorem length_sequence_le (b : UInt8) (rest : List UInt8) :
    (sequence b rest).2.length ≤ rest.length := by
  unfold sequence
  split
  · exact Nat.le_refl _
  · exact length_follow_le _ _

/-- The characters of bytes; a flaw is no character. -/
def pieces : List UInt8 → List (Option Char)
  | [] => []
  | b :: rest =>
    have := length_sequence_le b rest
    (sequence b rest).1 :: pieces (sequence b rest).2
termination_by bytes => bytes.length
decreasing_by simp only [List.length_cons]; omega

/-- The character that stands for a flaw. -/
def replacement : Char := '\uFFFD'

/-- The text of bytes, with a replacement character for each flaw. -/
def lossy (bytes : List UInt8) : String :=
  String.ofList ((pieces bytes).map (·.getD replacement))

/-- The text of bytes without a flaw. -/
def decode? (bytes : List UInt8) : Option String :=
  ((pieces bytes).mapM id).map String.ofList

/-- The bytes of a text. -/
def encode (s : String) : List UInt8 := s.toList.flatMap String.utf8EncodeChar

end DrawStream.Text.Utf8
