import DrawStream.Text.Utf8

/-! # Reading what was encoded

The encoding of a character is one sequence: its leading byte announces as many continuation
bytes as follow, and it is for this that `Lead.ofByte?` tells the leading bytes apart.  The two
that could lead an overlong form ask for a second byte that rules it out, and a code point that
needs the length brings such a byte; the one that could lead a surrogate is no danger to a
character, and the one that could go beyond the last code point ends where that one does.  So
bytes that are encodings are read character by character, none of them a flaw, and what was
encoded comes back, with or without replacements (`lossy_encode`, `decode?_encode`). -/
namespace DrawStream.Text.Utf8

theorem toNat_ofNat_of_lt {n : Nat} (h : n < 256) : (UInt8.ofNat n).toNat = n := by
  rw [UInt8.toNat_ofNat', Nat.mod_eq_of_lt h]

/-- With nothing announced any more, the code point is there. -/
theorem follow_complete {bits v : Nat} (h : bits = v) (rest : List UInt8) :
    follow { bits, count := 0 } rest = (some v, rest) := by
  cases rest <;> simp [follow, h]

/-- A continuation byte adds six bits. -/
theorem follow_continuation {lead : Lead} {n d : Nat} (hcount : lead.count = n + 1) (hd : d < 64)
    (hleast : lead.least.toNat ≤ d + 128) (hgreatest : d + 128 ≤ lead.greatest.toNat)
    (rest : List UInt8) :
    follow lead (UInt8.ofNat (d + 128) :: rest) =
      follow { bits := lead.bits * 64 + d, count := n } rest := by
  have hbyte : (UInt8.ofNat (d + 128)).toNat = d + 128 := toNat_ofNat_of_lt (by omega)
  have hwithin : lead.least ≤ UInt8.ofNat (d + 128) ∧ UInt8.ofNat (d + 128) ≤ lead.greatest := by
    simp only [UInt8.le_iff_toNat_le, hbyte]
    exact ⟨hleast, hgreatest⟩
  rw [follow, if_neg (by omega), if_pos hwithin, hbyte, hcount]
  simp only [Nat.add_sub_cancel]

/-- A further continuation byte may be any. -/
theorem follow_any {bits n d : Nat} (hd : d < 64) (rest : List UInt8) :
    follow { bits, count := n + 1 } (UInt8.ofNat (d + 128) :: rest) =
      follow { bits := bits * 64 + d, count := n } rest :=
  follow_continuation rfl hd (by simp) (by simp; omega) rest

theorem sequence_of_follow {b : UInt8} {lead : Lead} {code : Nat} {bytes rest : List UInt8}
    (hlead : Lead.ofByte? b = some lead) (hfollow : follow lead bytes = (some code, rest)) :
    sequence b bytes = (some (Char.ofNat code), rest) := by
  simp only [sequence, hlead, hfollow, Option.map_some]

theorem sequence_one {v : Nat} (h : v ≤ 0x7F) (rest : List UInt8) :
    sequence (UInt8.ofNat v) rest = (some (Char.ofNat v), rest) := by
  have hbyte : (UInt8.ofNat v).toNat = v := toNat_ofNat_of_lt (by omega)
  have hlead : Lead.ofByte? (UInt8.ofNat v) = some { bits := v, count := 0 } := by
    simp only [Lead.ofByte?, hbyte]
    exact if_pos (by omega)
  exact sequence_of_follow hlead (follow_complete rfl rest)

theorem sequence_two {v : Nat} (hleast : 0x7F < v) (hgreatest : v ≤ 0x7FF) (rest : List UInt8) :
    sequence (UInt8.ofNat (v / 64 % 32 + 192)) (UInt8.ofNat (v % 64 + 128) :: rest) =
      (some (Char.ofNat v), rest) := by
  have hbyte : (UInt8.ofNat (v / 64 % 32 + 192)).toNat = v / 64 + 192 := by
    rw [toNat_ofNat_of_lt (by omega)]
    omega
  have hlead : Lead.ofByte? (UInt8.ofNat (v / 64 % 32 + 192)) =
      some { bits := v / 64, count := 1 } := by
    simp only [Lead.ofByte?, hbyte]
    rw [if_neg (by omega), if_neg (by omega), if_pos (by omega), Nat.add_sub_cancel]
  refine sequence_of_follow hlead ?_
  rw [follow_any (by omega)]
  exact follow_complete (by omega) rest

/-- The leading byte of three announces the first four bits, and keeps to the code points that
take three bytes and are no surrogates. -/
theorem ofByte?_three {v : Nat} (hleast : 0x7FF < v) (hgreatest : v ≤ 0xFFFF)
    (hscalar : v < 0xD800 ∨ 0xDFFF < v) :
    ∃ lead, Lead.ofByte? (UInt8.ofNat (v / 4096 % 16 + 224)) = some lead ∧
      lead.bits = v / 4096 ∧ lead.count = 2 ∧ lead.least.toNat ≤ v / 64 % 64 + 128 ∧
      v / 64 % 64 + 128 ≤ lead.greatest.toNat := by
  have hbyte : (UInt8.ofNat (v / 4096 % 16 + 224)).toNat = v / 4096 + 224 := by
    rw [toNat_ofNat_of_lt (by omega)]
    omega
  simp only [Lead.ofByte?, hbyte]
  rw [if_neg (by omega), if_neg (by omega), if_neg (by omega)]
  split
  · exact ⟨_, rfl, by simp; omega, rfl, by simp; omega, by simp; omega⟩
  · split
    · exact ⟨_, rfl, by simp; omega, rfl, by simp, by simp; omega⟩
    · rw [if_pos (by omega)]
      exact ⟨_, rfl, by simp, rfl, by simp, by simp; omega⟩

theorem sequence_three {v : Nat} (hleast : 0x7FF < v) (hgreatest : v ≤ 0xFFFF)
    (hscalar : v < 0xD800 ∨ 0xDFFF < v) (rest : List UInt8) :
    sequence (UInt8.ofNat (v / 4096 % 16 + 224))
        (UInt8.ofNat (v / 64 % 64 + 128) :: UInt8.ofNat (v % 64 + 128) :: rest) =
      (some (Char.ofNat v), rest) := by
  obtain ⟨lead, hlead, hbits, hcount, hlow, hhigh⟩ := ofByte?_three hleast hgreatest hscalar
  refine sequence_of_follow hlead ?_
  rw [follow_continuation hcount (by omega) hlow hhigh, follow_any (by omega)]
  exact follow_complete (by omega) rest

/-- The leading byte of four announces the first three bits, and keeps to the code points that
take four bytes. -/
theorem ofByte?_four {v : Nat} (hleast : 0xFFFF < v) (hgreatest : v < 0x110000) :
    ∃ lead, Lead.ofByte? (UInt8.ofNat (v / 262144 % 8 + 240)) = some lead ∧
      lead.bits = v / 262144 ∧ lead.count = 3 ∧ lead.least.toNat ≤ v / 4096 % 64 + 128 ∧
      v / 4096 % 64 + 128 ≤ lead.greatest.toNat := by
  have hbyte : (UInt8.ofNat (v / 262144 % 8 + 240)).toNat = v / 262144 + 240 := by
    rw [toNat_ofNat_of_lt (by omega)]
    omega
  simp only [Lead.ofByte?, hbyte]
  rw [if_neg (by omega), if_neg (by omega), if_neg (by omega), if_neg (by omega),
    if_neg (by omega), if_neg (by omega)]
  split
  · exact ⟨_, rfl, by simp; omega, rfl, by simp; omega, by simp; omega⟩
  · split
    · exact ⟨_, rfl, by simp, rfl, by simp, by simp; omega⟩
    · rw [if_pos (by omega)]
      exact ⟨_, rfl, by simp; omega, rfl, by simp, by simp; omega⟩

theorem sequence_four {v : Nat} (hleast : 0xFFFF < v) (hgreatest : v < 0x110000)
    (rest : List UInt8) :
    sequence (UInt8.ofNat (v / 262144 % 8 + 240))
        (UInt8.ofNat (v / 4096 % 64 + 128) :: UInt8.ofNat (v / 64 % 64 + 128) ::
          UInt8.ofNat (v % 64 + 128) :: rest) =
      (some (Char.ofNat v), rest) := by
  obtain ⟨lead, hlead, hbits, hcount, hlow, hhigh⟩ := ofByte?_four hleast hgreatest
  refine sequence_of_follow hlead ?_
  rw [follow_continuation hcount (by omega) hlow hhigh, follow_any (by omega),
    follow_any (by omega)]
  exact follow_complete (by omega) rest

theorem pieces_cons_of_sequence {b : UInt8} {bytes rest : List UInt8} {piece : Option Char}
    (h : sequence b bytes = (piece, rest)) : pieces (b :: bytes) = piece :: pieces rest := by
  rw [pieces, h]

/-- An encoded character is read as one piece. -/
theorem pieces_utf8EncodeChar_append (c : Char) (rest : List UInt8) :
    pieces (String.utf8EncodeChar c ++ rest) = some c :: pieces rest := by
  have hvalid : c.val.toNat < 0xD800 ∨ 0xDFFF < c.val.toNat ∧ c.val.toNat < 0x110000 := c.valid
  have hc : Char.ofNat c.val.toNat = c := Char.ofNat_toNat c
  generalize hv : c.val.toNat = v at hvalid hc
  simp only [String.utf8EncodeChar, hv]
  rw [← hc]
  split
  case isTrue h => exact pieces_cons_of_sequence (sequence_one h rest)
  case isFalse h1 =>
    split
    case isTrue h => exact pieces_cons_of_sequence (sequence_two (by omega) h rest)
    case isFalse h2 =>
      split
      case isTrue h => exact pieces_cons_of_sequence (sequence_three (by omega) h (by omega) rest)
      case isFalse h3 =>
        exact pieces_cons_of_sequence (sequence_four (by omega) (by omega) rest)

theorem pieces_flatMap_utf8EncodeChar (cs : List Char) :
    pieces (cs.flatMap String.utf8EncodeChar) = cs.map some := by
  induction cs with
  | nil => rw [List.flatMap_nil, pieces, List.map_nil]
  | cons c cs ih => rw [List.flatMap_cons, pieces_utf8EncodeChar_append, ih, List.map_cons]

theorem pieces_encode (s : String) : pieces (encode s) = s.toList.map some :=
  pieces_flatMap_utf8EncodeChar s.toList

/-- **What was encoded is read again**, also where flaws would be replaced. -/
theorem lossy_encode (s : String) : lossy (encode s) = s := by
  rw [lossy, pieces_encode, List.map_map]
  have hid : ((·.getD replacement) ∘ some : Char → Char) = id := rfl
  rw [hid, List.map_id, String.ofList_toList]

theorem decode?_encode (s : String) : decode? (encode s) = some s := by
  have hall (cs : List Char) : (cs.map some).mapM id = some cs := by
    induction cs with
    | nil => rfl
    | cons c cs ih => simp [ih]
  rw [decode?, pieces_encode, hall, Option.map_some, String.ofList_toList]

end DrawStream.Text.Utf8
