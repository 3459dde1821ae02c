/-!
# Byte offsets

Positions in a source count the bytes of its UTF-8 form.
-/

namespace Formula

/-- The number of bytes that characters take. -/
def byteLength : List Char → Nat
  | [] => 0
  | c :: rest => c.utf8Size + byteLength rest

@[simp] theorem byteLength_nil : byteLength [] = 0 := rfl

@[simp] theorem byteLength_cons (c : Char) (rest : List Char) :
    byteLength (c :: rest) = c.utf8Size + byteLength rest := rfl

@[simp] theorem byteLength_append (front back : List Char) :
    byteLength (front ++ back) = byteLength front + byteLength back := by
  induction front with
  | nil => simp
  | cons c front induction => simp [induction, Nat.add_assoc]

/-- The characters before a byte offset, or nothing if the offset lies inside a
character or beyond the end. -/
def charactersBefore? : List Char → Nat → Option (List Char)
  | _, 0 => some []
  | [], _ + 1 => none
  | c :: rest, offset =>
    if c.utf8Size ≤ offset then
      (charactersBefore? rest (offset - c.utf8Size)).map (c :: ·)
    else none

end Formula
