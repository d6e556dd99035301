/-!
# Blanks

The characters with the property `White_Space`, and cutting them off at both ends of a text.
-/

namespace TransferLoad.Text

def isBlank (c : Char) : Bool :=
  let n := c.toNat
  (9 ≤ n && n ≤ 13) || n = 32 || n = 0x85 || n = 0xA0 || n = 0x1680 ||
    (0x2000 ≤ n && n ≤ 0x200A) || n = 0x2028 || n = 0x2029 || n = 0x202F || n = 0x205F || n = 0x3000

def trimStart (chars : List Char) : List Char := chars.dropWhile isBlank

def trimEnd (chars : List Char) : List Char := (chars.reverse.dropWhile isBlank).reverse

def trim (chars : List Char) : List Char := trimEnd (trimStart chars)

def dropRepeated (start chars : List Char) : List Char :=
  if _h : start ≠ [] ∧ start.isPrefixOf chars then dropRepeated start (chars.drop start.length)
  else chars
termination_by chars.length
decreasing_by
  have hstart : 0 < start.length := List.length_pos_iff.mpr _h.1
  have hle := (List.isPrefixOf_iff_prefix.mp _h.2).length_le
  simp only [List.length_drop]
  omega

end TransferLoad.Text
