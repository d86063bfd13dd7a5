/-!
# Places in a text

A place is what is left of a text, with the line and the column where it starts. The text breaks
into lines at a carriage return, a line feed, both together, a next-line character, and a line or
paragraph separator.
-/

namespace TableCapture.Yaml

/-- Whether a character is a blank. -/
def isBlank (c : Char) : Bool :=
  c = ' ' || c = '\t'

/-- Whether a line ends at a character. -/
def isBreak (c : Char) : Bool :=
  c = '\n' || c = '\r' || c = '\x85' || c = '\u2028' || c = '\u2029'

/-- The character that a line break stands for in a value. -/
def breakChar (c : Char) : Char :=
  if c = '\u2028' ∨ c = '\u2029' then c else '\n'

/-- Whether a text is over or goes on with a blank or a line break. -/
def atGap : List Char → Bool
  | [] => true
  | c :: _ => isBlank c || isBreak c

/-- Whether a line is over. -/
def atLineEnd : List Char → Bool
  | [] => true
  | c :: _ => isBreak c

/-- Whether a character may stand in a name. -/
def isNameChar (c : Char) : Bool :=
  c.isAlphanum || c = '_' || c = '-'

/-- Whether a character may stand in a text at all. -/
def isAllowed (c : Char) : Bool :=
  let n := c.toNat
  n = 0x9 || n = 0xA || n = 0xD || (0x20 ≤ n && n ≤ 0x7E) || n = 0x85 ||
    (0xA0 ≤ n && n ≤ 0xFFFD) || 0x10000 ≤ n

/-- What is left of a text, and where it starts. -/
structure Place where
  rest : List Char
  line : Nat
  column : Nat
  /-- The number of bytes before it. -/
  offset : Nat
deriving Inhabited

namespace Place

/-- The start of a text. -/
def start (cs : List Char) : Place :=
  ⟨cs, 0, 0, 0⟩

/-- The place after one character. A carriage return and a line feed count as one. -/
def next (p : Place) : Place :=
  match p.rest with
  | [] => p
  | '\r' :: '\n' :: cs => ⟨cs, p.line + 1, 0, p.offset + 2⟩
  | c :: cs =>
    if isBreak c then ⟨cs, p.line + 1, 0, p.offset + c.utf8Size⟩
    else ⟨cs, p.line, p.column + 1, p.offset + c.utf8Size⟩

/-- The place after `n` characters. -/
def skip (p : Place) : Nat → Place
  | 0 => p
  | n + 1 => p.next.skip n

/-- The characters up to the first one that does not meet a condition, and the place of it. The
condition must not hold of line breaks. -/
def takeWhile (p : Place) (f : Char → Bool) : List Char × Place :=
  let cs := p.rest.takeWhile f
  (cs, p.skip cs.length)

/-- The place of the first character that does not meet a condition. -/
def dropWhile (p : Place) (f : Char → Bool) : Place :=
  (p.takeWhile f).2

/-- Whether a line starts here with three equal characters that mark the start or the end of a
document. -/
def atMark (p : Place) (c : Char) : Bool :=
  p.column = 0 && p.rest.take 3 = [c, c, c] && atGap (p.rest.drop 3)

/-- Whether a document starts or ends here. -/
def atDocumentMark (p : Place) : Bool :=
  p.atMark '-' || p.atMark '.'

end Place

end TableCapture.Yaml
