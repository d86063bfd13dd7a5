/-!
# Tokens

A text is cut into tokens. Besides the signs and scalars that are written there are tokens for
what the indentation says: where a block of lines starts and ends, and where a key starts.
-/

namespace TableCapture.Yaml

/-- How a scalar is written. -/
inductive ScalarStyle where
  | plain
  | quoted
  /-- A block whose line breaks count. -/
  | literal
  /-- A block whose single line breaks count as spaces. -/
  | folded
deriving DecidableEq, Repr, Inhabited

/-- A token. Texts of tags are written octet by octet. -/
inductive Token where
  /-- The version that a text claims to be written in. -/
  | version (major minor : Nat)
  /-- The declaration that a handle stands for the start of a tag. -/
  | tagHandle (handle start : String)
  | documentStart
  | documentEnd
  | blockSequenceStart
  | blockMappingStart
  | blockEnd
  | flowSequenceStart
  | flowSequenceEnd
  | flowMappingStart
  | flowMappingEnd
  | blockEntry
  | flowEntry
  | key
  | value
  | alias (name : String)
  | anchor (name : String)
  /-- A tag with the handle that it uses, which is empty if it uses none. -/
  | tag (handle rest : String)
  | scalar (style : ScalarStyle) (text : String)
deriving DecidableEq, Repr, Inhabited

end TableCapture.Yaml
