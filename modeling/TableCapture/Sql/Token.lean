/-!
# Tokens

A definition text is a list of tokens: blanks and comments, words, numbers, texts in quotes,
brackets, separators and operators. A word in backticks is never a keyword.
-/

namespace TableCapture.Sql

/-- A word. -/
structure Word where
  value : String
  /-- Whether the word stands in backticks. -/
  quoted : Bool
deriving DecidableEq, Repr, Inhabited

namespace Word

/-- The word as it is shown. A backtick inside a quoted word is shown once. -/
def display (w : Word) : String :=
  if w.quoted then "`" ++ w.value ++ "`" else w.value

/-- Whether a word is spelled so, in ASCII letters of either case and without backticks. -/
def spells (w : Word) (upper : String) : Bool :=
  !w.quoted && w.value.toList.map Char.toUpper == upper.toList

/-- The capital form of a character, where it has one in ASCII letters. -/
def capital (c : Char) : List Char :=
  if c = 'ı' then ['I']
  else if c = 'ſ' then ['S']
  else if c = 'ß' then ['S', 'S']
  else if c = 'ﬀ' then ['F', 'F']
  else if c = 'ﬁ' then ['F', 'I']
  else if c = 'ﬂ' then ['F', 'L']
  else if c = 'ﬃ' then ['F', 'F', 'I']
  else if c = 'ﬄ' then ['F', 'F', 'L']
  else if c = 'ﬅ' then ['S', 'T']
  else if c = 'ﬆ' then ['S', 'T']
  else [c.toUpper]

/-- Whether a word is a keyword: its capital form is, and it does not stand in backticks. -/
def isKeyword (w : Word) (keyword : String) : Bool :=
  !w.quoted && w.value.toList.flatMap capital == keyword.toList

end Word

/-- The kinds of texts in quotes. -/
inductive TextKind where
  | single
  | double
  /-- A national text, `N'…'`. -/
  | national
  /-- A text with escapes, `E'…'`. -/
  | escaped
  /-- Hexadecimal digits, `X'…'`. -/
  | hex
deriving DecidableEq, Repr, Inhabited

/-- What stands before and after a text of a kind. -/
def TextKind.quotes : TextKind → String × String
  | single => ("'", "'")
  | double => ("\"", "\"")
  | national => ("N'", "'")
  | escaped => ("E'", "'")
  | hex => ("X'", "'")

/-- Operators and other signs. -/
inductive Operator where
  | spaceship | longArrow | hashLongArrow | notRegexFold | cubeRoot
  | lessEqual | notEqual | bangEqual | shiftLeft | containedIn | greaterEqual | shiftRight
  | arrow | hashArrow | hashMinus | doubleColon | fatArrow | doubleBang | notRegex | regexFold
  | squareRoot | concat
  | equal | less | greater | plus | minus | times | divide | modulo | bar | caret | ampersand
  | colon | backslash | leftBracket | rightBracket | leftBrace | rightBrace | bang | tilde | hash
deriving DecidableEq, Repr, Inhabited

namespace Operator

/-- The characters of an operator. -/
def source : Operator → String
  | spaceship => "<=>" | longArrow => "->>" | hashLongArrow => "#>>" | notRegexFold => "!~*"
  | cubeRoot => "||/"
  | lessEqual => "<=" | notEqual => "<>" | bangEqual => "!=" | shiftLeft => "<<"
  | containedIn => "<@" | greaterEqual => ">=" | shiftRight => ">>"
  | arrow => "->" | hashArrow => "#>" | hashMinus => "#-" | doubleColon => "::"
  | fatArrow => "=>" | doubleBang => "!!" | notRegex => "!~" | regexFold => "~*"
  | squareRoot => "|/" | concat => "||"
  | equal => "=" | less => "<" | greater => ">" | plus => "+" | minus => "-" | times => "*"
  | divide => "/" | modulo => "%" | bar => "|" | caret => "^" | ampersand => "&"
  | colon => ":" | backslash => "\\" | leftBracket => "[" | rightBracket => "]"
  | leftBrace => "\x7b" | rightBrace => "\x7d" | bang => "!" | tilde => "~" | hash => "#"

/-- Every operator, longer ones first. -/
def all : List Operator := [
  spaceship, longArrow, hashLongArrow, notRegexFold, cubeRoot,
  lessEqual, notEqual, bangEqual, shiftLeft, containedIn, greaterEqual, shiftRight,
  arrow, hashArrow, hashMinus, doubleColon, fatArrow, doubleBang, notRegex, regexFold,
  squareRoot, concat,
  equal, less, greater, plus, minus, times, divide, modulo, bar, caret, ampersand,
  colon, backslash, leftBracket, rightBracket, leftBrace, rightBrace, bang, tilde, hash]

/-- The operator as it is shown. There are two spellings of "not equal", and one is shown. -/
def display : Operator → String
  | bangEqual => notEqual.source
  | o => o.source

end Operator

/-- A token. -/
inductive Token where
  /-- Blanks or a comment. -/
  | blank
  | word (w : Word)
  /-- A number as it is written, and whether an `L` follows it. -/
  | number (digits : String) (long : Bool)
  /-- A text in quotes, its escapes resolved. -/
  | text (kind : TextKind) (value : String)
  /-- A question mark with a number. -/
  | placeholder (name : String)
  | leftParen
  | rightParen
  | comma
  | period
  | semicolon
  | operator (o : Operator)
  /-- Any other character. -/
  | other (c : Char)
deriving DecidableEq, Repr, Inhabited

namespace Token

/-- The token as it is shown. Quotes inside a text are shown once. -/
def display : Token → String
  | blank => " "
  | word w => w.display
  | number digits long => if long then digits ++ "L" else digits
  | text kind value => kind.quotes.1 ++ value ++ kind.quotes.2
  | placeholder name => name
  | leftParen => "("
  | rightParen => ")"
  | comma => ","
  | period => "."
  | semicolon => ";"
  | operator o => o.display
  | other c => String.singleton c

/-- The token of a keyword. -/
def ofKeyword (k : String) : Token :=
  .word ⟨k, false⟩

/-- Whether a token is a word spelled so, in ASCII letters of either case. -/
def spells (t : Token) (upper : String) : Bool :=
  match t with
  | word w => w.spells upper
  | _ => false

/-- Whether a token is a keyword. -/
def isKeyword (t : Token) (keyword : String) : Bool :=
  match t with
  | word w => w.isKeyword keyword
  | _ => false

/-- Whether a token is a word. -/
def isWord : Token → Bool
  | word _ => true
  | _ => false

/-- The name that a token gives: a word, also a keyword, or a text in plain quotes. -/
def name? : Token → Option String
  | word w => some w.value
  | text .single s | text .double s => some s
  | _ => none

end Token

end TableCapture.Sql
