import TableCapture.Sql.Token
import TableCapture.Text.Alphabetic
import TableCapture.Text.Backtick
import TableCapture.Text.Numeric

/-!
# Reading tokens

`Token.scan` cuts a text into its tokens. It fails only where a text, a quoted word or a comment
is not closed. Each token is the longest that stands at its place.
-/

namespace TableCapture.Sql.Token

/-- Whether a word can start with a character. Beyond ASCII and up to U+FFFF any character will do;
further on only alphabetic ones. -/
def isWordStart (c : Char) : Bool :=
  c.isAlpha || c = '_' || c = '$' || c = '@' || (0x80 ≤ c.toNat && c.toNat ≤ 0xFFFF) ||
    Text.isHighAlphabetic c

/-- Whether a word can go on with a character. -/
def isWordPart (c : Char) : Bool :=
  isWordStart c || c.isDigit

/-- Whether a character is a hexadecimal digit. -/
def isHexDigit (c : Char) : Bool :=
  c.isDigit || ('a' ≤ c && c ≤ 'f') || ('A' ≤ c && c ≤ 'F')

/-! ## Texts -/

/-- What a character after a backslash stands for in a text. -/
def unescape (c : Char) : Char :=
  if c = '0' then '\x00'
  else if c = 'b' then '\x08'
  else if c = 'n' then '\n'
  else if c = 'r' then '\r'
  else if c = 't' then '\t'
  else if c = 'Z' then '\x1a'
  else c

/-- The value of a text whose opening quote `q` has been passed, and what follows its closing
quote. A doubled quote is one quote, and a backslash escapes any character. -/
def textBody (q : Char) : List Char → Option (List Char × List Char)
  | [] => none
  | '\\' :: c :: cs => (textBody q cs).map fun (s, rest) => (unescape c :: s, rest)
  | ['\\'] => none
  | [c] => if c = q then some ([], []) else none
  | c :: d :: cs =>
    if c = q then
      if d = q then (textBody q cs).map fun (s, rest) => (q :: s, rest)
      else some ([], d :: cs)
    else (textBody q (d :: cs)).map fun (s, rest) => (c :: s, rest)

/-- The value of an `E'…'` text whose opening quote has been passed. A backslash before `n`, `r`
or `t` gives the control character; before any other it is left out. -/
def escapedBody : List Char → Option (List Char × List Char)
  | [] => none
  | '\\' :: c :: cs =>
    let e := if c = 'n' then '\n' else if c = 'r' then '\r' else if c = 't' then '\t' else c
    (escapedBody cs).map fun (s, rest) => (e :: s, rest)
  | '\'' :: '\'' :: cs => (escapedBody cs).map fun (s, rest) => ('\'' :: s, rest)
  | '\'' :: cs => some ([], cs)
  | c :: cs => (escapedBody cs).map fun (s, rest) => (c :: s, rest)

/-- A text of a kind whose opening quote has been passed. -/
def scanText (kind : TextKind) (body : Option (List Char × List Char)) :
    Option (Token × List Char) :=
  body.map fun (s, rest) => (.text kind (String.ofList s), rest)

/-! ## Comments -/

/-- What follows a comment that `depth + 1` closing signs end. The last character read decides
with the present one whether a comment opens or closes. -/
def afterComment (depth : Nat) (last : Char) : List Char → Option (List Char)
  | [] => none
  | c :: cs =>
    if last = '/' ∧ c = '*' then afterComment (depth + 1) c cs
    else if last = '*' ∧ c = '/' then
      match depth with
      | 0 => some cs
      | d + 1 => afterComment d c cs
    else afterComment depth c cs

/-! ## Numbers -/

/-- An exponent with at least one digit, and what follows. -/
def scanExponent : List Char → List Char × List Char
  | [] => ([], [])
  | e :: cs =>
    let (sign, ds) := match cs with
      | '+' :: ds => (['+'], ds)
      | '-' :: ds => (['-'], ds)
      | ds => ([], ds)
    if (e = 'e' ∨ e = 'E') ∧ ds.head?.any Char.isDigit then
      (e :: sign ++ ds.takeWhile Char.isDigit, ds.dropWhile Char.isDigit)
    else ([], e :: cs)

/-- The token that starts with a digit or a period: digits, a period and digits, an exponent and
an `L`, of which any may be missing, or a period alone. `0x` starts hexadecimal digits. -/
def scanNumber (cs : List Char) : Token × List Char :=
  let whole := cs.takeWhile Char.isDigit
  match whole, cs.dropWhile Char.isDigit with
  | ['0'], 'x' :: rest =>
    (.text .hex (String.ofList (rest.takeWhile isHexDigit)), rest.dropWhile isHexDigit)
  | whole, rest =>
    let (point, rest) := match rest with
      | '.' :: rest => (['.'], rest)
      | rest => ([], rest)
    let digits := whole ++ point ++ rest.takeWhile Char.isDigit
    let rest := rest.dropWhile Char.isDigit
    if digits = ['.'] then (.period, rest)
    else
      let (exponent, rest) := scanExponent rest
      let digits := String.ofList (digits ++ exponent)
      match rest with
      | 'L' :: rest => (.number digits true, rest)
      | rest => (.number digits false, rest)

/-! ## Words, signs and whole texts -/

/-- The word that starts with a character. -/
def scanWord (c : Char) (cs : List Char) : Token × List Char :=
  (.word ⟨String.ofList (c :: cs.takeWhile isWordPart), false⟩, cs.dropWhile isWordPart)

/-- The longest operator at the start of a text. -/
def scanOperator (cs : List Char) : Option (Token × List Char) :=
  Operator.all.findSome? fun o =>
    (o.source.toList.isPrefixOf? cs).map fun rest => (.operator o, rest)

/-- The kind of text that a letter before a single quote introduces. -/
def introduced? (c : Char) : Option TextKind :=
  if c = 'n' ∨ c = 'N' then some .national
  else if c = 'e' ∨ c = 'E' then some .escaped
  else if c = 'x' ∨ c = 'X' then some .hex
  else none

/-- A word, or a text that a letter introduces. -/
def scanLetter (c : Char) (cs : List Char) : Option (Token × List Char) :=
  match introduced? c, cs with
  | some .escaped, '\'' :: rest => scanText .escaped (escapedBody rest)
  | some kind, '\'' :: rest => scanText kind (textBody '\'' rest)
  | _, cs => some (scanWord c cs)

/-- The first token of a text, and what follows it. -/
def scanOne (c : Char) (cs : List Char) : Option (Token × List Char) :=
  if c = ' ' ∨ c = '\t' ∨ c = '\n' then some (.blank, cs)
  else if c = '\r' then
    match cs with
    | '\n' :: rest => some (.blank, rest)
    | rest => some (.blank, rest)
  else if isWordStart c then scanLetter c cs
  else if c = '\'' then scanText .single (textBody '\'' cs)
  else if c = '"' then scanText .double (textBody '"' cs)
  else if c = '`' then
    (Backtick.body? cs).map fun (s, rest) => (.word ⟨String.ofList s, true⟩, rest)
  else if c.isDigit ∨ c = '.' then some (scanNumber (c :: cs))
  else if c = '(' then some (.leftParen, cs)
  else if c = ')' then some (.rightParen, cs)
  else if c = ',' then some (.comma, cs)
  else if c = ';' then some (.semicolon, cs)
  else if c = '?' then
    some (.placeholder (String.ofList (c :: cs.takeWhile Text.isNumeric)),
      cs.dropWhile Text.isNumeric)
  else
    match c, cs with
    | '-', '-' :: rest => some (.blank, (rest.dropWhile (· ≠ '\n')).drop 1)
    | '/', '*' :: rest => (afterComment 0 ' ' rest).map fun rest => (.blank, rest)
    | c, cs =>
      match scanOperator (c :: cs) with
      | some r => some r
      | none => if c = '\x0b' ∨ c = '\x0c' then some (.blank, cs) else some (.other c, cs)

/-- The tokens of a text of at most so many characters. -/
def scanUpTo : Nat → List Char → Option (List Token)
  | _, [] => some []
  | 0, _ :: _ => none
  | n + 1, c :: cs =>
    match scanOne c cs with
    | none => none
    | some (t, rest) => (scanUpTo n rest).map (t :: ·)

/-- The tokens of a text. Every token takes at least one character, so the number of characters
bounds the number of tokens. -/
def scan (s : String) : Option (List Token) :=
  scanUpTo s.toList.length s.toList

end TableCapture.Sql.Token
