import TableCapture.Yaml.Scalar
import TableCapture.Yaml.Token

/-!
# Reading tokens

`Token.scan` cuts a text into tokens. A colon can turn what stands before it on its line into a
key, so the scanner remembers for each depth of brackets where a key may have started. Tokens
stand in slots: when a key is found later, its sign is put into the slot of its first token.
-/

namespace TableCapture.Yaml

/-- A place where a key may have started. One that is required stands where only a key can. -/
structure PossibleKey where
  slot : Nat
  required : Bool
  line : Nat
  column : Nat
  offset : Nat
deriving Inhabited

/-- What is left of a text, the tokens so far, the columns of the open blocks, whether a key may
start here, and the possible keys, one for the outermost level and one for each open bracket. -/
structure Scanner where
  place : Place
  slots : Array (List Token)
  blocks : List Nat
  keyAllowed : Bool
  keys : List (Option PossibleKey)
deriving Inhabited

namespace Scanner

/-- The scanner at the start of a text. -/
def start (cs : List Char) : Scanner :=
  ⟨.start cs, #[], [], true, [none]⟩

/-- Whether brackets are open. -/
def inFlow (s : Scanner) : Bool :=
  1 < s.keys.length

/-- Adds a token. -/
def add (s : Scanner) (t : Token) : Scanner :=
  { s with slots := s.slots.push [t] }

/-- Puts tokens in front of those of a slot. -/
def addAt (s : Scanner) (slot : Nat) (ts : List Token) : Scanner :=
  { s with slots := s.slots.modify slot (ts ++ ·) }

/-- Goes on by `n` characters. -/
def skip (s : Scanner) (n : Nat) : Scanner :=
  { s with place := s.place.skip n }

/-! ## Keys -/

/-- Drops the possible key of the present level, unless it is required. -/
def dropKey (s : Scanner) : Option Scanner :=
  match s.keys with
  | some k :: ks => if k.required then none else some { s with keys := none :: ks }
  | _ => some s

/-- Remembers that a key may start here. It has to be one where the block needs a key. -/
def saveKey (s : Scanner) : Option Scanner :=
  if s.keyAllowed then do
    let s ← s.dropKey
    let p := s.place
    let required := !s.inFlow && s.blocks.head? = some p.column
    let key : PossibleKey := ⟨s.slots.size, required, p.line, p.column, p.offset⟩
    some { s with keys := some key :: s.keys.tail }
  else some s

/-- Drops possible keys that are on another line or more than 1024 bytes long by now, unless they
are required. -/
def dropStaleKeys (s : Scanner) : Option Scanner := do
  let keys ← s.keys.mapM fun k =>
    match k with
    | none => some none
    | some k =>
      if k.line = s.place.line ∧ s.place.offset ≤ k.offset + 1024 then some (some k)
      else if k.required then none
      else some none
  some { s with keys }

/-! ## Blocks -/

/-- Whether a column is further in than the innermost block. -/
def isDeeper (s : Scanner) (column : Nat) : Bool :=
  match s.blocks with
  | [] => true
  | b :: _ => b < column

/-- Opens a block at a column that is further in than the innermost block. Its sign goes into a
slot, or to the end. -/
def openBlock (s : Scanner) (column : Nat) (slot : Option Nat) (t : Token) : Scanner :=
  if s.inFlow || !s.isDeeper column then s
  else
    let s := { s with blocks := column :: s.blocks }
    match slot with
    | some i => s.addAt i [t]
    | none => s.add t

/-- Closes the blocks that are further in than a column. -/
def closeBlocks (s : Scanner) (column : Nat) : Scanner :=
  if s.inFlow then s
  else
    let inner := s.blocks.takeWhile (column < ·)
    { s with
      blocks := s.blocks.drop inner.length
      slots := s.slots ++ (inner.map fun _ => [Token.blockEnd]).toArray }

/-- Closes all blocks. -/
def closeAllBlocks (s : Scanner) : Scanner :=
  if s.inFlow then s
  else
    { s with
      blocks := []
      slots := s.slots ++ (s.blocks.map fun _ => [Token.blockEnd]).toArray }

/-! ## Space between tokens -/

/-- Passes blanks, comments, line breaks, and marks of the byte order at the start of a line. Where
a key may start, tabs do not count as blanks. A key may start on every new line outside brackets. -/
def skipSpace : Nat → Scanner → Scanner
  | 0, s => s
  | n + 1, s =>
    match s.place.rest with
    | [] => s
    | c :: _ =>
      if c = ' ' ∨ (c = '\t' ∧ (s.inFlow ∨ !s.keyAllowed)) then skipSpace n (s.skip 1)
      else if c = '\uFEFF' ∧ s.place.column = 0 then skipSpace n (s.skip 1)
      else if c = '#' then
        skipSpace n { s with place := s.place.dropWhile fun c => !isBreak c }
      else if isBreak c then
        let s := s.skip 1
        skipSpace n (if s.inFlow then s else { s with keyAllowed := true })
      else s

/-! ## Tokens -/

/-- How many octets write a character whose first octet is given, zero if there is none. -/
def octetCount (octet : Nat) : Nat :=
  if octet < 0x80 then 1
  else if 0xC0 ≤ octet ∧ octet < 0xE0 then 2
  else if 0xE0 ≤ octet ∧ octet < 0xF0 then 3
  else if 0xF0 ≤ octet ∧ octet < 0xF8 then 4
  else 0

/-- Reads a number of further octets of a character, each with a percent sign and two hexadecimal
digits. -/
def furtherOctets : Nat → List Char → Option (List Char × List Char)
  | 0, cs => some ([], cs)
  | n + 1, '%' :: a :: b :: cs =>
    match hexNumber? [a, b] with
    | none => none
    | some o =>
      if 0x80 ≤ o ∧ o < 0xC0 then
        (furtherOctets n cs).map fun (os, rest) => (Char.ofNat o :: os, rest)
      else none
  | _, _ => none

/-- Reads the octets of one character after its first percent sign. -/
def octets : List Char → Option (List Char × List Char)
  | a :: b :: cs => do
    let o ← hexNumber? [a, b]
    match octetCount o with
    | 0 => none
    | n + 1 => (furtherOctets n cs).map fun (os, rest) => (Char.ofNat o :: os, rest)
  | _ => none

/-- Reads characters for as long as a tag may go on. A percent sign introduces the octets of a
character. The first argument bounds the number of characters. -/
def tagPart (verbatim : Bool) : Nat → List Char → Option (List Char × List Char)
  | 0, cs => some ([], cs)
  | _, [] => some ([], [])
  | n + 1, c :: cs =>
    if c = '%' then
      match octets cs with
      | none => none
      | some (os, rest) => (tagPart verbatim n rest).map fun (t, rest) => (os ++ t, rest)
    else if isNameChar c || ";/?:@&=+$.!~*'()".contains c || (verbatim && ",[]".contains c) then
      (tagPart verbatim n cs).map fun (t, rest) => (c :: t, rest)
    else some ([], c :: cs)

/-- The text of a part of a tag. A zero octet ends it. -/
def tagText (octets : List Char) : String :=
  String.ofList (octets.takeWhile (· ≠ '\x00'))

/-- Reads a tag after its exclamation mark: the handle that it uses, the rest of the tag, and the
rest of the text. A tag of nothing but the mark is that mark. -/
def tagBody (cs : List Char) : Option (String × String × List Char) :=
  match cs with
  | '<' :: cs =>
    match tagPart true cs.length cs with
    | some (t@(_ :: _), '>' :: rest) => some ("", tagText t, rest)
    | _ => none
  | cs =>
    let name := cs.takeWhile isNameChar
    match cs.drop name.length with
    | '!' :: cs =>
      match tagPart false cs.length cs with
      | some (t@(_ :: _), rest) => some (String.ofList ('!' :: name ++ ['!']), tagText t, rest)
      | _ => none
    | _ =>
      match tagPart false cs.length cs with
      | some (t, rest) => some (if tagText t = "" then ("", "!", rest) else ("!", tagText t, rest))
      | none => none

/-- Reads a tag. -/
def tag (s : Scanner) : Option Scanner := do
  let s ← s.saveKey
  let (handle, t, rest) ← tagBody s.place.next.rest
  if atGap rest || (s.inFlow && rest.head? = some ',') then
    let n := s.place.rest.length - rest.length
    some { (s.add (.tag handle t)).skip n with keyAllowed := false }
  else none

/-- Reads the name of an anchor or of an alias after its sign. -/
def name (s : Scanner) (t : String → Token) : Option Scanner := do
  let s ← s.saveKey
  let (name, p) := s.place.next.takeWhile isNameChar
  if name ≠ [] ∧ (atGap p.rest || (p.rest.head?.any fun c => "?:,]\x7d%@`".contains c)) then
    some { s.add (t (String.ofList name)) with place := p, keyAllowed := false }
  else none

/-- Reads a line that starts with a percent sign. -/
def directive (s : Scanner) : Option Scanner := do
  let s ← s.closeAllBlocks.dropKey
  let (name, p) := s.place.next.takeWhile isNameChar
  if !atGap p.rest then none
  else
    let p := p.dropWhile isBlank
    let (token, p) ← (
      if name = "YAML".toList then do
        let (major, p) := p.takeWhile Char.isDigit
        if p.rest.head? ≠ some '.' then none
        else
          let (minor, p) := p.next.takeWhile Char.isDigit
          if major = [] ∨ minor = [] ∨ 9 < major.length ∨ 9 < minor.length then none
          else some (Token.version (Nat.ofDigitChars 10 major 0) (Nat.ofDigitChars 10 minor 0), p)
      else if name = "TAG".toList then do
        if p.rest.head? ≠ some '!' then none
        else
          let (handle, p) := p.next.takeWhile isNameChar
          let closed := p.rest.head? = some '!'
          let p := if closed then p.next else p
          let handle := String.ofList ('!' :: handle ++ if closed then ['!'] else [])
          if (!closed && handle ≠ "!") || !(p.rest.head?.any isBlank) then none
          else
            let p := p.dropWhile isBlank
            match tagPart true p.rest.length p.rest with
            | some (t@(_ :: _), rest) =>
              if atGap rest then
                some (Token.tagHandle handle (tagText t),
                  p.skip (p.rest.length - rest.length))
              else none
            | _ => none
      else none)
    let p := p.dropWhile isBlank
    let p := if p.rest.head? = some '#' then p.dropWhile fun c => !isBreak c else p
    if atLineEnd p.rest then some { s.add token with place := p.next, keyAllowed := false }
    else none

/-- Reads the mark of the start or the end of a document. -/
def documentMark (s : Scanner) (t : Token) : Option Scanner := do
  let s ← s.closeAllBlocks.dropKey
  some { (s.add t).skip 3 with keyAllowed := false }

/-- Reads an opening bracket. -/
def openFlow (s : Scanner) (t : Token) : Option Scanner := do
  let s ← s.saveKey
  some { (s.add t).skip 1 with keys := none :: s.keys, keyAllowed := true }

/-- Reads a closing bracket. -/
def closeFlow (s : Scanner) (t : Token) : Option Scanner := do
  let s ← s.dropKey
  let keys := if s.inFlow then s.keys.tail else s.keys
  some { (s.add t).skip 1 with keys, keyAllowed := false }

/-- Reads a comma between brackets. -/
def flowEntry (s : Scanner) : Option Scanner := do
  let s ← s.dropKey
  some { (s.add .flowEntry).skip 1 with keyAllowed := true }

/-- Reads the hyphen of an item. -/
def blockEntry (s : Scanner) : Option Scanner := do
  if !s.inFlow && !s.keyAllowed then none
  else
    let s ← (s.openBlock s.place.column none .blockSequenceStart).dropKey
    some { (s.add .blockEntry).skip 1 with keyAllowed := true }

/-- Reads the question mark of a key. -/
def explicitKey (s : Scanner) : Option Scanner := do
  if !s.inFlow && !s.keyAllowed then none
  else
    let s ← (s.openBlock s.place.column none .blockMappingStart).dropKey
    some { (s.add .key).skip 1 with keyAllowed := !s.inFlow }

/-- Reads the colon of a value. What stands before it on the line becomes the key. -/
def value (s : Scanner) : Option Scanner :=
  match s.keys with
  | some k :: ks =>
    let s := ({ s with keys := none :: ks }.addAt k.slot [.key]).openBlock k.column (some k.slot)
      .blockMappingStart
    some { (s.add .value).skip 1 with keyAllowed := false }
  | _ =>
    if !s.inFlow && !s.keyAllowed then none
    else
      let s := s.openBlock s.place.column none .blockMappingStart
      some { (s.add .value).skip 1 with keyAllowed := !s.inFlow }

/-- Reads a block scalar. -/
def block (s : Scanner) (literal : Bool) : Option Scanner := do
  let s ← s.dropKey
  let (value, p) ← blockScalar literal s.blocks.head? s.place.next
  let style := if literal then ScalarStyle.literal else .folded
  some { s.add (.scalar style (String.ofList value)) with place := p, keyAllowed := true }

/-- Reads a quoted scalar. -/
def quoted (s : Scanner) (double : Bool) : Option Scanner := do
  let s ← s.saveKey
  let p := s.place.next
  let (value, p) ← quotedScalar (p.rest.length + 1) double [] p
  some { s.add (.scalar .quoted (String.ofList value)) with place := p, keyAllowed := false }

/-- Reads a plain scalar. -/
def plain (s : Scanner) : Option Scanner := do
  let s ← s.saveKey
  let p := s.place
  let indent := match s.blocks with | [] => 0 | b :: _ => b + 1
  let (value, broken, p) ← plainScalar (p.rest.length + 1) s.inFlow indent [] (.blanks []) p
  some { s.add (.scalar .plain (String.ofList value)) with place := p, keyAllowed := broken }

/-- Reads the token that starts with a character. -/
def token (s : Scanner) (c : Char) (cs : List Char) : Option Scanner :=
  let loose := s.inFlow || atGap cs
  if c = '%' && s.place.column = 0 then s.directive
  else if s.place.atMark '-' then s.documentMark .documentStart
  else if s.place.atMark '.' then s.documentMark .documentEnd
  else if c = '[' then s.openFlow .flowSequenceStart
  else if c = '\x7b' then s.openFlow .flowMappingStart
  else if c = ']' then s.closeFlow .flowSequenceEnd
  else if c = '\x7d' then s.closeFlow .flowMappingEnd
  else if c = ',' then s.flowEntry
  else if c = '-' && atGap cs then s.blockEntry
  else if c = '?' && loose then s.explicitKey
  else if c = ':' && loose then s.value
  else if c = '*' then s.name .alias
  else if c = '&' then s.name .anchor
  else if c = '!' then s.tag
  else if c = '|' && !s.inFlow then s.block true
  else if c = '>' && !s.inFlow then s.block false
  else if c = '\'' then s.quoted false
  else if c = '"' then s.quoted true
  else if isBlank c || "?,[]\x7b\x7d#&*!|>%@`".contains c && !(c = '?' && !s.inFlow) then none
  else s.plain

/-- Reads the tokens up to the end of the text. -/
def finish : Nat → Scanner → Option Scanner
  | 0, _ => none
  | n + 1, s => do
    let s ← (s.skipSpace s.place.rest.length).dropStaleKeys
    match s.place.rest with
    | [] => s.closeAllBlocks.dropKey
    | c :: cs => finish n (← (s.closeBlocks s.place.column).token c cs)

end Scanner

/-- Cuts a text into tokens. -/
def Token.scan (text : String) : Option (List Token) :=
  let cs := text.toList
  if cs.all isAllowed then
    ((Scanner.start cs).finish (cs.length + 1)).map fun s => s.slots.toList.flatten
  else none

end TableCapture.Yaml
