import TableCapture.Yaml.Place

/-!
# Scalars

A scalar is written plainly, between quotes, or as a block of indented lines. In plain and quoted
scalars one line break counts as a space, and of several the first is left out; blanks around
line breaks do not count.

The functions below read a scalar at a place, and give its value and the place behind it. Their
first argument bounds the number of steps; the number of characters left is always enough.
-/

namespace TableCapture.Yaml

/-- White space between two parts of a scalar: blanks on one line, or a first line break, which
may be escaped, and further ones. -/
inductive Gap where
  | blanks (cs : List Char)
  | breaks (first : Option Char) (others : List Char)
deriving Inhabited

namespace Gap

/-- What a gap contributes to the value. -/
def text : Gap → List Char
  | blanks cs => cs
  | breaks (some '\n') [] => [' ']
  | breaks (some '\n') others => others
  | breaks (some c) others => c :: others
  | breaks none others => others

/-- Whether a gap goes over the end of a line. -/
def isBroken : Gap → Bool
  | blanks _ => false
  | breaks _ _ => true

/-- Reads the rest of a gap. On a line of its own, a tab must not stand before the column
`indent`. -/
def read (n : Nat) (indent : Nat) (g : Gap) (p : Place) : Option (Gap × Place) :=
  match n, p.rest with
  | 0, _ => some (g, p)
  | _, [] => some (g, p)
  | n + 1, c :: _ =>
    if isBlank c then
      match g with
      | blanks cs => read n indent (blanks (cs ++ [c])) p.next
      | breaks .. => if c = '\t' ∧ p.column < indent then none else read n indent g p.next
    else if isBreak c then
      match g with
      | blanks _ => read n indent (breaks (some (breakChar c)) []) p.next
      | breaks first others => read n indent (breaks first (others ++ [breakChar c])) p.next
    else some (g, p)

end Gap

/-! ## Plain scalars -/

/-- The part of a plain scalar up to the next gap or sign. Inside brackets, a colon must not stand
before another sign. -/
def plainWord (flow : Bool) : List Char → Option (List Char)
  | [] => some []
  | c :: cs =>
    if atGap (c :: cs) then some []
    else if flow && c = ':' && (cs.head?.any fun d => ",?[]\x7b\x7d".contains d) then none
    else if (c = ':' && atGap cs) || (flow && ",[]\x7b\x7d".contains c) then some []
    else (plainWord flow cs).map (c :: ·)

/-- Reads a plain scalar whose lines after the first start at the column `indent` at least. Also
tells whether a line break follows it. -/
def plainScalar (n : Nat) (flow : Bool) (indent : Nat) (value : List Char) (g : Gap) (p : Place) :
    Option (List Char × Bool × Place) :=
  let done := some (value, g.isBroken, p)
  match n with
  | 0 => done
  | n + 1 =>
    if p.atDocumentMark || p.rest.head? = some '#' then done
    else if !flow && g.isBroken && p.column < indent then done
    else
      match plainWord flow p.rest with
      | none => none
      | some [] => done
      | some word =>
        let value := value ++ g.text ++ word
        let p := p.skip word.length
        if atGap p.rest then
          match Gap.read p.rest.length indent (.blanks []) p with
          | none => none
          | some (g, p) => plainScalar n flow indent value g p
        else some (value, false, p)

/-! ## Quoted scalars -/

/-- The number that hexadecimal digits write. -/
def hexNumber? (cs : List Char) : Option Nat :=
  cs.foldlM (fun n c => do
    let d ← if c.isDigit then some (c.toNat - '0'.toNat)
      else if 'a' ≤ c ∧ c ≤ 'f' then some (c.toNat - 'a'.toNat + 10)
      else if 'A' ≤ c ∧ c ≤ 'F' then some (c.toNat - 'A'.toNat + 10)
      else none
    some (16 * n + d)) 0

/-- The character of an escape of one letter. -/
def shortEscape? : Char → Option Char
  | '0' => some '\x00'
  | 'a' => some '\x07'
  | 'b' => some '\x08'
  | 't' | '\t' => some '\t'
  | 'n' => some '\n'
  | 'v' => some '\x0b'
  | 'f' => some '\x0c'
  | 'r' => some '\r'
  | 'e' => some '\x1b'
  | ' ' => some ' '
  | '"' => some '"'
  | '/' => some '/'
  | '\\' => some '\\'
  | 'N' => some '\x85'
  | '_' => some '\xa0'
  | 'L' => some '\u2028'
  | 'P' => some '\u2029'
  | _ => none

/-- The character of an escape, and the number of characters that write it after the backslash. -/
def escape? : List Char → Option (Char × Nat)
  | [] => none
  | c :: cs =>
    let digits := if c = 'x' then 2 else if c = 'u' then 4 else if c = 'U' then 8 else 0
    if digits = 0 then (shortEscape? c).map fun d => (d, 1)
    else if cs.length < digits then none
    else do
      let n ← hexNumber? (cs.take digits)
      if h : n.isValidChar then some (Char.ofNatAux n h, digits + 1) else none

/-- Reads a quoted scalar whose opening quote has been passed. -/
def quotedScalar (n : Nat) (double : Bool) (value : List Char) (p : Place) :
    Option (List Char × Place) :=
  match n, p.rest with
  | 0, _ => none
  | _, [] => none
  | n + 1, c :: cs =>
    if p.atDocumentMark then none
    else if isBlank c || isBreak c then
      match Gap.read p.rest.length 0 (.blanks []) p with
      | none => none
      | some (g, p) => quotedScalar n double (value ++ g.text) p
    else if double then
      if c = '"' then some (value, p.next)
      else if c = '\\' then
        if cs.head?.any isBreak then
          match Gap.read p.rest.length 0 (.breaks none []) p.next.next with
          | none => none
          | some (g, p) => quotedScalar n double (value ++ g.text) p
        else
          match escape? cs with
          | none => none
          | some (d, k) => quotedScalar n double (value ++ [d]) (p.next.skip k)
      else quotedScalar n double (value ++ [c]) p.next
    else if c = '\'' then
      if cs.head? = some '\'' then quotedScalar n double (value ++ ['\'']) p.next.next
      else some (value, p.next)
    else quotedScalar n double (value ++ [c]) p.next

/-! ## Block scalars -/

/-- What becomes of the line breaks at the end of a block. -/
inductive Chomping where
  | strip
  | clip
  | keep
deriving DecidableEq, Inhabited

/-- Reads the signs after the sign of a block: how to chomp, and the depth of its indentation,
zero if it is not given. -/
def blockHeader (p : Place) : Option (Chomping × Nat × Place) :=
  let chomping? (p : Place) : Option (Chomping × Place) :=
    match p.rest.head? with
    | some '+' => some (.keep, p.next)
    | some '-' => some (.strip, p.next)
    | _ => none
  let depth? (p : Place) : Option (Nat × Place) :=
    match p.rest.head? with
    | some c => if c.isDigit then some (c.toNat - '0'.toNat, p.next) else none
    | none => none
  let header : Chomping × Option Nat × Place :=
    match chomping? p with
    | some (c, p) =>
      match depth? p with
      | some (d, p) => (c, some d, p)
      | none => (c, none, p)
    | none =>
      match depth? p with
      | some (d, p) =>
        match chomping? p with
        | some (c, p) => (c, some d, p)
        | none => (.clip, some d, p)
      | none => (.clip, none, p)
  let (c, d, p) := header
  if d = some 0 then none
  else
    let p := p.dropWhile isBlank
    let p := if p.rest.head? = some '#' then p.dropWhile fun c => !isBreak c else p
    if atLineEnd p.rest then some (c, d.getD 0, p.next) else none

/-- Reads empty lines and the indentation of the line after them. An indentation of zero is still
to be found; then the greatest column reached is given. -/
def blockBreaks (n : Nat) (indent reached : Nat) (breaks : List Char) (p : Place) :
    Option (List Char × Nat × Place) :=
  match n, p.rest with
  | 0, _ => some (breaks, max reached p.column, p)
  | _, [] => some (breaks, max reached p.column, p)
  | n + 1, c :: _ =>
    let before := indent = 0 || p.column < indent
    if before && c = ' ' then blockBreaks n indent reached breaks p.next
    else if before && c = '\t' then none
    else if isBreak c then
      blockBreaks n indent (max reached p.column) (breaks ++ [breakChar c]) p.next
    else some (breaks, max reached p.column, p)

/-- Reads the lines of a block. `last` is the break at the end of the line before, `breaks` are
the empty lines after it, and `blank` tells whether that line started with a blank. -/
def blockLines (n : Nat) (literal : Bool) (indent : Nat) (value last breaks : List Char)
    (blank : Bool) (p : Place) : Option (List Char × List Char × List Char × Place) :=
  match n with
  | 0 => some (value, last, breaks, p)
  | n + 1 =>
    if p.column ≠ indent ∨ p.rest = [] then some (value, last, breaks, p)
    else
      let starts := p.rest.head?.any isBlank
      let joint :=
        if !literal && last = ['\n'] && !blank && !starts then
          if breaks = [] then [' '] else breaks
        else last ++ breaks
      let (line, p) := p.takeWhile fun c => !isBreak c
      let value := value ++ joint ++ line
      let last := (p.rest.head?.map breakChar).toList
      match blockBreaks p.rest.length indent 0 [] p.next with
      | none => none
      | some (breaks, _, p) => blockLines n literal indent value last breaks starts p

/-- Reads a block scalar whose sign has been passed, where the lines around it are indented by
`parent`, or by none if that is missing. -/
def blockScalar (literal : Bool) (parent : Option Nat) (p : Place) :
    Option (List Char × Place) := do
  let (chomping, depth, p) ← blockHeader p
  let given := if depth = 0 then 0 else parent.getD 0 + depth
  let (breaks, reached, p) ← blockBreaks p.rest.length given 0 [] p
  let least := max 1 (match parent with | none => 0 | some i => i + 1)
  let indent := if given = 0 then max reached least else given
  let (value, last, breaks, p) ←
    blockLines (p.rest.length + 1) literal indent [] [] breaks false p
  match chomping with
  | .strip => some (value, p)
  | .clip => some (value ++ last, p)
  | .keep => some (value ++ last ++ breaks, p)

end TableCapture.Yaml
