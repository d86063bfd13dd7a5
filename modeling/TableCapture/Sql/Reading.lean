import TableCapture.Sql.Keyword

/-!
# Small readers of tokens

A reader takes what it reads off the front of a list of tokens and gives it with the rest, or
fails. A passer gives the rest only.
-/

namespace TableCapture.Sql

/-- Passes something at the front of tokens, or fails. -/
abbrev Passer := List Token → Option (List Token)

/-- Reads one keyword. -/
def keyword? (k : String) : List Token → Option (List Token)
  | t :: ts => if t.isKeyword k then some ts else none
  | [] => none

/-- Reads keywords in a row. -/
def keywords? : List String → List Token → Option (List Token)
  | [], ts => some ts
  | k :: ks, ts => (keyword? k ts).bind (keywords? ks)

/-- Reads one of several keywords. -/
def oneKeyword? (ks : List String) (ts : List Token) : Option (List Token) :=
  ks.findSome? fun k => keyword? k ts

/-- Passes keywords in a row if they are there. -/
def passKeywords (ks : List String) (ts : List Token) : List Token :=
  (keywords? ks ts).getD ts

/-- Passes one of several keywords if one is there. -/
def passOneKeyword (ks : List String) (ts : List Token) : List Token :=
  (oneKeyword? ks ts).getD ts

/-- Passes what follows keywords in a row, if they are there. -/
def passAfter (ks : List String) (p : Passer) : Passer := fun ts =>
  match keywords? ks ts with
  | some rest => p rest
  | none => some ts

/-- Reads one token. -/
def token? (t : Token) : List Token → Option (List Token)
  | u :: ts => if u = t then some ts else none
  | [] => none

/-- Passes something in brackets. -/
def passInBrackets (p : Passer) : Passer := fun ts => do
  token? .rightParen (← p (← token? .leftParen ts))

/-- Passes things with commas between them. The first argument bounds their number. -/
def passSeparatedUpTo (p : Passer) : Nat → Passer
  | 0, _ => none
  | n + 1, ts =>
    match p ts with
    | some (.comma :: rest) => passSeparatedUpTo p n rest
    | r => r

/-- Passes things with commas between them, at least one. -/
def passSeparated (p : Passer) : Passer := fun ts =>
  passSeparatedUpTo p (ts.length + 1) ts

/-- Reads a name. -/
def name? : List Token → Option (String × List Token)
  | t :: ts => t.name?.map fun n => (n, ts)
  | [] => none

/-- Reads the parts of a dotted name. -/
def dottedName? : List Token → Option (List String × List Token)
  | t :: .period :: ts =>
    match t.name?, dottedName? ts with
    | some n, some (ns, rest) => some (n :: ns, rest)
    | _, _ => none
  | t :: ts => t.name?.map fun n => ([n], ts)
  | [] => none

/-- Passes a name. -/
def passName : Passer := fun ts =>
  (name? ts).map Prod.snd

/-- Passes a dotted name. -/
def passDottedName : Passer := fun ts =>
  (dottedName? ts).map Prod.snd

/-- Passes a dotted name that may be broken. Where a part is missing, the token in its place is
passed and the name ends there. -/
def passBrokenName : List Token → List Token
  | t :: .period :: ts => if t.name?.isSome then passBrokenName ts else .period :: ts
  | _ :: ts => ts
  | [] => []

/-- Passes a literal: a text in plain quotes, or a word that is no keyword. -/
def passLiteral : Passer
  | .text .single _ :: ts | .text .double _ :: ts => some ts
  | .word w :: ts => if w.isAnyKeyword then none else some ts
  | _ => none

/-- Reads names with commas between them, up to a closing bracket. -/
def namesToParen? : List Token → Option (List String × List Token)
  | t :: .comma :: ts =>
    match t.name?, namesToParen? ts with
    | some n, some (ns, rest) => some (n :: ns, rest)
    | _, _ => none
  | t :: .rightParen :: ts => t.name?.map fun n => ([n], ts)
  | _ => none

/-- Reads names in brackets. -/
def bracketedNames? : List Token → Option (List String × List Token)
  | .leftParen :: ts => namesToParen? ts
  | _ => none

/-- Passes names in brackets if a bracket is there. -/
def passBracketedNames : Passer
  | .leftParen :: ts => (namesToParen? ts).map Prod.snd
  | ts => some ts

end TableCapture.Sql
