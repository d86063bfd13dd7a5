import TableCapture.Sql.DataType.Grammar

/-!
# Passing expressions

Nothing in the schema of a table hangs on the value of an expression, so expressions are passed,
not kept. Operators bind as their strength says, equal ones to the left.

Expressions hold expressions and queries. The rules below say how each form is passed, given the
passers of what stands inside it (`Inner`).
-/

namespace TableCapture.Sql

/-- The passers of what stands inside an expression or a query. -/
structure Inner where
  expression : Passer
  /-- An expression whose operators bind more strongly than a bound. -/
  stronger : Nat → Passer
  /-- The length of a span of time. -/
  span : Passer
  query : Passer

/-! ## Parts without expressions -/

/-- Passes a value. -/
def passValue : Passer
  | .number .. :: ts | .text .. :: ts | .placeholder _ :: ts => some ts
  | .operator .colon :: ts => passName ts
  | .word w :: ts => if (["TRUE", "FALSE", "NULL"].find? w.isKeyword).isSome then some ts else none
  | _ => none

/-- Passes a number, or what stands for one. -/
def passNumber : Passer
  | .number .. :: ts | .placeholder _ :: ts => some ts
  | .operator .colon :: ts => passName ts
  | _ => none

/-- Passes the words of a dotted name after the first. -/
def passDottedWords : Passer
  | .period :: .word _ :: ts => passDottedWords ts
  | .period :: _ => none
  | ts => some ts

/-- Passes a star, or a dotted name that ends in one. -/
def passStar : Passer
  | .operator .times :: ts => some ts
  | .word _ :: .period :: ts => passStar ts
  | _ => none

/-- Units in which a span of time is given. -/
def spanUnits : List String :=
  ["YEAR", "MONTH", "WEEK", "DAY", "HOUR", "MINUTE", "SECOND", "CENTURY", "DECADE", "DOW", "DOY",
   "EPOCH", "ISODOW", "ISOYEAR", "JULIAN", "MICROSECOND", "MICROSECONDS", "MILLENIUM",
   "MILLENNIUM", "MILLISECOND", "MILLISECONDS", "NANOSECOND", "NANOSECONDS", "QUARTER",
   "TIMEZONE", "TIMEZONE_HOUR", "TIMEZONE_MINUTE"]

/-- Passes the name of a part of a time. -/
def passTimePart : Passer :=
  oneKeyword? ("DATE" :: spanUnits)

/-- Passes a text of one byte. -/
def passCharacter : Passer
  | .text .single s :: ts | .text .double s :: ts => if s.utf8ByteSize = 1 then some ts else none
  | .word w :: ts =>
    if w.isAnyKeyword || w.value.utf8ByteSize ≠ 1 then none else some ts
  | _ => none

/-- Passes the order of characters that a text is compared by, if it is there. -/
def passCollation : Passer :=
  passAfter ["COLLATE"] passDottedName

/-! ## Operators -/

/-- How strongly the operator at the start of the tokens binds; zero where there is none. -/
def strength : List Token → Nat
  | .word w :: ts =>
    if w.isKeyword "OR" then 5
    else if w.isKeyword "AND" then 10
    else if w.isKeyword "XOR" then 24
    else if w.isKeyword "IS" then 17
    else if w.isKeyword "AT" then if (keywords? ["TIME", "ZONE"] ts).isSome then 20 else 0
    else if w.isKeyword "IN" || w.isKeyword "BETWEEN" || w.isKeyword "OPERATOR" then 20
    else if (["LIKE", "ILIKE", "SIMILAR"].find? w.isKeyword).isSome then 19
    else if w.isKeyword "NOT" then
      if (oneKeyword? ["IN", "BETWEEN"] ts).isSome then 20
      else if (oneKeyword? ["LIKE", "ILIKE", "SIMILAR"] ts).isSome then 19
      else 0
    else 0
  | .operator o :: _ =>
    match o with
    | .equal | .notEqual | .bangEqual | .less | .lessEqual | .greater | .greaterEqual
    | .spaceship | .tilde | .regexFold | .notRegex | .notRegexFold => 20
    | .bar => 21
    | .caret | .hash | .shiftLeft | .shiftRight => 22
    | .ampersand => 23
    | .plus | .minus => 30
    | .times | .divide | .modulo | .concat => 40
    | .doubleColon | .colon | .bang | .leftBracket | .arrow | .longArrow | .hashArrow
    | .hashLongArrow | .hashMinus | .containedIn => 50
    | _ => 0
  | _ => 0

/-- How strongly an operator binds in the length of a span of time, where words do not join. -/
def spanStrength : List Token → Nat
  | .word w :: ts =>
    if (["AND", "OR", "XOR"].find? w.isKeyword).isSome then 0 else strength (.word w :: ts)
  | ts => strength ts

/-- Operators between two operands that are passed alike. -/
def plainOperators : List Operator :=
  [.equal, .notEqual, .bangEqual, .less, .lessEqual, .greater, .greaterEqual, .spaceship, .tilde,
   .regexFold, .notRegex, .notRegexFold, .bar, .caret, .ampersand, .plus, .minus, .times, .divide,
   .modulo, .concat]

/-- Operators that look into a document and bind everything to their right. -/
def pathOperators : List Operator :=
  [.arrow, .longArrow, .hashArrow, .hashLongArrow, .hashMinus, .containedIn]

namespace Inner

variable (i : Inner)

/-- Passes expressions with commas between them. -/
def expressions : Passer :=
  passSeparated i.expression

/-- Passes a query, or expressions with commas between them. -/
def queryOrExpressions : Passer := fun ts =>
  if (oneKeyword? ["SELECT", "WITH"] ts).isSome then i.query ts else i.expressions ts

/-- Passes what an ordering goes by. -/
def ordering : Passer := fun ts => do
  let ts ← i.expression ts
  let ts := passOneKeyword ["ASC", "DESC"] ts
  return passKeywords ["NULLS", "LAST"] (passKeywords ["NULLS", "FIRST"] ts)

/-- Passes what `IS` says of an operand. -/
def passIs : Passer := fun ts =>
  let rest := passKeywords ["NOT"] ts
  match oneKeyword? ["NULL", "TRUE", "FALSE", "UNKNOWN"] rest with
  | some rest => some rest
  | none => (keywords? ["DISTINCT", "FROM"] rest).bind i.expression

/-- Passes the operand to the right of an operator, or a condition on all or any of a list. -/
def passRight (power : Nat) : Passer := fun ts =>
  match oneKeyword? ["ANY", "ALL"] ts with
  | some rest => passInBrackets (i.stronger power) rest
  | none => i.stronger power ts

/-- Passes what may follow `IN`. -/
def passMembers : Passer := fun ts =>
  match keyword? "UNNEST" ts with
  | some rest => passInBrackets i.expression rest
  | none => passInBrackets i.queryOrExpressions ts

/-- Passes a pattern and the character that escapes in it. -/
def passPattern : Passer := fun ts =>
  (i.stronger 19 ts).bind (passAfter ["ESCAPE"] passCharacter)

/-- Passes two bounds. -/
def passRange : Passer := fun ts => do
  i.stronger 20 (← keyword? "AND" (← i.stronger 20 ts))

/-! ## Operands -/

/-- Passes a value of an argument, which may be a star. -/
def passStarOrExpression : Passer := fun ts =>
  match passStar ts with
  | some rest => some rest
  | none => i.expression ts

/-- Passes an argument, which may be named. -/
def passArgument : Passer
  | t :: .operator .fatArrow :: ts =>
    if t.name?.isSome then i.passStarOrExpression ts else none
  | ts => i.passStarOrExpression ts

/-- Passes the arguments of a call whose opening bracket has been passed. -/
def passArguments : Passer
  | .rightParen :: ts => some ts
  | ts => (passSeparated i.passArgument ts).bind (token? .rightParen)

/-- Passes `ALL` or `DISTINCT`, but not both. -/
def passQuantifier : Passer := fun ts =>
  match keyword? "ALL" ts with
  | some rest => if (keyword? "DISTINCT" rest).isSome then none else some rest
  | none => some (passKeywords ["DISTINCT"] ts)

/-- Passes an end of the frame that a call looks at. -/
def passFrameEnd : Passer := fun ts =>
  match keywords? ["CURRENT", "ROW"] ts with
  | some rest => some rest
  | none => do
    let ts ← match keyword? "UNBOUNDED" ts with
      | some rest => some rest
      | none => i.expression ts
    oneKeyword? ["PRECEDING", "FOLLOWING"] ts

/-- Passes the frame that a call looks at, if it is there. -/
def passFrame : Passer := fun ts =>
  match oneKeyword? ["ROWS", "RANGE", "GROUPS"] ts with
  | none => some ts
  | some rest =>
    match keyword? "BETWEEN" rest with
    | none => i.passFrameEnd rest
    | some rest => do i.passFrameEnd (← keyword? "AND" (← i.passFrameEnd rest))

/-- Passes the rows that a call looks at, if they are given. -/
def passWindow : Passer :=
  passAfter ["OVER"] <| passInBrackets fun ts => do
    let ts ← passAfter ["PARTITION", "BY"] i.expressions ts
    let ts ← passAfter ["ORDER", "BY"] (passSeparated i.ordering) ts
    i.passFrame ts

/-- Passes a call whose opening bracket has been passed. -/
def passCall : Passer := fun ts => do
  i.passWindow (← i.passArguments (← passQuantifier ts))

/-- Passes a span of time after its keyword: its length, its unit with a precision, and a second
unit. -/
def passSpan : Passer := fun ts => do
  let ts ← i.span ts
  match keyword? "SECOND" ts with
  | some rest => (precision? rest).map Prod.snd
  | none =>
    let (_, rest) ← size? (passOneKeyword spanUnits ts)
    match keyword? "TO" rest with
    | none => some rest
    | some rest =>
      match keyword? "SECOND" rest with
      | some rest => (size? rest).map Prod.snd
      | none => passTimePart rest

/-- Passes a text after the name of a known type, or a span of time. -/
def passTyped : Passer := fun ts =>
  match dataType? ts with
  | none => none
  | some (d, rest) =>
    match d with
    | .custom .. => none
    | .plain name => if name = "INTERVAL" then i.passSpan rest else passLiteral rest
    | _ => passLiteral rest

/-- Passes cases with their results. The first argument bounds their number. -/
def passCases : Nat → Passer
  | 0, _ => none
  | n + 1, ts => do
    let ts ← i.expression ts
    let ts ← i.expression (← keyword? "THEN" ts)
    match keyword? "WHEN" ts with
    | some rest => passCases n rest
    | none => some ts

/-- Passes a choice between cases after its keyword. -/
def passChoice : Passer := fun ts => do
  let ts ← match keyword? "WHEN" ts with
    | some rest => some rest
    | none => do keyword? "WHEN" (← i.expression ts)
  let ts ← i.passCases (ts.length + 1) ts
  keyword? "END" (← passAfter ["ELSE"] i.expression ts)

/-- Passes a conversion after its keyword. -/
def passCast : Passer :=
  passInBrackets fun ts => do
    let ts ← keyword? "AS" (← i.expression ts)
    (dataType? ts).map Prod.snd

/-- Passes a part of a time after its keyword. -/
def passExtract : Passer :=
  passInBrackets fun ts => do i.expression (← keyword? "FROM" (← passTimePart ts))

/-- Passes a rounding after its keyword. -/
def passRounding : Passer :=
  passInBrackets fun ts => do passAfter ["TO"] passTimePart (← i.expression ts)

/-- Passes the search for a text after its keyword. -/
def passPosition : Passer :=
  passInBrackets fun ts => do i.expression (← keyword? "IN" (← i.stronger 20 ts))

/-- Passes an expression after a keyword or a comma, if either is there. -/
def passPart (k : String) : Passer
  | .comma :: ts => i.expression ts
  | ts => passAfter [k] i.expression ts

/-- Passes a part of a text after its keyword. -/
def passSubstring : Passer :=
  passInBrackets fun ts => do i.passPart "FOR" (← i.passPart "FROM" (← i.expression ts))

/-- Passes a replacement in a text after its keyword. -/
def passOverlay : Passer :=
  passInBrackets fun ts => do
    let ts ← i.expression (← keyword? "PLACING" (← i.expression ts))
    let ts ← i.expression (← keyword? "FROM" ts)
    passAfter ["FOR"] i.expression ts

/-- Passes the stripping of a text after its keyword. -/
def passTrim : Passer :=
  passInBrackets fun ts => do
    let ts ← i.expression (passOneKeyword ["BOTH", "LEADING", "TRAILING"] ts)
    passAfter ["FROM"] i.expression ts

/-- Passes the gathering of values after its keyword. -/
def passGathering : Passer :=
  passInBrackets fun ts => do
    let ts ← i.expression (passKeywords ["DISTINCT"] ts)
    let ts ← passAfter ["ORDER", "BY"] (passSeparated i.ordering) ts
    passAfter ["LIMIT"] i.expression ts

/-- Passes the joining of texts after its keyword. -/
def passJoining : Passer :=
  passInBrackets fun ts => do
    match ← i.expression (← passQuantifier ts) with
    | .comma :: ts => i.expression ts
    | ts => some ts

/-- Passes a search for words after its keyword. -/
def passMatch : Passer := fun ts => do
  let (_, ts) ← bracketedNames? ts
  let ts ← keyword? "AGAINST" ts
  ts |> passInBrackets fun ts => do
    let ts ← passValue ts
    match keywords? ["IN", "BOOLEAN", "MODE"] ts with
    | some rest => some rest
    | none =>
      some (passKeywords ["WITH", "QUERY", "EXPANSION"]
        (passKeywords ["IN", "NATURAL", "LANGUAGE", "MODE"] ts))

/-- Passes what is denied after `NOT`. -/
def passDenied : Passer := fun ts =>
  match keyword? "EXISTS" ts with
  | some rest => passInBrackets i.query rest
  | none => i.stronger 15 ts

/-- Passes the present time after its keyword, which may be called like a function. -/
def passClock : Passer
  | .leftParen :: ts => i.passArguments ts
  | ts => some ts

/-- Passes a list in square brackets whose opening one has been passed. -/
def passList : Passer
  | .operator .rightBracket :: ts => some ts
  | ts => (i.expressions ts).bind (token? (.operator .rightBracket))

/-- Passes what a word introduces that can be no name. -/
def passForm (w : Word) : Option Passer :=
  let forms : List (List String × Passer) := [
    (["TRUE", "FALSE", "NULL"], some),
    (["CURRENT_TIMESTAMP", "CURRENT_TIME", "CURRENT_DATE", "LOCALTIME", "LOCALTIMESTAMP"],
      i.passClock),
    (["CASE"], i.passChoice),
    (["CAST", "TRY_CAST", "SAFE_CAST"], i.passCast),
    (["EXISTS"], passInBrackets i.query),
    (["EXTRACT"], i.passExtract),
    (["CEIL", "FLOOR"], i.passRounding),
    (["SUBSTRING"], i.passSubstring),
    (["OVERLAY"], i.passOverlay),
    (["TRIM"], i.passTrim),
    (["INTERVAL"], i.passSpan),
    (["LISTAGG"], i.passJoining),
    (["ARRAY_AGG"], i.passGathering),
    (["NOT"], i.passDenied),
    (["MATCH"], passMatch)]
  (forms.find? fun f => f.1.any w.isKeyword).map Prod.snd

/-- Passes a name after its first word: more words, the arguments of a call, or a text whose
character set the word names. -/
def passNamed (w : Word) : Passer := fun ts =>
  match ts with
  | .text kind _ :: rest =>
    if w.value.toList.head? = some '_' ∧ kind ∈ [.single, .double, .hex] then some rest
    else some ts
  | ts =>
    match passDottedWords ts with
    | some (.leftParen :: rest) => i.passCall rest
    | r => r

/-- Passes an operand that starts with a word. -/
def passWord (w : Word) : Passer := fun ts =>
  match i.passForm w with
  | some p => p ts
  | none =>
    match ts with
    | .leftParen :: rest =>
      if w.isKeyword "POSITION" then i.passPosition ts
      else if w.isKeyword "ARRAY" then (i.query rest).bind (token? .rightParen)
      else i.passNamed w ts
    | .operator .leftBracket :: rest =>
      if w.isKeyword "ARRAY" then i.passList rest else i.passNamed w ts
    | ts => i.passNamed w ts

/-- Passes an operand other than a text after the name of a type. -/
def passPlainOperand : Passer
  | .word w :: ts => i.passWord w ts
  | .operator .plus :: ts | .operator .minus :: ts => i.stronger 30 ts
  | .operator .leftBracket :: ts => i.passList ts
  | .leftParen :: ts => do
    match ← (i.queryOrExpressions ts).bind (token? .rightParen) with
    | .period :: .word _ :: rest => some rest
    | .period :: _ => none
    | rest => some rest
  | .text .escaped _ :: _ => none
  | ts => passValue ts

/-- Passes what an expression can start with. -/
def passOperand : Passer := fun ts =>
  match i.passTyped ts with
  | some rest => some rest
  | none => (i.passPlainOperand ts).bind passCollation

/-- Passes a key in square brackets whose opening one has been passed. The closing one may be
missing. -/
def passKey : Passer := fun ts => do
  let rest ← match ts with
    | .text .single _ :: rest | .number .. :: rest => some rest
    | .word w :: .leftParen :: rest => if w.isAnyKeyword then none else i.passCall rest
    | .word w :: rest => if w.isAnyKeyword then none else some rest
    | _ => none
  match rest with
  | .operator .rightBracket :: rest => some rest
  | rest => some rest

/-- Passes an operator of the given strength and what stands to its right. -/
def passOperator (power : Nat) : Passer
  | .operator o :: ts =>
    if o ∈ plainOperators then i.passRight power ts
    else if o ∈ pathOperators then i.expression ts
    else if o = .doubleColon then (dataType? ts).map Prod.snd
    else if o = .colon then passValue ts
    else if o = .bang then some ts
    else if o = .leftBracket then i.passKey ts
    else none
  | ts =>
    match oneKeyword? ["AND", "OR", "XOR"] ts with
    | some rest => i.passRight power rest
    | none =>
      match keyword? "IS" ts, keywords? ["AT", "TIME", "ZONE"] ts with
      | some rest, _ => i.passIs rest
      | _, some (.text .single _ :: rest) => some rest
      | _, _ =>
        let rest := passKeywords ["NOT"] ts
        match keyword? "IN" rest, keyword? "BETWEEN" rest, oneKeyword? ["LIKE", "ILIKE"] rest with
        | some rest, _, _ => i.passMembers rest
        | _, some rest, _ => i.passRange rest
        | _, _, some rest => i.passPattern rest
        | _, _, _ => (keywords? ["SIMILAR", "TO"] rest).bind i.passPattern

/-- Passes operators that bind more strongly than `least`, with their right operands. The number
bounds their number. -/
def passOperators (strength : List Token → Nat) (least : Nat) : Nat → Passer
  | 0, _ => none
  | n + 1, ts =>
    if strength ts ≤ least then some ts
    else (i.passOperator (strength ts) ts).bind fun rest => passOperators strength least n rest

/-- Passes an expression whose operators bind more strongly than `least`. -/
def passOperation (strength : List Token → Nat) (least : Nat) : Passer := fun ts => do
  let ts ← i.passOperand ts
  i.passOperators strength least (ts.length + 1) ts

end Inner

end TableCapture.Sql
