import TableCapture.Yaml.Token.Scan

/-!
# Nodes

A document is a tree of scalars, sequences and mappings. An alias stands for the node whose anchor
it names. Anchors are known by numbers: an anchor gets the number of the different names before it,
also where its own name is one of them, and the last node with a number is the one that aliases
with this number stand for.

The functions below read nodes from tokens; their first argument bounds the number of steps, and
twice the number of tokens is always enough.
-/

namespace TableCapture.Yaml

/-- A scalar with its tag. -/
structure Scalar where
  style : ScalarStyle
  tag : Option String
  text : String
deriving DecidableEq, Repr, Inhabited

/-- A part of a document. -/
inductive Node where
  | scalar (s : Scalar)
  | sequence (items : List Node)
  | mapping (entries : List (Node × Node))
  /-- The node whose anchor has a number. -/
  | alias (anchor : Nat)
deriving Inhabited

/-- The value where there is nothing. -/
def Node.nothing (tag : Option String) : Node :=
  .scalar ⟨.plain, tag, ""⟩

/-- A document with the nodes of its anchors. -/
structure Document where
  root : Node
  anchored : List (Nat × Node)
deriving Inhabited

/-- The tokens that are left, the names of anchors with their numbers, and the anchors so far with
their nodes, the last one first. A node that is not over has its anchor already. -/
structure Reader where
  tokens : List Token
  names : List (String × Nat)
  anchors : List (Nat × Option Node)

namespace Reader

/-- A step of reading. -/
abbrev Step (α : Type) := StateT Reader Option α

/-- The next token. -/
def peek : Step (Option Token) :=
  fun r => some (r.tokens.head?, r)

/-- Passes one token. -/
def pass : Step Unit :=
  fun r => some ((), { r with tokens := r.tokens.tail })

/-- Whether the next token is one of several. -/
def isAt (ts : List Token) : Step Bool := do
  return (← peek).any ts.contains

/-- Passes a token that has to be there. -/
def expect (t : Token) : Step Unit := do
  if (← peek) = some t then pass else failure

/-- The node of an alias. -/
def resolve (name : String) : Step Node := fun r =>
  (r.names.lookup name).map fun i => (.alias i, r)

/-- Reads an anchor and a tag, each at most once. Handles of tags have to be known. -/
def properties (handles : List (String × String)) : Step (Option String × Option String) := do
  let anchor? : Step (Option String) := do
    match ← peek with
    | some (.anchor name) => pass; return some name
    | _ => return none
  let tag? : Step (Option String) := do
    match ← peek with
    | some (.tag handle rest) =>
      pass
      match handles.lookup handle with
      | some start => return some (start ++ rest)
      | none => failure
    | _ => return none
  match ← anchor? with
  | some name => return (some name, ← tag?)
  | none =>
    let tag ← tag?
    return (← anchor?, tag)

/-- Reads a node that may have an anchor. -/
def anchored (name : Option String) (content : Step Node) : Step Node := do
  match name with
  | none => content
  | some name => fun r => do
    let i := r.names.length
    let depth := r.anchors.length
    let names := (name, i) :: r.names.filter fun n => n.1 ≠ name
    let (n, r) ← content { r with names, anchors := (i, none) :: r.anchors }
    let last := r.anchors.length - 1 - depth
    some (n, { r with anchors := r.anchors.modify last fun a => (a.1, some n) })

/-- A node without content, which may only be left out after an anchor or a tag. -/
def missing (marked : Bool) (tag : Option String) : Step Node :=
  if marked then pure (.nothing tag) else failure

/-- Reads a node, or nothing before certain tokens. -/
def unlessAt (ends : List Token) (content : Step Node) : Step Node := do
  if ← isAt ends then return .nothing none else content

mutual

/-- Reads a node. Inside brackets there are no blocks; where a sequence may stand at the column
of the key before it, its items need no block of their own. -/
def node (handles : List (String × String)) : Nat → Bool → Bool → Step Node
  | 0, _, _ => failure
  | n + 1, block, loose => do
    match ← peek with
    | some (.alias name) => pass; resolve name
    | _ =>
      let (name, tag) ← properties handles
      let missing := missing (name.isSome || tag.isSome) tag
      anchored name do
        match ← peek with
        | some (.scalar style text) => pass; return .scalar ⟨style, tag, text⟩
        | some .flowSequenceStart => pass; return .sequence (← flowItems handles n true)
        | some .flowMappingStart => pass; return .mapping (← flowEntries handles n true)
        | some .blockSequenceStart =>
          if block then pass; return .sequence (← blockItems handles n) else missing
        | some .blockMappingStart =>
          if block then pass; return .mapping (← blockEntries handles n) else missing
        | some .blockEntry =>
          if loose then return .sequence (← looseItems handles n) else missing
        | _ => missing

/-- Reads the items of a block of their own. -/
def blockItems (handles : List (String × String)) : Nat → Step (List Node)
  | 0 => failure
  | n + 1 => do
    if ← isAt [.blockEntry] then
      pass
      let item ← unlessAt [.blockEntry, .blockEnd] (node handles n true false)
      return item :: (← blockItems handles n)
    else
      expect .blockEnd
      return []

/-- Reads items at the column of the key before them. -/
def looseItems (handles : List (String × String)) : Nat → Step (List Node)
  | 0 => failure
  | n + 1 => do
    if ← isAt [.blockEntry] then
      pass
      let item ← unlessAt [.blockEntry, .key, .value, .blockEnd] (node handles n true false)
      return item :: (← looseItems handles n)
    else return []

/-- Reads the keys and values of a block. -/
def blockEntries (handles : List (String × String)) : Nat → Step (List (Node × Node))
  | 0 => failure
  | n + 1 => do
    let ends : List Token := [.key, .value, .blockEnd]
    if ← isAt [.key] then
      pass
      let k ← unlessAt ends (node handles n true true)
      let v ← if ← isAt [.value] then do pass; unlessAt ends (node handles n true true)
        else pure (.nothing none)
      return (k, v) :: (← blockEntries handles n)
    else
      expect .blockEnd
      return []

/-- Reads the items between square brackets. A key without braces makes a mapping of one entry; if
the key is left out, the sign in its place is passed. -/
def flowItems (handles : List (String × String)) : Nat → Bool → Step (List Node)
  | 0, _ => failure
  | n + 1, first => do
    if ← isAt [.flowSequenceEnd] then
      pass
      return []
    else
      if !first then expect .flowEntry
      if ← isAt [.key] then
        pass
        let k ← if ← isAt [.value, .flowEntry, .flowSequenceEnd] then do
            pass
            pure (.nothing none)
          else node handles n false false
        let v ← if ← isAt [.value] then do
            pass
            unlessAt [.flowEntry, .flowSequenceEnd] (node handles n false false)
          else pure (.nothing none)
        return .mapping [(k, v)] :: (← flowItems handles n false)
      else if ← isAt [.flowSequenceEnd] then
        pass
        return []
      else
        let item ← node handles n false false
        return item :: (← flowItems handles n false)

/-- Reads the keys and values between braces. -/
def flowEntries (handles : List (String × String)) : Nat → Bool → Step (List (Node × Node))
  | 0, _ => failure
  | n + 1, first => do
    if ← isAt [.flowMappingEnd] then
      pass
      return []
    else
      if !first then expect .flowEntry
      if ← isAt [.key] then
        pass
        let k ← unlessAt [.value, .flowEntry, .flowMappingEnd] (node handles n false false)
        let v ← if ← isAt [.value] then do
            pass
            unlessAt [.flowEntry, .flowMappingEnd] (node handles n false false)
          else pure (.nothing none)
        return (k, v) :: (← flowEntries handles n false)
      else if ← isAt [.flowMappingEnd] then
        pass
        return []
      else
        let k ← node handles n false false
        return (k, .nothing none) :: (← flowEntries handles n false)

end

/-- Reads the lines in front of a document that declare its version and handles of tags. Each is
declared at most once. -/
def declarations (versioned : Bool) (handles : List (String × String)) :
    List Token → Option (Bool × List (String × String) × List Token)
  | .version major minor :: ts =>
    if versioned ∨ major ≠ 1 ∨ (minor ≠ 1 ∧ minor ≠ 2) then none
    else declarations true handles ts
  | .tagHandle handle start :: ts =>
    if (handles.lookup handle).isSome then none
    else declarations versioned ((handle, start) :: handles) ts
  | ts => some (versioned, handles, ts)

end Reader

/-- Passes the marks of the end of a document. -/
def passDocumentEnds : List Token → List Token
  | .documentEnd :: ts => passDocumentEnds ts
  | ts => ts

namespace Document

/-- The handles of tags that need no declaration. -/
def commonHandles : List (String × String) :=
  [("", ""), ("!", "!"), ("!!", "tag:yaml.org,2002:")]

/-- Reads the only document of a text. -/
def ofTokens? (ts : List Token) : Option Document := do
  let (versioned, declared, rest) ← Reader.declarations false [] ts
  let bare := !versioned && declared.isEmpty && rest.head? ≠ some .documentStart
  let rest ← if bare then some rest
    else if rest.head? = some .documentStart then some rest.tail
    else none
  if rest = [] ∧ bare then none
  else
    let start : Reader := ⟨rest, [], []⟩
    let atEnd := match rest with
      | [] | .version .. :: _ | .tagHandle .. :: _ | .documentStart :: _ | .documentEnd :: _ => true
      | _ => false
    let (n, r) ← if atEnd then some (.nothing none, start)
      else Reader.node (declared ++ commonHandles) (2 * ts.length + 2) true false start
    if passDocumentEnds r.tokens = [] then
      some ⟨n, r.anchors.filterMap fun a => a.2.map fun n => (a.1, n)⟩
    else none

/-- Reads a text that holds one document. -/
def ofText? (text : String) : Option Document :=
  (Token.scan text).bind ofTokens?

/-- The node that a node stands for, if it is an alias, or the node itself. -/
def follow (d : Document) : Node → Node
  | .alias i => (d.anchored.lookup i).getD (.alias i)
  | n => n

/-- The scalar that a node is. -/
def scalar? (d : Document) (n : Node) : Option Scalar :=
  match d.follow n with
  | .scalar s => some s
  | _ => none

/-- The text of a scalar. -/
def text? (d : Document) (n : Node) : Option String :=
  (d.scalar? n).map Scalar.text

end Document

end TableCapture.Yaml
