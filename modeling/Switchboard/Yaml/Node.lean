import Switchboard.Yaml.Tag
import Switchboard.Yaml.Token

/-!
# YAML nodes

The tree of a document: scalars, lists and maps with their types, aliases replaced by what they
stand for. `Node.ofTokens` builds it by the grammar of the tokens, one document to a text.
-/

namespace Switchboard.Yaml

/-- A node of a document. -/
inductive Node where
  | scalar (tag : Tag) (text : String)
  | list (tag : Tag) (items : List Node)
  | map (tag : Tag) (entries : List (Node × Node))

namespace Node

/-- The node that stands where none is written. -/
def empty : Node := .scalar .null ""

/-- The state of building a tree. -/
structure Builder where
  tokens : List Token
  /-- What the tag handles of the document stand for. -/
  handles : List (String × String)
  /-- The anchored nodes; those around the present one are not known yet. -/
  anchors : List (String × Option Node) := []

namespace Builder

/-- The next token. -/
def head (b : Builder) : Token := b.tokens.headD (.finish none)

/-- The state after the next token. -/
def rest (b : Builder) : Builder := { b with tokens := b.tokens.drop 1 }

/-- The problem at a token that does not fit: that of the text itself, if it ends here with one. -/
def misfit (b : Builder) : Problem :=
  match b.head with
  | .finish (some p) => p
  | _ => .malformed

end Builder

/-! ## Properties of a node -/

/-- The meaning of the tag handles where a document says nothing. -/
def standardHandles : List (String × String) := [("!", "!"), ("!!", "tag:yaml.org,2002:")]

/-- The type with a written-out name. -/
def tagOfName (name : String) : Tag :=
  if name = "tag:yaml.org,2002:null" then .null
  else if name = "tag:yaml.org,2002:bool" then .bool
  else if name = "tag:yaml.org,2002:int" then .int
  else if name = "tag:yaml.org,2002:float" then .float
  else if name = "tag:yaml.org,2002:str" then .text
  else if name = "tag:yaml.org,2002:timestamp" then .timestamp
  else if name = "tag:yaml.org,2002:merge" then .merge
  else if name = "tag:yaml.org,2002:value" then .default
  else if name = "tag:yaml.org,2002:seq" then .list
  else if name = "tag:yaml.org,2002:map" then .map
  else .unknown

/-- What stands before a node: an anchor, and a tag as its whole name. -/
structure Properties where
  anchor : Option String := none
  tag : Option String := none

/-- The whole name of a tag. -/
def wholeTag (b : Builder) (handle : Option String) (suffix : String) : Except Problem String :=
  match handle with
  | none => .ok suffix
  | some h =>
    match Table.find? h b.handles with
    | some whole => .ok (whole ++ suffix)
    | none => .error .malformed

/-- The properties before a node: an anchor and a tag, in either order. -/
def properties (b : Builder) : Except Problem (Properties × Builder) :=
  match b.head with
  | .anchor a =>
    match b.rest.head with
    | .tag h s => (wholeTag b h s).map fun t => (⟨some a, some t⟩, b.rest.rest)
    | _ => .ok (⟨some a, none⟩, b.rest)
  | .tag h s => do
    let t ← wholeTag b h s
    match b.rest.head with
    | .anchor a => pure (⟨some a, some t⟩, b.rest.rest)
    | _ => pure (⟨none, some t⟩, b.rest)
  | _ => .ok ({}, b)

/-- The type of a scalar: by its tag, or else by its form. -/
def scalarTag (tag : Option String) (plain : Bool) (text : String) : Tag :=
  match tag with
  | none => if plain then .ofPlain text.toList else .text
  | some "!" => .ofPlain text.toList
  | some t => tagOfName t

/-- The type of a collection: by its tag, or else as it is. -/
def collectionTag (tag : Option String) (ifNone : Tag) : Tag :=
  match tag with
  | none | some "!" => ifNone
  | some t => tagOfName t

/-! ## The grammar -/

mutual

/-- A node. In a block it may be a block collection, and after a key of a block map a list whose
entries are not indented. -/
def build (inBlock afterKey : Bool) : Nat → Builder → Except Problem (Node × Builder)
  | 0, _ => .error .malformed
  | fuel + 1, b =>
    match b.head with
    | .alias name =>
      match Table.find? name b.anchors with
      | some (some n) => .ok (n, b.rest)
      | _ => .error .malformed
    | _ => do
      let (props, b) ← properties b
      let b ←
        match props.anchor with
        | none => pure b
        | some a =>
          if Table.has a b.anchors then throw .malformed
          else pure { b with anchors := Table.put a none b.anchors }
      let (n, b) ← content inBlock afterKey props fuel b
      match props.anchor with
      | none => pure (n, b)
      | some a => pure (n, { b with anchors := Table.put a (some n) b.anchors })

/-- A node after its properties. -/
def content (inBlock afterKey : Bool) (props : Properties) :
    Nat → Builder → Except Problem (Node × Builder)
  | 0, _ => .error .malformed
  | fuel + 1, b =>
    let listTag := collectionTag props.tag .list
    let mapTag := collectionTag props.tag .map
    match b.head, inBlock, afterKey with
    | .entry, _, true =>
      (looseItems fuel [] b).map fun (xs, b) => (.list listTag xs, b)
    | .scalar text plain, _, _ => .ok (.scalar (scalarTag props.tag plain text) text, b.rest)
    | .flowListStart, _, _ =>
      (flowItems true fuel [] b.rest).map fun (xs, b) => (.list listTag xs, b)
    | .flowMapStart, _, _ =>
      (flowEntries true fuel [] b.rest).map fun (es, b) => (.map mapTag es, b)
    | .blockListStart, true, _ =>
      (blockItems fuel [] b.rest).map fun (xs, b) => (.list listTag xs, b)
    | .blockMapStart, true, _ =>
      (blockEntries fuel [] b.rest).map fun (es, b) => (.map mapTag es, b)
    | _, _, _ =>
      if props.anchor.isSome || props.tag.isSome then
        .ok (.scalar (scalarTag props.tag true "") "", b)
      else .error b.misfit

/-- The items of a block list; `acc` holds the items so far, last first. -/
def blockItems : Nat → List Node → Builder → Except Problem (List Node × Builder)
  | 0, _, _ => .error .malformed
  | fuel + 1, acc, b =>
    match b.head with
    | .entry =>
      match b.rest.head with
      | .entry | .blockEnd => blockItems fuel (empty :: acc) b.rest
      | _ => do
        let (n, b) ← build true false fuel b.rest
        blockItems fuel (n :: acc) b
    | .blockEnd => .ok (acc.reverse, b.rest)
    | _ => .error b.misfit

/-- The items of a list that is not indented, which ends before anything that is no entry. -/
def looseItems : Nat → List Node → Builder → Except Problem (List Node × Builder)
  | 0, _, _ => .error .malformed
  | fuel + 1, acc, b =>
    match b.head with
    | .entry =>
      match b.rest.head with
      | .entry | .key | .value | .blockEnd => looseItems fuel (empty :: acc) b.rest
      | _ => do
        let (n, b) ← build true false fuel b.rest
        looseItems fuel (n :: acc) b
    | _ => .ok (acc.reverse, b)

/-- A key or a value of a block map, after its sign. -/
def blockPart : Nat → Builder → Except Problem (Node × Builder)
  | 0, _ => .error .malformed
  | fuel + 1, b =>
    match b.head with
    | .key | .value | .blockEnd => .ok (empty, b)
    | _ => build true true fuel b

/-- The entries of a block map. -/
def blockEntries :
    Nat → List (Node × Node) → Builder → Except Problem (List (Node × Node) × Builder)
  | 0, _, _ => .error .malformed
  | fuel + 1, acc, b =>
    match b.head with
    | .blockEnd => .ok (acc.reverse, b.rest)
    | .key => do
      let (k, b) ← blockPart fuel b.rest
      match b.head with
      | .value => do
        let (v, b) ← blockPart fuel b.rest
        blockEntries fuel ((k, v) :: acc) b
      | _ => blockEntries fuel ((k, empty) :: acc) b
    | _ => .error b.misfit

/-- A value in a flow collection if its sign stands here, and otherwise an empty node. -/
def flowValue : Nat → Builder → Except Problem (Node × Builder)
  | 0, _ => .error .malformed
  | fuel + 1, b =>
    match b.head with
    | .value => flowPart fuel b.rest
    | _ => .ok (empty, b)

/-- A key or a value in a flow collection, after its sign. -/
def flowPart : Nat → Builder → Except Problem (Node × Builder)
  | 0, _ => .error .malformed
  | fuel + 1, b =>
    match b.head with
    | .value | .comma | .flowListEnd | .flowMapEnd => .ok (empty, b)
    | _ => build false false fuel b

/-- The items of a flow list; an entry with a key is a map by itself. -/
def flowItems (isFirst : Bool) : Nat → List Node → Builder → Except Problem (List Node × Builder)
  | 0, _, _ => .error .malformed
  | fuel + 1, acc, b =>
    match b.head, isFirst with
    | .flowListEnd, _ => .ok (acc.reverse, b.rest)
    | .comma, false => flowItem fuel acc b.rest
    | _, true => flowItem fuel acc b
    | _, _ => .error b.misfit

/-- An item of a flow list and the items after it. -/
def flowItem : Nat → List Node → Builder → Except Problem (List Node × Builder)
  | 0, _, _ => .error .malformed
  | fuel + 1, acc, b =>
    match b.head with
    | .flowListEnd => .ok (acc.reverse, b.rest)
    | .key => do
      let (k, b) ← flowPart fuel b.rest
      let (v, b) ← flowValue fuel b
      flowItems false fuel (.map .map [(k, v)] :: acc) b
    | _ => do
      let (n, b) ← build false false fuel b
      flowItems false fuel (n :: acc) b

/-- The entries of a flow map. -/
def flowEntries (isFirst : Bool) :
    Nat → List (Node × Node) → Builder → Except Problem (List (Node × Node) × Builder)
  | 0, _, _ => .error .malformed
  | fuel + 1, acc, b =>
    match b.head, isFirst with
    | .flowMapEnd, _ => .ok (acc.reverse, b.rest)
    | .comma, false => flowEntry fuel acc b.rest
    | _, true => flowEntry fuel acc b
    | _, _ => .error b.misfit

/-- An entry of a flow map and the entries after it; a node alone is a key without value. -/
def flowEntry : Nat → List (Node × Node) → Builder → Except Problem (List (Node × Node) × Builder)
  | 0, _, _ => .error .malformed
  | fuel + 1, acc, b =>
    match b.head with
    | .flowMapEnd => .ok (acc.reverse, b.rest)
    | .key => do
      let (k, b) ← flowPart fuel b.rest
      let (v, b) ← flowValue fuel b
      flowEntries false fuel ((k, v) :: acc) b
    | _ => do
      let (k, b) ← build false false fuel b
      flowEntries false fuel ((k, empty) :: acc) b

end

/-! ## Documents -/

/-- Takes the directives before a document. -/
def directives : Bool → List (String × String) → List Token →
    Except Problem (List (String × String) × List Token)
  | versioned, handles, .directive d :: ts =>
    match d with
    | .version major =>
      if versioned || major != 1 then .error .malformed else directives true handles ts
    | .handle h whole =>
      if Table.has h handles then .error .malformed
      else directives versioned (Table.put h whole handles) ts
    | .reserved => directives versioned handles ts
  | _, handles, ts => .ok (handles, ts)

/-- The tokens from the next document on, after the ends of documents before it. -/
def skipEnds (ts : List Token) : List Token :=
  ts.dropWhile fun
    | .documentEnd => true
    | _ => false

/-- The root of a document, and what follows the document. -/
def document (b : Builder) : Except Problem (Node × List Token) := do
  let (n, b) ← build true false (4 * b.tokens.length + 4) b
  match b.tokens with
  | .documentEnd :: ts => pure (n, ts)
  | ts => pure (n, ts)

/-- The document after its directives and its opening mark, which may hold nothing. -/
def openedDocument (handles : List (String × String)) (ts : List Token) :
    Except Problem (Node × List Token) :=
  let all := Table.putAll standardHandles handles
  match ts with
  | .documentEnd :: ts => .ok (empty, ts)
  | .directive _ :: _ | .documentStart :: _ | .finish none :: _ => .ok (empty, ts)
  | ts => document { tokens := ts, handles := all }

/-- The tree of a text, `none` if it holds no document. More than one document is an error. -/
def ofTokens (ts : List Token) : Except Problem (Option Node) := do
  let (n, rest) ←
    match ts with
    | .finish none :: _ => pure (none, ts)
    | .directive _ :: _ | .documentStart :: _ => do
      let (handles, ts) ← directives false [] ts
      match ts with
      | .documentStart :: ts => do
        let (n, ts) ← openedDocument handles ts
        pure (some n, ts)
      | .finish (some p) :: _ => throw p
      | _ => throw .malformed
    | _ => do
      let (n, ts) ← document { tokens := ts, handles := standardHandles }
      pure (some n, ts)
  match skipEnds rest with
  | [] | .finish none :: _ => pure n
  | .finish (some p) :: _ => throw p
  | _ => throw .malformed

end Node

end Switchboard.Yaml
