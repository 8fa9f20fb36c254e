import TypedRecords.Yaml.Node
/-!
# Reading documents

The grammar of tokens. A text holds at most one document.
-/

namespace TypedRecords.Yaml

structure Reading where
  tokens : List Token
  anchors : Anchors
  deriving Repr

abbrev Reader := StateT Reading Option

namespace Reader

def peek : Reader (Option Token) := do return (← get).tokens.head?

def skip : Reader Unit := modify fun r => { r with tokens := r.tokens.drop 1 }

def expect (t : Token) : Reader Unit := do
  if (← peek) = some t then skip else failure

def sees (ts : List Token) : Reader Bool := do
  match ← peek with
  | some t => return ts.contains t
  | none => return false

def define (anchor : Option String) (s : Option Scalar) : Reader Unit :=
  match anchor with
  | some name => modify fun r => { r with anchors := r.anchors.define name s }
  | none => return ()

def aliasNode (name : String) : Reader Node := do
  match (← get).anchors.number? name with
  | some number => return .alias number
  | none => failure

def scalarNode (anchor : Option String) (s : Scalar) : Reader Node := do
  define anchor (some s)
  return .scalar s

/-- An anchor and a tag, either of which may be missing, in either order. -/
def properties : Reader (Option String × Option TagName) := do
  match ← peek with
  | some (.anchor name) =>
    skip
    match ← peek with
    | some (.tag tag) =>
      skip
      return (some name, some tag)
    | _ => return (some name, none)
  | some (.tag tag) =>
    skip
    match ← peek with
    | some (.anchor name) =>
      skip
      return (some name, some tag)
    | _ => return (none, some tag)
  | _ => return (none, none)

def resolveTag (handles : List (String × String)) : Option TagName → Reader (Option String)
  | none => return none
  | some tag =>
    if tag.handle.isEmpty then return some tag.rest
    else match handles.lookup tag.handle with
      | some stem => return some (stem ++ tag.rest)
      | none => failure

mutual

/-- A node. Only where `block` holds may it be a block; where `flush` does, the items of a sequence may
stand in the column of the mapping around it, without a block of their own. -/
def node (handles : List (String × String)) (fuel : Nat) (block flush : Bool) : Reader Node :=
  match fuel with
  | 0 => failure
  | fuel + 1 => do
    match ← peek with
    | some (.alias name) =>
      skip
      aliasNode name
    | _ =>
      let (anchor, tag) ← properties
      let tag ← resolveTag handles tag
      content handles fuel block flush anchor tag

def content (handles : List (String × String)) (fuel : Nat) (block flush : Bool)
    (anchor tag : Option String) : Reader Node :=
  match fuel with
  | 0 => failure
  | fuel + 1 => do
    match ← peek, block, flush with
    | some (.scalar style text), _, _ =>
      skip
      scalarNode anchor ⟨style, if tag = some "!" then none else tag, text⟩
    | some .flowSequence, _, _ =>
      skip
      define anchor none
      return .sequence (← flowItems handles fuel true)
    | some .flowMapping, _, _ =>
      skip
      define anchor none
      return .mapping (← flowEntries handles fuel true)
    | some .blockSequence, true, _ =>
      skip
      define anchor none
      return .sequence (← blockItems handles fuel)
    | some .blockMapping, true, _ =>
      skip
      define anchor none
      return .mapping (← blockEntries handles fuel)
    | some .item, _, true =>
      define anchor none
      return .sequence (← flushItems handles fuel)
    | _, _, _ =>
      if anchor.isSome || tag.isSome then scalarNode anchor ⟨.plain, tag, ""⟩ else failure

def nodeUnless (handles : List (String × String)) (fuel : Nat) (block flush : Bool)
    (ends : List Token) : Reader Node :=
  match fuel with
  | 0 => failure
  | fuel + 1 => do
    if ← sees ends then return .nothing else node handles fuel block flush

def blockItems (handles : List (String × String)) (fuel : Nat) : Reader (List Node) :=
  match fuel with
  | 0 => failure
  | fuel + 1 => do
    if ← sees [.blockEnd] then
      skip
      return []
    else
      expect .item
      let v ← nodeUnless handles fuel true false [.item, .blockEnd]
      return v :: (← blockItems handles fuel)

def flushItems (handles : List (String × String)) (fuel : Nat) : Reader (List Node) :=
  match fuel with
  | 0 => failure
  | fuel + 1 => do
    if ← sees [.item] then
      skip
      let v ← nodeUnless handles fuel true false [.item, .key, .value, .blockEnd]
      return v :: (← flushItems handles fuel)
    else return []

def blockEntries (handles : List (String × String)) (fuel : Nat) : Reader (List (Node × Node)) :=
  match fuel with
  | 0 => failure
  | fuel + 1 => do
    if ← sees [.blockEnd] then
      skip
      return []
    else
      expect .key
      let key ← nodeUnless handles fuel true true [.key, .value, .blockEnd]
      let v ← valueOf handles fuel true true [.key, .value, .blockEnd]
      return (key, v) :: (← blockEntries handles fuel)

def valueOf (handles : List (String × String)) (fuel : Nat) (block flush : Bool)
    (ends : List Token) : Reader Node :=
  match fuel with
  | 0 => failure
  | fuel + 1 => do
    if ← sees [.value] then
      skip
      nodeUnless handles fuel block flush ends
    else return .nothing

/-- The items of a flow sequence. An item with a key is a mapping of one entry. -/
def flowItems (handles : List (String × String)) (fuel : Nat) (first : Bool) :
    Reader (List Node) :=
  match fuel with
  | 0 => failure
  | fuel + 1 => do
    if ← sees [.flowSequenceEnd] then
      skip
      return []
    if !first then expect .comma
    if ← sees [.flowSequenceEnd] then
      skip
      return []
    let v ← flowItem handles fuel
    return v :: (← flowItems handles fuel false)

/-- Behind a key that is left empty the next token is passed over. -/
def flowItem (handles : List (String × String)) (fuel : Nat) : Reader Node :=
  match fuel with
  | 0 => failure
  | fuel + 1 => do
    if ← sees [.key] then
      skip
      let ends := [.comma, .flowSequenceEnd]
      let empty ← sees (.value :: ends)
      if empty then skip
      let key ← if empty then pure .nothing else node handles fuel false false
      let v ← valueOf handles fuel false false ends
      return .mapping [(key, v)]
    else node handles fuel false false

/-- The entries of a flow mapping. A node without a key's token is a key without a value. -/
def flowEntries (handles : List (String × String)) (fuel : Nat) (first : Bool) :
    Reader (List (Node × Node)) :=
  match fuel with
  | 0 => failure
  | fuel + 1 => do
    if ← sees [.flowMappingEnd] then
      skip
      return []
    if !first then expect .comma
    if ← sees [.flowMappingEnd] then
      skip
      return []
    let entry ← flowEntry handles fuel
    return entry :: (← flowEntries handles fuel false)

def flowEntry (handles : List (String × String)) (fuel : Nat) : Reader (Node × Node) :=
  match fuel with
  | 0 => failure
  | fuel + 1 => do
    let ends := [.comma, .flowMappingEnd]
    if ← sees [.key] then
      skip
      let key ← nodeUnless handles fuel false false (.value :: ends)
      let v ← valueOf handles fuel false false ends
      return (key, v)
    else return (← node handles fuel false false, .nothing)

end

/-- Enters a directive into the tags' handles. The version has to be 1.1 or 1.2 and may be stated once; no
handle may be defined twice. -/
def applyDirective (versioned : Bool) (handles : List (String × String)) :
    Directive → Option (Bool × List (String × String))
  | .version major minor =>
    if !versioned && major = 1 && (minor = 1 || minor = 2) then some (true, handles) else none
  | .tag handle stem =>
    if (handles.lookup handle).isSome then none else some (versioned, (handle, stem) :: handles)

def directives (versioned : Bool) (handles : List (String × String)) :
    List Token → Option (List (String × String) × List Token)
  | .directive d :: ts =>
    match applyDirective versioned handles d with
    | some (versioned, handles) => directives versioned handles ts
    | none => none
  | ts => some (handles, ts)

def standardHandles : List (String × String) := [("!", "!"), ("!!", "tag:yaml.org,2002:")]

/-- The root of a document whose start is marked may be left empty. -/
def markedRoot (handles : List (String × String)) (fuel : Nat) : Reader Node := do
  match ← peek with
  | none => return .nothing
  | some (.directive _) => return .nothing
  | some .documentStart => return .nothing
  | some .documentEnd => return .nothing
  | some _ => node handles fuel true false

def document (ts : List Token) : Option Document := do
  let fuel := 4 * ts.length + 4
  match ts with
  | [] => return ⟨none, {}⟩
  | _ =>
    let (handles, rest) ← directives false [] ts
    let handles := handles ++ standardHandles
    let (root, r) ← match rest with
      | .documentStart :: rest => (markedRoot handles fuel).run ⟨rest, {}⟩
      | _ => if rest.length = ts.length then (node handles fuel true false).run ⟨rest, {}⟩ else none
    if r.tokens.all (· == .documentEnd) then some ⟨some root, r.anchors⟩ else none

end Reader

/-- The document of a text, or none if the text is no YAML or holds several documents. -/
def read? (text : String) : Option Document := (tokens? text).bind Reader.document

end TypedRecords.Yaml
