/-
  Protograph.Document.Yaml.Node — the nodes that the tokens of a YAML text write.

  An alias stays a node of its own that points to an anchored one (`Stream.target?`), so a
  collection may hold itself. A text is one document or none (`Stream.ofTokens?`); what is
  between the tokens that belong there, an alias to an anchor that has not come, or a
  second document, make it no document at all.
-/

import Protograph.Document.Yaml.Token

namespace Protograph.Yaml

inductive Node
  | scalar (tag : Option String) (style : Style) (text : String)
  | sequence (tag : Option String) (items : List Node)
  | mapping (tag : Option String) (entries : List (Node × Node))
  /-- The node that an anchor number stands for. -/
  | alias (anchor : Nat)
  deriving Repr, Inhabited

/-- The one document of a text, if it has any. -/
structure Stream where
  root : Option Node
  /-- Anchored nodes by the number of their anchor. -/
  anchored : List (Nat × Node)
  /-- Scalars, aliases, and beginnings and ends of collections, in the order of the text. -/
  events : Nat

def Stream.target? (s : Stream) (anchor : Nat) : Option Node := s.anchored.lookup anchor

/-- What is kept while nodes are read. -/
structure Composer where
  tokens : List Token
  /-- Handles of tags and what they stand for. -/
  rules : List (String × String)
  events : Nat := 0
  /-- The number that each name of an anchor has now. -/
  anchors : List (String × Nat) := []
  /-- For each number, newest first, where its node begins. -/
  starts : List (Nat × Nat) := []
  /-- Anchored nodes by where they begin. -/
  nodes : List (Nat × Node) := []

abbrev Compose := StateT Composer Option

namespace Compose

def peek : Compose (Option Token) := return (← get).tokens.head?

def skip : Compose PUnit := modify fun s => { s with tokens := s.tokens.drop 1 }

def event : Compose PUnit := modify fun s => { s with events := s.events + 1 }

/-- A scalar that is not written at all. -/
def emptyScalar (tag : Option String) : Compose Node := do
  event
  return .scalar tag .plain ""

/-- Gives the node that begins now to an anchor. A name's number is how many names there
    were before it came, so a name that comes again shares its number with the next one. -/
def beginAnchor (name : String) : Compose PUnit := modify fun s =>
  let number := s.anchors.length
  { s with
    anchors := (name, number) :: s.anchors.filter (·.1 ≠ name)
    starts := (number, s.events) :: s.starts }

/-- The properties before a node: its anchor and its tag, in any order. -/
def properties : Compose (Option String × Option (String × String)) := do
  match ← peek with
  | some (.anchor a) =>
    skip
    match ← peek with
    | some (.tag h t) => skip; return (some a, some (h, t))
    | _ => return (some a, none)
  | some (.tag h t) =>
    skip
    match ← peek with
    | some (.anchor a) => skip; return (some a, some (h, t))
    | _ => return (none, some (h, t))
  | _ => return (none, none)

/-- The tag that handle and suffix write. -/
def resolveTag : Option (String × String) → Compose (Option String)
  | none => return none
  | some (handle, suffix) => do
    if handle = "" then return some suffix
    else match (← get).rules.lookup handle with
      | some lead => return some (lead ++ suffix)
      | none => failure

/-- Whether the next token is one of those after which a node is left out. -/
def nextIs (ends : List Token) : Compose Bool := return ((← peek).map ends.contains).getD false

/-- Passes the next token if it is the given one. -/
def pass (t : Token) : Compose Bool := do
  if (← peek) = some t then
    skip
    return true
  else return false

/-- Passes the comma between two entries of a flow collection. -/
def passComma : Compose PUnit := do
  unless ← pass .flowEntry do failure

mutual

/-- A node. `block` allows block collections, `indentless` a sequence at the indentation
    of the mapping around it. -/
def node (fuel : Nat) (block indentless : Bool) : Compose Node :=
  match fuel with
  | 0 => failure
  | fuel + 1 => do
    match ← peek with
    | some (.alias name) =>
      skip
      match (← get).anchors.lookup name with
      | none => failure
      | some number =>
        event
        return .alias number
    | _ =>
      let (anchor, written) ← properties
      let tag ← resolveTag written
      let start := (← get).events
      if let some name := anchor then beginAnchor name
      let result ← do
        match ← peek with
        | some (.scalar text style) =>
          skip
          event
          pure (.scalar (if tag = some "!" then none else tag) style text)
        | some .flowSequenceStart =>
          skip
          event
          let items ← flowSequence fuel true
          event
          pure (.sequence tag items)
        | some .flowMappingStart =>
          skip
          event
          let entries ← flowMapping fuel true
          event
          pure (.mapping tag entries)
        | next =>
          if indentless && next = some .blockEntry then
            event
            let items ← indentlessSequence fuel
            event
            pure (.sequence tag items)
          else if block && next = some .blockSequenceStart then
            skip
            event
            let items ← blockSequence fuel
            event
            pure (.sequence tag items)
          else if block && next = some .blockMappingStart then
            skip
            event
            let entries ← blockMapping fuel
            event
            pure (.mapping tag entries)
          else if anchor.isSome || written.isSome then emptyScalar tag
          else failure
      if anchor.isSome then modify fun s => { s with nodes := (start, result) :: s.nodes }
      return result

/-- A node, or an empty scalar where one of some tokens is next. -/
def nodeUnless (fuel : Nat) (ends : List Token) (block indentless : Bool) : Compose Node :=
  match fuel with
  | 0 => failure
  | fuel + 1 => do
    if ← nextIs ends then emptyScalar none else node fuel block indentless

def blockSequence (fuel : Nat) : Compose (List Node) :=
  match fuel with
  | 0 => failure
  | fuel + 1 => do
    if ← pass .blockEntry then
      let v ← nodeUnless fuel [.blockEntry, .blockEnd] true false
      return v :: (← blockSequence fuel)
    else if ← pass .blockEnd then return []
    else failure

def indentlessSequence (fuel : Nat) : Compose (List Node) :=
  match fuel with
  | 0 => failure
  | fuel + 1 => do
    if ← pass .blockEntry then
      let v ← nodeUnless fuel [.blockEntry, .key, .value, .blockEnd] true false
      return v :: (← indentlessSequence fuel)
    else return []

def blockMapping (fuel : Nat) : Compose (List (Node × Node)) :=
  match fuel with
  | 0 => failure
  | fuel + 1 => do
    if ← pass .key then
      let k ← nodeUnless fuel [.key, .value, .blockEnd] true true
      let v ← do
        if ← pass .value then nodeUnless fuel [.key, .value, .blockEnd] true true
        else emptyScalar none
      return (k, v) :: (← blockMapping fuel)
    else if ← pass .blockEnd then return []
    else failure

def flowSequence (fuel : Nat) (first : Bool) : Compose (List Node) :=
  match fuel with
  | 0 => failure
  | fuel + 1 => do
    if ← pass .flowSequenceEnd then return []
    else
      unless first do passComma
      if ← pass .flowSequenceEnd then return []
      else if ← pass .key then
        event
        let entry ← flowPair fuel
        event
        return .mapping none [entry] :: (← flowSequence fuel false)
      else
        let v ← node fuel false false
        return v :: (← flowSequence fuel false)

/-- The one pair of a mapping that a flow sequence holds without braces. -/
def flowPair (fuel : Nat) : Compose (Node × Node) :=
  match fuel with
  | 0 => failure
  | fuel + 1 => do
    let k ← do
      if ← nextIs [.value, .flowEntry, .flowSequenceEnd] then
        skip
        emptyScalar none
      else node fuel false false
    let v ← do
      if ← pass .value then nodeUnless fuel [.flowEntry, .flowSequenceEnd] false false
      else emptyScalar none
    return (k, v)

def flowMapping (fuel : Nat) (first : Bool) : Compose (List (Node × Node)) :=
  match fuel with
  | 0 => failure
  | fuel + 1 => do
    if ← pass .flowMappingEnd then return []
    else
      unless first do passComma
      if ← pass .flowMappingEnd then return []
      else if ← pass .key then
        let k ← nodeUnless fuel [.value, .flowEntry, .flowMappingEnd] false false
        let v ← do
          if ← pass .value then nodeUnless fuel [.flowEntry, .flowMappingEnd] false false
          else emptyScalar none
        return (k, v) :: (← flowMapping fuel false)
      else
        let k ← node fuel false false
        let v ← emptyScalar none
        return (k, v) :: (← flowMapping fuel false)

end

/-- The directives before a document: at most one version, 1.1 or 1.2, and no handle
    twice. -/
def directives (hasVersion : Bool) (handles : List String) : List Token → Option (List (String × String) × List Token)
  | .version major minor :: ts =>
    if hasVersion || major ≠ 1 || (minor ≠ 1 && minor ≠ 2) then none else directives true handles ts
  | .tagRule handle lead :: ts =>
    if handles.contains handle then none
    else (directives hasVersion (handle :: handles) ts).map fun (rules, ts) => ((handle, lead) :: rules, ts)
  | ts => some ([], ts)

def standardRules : List (String × String) := [("!", "!"), ("!!", "tag:yaml.org,2002:")]

def isOpening : Token → Bool
  | .version _ _ | .tagRule _ _ | .documentStart => true
  | _ => false

/-- The root of a document after its opening marker. -/
def content (fuel : Nat) : Compose Node := do
  match ← peek with
  | none | some .documentEnd => emptyScalar none
  | some t => if isOpening t then emptyScalar none else node fuel true false

end Compose

/-- The document of a text's tokens. -/
def Stream.ofTokens? (tokens : List Token) : Option Stream := do
  let fuel := 4 * tokens.length + 4
  match tokens with
  | [] => some ⟨none, [], 1⟩
  | t :: _ =>
    let (root, s) ←
      if Compose.isOpening t then do
        let (rules, rest) ← Compose.directives false [] tokens
        match rest with
        | .documentStart :: rest =>
          (Compose.content fuel).run { tokens := rest, rules := rules ++ Compose.standardRules }
        | _ => none
      else (Compose.node fuel true false).run { tokens, rules := Compose.standardRules }
    if s.tokens.all (· = .documentEnd) then
      let anchored := s.starts.filterMap fun (number, start) => (s.nodes.lookup start).map (number, ·)
      some ⟨some root, anchored, s.events⟩
    else none

/-- The document of a text. -/
def Stream.ofText? (text : String) : Option Stream := Token.scan text >>= Stream.ofTokens?

end Protograph.Yaml
