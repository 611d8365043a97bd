/-
  Protograph.Document.Yaml.Source — the nodes of a YAML document as a source of typed
  values.

  A value knows its place, which messages name, and how many more collections it may be
  nested in. Following an alias counts, since aliases can repeat without end: at most a
  hundred times for each event of the document.
-/

import Protograph.Document.Source
import Protograph.Document.Yaml.Node
import Protograph.Document.Yaml.Scalar

namespace Protograph.Yaml

/-- Where a value is in its document. -/
inductive Place
  | root
  | within (text : String)
  deriving DecidableEq, Repr

namespace Place

def text : Place → String
  | root => "."
  | within t => t

/-- The place in front of the name of something inside. -/
def lead : Place → String
  | root => ""
  | within t => t ++ "."

def item (p : Place) (i : Nat) : Place := .within (p.text ++ "[" ++ toString i ++ "]")

/-- The value of a key that is no scalar has no name. -/
def entry (p : Place) : Node → Place
  | .scalar _ _ key => .within (p.lead ++ key)
  | _ => .within (p.lead ++ "?")

end Place

/-- How deep collections may be nested. -/
def maxDepth : Nat := 128

/-- A value to read; an empty document has no node. -/
structure Input where
  stream : Stream
  node : Option Node
  place : Place
  depth : Nat

/-- Reading counts the aliases followed. -/
abbrev Read := StateT Nat (Except ReadError)

def fail {α : Type} (c : Cause) : Read α := throw (.invalid c none)

/-- Faults without a place are at the value's own. -/
def Input.located {α : Type} (i : Input) (act : Read α) : Read α := fun s =>
  match act s with
  | .error e => .error (e.atPlace i.place.text)
  | r => r

def Input.isAlias (i : Input) : Bool :=
  match i.node with
  | some (.alias _) => true
  | _ => false

/-- The value that an alias stands for. -/
def Input.target (i : Input) : Read Input := do
  match i.node with
  | some (.alias a) =>
    modify (· + 1)
    if (← get) > i.stream.events * 100 then fail .tooManyRepetitions
    else match i.stream.target? a with
      | some n => return { i with node := some n }
      | none => throw .malformed
  | _ => return i

/-- The value is not what is wanted. -/
def Input.mismatch {α : Type} (i : Input) (wanted : String) : Read α :=
  match i.node with
  | none => fail .empty
  | some (.scalar tag style t) => match foundScalar tag style t with
    | .ok f => fail (.wrongType f wanted)
    | .error c => fail c
  | some (.sequence _ _) => fail (.wrongType .sequence wanted)
  | some (.mapping _ _) => fail (.wrongType .mapping wanted)
  | some (.alias _) => throw .malformed

/-- Whether the value stands for an empty collection: it is not written, or nothing is. -/
def Input.isUnwritten (i : Input) : Bool :=
  match i.node with
  | none => true
  | some (.scalar _ .plain "") => true
  | _ => false

def Input.text (i : Input) (wanted : String) : Read String := do
  let i ← i.target
  match i.node with
  | some (.scalar _ _ t) => return t
  | _ => i.located (i.mismatch wanted)

/-- A scalar whose text is read as a standard type. -/
def Input.scalar {α : Type} (i : Input) (type wanted : String) (read : String → Option α) : Read α := do
  let i ← i.target
  match i.node with
  | some (.scalar tag style t) =>
    if isReadAs type tag style then
      match read t with
      | some x => return x
      | none => i.located (i.mismatch wanted)
    else i.located (i.mismatch wanted)
  | _ => i.located (i.mismatch wanted)

/-- Whether there is a value at all, for a value that may be left out. -/
def Input.isPresent (i : Input) : Read Bool :=
  match i.node with
  | none => return false
  | some (.scalar tag style t) =>
    if style ≠ .plain then return true
    else match tag with
      | none => return t ≠ "" && !isNull t
      | some tag =>
        if tag = tagFor "null" then
          if isNull t then return false else fail (.wrongValue (.text t) "null")
        else return true
  | some _ => return true

/-- The items of a sequence, one level deeper. -/
def Input.items (i : Input) : Read (List Input) :=
  match i.node with
  | some (.sequence _ vs) => match i.depth with
    | 0 => fail .tooDeep
    | depth + 1 =>
      return vs.zipIdx.map fun (v, n) => { i with node := some v, place := i.place.item n, depth }
  | _ => if i.isUnwritten then return [] else i.mismatch "a sequence"

/-- The keys and values of a mapping, one level deeper. -/
def Input.pairs (i : Input) (wanted : String) : Read (List (Input × Input)) :=
  match i.node with
  | some (.mapping _ es) => match i.depth with
    | 0 => fail .tooDeep
    | depth + 1 =>
      return es.map fun (k, v) =>
        ({ i with node := some k, depth }, { i with node := some v, place := i.place.entry k, depth })
  | _ => if i.isUnwritten then return [] else i.mismatch wanted

/-! ## Choices -/

def chosen (names : List String) (name : String) : Read String :=
  if name ∈ names then return name else fail (.unknownChoice name names)

/-- A choice by a tag has nothing else to say. -/
def Input.onlyTag (i : Input) : Read PUnit :=
  i.located do
    match i.node with
    | some (.scalar _ style t) =>
      if style = .plain && (t = "" || isNull t) then return ⟨⟩ else fail (.wrongValue (.text t) "null")
    | _ => i.mismatch "unit"

def Input.tag? (i : Input) : Option String :=
  match i.node with
  | some (.scalar tag _ _) | some (.sequence tag _) | some (.mapping tag _) => localTag? tag
  | _ => none

def Input.choose (names : List String) (i : Input) : Read String :=
  match i.tag? with
  | some name => do
    let n ← chosen names name
    i.onlyTag
    return n
  | none => i.located do
    match i.node with
    | some (.scalar _ _ t) => chosen names t
    | _ => i.mismatch "a YAML tag starting with '!'"

/-! ## Sets of flags -/

/-- What matters of a value where a set of flags is wanted. -/
inductive Content
  | number (n : Int)
  | text (s : String)
  | list (items : List Content)
  | other

def Content.text? : Content → Option String
  | text s => some s
  | _ => none

/-- What is written for a set of flags. -/
def Content.written? : Content → Option Written
  | number n => if 0 ≤ n && n ≤ 255 then some (.number (UInt8.ofNat n.toNat)) else none
  | text s => some (.joined s)
  | list items => (items.mapM text?).map .names
  | other => none

def Input.scalarContent (i : Input) : Read Content :=
  match i.node with
  | some (.scalar tag style t) => match foundScalar tag style t with
    | .error c => fail c
    | .ok (.text s) => return .text s
    | .ok (.int n) => return .number n
    | .ok (.wide n type) => fail (.wrongType (.wide n type) "any value")
    | .ok _ => return .other
  | _ => return .other

/-- A whole value, which no tag of the document's own may be part of. -/
def Input.content (depth : Nat) (i : Input) : Read Content := do
  let i ← i.target
  i.located do
    if i.tag?.isSome then fail .taggedMask
    else match i.node with
      | some (.sequence _ vs) => match depth with
        | 0 => fail .tooDeep
        | depth + 1 => do
          let items ← vs.zipIdx.mapM fun (v, n) =>
            content depth { i with node := some v, place := i.place.item n }
          return .list items
      | some (.mapping _ es) => match depth with
        | 0 => fail .tooDeep
        | depth + 1 => do
          for (k, v) in es do
            let _ ← content depth { i with node := some k }
            let _ ← content depth { i with node := some v, place := i.place.entry k }
          return .other
      | _ => i.scalarContent

instance : Source Read Input where
  fail := fail
  text i := i.text "a string"
  boolean i := i.scalar "bool" "a boolean" bool?
  int64 i := i.scalar "int" "i64" int64?
  int32 i := do
    let i ← i.target
    let n ← i.scalar "int" "i32" int64?
    if fitsSigned 32 n then return n else i.located (fail (.wrongValue (.int n) "i32"))
  optional read i := do
    let i ← i.target
    if ← i.isPresent then some <$> read i else return none
  list read i := do
    let i ← i.target
    i.located do (← i.items).mapM read
  entries visit start i := do
    let i ← i.target
    i.located do
      (← i.pairs "a map").foldlM (fun s e => do visit s (← e.1.text "a string") e.2) start
  record r i := do
    let i ← i.target
    i.located do
      let p ← (← i.pairs r.title).foldlM
        (fun p e => do r.visit fail p (← e.1.text "field identifier") e.2) r.begin
      r.close fail p
  choice names i :=
    if i.isAlias then i.located do (← i.target).choose names else i.choose names
  written i := return (← i.content i.depth).written?

/-- Reads the one document of a YAML text. -/
def ofText {α : Type} (read : Input → Read α) (text : String) : Except ReadError α :=
  match Stream.ofText? text with
  | none => .error .malformed
  | some s => ((read ⟨s, s.root, .root, maxDepth⟩).run 0).map (·.1)

end Protograph.Yaml
