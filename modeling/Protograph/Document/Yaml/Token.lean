/-
  Protograph.Document.Yaml.Token — a YAML text as tokens.

  Indentation becomes tokens of its own: `blockMappingStart` and `blockSequenceStart`
  where a block is indented further than the one around it, `blockEnd` where it ends. A
  key of a mapping is known as one only when its colon comes, so the place where a key
  may begin is kept (`KeyPlace`) and the tokens of the key are put in there later.

  `Token.scan` gives no tokens for a text that is not of tokens throughout.
-/

namespace Protograph.Yaml

inductive Style
  | plain
  | literal
  /-- Folded or quoted. -/
  | other
  deriving DecidableEq, Repr

inductive Token
  | version (major minor : Nat)
  | tagRule (handle lead : String)
  | documentStart
  | documentEnd
  | blockSequenceStart
  | blockMappingStart
  | blockEnd
  | flowSequenceStart
  | flowSequenceEnd
  | flowMappingStart
  | flowMappingEnd
  | blockEntry
  | flowEntry
  | key
  | value
  | alias (name : String)
  | anchor (name : String)
  | tag (handle suffix : String)
  | scalar (text : String) (style : Style)
  deriving DecidableEq, Repr

/-! ## Characters -/

/-- The characters that a YAML text may hold. -/
def isAllowed (c : Char) : Bool :=
  let n := c.toNat
  n == 0x09 || n == 0x0A || n == 0x0D || (0x20 ≤ n && n ≤ 0x7E) || n == 0x85 || (0xA0 ≤ n && n ≤ 0xD7FF) ||
  (0xE000 ≤ n && n ≤ 0xFFFD) || 0x10000 ≤ n

def byteOrderMark : Char := '\ufeff'

def isBlank (c : Char) : Bool := c = ' ' || c = '\t'

def isBreak (c : Char) : Bool := c = '\n' || c = '\r' || c = '\u0085' || c = '\u2028' || c = '\u2029'

/-- A character of a name: a letter, a digit, an underscore or a hyphen. -/
def isNameChar (c : Char) : Bool := c.isAlphanum || c = '_' || c = '-'

/-- The end of the text, a blank or a line break. -/
def isGap : Option Char → Bool
  | none => true
  | some c => isBlank c || isBreak c

def isOneOf (chars : List Char) : Option Char → Bool
  | none => false
  | some c => chars.contains c

/-- The characters that begin, end or divide flow collections. -/
def flowSigns : List Char := [',', '[', ']', '{', '}']

/-- The characters with which a token other than a plain scalar may begin. -/
def indicators : List Char :=
  flowSigns ++ ['-', '?', ':', '#', '&', '*', '!', '|', '>', '\'', '"', '%', '@', '\x60']

/-- The characters, other than gaps, that may follow a name. -/
def nameEnds : List Char := ['?', ':', ',', ']', '}', '%', '@', '\x60']

/-- The signs of a tag that are neither letters, digits, underscores nor hyphens. -/
def tagSigns : List Char :=
  [';', '/', '?', ':', '@', '&', '=', '+', '$', '.', '!', '~', '*', '\'', '(', ')']

/-! ## The place in the text -/

/-- What is left of the text, and where it begins. -/
structure Cursor where
  rest : List Char
  /-- More than the characters of the whole text, so that no loop takes as many steps. -/
  limit : Nat
  index : Nat := 0
  line : Nat := 0
  column : Nat := 0

namespace Cursor

def peek (c : Cursor) (n : Nat := 0) : Option Char := c.rest[n]?

/-- Passes characters of the line. -/
def skip (c : Cursor) (n : Nat := 1) : Cursor :=
  { c with rest := c.rest.drop n, index := c.index + n, column := c.column + n }

/-- Passes the characters of the line that satisfy a condition; they come back. -/
def skipWhile (c : Cursor) (p : Char → Bool) : List Char × Cursor :=
  let passed := c.rest.takeWhile p
  (passed, c.skip passed.length)

def nextLine (c : Cursor) (n : Nat) (rest : List Char) : Cursor :=
  { c with rest, index := c.index + n, line := c.line + 1, column := 0 }

/-- Passes a line break, if one is next, and gives what a scalar keeps of it. -/
def skipBreak (c : Cursor) : List Char × Cursor :=
  match c.rest with
  | '\r' :: '\n' :: r => (['\n'], c.nextLine 2 r)
  | ch :: r =>
    if ch = '\u2028' || ch = '\u2029' then ([ch], c.nextLine 1 r)
    else if isBreak ch then (['\n'], c.nextLine 1 r)
    else ([], c)
  | [] => ([], c)

def atBreak (c : Cursor) : Bool := (c.peek).any isBreak

def atBlank (c : Cursor) : Bool := (c.peek).any isBlank

def skipBlanks (c : Cursor) : Cursor := (c.skipWhile isBlank).2

/-- Passes a comment up to the end of its line. -/
def skipComment (c : Cursor) : Cursor :=
  if c.peek = some '#' then (c.skipWhile fun ch => !isBreak ch).2 else c

/-- Whether three of a character stand alone at the beginning of a line. -/
def atMarker (c : Cursor) (ch : Char) : Bool :=
  c.column == 0 && c.peek == some ch && c.peek 1 == some ch && c.peek 2 == some ch && isGap (c.peek 3)

/-- Whether a document begins or ends here. -/
def atDocumentMarker (c : Cursor) : Bool := c.atMarker '-' || c.atMarker '.'

/-- Passes the rest of a line that may only hold blanks and a comment. -/
def skipLineEnd (c : Cursor) : Option Cursor :=
  let c := c.skipBlanks.skipComment
  if c.rest.isEmpty || c.atBreak then some c.skipBreak.2 else none

end Cursor

/-! ## Blanks inside scalars -/

/-- Blanks and line breaks between two stretches of a scalar. -/
structure Fold where
  /-- Blanks before the first line break. -/
  blanks : List Char := []
  /-- Whether a line break has come. -/
  broken : Bool := false
  first : List Char := []
  more : List Char := []

/-- What the scalar has in their place: the blanks of a line as they are, one line break
    as a blank, and of several line breaks all but the first. -/
def Fold.text (f : Fold) : List Char :=
  if !f.broken then f.blanks
  else if f.first.head? = some '\n' then (if f.more.isEmpty then [' '] else f.more)
  else f.first ++ f.more

/-- Passes blanks and line breaks. A tab may not stand in the indentation, which has
    `indent` columns. -/
def Fold.scan (indent : Int) : Nat → Fold → Cursor → Option (Fold × Cursor)
  | 0, _, _ => none
  | fuel + 1, f, c =>
    match c.peek with
    | none => some (f, c)
    | some ch =>
      if isBlank ch then
        if f.broken && (c.column : Int) < indent && ch = '\t' then none
        else scan indent fuel (if f.broken then f else { f with blanks := f.blanks ++ [ch] }) c.skip
      else if isBreak ch then
        let (kept, c) := c.skipBreak
        scan indent fuel
          (if f.broken then { f with more := f.more ++ kept } else { f with broken := true, blanks := [], first := kept }) c
      else some (f, c)

/-! ## Quoted scalars -/

def hexValue (c : Char) : Option Nat :=
  if c.isDigit then some (c.toNat - 48)
  else if 'a' ≤ c && c ≤ 'f' then some (c.toNat - 87)
  else if 'A' ≤ c && c ≤ 'F' then some (c.toNat - 55)
  else none

/-- The number that some hexadecimal digits at the front write. -/
def hexNumber (count : Nat) (cs : List Char) : Option Nat :=
  let ds := cs.take count
  if ds.length < count then none
  else ds.foldlM (fun n c => (hexValue c).map (n * 16 + ·)) 0

/-- The character that a code point writes, unless it is none. -/
def charOf (n : Nat) : Option Char :=
  if n > 0x10FFFF || (0xD800 ≤ n && n ≤ 0xDFFF) then none else some (Char.ofNat n)

/-- Characters that one letter after a backslash stands for. -/
def escapes : List (Char × Char) :=
  [('0', '\x00'), ('a', '\x07'), ('b', '\x08'), ('t', '\t'), ('\t', '\t'), ('n', '\n'), ('v', '\x0b'), ('f', '\x0c'),
   ('r', '\r'), ('e', '\x1b'), (' ', ' '), ('"', '"'), ('/', '/'), ('\\', '\\'), ('N', '\u0085'), ('_', '\u00a0'),
   ('L', '\u2028'), ('P', '\u2029')]

/-- Letters after a backslash that a number of hexadecimal digits follows. -/
def hexEscapes : List (Char × Nat) := [('x', 2), ('u', 4), ('U', 8)]

/-- A stretch without blanks of a quoted scalar, put in front of `done` in reverse. The
    last part says whether an escaped line break ended it. -/
def quotedStretch (single : Bool) : Nat → List Char → Cursor → Option (List Char × Cursor × Bool)
  | 0, _, _ => none
  | fuel + 1, done, c =>
    match c.peek with
    | none => some (done, c, false)
    | some ch =>
      if isBlank ch || isBreak ch then some (done, c, false)
      else if single && ch = '\'' && c.peek 1 = some '\'' then quotedStretch single fuel ('\'' :: done) (c.skip 2)
      else if ch = (if single then '\'' else '"') then some (done, c, false)
      else if !single && ch = '\\' then
        match c.peek 1 with
        | none => none
        | some e =>
          if isBreak e then some (done, c.skip.skipBreak.2, true)
          else match escapes.lookup e with
            | some r => quotedStretch single fuel (r :: done) (c.skip 2)
            | none => do
              let count ← hexEscapes.lookup e
              let r ← hexNumber count (c.rest.drop 2) >>= charOf
              quotedStretch single fuel (r :: done) (c.skip (2 + count))
      else quotedStretch single fuel (ch :: done) c.skip

/-- The rest of a quoted scalar, after its opening quote. -/
def quotedRest (single : Bool) : Nat → List Char → Cursor → Option (List Char × Cursor)
  | 0, _, _ => none
  | fuel + 1, done, c =>
    if c.atDocumentMarker || c.rest.isEmpty then none
    else do
      let (done, c, escaped) ← quotedStretch single c.limit done c
      if c.peek = some (if single then '\'' else '"') then some (done, c.skip)
      else
        let (f, c) ← Fold.scan 0 c.limit { broken := escaped } c
        quotedRest single fuel (f.text.reverse ++ done) c

/-! ## Plain scalars -/

/-- A stretch without blanks of a plain scalar, put in front of `done` in reverse. -/
def plainStretch (flow : Bool) : Nat → List Char → Cursor → Option (List Char × Cursor)
  | 0, _, _ => none
  | fuel + 1, done, c =>
    match c.peek with
    | none => some (done, c)
    | some ch =>
      if isBlank ch || isBreak ch then some (done, c)
      else if flow && ch = ':' && isOneOf ('?' :: flowSigns) (c.peek 1) then none
      else if (ch = ':' && isGap (c.peek 1)) || (flow && flowSigns.contains ch) then some (done, c)
      else plainStretch flow fuel (ch :: done) c.skip

/-- A plain scalar; the last part says whether a line break ended it. -/
def plainRest (flow : Bool) (indent : Int) : Nat → List Char → Fold → Cursor → Option (List Char × Cursor × Bool)
  | 0, _, _, _ => none
  | fuel + 1, done, f, c =>
    if c.atDocumentMarker || c.peek = some '#' then some (done, c, f.broken)
    else do
      let (stretch, after) ← plainStretch flow c.limit [] c
      let (done, f) := if stretch.isEmpty then (done, f) else (stretch ++ f.text.reverse ++ done, {})
      if !(after.atBlank || after.atBreak) then some (done, after, f.broken)
      else
        let (f, c) ← Fold.scan indent after.limit f after
        if !flow && (c.column : Int) < indent then some (done, c, f.broken)
        else plainRest flow indent fuel done f c

/-! ## Block scalars -/

inductive Chomp
  | strip
  | clip
  | keep
  deriving DecidableEq

/-- The signs after the bar or arrow: which line breaks at the end stay, and how far the
    text is indented. -/
def blockHeader (c : Cursor) : Option (Chomp × Nat × Cursor) :=
  let chomp? (c : Cursor) : Option Chomp :=
    match c.peek with
    | some '+' => some .keep
    | some '-' => some .strip
    | _ => none
  let indent? (c : Cursor) : Option Nat := (c.peek.filter Char.isDigit).map fun d => d.toNat - 48
  match chomp? c with
  | some chomp =>
    let c := c.skip
    match indent? c with
    | some 0 => none
    | some n => some (chomp, n, c.skip)
    | none => some (chomp, 0, c)
  | none =>
    match indent? c with
    | some 0 => none
    | some n =>
      let c := c.skip
      match chomp? c with
      | some chomp => some (chomp, n, c.skip)
      | none => some (.clip, n, c)
    | none => some (.clip, 0, c)

/-- Passes the indentation and the empty lines before a line of text. With `indent` zero
    the indentation is still to be found, and `deepest` is the deepest so far. -/
def blockBreaks (indent : Nat) : Nat → Nat → List Char → Cursor → Option (Nat × List Char × Cursor)
  | 0, _, _, _ => none
  | fuel + 1, deepest, breaks, c =>
    let width := (c.rest.takeWhile (· = ' ')).length
    let c := c.skip (if indent = 0 then width else min width (indent - c.column))
    let deepest := max deepest c.column
    if (indent = 0 || c.column < indent) && c.peek = some '\t' then none
    else if c.atBreak then
      let (kept, c) := c.skipBreak
      blockBreaks indent fuel deepest (breaks ++ kept) c
    else some (deepest, breaks, c)

/-- The lines of a block scalar, put in front of `done` in reverse. `first` is the line
    break after the last line, `more` those of the empty lines that follow. -/
def blockLines (literal : Bool) (indent : Nat) :
    Nat → List Char → Bool → List Char → List Char → Cursor → Option (List Char × List Char × List Char × Cursor)
  | 0, _, _, _, _, _ => none
  | fuel + 1, done, wasBlank, first, more, c =>
    if c.column = indent && !c.rest.isEmpty then
      let isBlank := c.atBlank
      let joint :=
        if !literal && first.head? = some '\n' && !wasBlank && !isBlank then (if more.isEmpty then [' '] else [])
        else first
      let (line, c) := c.skipWhile fun ch => !isBreak ch
      let (first', c) := c.skipBreak
      match blockBreaks indent c.limit 0 [] c with
      | none => none
      | some (_, more', c) =>
        blockLines literal indent fuel (line.reverse ++ more.reverse ++ joint.reverse ++ done) isBlank first' more' c
    else some (done, first, more, c)

/-- A block scalar, after its bar or arrow. -/
def blockScalar (literal : Bool) (parent : Int) (c : Cursor) : Option (String × Cursor) := do
  let (chomp, step, c) ← blockHeader c
  let c ← c.skipLineEnd
  let given : Nat := if step = 0 then 0 else (if 0 ≤ parent then parent.toNat + step else step)
  let (deepest, breaks, c) ← blockBreaks given c.limit 0 [] c
  let indent := if given = 0 then max (max deepest (parent + 1).toNat) 1 else given
  let (done, first, more, c) ← blockLines literal indent c.limit [] false [] breaks c
  let tail := match chomp with
    | .strip => []
    | .clip => first
    | .keep => first ++ more
  return (String.ofList (done.reverse ++ tail), c)

/-! ## Tags and directives -/

/-- A handle: an exclamation mark, a name, and mostly another exclamation mark. -/
def tagHandle (directive : Bool) (c : Cursor) : Option (List Char × Cursor) :=
  if c.peek ≠ some '!' then none
  else
    let (name, c) := c.skip.skipWhile isNameChar
    if c.peek = some '!' then some ('!' :: name ++ ['!'], c.skip)
    else if directive && !name.isEmpty then none
    else some ('!' :: name, c)

/-- The bytes of one percent-encoded character, of which `left` more follow. -/
def percentBytes : Nat → Nat → Cursor → Option (Nat × Cursor)
  | 0, n, c => some (n, c)
  | left + 1, n, c =>
    if c.peek ≠ some '%' then none
    else do
      let b ← hexNumber 2 (c.rest.drop 1)
      if b / 64 ≠ 2 then none else percentBytes left (n * 64 + b % 64) (c.skip 3)

/-- A percent-encoded character. -/
def percentChar (c : Cursor) : Option (Char × Cursor) := do
  let b ← hexNumber 2 (c.rest.drop 1)
  let (left, n) ←
    if b < 0x80 then some (0, b)
    else if b / 32 = 6 then some (1, b % 32)
    else if b / 16 = 14 then some (2, b % 16)
    else if b / 8 = 30 then some (3, b % 8)
    else none
  let (n, c) ← percentBytes left n (c.skip 3)
  return (Char.ofNat n, c)

def isTagChar (verbatim : Bool) (c : Char) : Bool :=
  isNameChar c || tagSigns.contains c || (verbatim && [',', '[', ']'].contains c)

/-- The characters of a tag, in front of which `head` stands in reverse. -/
def tagChars (verbatim : Bool) : Nat → List Char → Cursor → Option (List Char × Cursor)
  | 0, _, _ => none
  | fuel + 1, done, c =>
    match c.peek with
    | some '%' => do
      let (ch, c) ← percentChar c
      tagChars verbatim fuel (ch :: done) c
    | some ch => if isTagChar verbatim ch then tagChars verbatim fuel (ch :: done) c.skip else some (done, c)
    | none => some (done, c)

/-- A tag that follows a head, at least one character of both together. -/
def tagText (verbatim : Bool) (head : List Char) (c : Cursor) : Option (List Char × Cursor) := do
  let (done, c') ← tagChars verbatim c.limit (head.drop 1).reverse c
  if head.isEmpty && done.isEmpty then none else some (done.reverse, c')

/-- A tag as it stands before a node, as handle and suffix. -/
def tagToken (inFlow : Bool) (c : Cursor) : Option (Token × Cursor) := do
  let (token, c) ←
    if c.peek 1 = some '<' then do
      let (suffix, c) ← tagText true [] (c.skip 2)
      if c.peek = some '>' then some (Token.tag "" (String.ofList suffix), c.skip) else none
    else do
      let (handle, c) ← tagHandle false c
      if 2 ≤ handle.length && handle.getLast? = some '!' then do
        let (suffix, c) ← tagText false [] c
        some (Token.tag (String.ofList handle) (String.ofList suffix), c)
      else do
        let (suffix, c) ← tagText false handle c
        if suffix.isEmpty then some (Token.tag "" "!", c) else some (Token.tag "!" (String.ofList suffix), c)
  if isGap c.peek || (inFlow && c.peek = some ',') then some (token, c) else none

def versionNumber (c : Cursor) : Option (Nat × Cursor) :=
  let (ds, c) := c.skipWhile Char.isDigit
  if ds.isEmpty || 9 < ds.length then none
  else some (ds.foldl (fun n d => n * 10 + (d.toNat - 48)) 0, c)

/-- A directive, after its percent sign, with the rest of its line. -/
def directive (c : Cursor) : Option (Token × Cursor) := do
  let (name, c) := c.skipWhile isNameChar
  if name.isEmpty || !isGap c.peek then none
  else
    let (token, c) ←
      if name = "YAML".toList then do
        let (major, c) ← versionNumber c.skipBlanks
        if c.peek ≠ some '.' then none
        else do
          let (minor, c) ← versionNumber c.skip
          some (Token.version major minor, c)
      else if name = "TAG".toList then do
        let (handle, c) ← tagHandle true c.skipBlanks
        if !c.atBlank then none
        else do
          let (lead, c) ← tagText true [] c.skipBlanks
          if !isGap c.peek then none
          else some (Token.tagRule (String.ofList handle) (String.ofList lead), c)
      else none
    let c ← c.skipLineEnd
    return (token, c)

/-! ## The scanner -/

/-- A place where the key of a mapping may begin. -/
structure KeyPlace where
  /-- Whether only a key can stand here. -/
  required : Bool
  /-- How many tokens come before it. -/
  token : Nat
  index : Nat
  line : Nat
  column : Nat

structure Scanner where
  at_ : Cursor
  /-- Tokens so far, in reverse, and their number. -/
  tokens : List Token := []
  count : Nat := 0
  indent : Int := -1
  indents : List Int := []
  keyAllowed : Bool := true
  /-- One place for each level of flow collections, and one for the block around them. -/
  places : List (Option KeyPlace) := [none]

namespace Scanner

def inFlow (s : Scanner) : Bool := 1 < s.places.length

def emit (s : Scanner) (t : Token) : Scanner := { s with tokens := t :: s.tokens, count := s.count + 1 }

/-- Puts a token in before those from a number on. -/
def insert (s : Scanner) (number : Nat) (t : Token) : Scanner :=
  let after := s.count - number
  { s with tokens := s.tokens.take after ++ t :: s.tokens.drop after, count := s.count + 1 }

/-- Ends the blocks that are indented further than a column. -/
def unroll (column : Int) : Nat → Scanner → Scanner
  | 0, s => s
  | fuel + 1, s =>
    if s.inFlow || s.indent ≤ column then s
    else match s.indents with
      | [] => s
      | i :: is => unroll column fuel { s.emit .blockEnd with indent := i, indents := is }

def unrollTo (s : Scanner) (column : Int) : Scanner := s.unroll column s.indents.length

/-- Begins a block at a column, unless one is there already. -/
def roll (s : Scanner) (column : Nat) (number : Option Nat) (t : Token) : Scanner :=
  if s.inFlow || (column : Int) ≤ s.indent then s
  else
    let s := match number with
      | none => s.emit t
      | some n => s.insert n t
    { s with indents := s.indent :: s.indents, indent := column }

/-- A key can no longer begin where the current place says. -/
def dropPlace (s : Scanner) : Option Scanner :=
  match s.places with
  | some p :: ps => if p.required then none else some { s with places := none :: ps }
  | _ => some s

/-- A key may begin here, if keys are allowed. -/
def keepPlace (s : Scanner) : Option Scanner :=
  if !s.keyAllowed then some s
  else do
    let required := !s.inFlow && s.indent = s.at_.column
    let s ← s.dropPlace
    let here : KeyPlace :=
      { required, token := s.count, index := s.at_.index, line := s.at_.line, column := s.at_.column }
    return { s with places := some here :: s.places.drop 1 }

/-- Forgets the places whose line is over or that lie more than 1024 characters back. -/
def dropStale (s : Scanner) : Option Scanner := do
  let places ← s.places.mapM fun
    | none => some none
    | some p =>
      if p.line < s.at_.line || p.index + 1024 < s.at_.index then (if p.required then none else some none)
      else some (some p)
  return { s with places }

/-- Passes blanks, comments and line breaks. Tabs count as blanks only where no key may
    begin. -/
def toToken : Nat → Scanner → Scanner
  | 0, s => s
  | fuel + 1, s =>
    let c := if s.at_.index = 0 && s.at_.peek = some byteOrderMark then s.at_.skip else s.at_
    let tabs := s.inFlow || !s.keyAllowed
    let c := (c.skipWhile fun ch => ch = ' ' || (tabs && ch = '\t')).2.skipComment
    if c.atBreak then
      toToken fuel { s with at_ := c.skipBreak.2, keyAllowed := s.keyAllowed || !s.inFlow }
    else { s with at_ := c }

def skip (s : Scanner) (n : Nat := 1) : Scanner := { s with at_ := s.at_.skip n }

/-- A token of one character that no key begins with. -/
def indicator (s : Scanner) (keyAllowed : Bool) (t : Token) : Option Scanner := do
  let s ← s.dropPlace
  return { s.skip.emit t with keyAllowed }

def flowStart (s : Scanner) (t : Token) : Option Scanner := do
  let s ← s.keepPlace
  return { s.skip.emit t with keyAllowed := true, places := none :: s.places }

def flowEnd (s : Scanner) (t : Token) : Option Scanner := do
  let s ← s.dropPlace
  return { s.skip.emit t with
    keyAllowed := false, places := if s.inFlow then s.places.drop 1 else s.places }

def blockEntry (s : Scanner) : Option Scanner :=
  if s.inFlow then s.indicator true .blockEntry
  else if !s.keyAllowed then none
  else (s.roll s.at_.column none .blockSequenceStart).indicator true .blockEntry

def complexKey (s : Scanner) : Option Scanner :=
  if s.inFlow then s.indicator false .key
  else if !s.keyAllowed then none
  else (s.roll s.at_.column none .blockMappingStart).indicator true .key

def value (s : Scanner) : Option Scanner :=
  match s.places with
  | some p :: ps =>
    let s := (s.insert p.token .key).roll p.column (some p.token) .blockMappingStart
    some { s.skip.emit .value with keyAllowed := false, places := none :: ps }
  | _ =>
    if s.inFlow then some { s.skip.emit .value with keyAllowed := false }
    else if !s.keyAllowed then none
    else some { (s.roll s.at_.column none .blockMappingStart).skip.emit .value with keyAllowed := true }

/-- An anchor or an alias. -/
def named (s : Scanner) (t : String → Token) : Option Scanner := do
  let s ← s.keepPlace
  let (name, c) := s.at_.skip.skipWhile isNameChar
  if name.isEmpty || !(isGap c.peek || isOneOf nameEnds c.peek) then none
  else return { s.emit (t (String.ofList name)) with keyAllowed := false, at_ := c }

def tag (s : Scanner) : Option Scanner := do
  let s ← s.keepPlace
  let (t, c) ← tagToken s.inFlow s.at_
  return { s.emit t with keyAllowed := false, at_ := c }

def block (s : Scanner) (literal : Bool) : Option Scanner := do
  let s ← s.dropPlace
  let (text, c) ← blockScalar literal s.indent s.at_.skip
  return { s.emit (.scalar text (if literal then .literal else .other)) with keyAllowed := true, at_ := c }

def quoted (s : Scanner) (single : Bool) : Option Scanner := do
  let s ← s.keepPlace
  let (text, c) ← quotedRest single s.at_.limit [] s.at_.skip
  return { s.emit (.scalar (String.ofList text.reverse) .other) with keyAllowed := false, at_ := c }

def plain (s : Scanner) : Option Scanner := do
  let s ← s.keepPlace
  let (text, c, broken) ← plainRest s.inFlow (s.indent + 1) s.at_.limit [] {} s.at_
  return { s.emit (.scalar (String.ofList text.reverse) .plain) with keyAllowed := broken, at_ := c }

def directive (s : Scanner) : Option Scanner := do
  let s ← (s.unrollTo (-1)).dropPlace
  let (t, c) ← Yaml.directive s.at_.skip
  return { s.emit t with keyAllowed := false, at_ := c }

def documentMarker (s : Scanner) (t : Token) : Option Scanner := do
  let s ← (s.unrollTo (-1)).dropPlace
  return { (s.skip 3).emit t with keyAllowed := false }

/-- Scans the token that begins with the next character. -/
def token (s : Scanner) (c : Char) : Option Scanner :=
  let next := s.at_.peek 1
  if s.at_.column = 0 && c = '%' then s.directive
  else if s.at_.atMarker '-' then s.documentMarker .documentStart
  else if s.at_.atMarker '.' then s.documentMarker .documentEnd
  else if c = '[' then s.flowStart .flowSequenceStart
  else if c = '{' then s.flowStart .flowMappingStart
  else if c = ']' then s.flowEnd .flowSequenceEnd
  else if c = '}' then s.flowEnd .flowMappingEnd
  else if c = ',' then s.indicator true .flowEntry
  else if c = '-' && isGap next then s.blockEntry
  else if c = '?' && (s.inFlow || isGap next) then s.complexKey
  else if c = ':' && (s.inFlow || isGap next) then s.value
  else if c = '*' then s.named .alias
  else if c = '&' then s.named .anchor
  else if c = '!' then s.tag
  else if c = '|' && !s.inFlow then s.block true
  else if c = '>' && !s.inFlow then s.block false
  else if c = '\'' then s.quoted true
  else if c = '"' then s.quoted false
  else if !(isGap (some c) || indicators.contains c) || (c = '-' && !(next.any isBlank)) ||
      (!s.inFlow && (c = '?' || c = ':')) then s.plain
  else none

/-- Scans to the end of the text. -/
def run : Nat → Scanner → Option Scanner
  | 0, _ => none
  | fuel + 1, s => do
    let s ← (s.toToken s.at_.limit).dropStale
    let s := s.unrollTo s.at_.column
    match s.at_.peek with
    | some c => s.token c >>= run fuel
    | none => (s.unrollTo (-1)).dropPlace

end Scanner

/-- The tokens of a text, if it is of tokens throughout. -/
def Token.scan (text : String) : Option (List Token) :=
  let cs := match text.toList with
    | c :: cs => if c = byteOrderMark then cs else c :: cs
    | [] => []
  if cs.all isAllowed then
    (Scanner.run (cs.length + 2) { at_ := { rest := cs, limit := cs.length + 1 } }).map (·.tokens.reverse)
  else none

end Protograph.Yaml
