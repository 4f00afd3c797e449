import Phrasebook.Yaml.Scalar
import Phrasebook.Yaml.TagText

/-!
# From a YAML text to its tokens

A node may turn out to be a key only when the colon behind it is met. The lexer therefore remembers, for the block
and for each open bracket, the last place where a key may have started, and puts the tokens of a key in there when
its colon comes. Such a key stands on one line and is not longer than `maxKeyLength`.

`tokens?` gives the tokens of a whole text, the last one being the end of the text.
-/

namespace Phrasebook.Yaml

/-! ## State -/

/-- A place where a key may have started. -/
structure KeyPlace where
  /-- The number of tokens before the place. -/
  tokens : Nat
  /-- The place. -/
  cursor : Cursor
  /-- Whether a key must have started here, because the indentation asks for one. -/
  required : Bool

/-- The lexer between two tokens. -/
structure Lexer where
  /-- The place that is reached. -/
  cursor : Cursor
  /-- The tokens so far, the last one first. -/
  tokens : List Token
  /-- The number of tokens so far. -/
  count : Nat
  /-- The indentation of the block collection that is open, or -1. -/
  indent : Int
  /-- The indentations of the block collections around it. -/
  outerIndents : List Int
  /-- Whether a key may start here. -/
  keyAllowed : Bool
  /-- The place where a key may have started within the innermost bracket. -/
  keyPlace : Option KeyPlace
  /-- The places around it, one for each open bracket. -/
  outerKeyPlaces : List (Option KeyPlace)

namespace Lexer

def start (s : List Char) : Lexer := ⟨.start s, [], 0, -1, [], true, none, []⟩

/-- Whether a bracket is open. -/
def inFlow (l : Lexer) : Bool := !l.outerKeyPlaces.isEmpty

/-- The lexer with one more token, at a place. -/
def push (l : Lexer) (t : Token) (c : Cursor) : Lexer :=
  { l with tokens := t :: l.tokens, count := l.count + 1, cursor := c }

/-- The lexer with one more token in front of the tokens after the first `n`. -/
def insertAt (l : Lexer) (n : Nat) (t : Token) : Lexer :=
  { l with tokens := l.tokens.insertIdx (l.count - n) t, count := l.count + 1 }

/-! ## Places for keys -/

/-- The greatest number of characters between the start of a key and its colon. -/
def maxKeyLength : Nat := 1024

/-- Whether a key that started at a place can no longer end at the cursor. -/
def isStale (c : Cursor) (k : KeyPlace) : Bool :=
  k.cursor.line < c.line || k.cursor.index + maxKeyLength < c.index

/-- The place with what is stale left out, unless a key was required there. -/
def freshPlace? (c : Cursor) : Option KeyPlace → Option (Option KeyPlace)
  | none => some none
  | some k => if isStale c k then (if k.required then none else some none) else some (some k)

/-- The lexer without the places that are stale, unless a key was required at one. -/
def dropStale? (l : Lexer) : Option Lexer := do
  let k ← freshPlace? l.cursor l.keyPlace
  let ks ← l.outerKeyPlaces.mapM (freshPlace? l.cursor)
  return { l with keyPlace := k, outerKeyPlaces := ks }

/-- The lexer without the innermost place, unless a key was required there. -/
def dropPlace? (l : Lexer) : Option Lexer :=
  match l.keyPlace with
  | some k => if k.required then none else some { l with keyPlace := none }
  | none => some l

/-- The lexer that remembers the place reached, when a key may start there. -/
def savePlace? (l : Lexer) : Option Lexer :=
  if l.keyAllowed then
    l.dropPlace?.map fun l' =>
      { l' with keyPlace := some ⟨l.count, l.cursor, !l.inFlow && l.indent == (l.cursor.column : Int)⟩ }
  else some l

/-! ## Indentation -/

/-- Ends the block collections that are indented further than a column. -/
def unroll (column : Int) : Nat → Lexer → Lexer
  | 0, l => l
  | fuel + 1, l =>
    if !l.inFlow && column < l.indent then
      match l.outerIndents with
      | i :: is =>
        unroll column fuel { l.push .blockEnd l.cursor with indent := i, outerIndents := is }
      | [] => l
    else l

/-- Ends the block collections that are indented further than a column. -/
def unrollTo (l : Lexer) (column : Int) : Lexer := unroll column (l.outerIndents.length + 1) l

/-- Whether a block collection starts at a column. -/
def opensBlock (l : Lexer) (column : Nat) : Bool := !l.inFlow && l.indent < (column : Int)

def enterBlock (l : Lexer) (column : Nat) : Lexer :=
  { l with outerIndents := l.indent :: l.outerIndents, indent := column }

/-- Starts a block collection at the place reached, when the indentation asks for one. -/
def rollHere (l : Lexer) (t : Token) : Lexer :=
  if l.opensBlock l.cursor.column then (l.push t l.cursor).enterBlock l.cursor.column else l

/-- Starts a block mapping at the place of a key, when the indentation asks for one. -/
def rollAt (l : Lexer) (k : KeyPlace) : Lexer :=
  if l.opensBlock k.cursor.column then
    (l.insertAt k.tokens .blockMappingStart).enterBlock k.cursor.column
  else l

/-! ## Tokens -/

/-- A token without text, behind which a key may or may not start. -/
def mark (l : Lexer) (t : Token) (length : Nat) (keyAllowed : Bool) : Lexer :=
  { l.push t (l.cursor.skip length) with keyAllowed := keyAllowed }

def documentMark? (l : Lexer) (t : Token) : Option Lexer :=
  (l.unrollTo (-1)).dropPlace?.map fun l => l.mark t 3 false

def directive? (l : Lexer) : Option Lexer := do
  let l ← (l.unrollTo (-1)).dropPlace?
  let (t, c) ← Yaml.directive? l.cursor
  return { l.push t c with keyAllowed := false }

def openFlow? (l : Lexer) (t : Token) : Option Lexer :=
  l.savePlace?.map fun l =>
    { l.mark t 1 true with keyPlace := none, outerKeyPlaces := l.keyPlace :: l.outerKeyPlaces }

/-- A closing bracket. -/
def closeFlow? (l : Lexer) (t : Token) : Option Lexer :=
  l.dropPlace?.map fun l =>
    match l.outerKeyPlaces with
    | k :: ks => { l.mark t 1 false with keyPlace := k, outerKeyPlaces := ks }
    | [] => l.mark t 1 false

/-- A comma. -/
def flowEntry? (l : Lexer) : Option Lexer := l.dropPlace?.map fun l => l.mark .flowEntry 1 true

/-- The hyphen of an item. -/
def blockEntry? (l : Lexer) : Option Lexer :=
  if !l.inFlow && !l.keyAllowed then none
  else (l.rollHere .blockSequenceStart).dropPlace?.map fun l => l.mark .blockEntry 1 true

def key? (l : Lexer) : Option Lexer :=
  if !l.inFlow && !l.keyAllowed then none
  else (l.rollHere .blockMappingStart).dropPlace?.map fun l => l.mark .key 1 (!l.inFlow)

def value? (l : Lexer) : Option Lexer :=
  match l.keyPlace with
  | some k =>
    -- The tokens of the key are there already, so its mark goes in front of them, and the start of a mapping
    -- in front of that.
    let l := { (l.insertAt k.tokens .key).rollAt k with keyPlace := none }
    some (l.mark .value 1 false)
  | none =>
    if !l.inFlow && !l.keyAllowed then none
    else
      let l := l.rollHere .blockMappingStart
      some (l.mark .value 1 (!l.inFlow))

/-- An anchor or a reference. -/
def name? (l : Lexer) (t : List Char → Token) : Option Lexer := do
  let l ← l.savePlace?
  let (name, c) ← Yaml.name? l.cursor
  return { l.push (t name) c with keyAllowed := false }

def tag? (l : Lexer) : Option Lexer := do
  let l ← l.savePlace?
  let (t, c) ← Yaml.tag? l.inFlow l.cursor
  return { l.push t c with keyAllowed := false }

def block? (l : Lexer) (literal : Bool) : Option Lexer := do
  let l ← l.dropPlace?
  let (text, c) ← Yaml.block? literal l.indent l.cursor
  return { l.push (.scalar text false) c with keyAllowed := true }

def quoted? (l : Lexer) (single : Bool) : Option Lexer := do
  let l ← l.savePlace?
  let (text, c) ← Yaml.quoted? single l.cursor
  return { l.push (.scalar text false) c with keyAllowed := false }

def plain? (l : Lexer) : Option Lexer := do
  let l ← l.savePlace?
  let p ← Yaml.plain? l.inFlow (l.indent + 1) l.cursor
  return { l.push (.scalar p.text true) p.cursor with keyAllowed := p.broken }

/-- Whether a plain scalar can start with a character, `behind` following it. -/
def startsPlain (flow : Bool) (c : Char) (behind : List Char) : Bool :=
  !(isGapOrBreak c || "-?:,[]\x7b\x7d#&*!|>'\"%@\x60".toList.contains c)
    || (c = '-' && !startsWhere isGap behind)
    || (!flow && (c = '?' || c = ':') && !atWordEnd behind)

/-- The token that starts with a character, `behind` following it. -/
def token? (l : Lexer) (c : Char) (behind : List Char) : Option Lexer :=
  if l.cursor.column = 0 && c = '%' then l.directive?
  else if l.cursor.column = 0 && atTripled '-' (c :: behind) then l.documentMark? .documentStart
  else if l.cursor.column = 0 && atTripled '.' (c :: behind) then l.documentMark? .documentEnd
  else if c = '[' then l.openFlow? .flowSequenceStart
  else if c = '{' then l.openFlow? .flowMappingStart
  else if c = ']' then l.closeFlow? .flowSequenceEnd
  else if c = '}' then l.closeFlow? .flowMappingEnd
  else if c = ',' then l.flowEntry?
  else if c = '-' && atWordEnd behind then l.blockEntry?
  else if c = '?' && (l.inFlow || atWordEnd behind) then l.key?
  else if c = ':' && (l.inFlow || atWordEnd behind) then l.value?
  else if c = '*' then l.name? .reference
  else if c = '&' then l.name? .anchor
  else if c = '!' then l.tag?
  else if c = '|' && !l.inFlow then l.block? true
  else if c = '>' && !l.inFlow then l.block? false
  else if c = '\'' then l.quoted? true
  else if c = '"' then l.quoted? false
  else if startsPlain l.inFlow c behind then l.plain?
  else none

/-! ## Between tokens -/

/-- Passes over blanks, comments and line breaks; a line break in a block lets a key start. -/
def skipToToken (flow : Bool) : Nat → Bool → Cursor → Bool × Cursor
  | 0, allowed, c => (allowed, c)
  | fuel + 1, allowed, c =>
    let c := if c.column = 0 && c.at? byteOrderMark then c.skip 1 else c
    -- A tab is no indentation, so none stands where a key may start.
    let c := c.skipWhile fun ch => ch = ' ' || ((flow || !allowed) && ch = '\t')
    let c := c.skipComment
    if startsWhere isBreak c.rest then skipToToken flow fuel (allowed || !flow) c.skipBreak
    else (allowed, c)

/-- The lexer in front of the next token. -/
def advance? (l : Lexer) : Option Lexer := do
  let (allowed, c) := skipToToken l.inFlow (l.cursor.rest.length + 1) l.keyAllowed l.cursor
  let l ← dropStale? { l with keyAllowed := allowed, cursor := c }
  return l.unrollTo c.column

/-- Ends what is open at the end of the text. -/
def finish? (l : Lexer) : Option Lexer :=
  (l.unrollTo (-1)).dropPlace?.map fun l => l.push .streamEnd l.cursor

/-- Reads tokens to the end of the text. -/
def run : Nat → Lexer → Option Lexer
  | 0, _ => none
  | fuel + 1, l => do
    -- Each token takes a character at least, so the length of the text bounds the steps.
    let l ← l.advance?
    match l.cursor.rest with
    | [] => l.finish?
    | c :: behind => (l.token? c behind).bind (run fuel)

end Lexer

/-- The tokens of a text, the end of the text being the last one. -/
def tokens? (s : List Char) : Option (List Token) :=
  if s.all isPrintable then (Lexer.run (s.length + 2) (.start s)).map fun l => l.tokens.reverse
  else none

end Phrasebook.Yaml
