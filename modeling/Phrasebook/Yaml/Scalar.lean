import Phrasebook.Yaml.Cursor

/-!
# Written scalars

How the text of a scalar is taken from the lines it is written on, in each of the styles.

- `plain?`: without quotes. The text ends at a colon, at a comment, and where a line is indented too little.
- `quoted?`: between single or double quotes; only the double ones know escapes.
- `block?`: the lines below an indicator, kept or folded.

In the first two styles a line break folds to a space, and further breaks stay. Each function gives the text and
the place behind it, and nothing where the grammar refuses the text.
-/

namespace Phrasebook.Yaml

/-! ## Gaps between words -/

/-- The blanks and line breaks between two words of a scalar. -/
structure Gap where
  /-- Whether the gap has a line break. -/
  broken : Bool
  /-- The blanks of a gap without a line break. -/
  blanks : List Char
  /-- The first line break. -/
  first : List Char
  /-- The line breaks after the first. -/
  more : List Char
  deriving DecidableEq, Repr

namespace Gap

def none : Gap := ⟨false, [], [], []⟩

def text (g : Gap) : List Char :=
  if g.broken then
    if g.first.head? = some '\n' then (if g.more.isEmpty then [' '] else g.more)
    else g.first ++ g.more
  else g.blanks

end Gap

/-- Reads a gap on; a tab in front of column `indent` is refused. -/
def gapFrom (indent : Int) : Nat → Gap → Cursor → Option (Gap × Cursor)
  | 0, g, c => some (g, c)
  | fuel + 1, g, c =>
    match c.rest with
    | [] => some (g, c)
    | ch :: _ =>
      if isGap ch then
        if g.broken && (c.column : Int) < indent && ch = '\t' then none
        else gapFrom indent fuel (if g.broken then g else { g with blanks := g.blanks ++ [ch] }) (c.skip 1)
      else if isBreak ch then
        let g' : Gap :=
          if g.broken then { g with more := g.more ++ c.breakHere }
          else ⟨true, [], c.breakHere, g.more⟩
        gapFrom indent fuel g' c.skipBreak
      else some (g, c)

/-- Reads a gap on to the next word. -/
def gap? (indent : Int) (g : Gap) (c : Cursor) : Option (Gap × Cursor) :=
  gapFrom indent (c.rest.length + 1) g c

/-! ## Plain scalars -/

/-- A character that ends a word within brackets. -/
def isFlowIndicator (c : Char) : Bool := c = ',' || c = '[' || c = ']' || c = '{' || c = '}'

/-- The characters of a word of a plain scalar; `flow` says whether it stands within brackets. -/
def plainWord? (flow : Bool) : List Char → Option (List Char)
  | [] => some []
  | c :: cs =>
    if isGapOrBreak c then some []
    else if flow && c = ':' && startsWhere (fun d => isFlowIndicator d || d = '?') cs then none
    else if (c = ':' && atWordEnd cs) || (flow && isFlowIndicator c) then some []
    else (plainWord? flow cs).map (c :: ·)

/-- A plain scalar: its text, whether lines end behind it, and the place behind it. -/
structure PlainText where
  text : List Char
  /-- Whether a line break follows the text. -/
  broken : Bool
  /-- The place behind the text and the blanks after it. -/
  cursor : Cursor

/-- Reads a plain scalar on, behind `text` and a gap. -/
def plainFrom (flow : Bool) (indent : Int) : Nat → List Char → Gap → Cursor → Option PlainText
  | 0, text, g, c => some ⟨text, g.broken, c⟩
  | fuel + 1, text, g, c =>
    if (c.column = 0 && atDocumentMark c.rest) || c.at? '#' then some ⟨text, g.broken, c⟩
    else do
      let word ← plainWord? flow c.rest
      let text := if word.isEmpty then text else text ++ g.text ++ word
      let g := if word.isEmpty then g else Gap.none
      let c := c.skip word.length
      if startsWhere isGapOrBreak c.rest then
        let (g, c) ← gap? indent g c
        if !flow && (c.column : Int) < indent then return ⟨text, g.broken, c⟩
        else plainFrom flow indent fuel text g c
      else return ⟨text, g.broken, c⟩

/-- Reads a plain scalar whose further lines are indented by at least `indent`. -/
def plain? (flow : Bool) (indent : Int) (c : Cursor) : Option PlainText :=
  plainFrom flow indent (c.rest.length + 1) [] Gap.none c

/-! ## Quoted scalars -/

/-- The character that a letter after a backslash stands for. -/
def letterEscape? : Char → Option Char
  | '0' => some '\x00'
  | 'a' => some '\x07'
  | 'b' => some '\x08'
  | 't' => some '\t'
  | '\t' => some '\t'
  | 'n' => some '\n'
  | 'v' => some '\x0b'
  | 'f' => some '\x0c'
  | 'r' => some '\r'
  | 'e' => some '\x1b'
  | ' ' => some ' '
  | '"' => some '"'
  | '/' => some '/'
  | '\\' => some '\\'
  | 'N' => some (Char.ofNat 0x85)
  | '_' => some (Char.ofNat 0xA0)
  | 'L' => some (Char.ofNat 0x2028)
  | 'P' => some (Char.ofNat 0x2029)
  | _ => none

/-- The number of hexadecimal digits that a letter after a backslash asks for. -/
def hexLength? : Char → Option Nat
  | 'x' => some 2
  | 'u' => some 4
  | 'U' => some 8
  | _ => none

/-- The number of the first `n` characters as hexadecimal digits. -/
def hexNumber? : Nat → Nat → List Char → Option Nat
  | 0, acc, _ => some acc
  | _ + 1, _, [] => none
  | n + 1, acc, c :: cs => (hexValue? c).bind fun d => hexNumber? n (acc * 16 + d) cs

/-- The character of a code point. -/
def charOf? (n : Nat) : Option Char :=
  if h : n.isValidChar then some (Char.ofNatAux n h) else none

/-- A word of a quoted scalar. -/
structure QuotedWord where
  /-- The characters it stands for. -/
  text : List Char
  /-- The number of characters it is written with. -/
  length : Nat
  /-- Whether a backslash at the end of a line follows. -/
  continued : Bool

/-- The word with a character in front that is written with `n` characters. -/
def QuotedWord.cons (c : Char) (n : Nat) (w : QuotedWord) : QuotedWord :=
  ⟨c :: w.text, n + w.length, w.continued⟩

def QuotedWord.nil : QuotedWord := ⟨[], 0, false⟩

def singleWord : List Char → QuotedWord
  | [] => .nil
  | '\'' :: '\'' :: cs => (singleWord cs).cons '\'' 2
  | c :: cs => if isGapOrBreak c || c = '\'' then .nil else (singleWord cs).cons c 1

def doubleWord? : Nat → List Char → Option QuotedWord
  | 0, _ => none
  | _, [] => some .nil
  | fuel + 1, c :: cs =>
    if isGapOrBreak c || c = '"' then some .nil
    else if c = '\\' then
      match cs with
      | [] => none
      | e :: cs =>
        if isBreak e then some ⟨[], 0, true⟩
        else match letterEscape? e with
          | some ch => (doubleWord? fuel cs).map (·.cons ch 2)
          | none => do
            let n ← hexLength? e
            let ch ← (hexNumber? n 0 cs).bind charOf?
            (doubleWord? fuel (cs.drop n)).map (·.cons ch (2 + n))
    else (doubleWord? fuel cs).map (·.cons c 1)

def quotedWord? (single : Bool) (s : List Char) : Option QuotedWord :=
  if single then some (singleWord s) else doubleWord? (s.length + 1) s

def quoteOf (single : Bool) : Char := if single then '\'' else '"'

/-- Reads a quoted scalar on to its closing quote. -/
def quotedFrom (single : Bool) : Nat → List Char → Cursor → Option (List Char × Cursor)
  | 0, _, _ => none
  | fuel + 1, text, c =>
    if (c.column = 0 && atDocumentMark c.rest) || c.atEnd then none
    else do
      let w ← quotedWord? single c.rest
      let text := text ++ w.text
      let c := c.skip w.length
      -- A line that ends with a backslash goes on in the next one without a space between them.
      let c := if w.continued then (c.skip 1).skipBreak else c
      if c.at? (quoteOf single) then return (text, c.skip 1)
      else
        let (g, c) ← gap? (-1) ⟨w.continued, [], [], []⟩ c
        quotedFrom single fuel (text ++ g.text) c

/-- Reads a quoted scalar whose opening quote stands here. -/
def quoted? (single : Bool) (c : Cursor) : Option (List Char × Cursor) :=
  quotedFrom single (c.rest.length + 1) [] (c.skip 1)

/-! ## Block scalars -/

/-- What happens to the line breaks at the end of a block. -/
inductive Chomping where
  /-- One is kept. -/
  | clip
  /-- None is kept. -/
  | strip
  /-- All are kept. -/
  | keep
  deriving DecidableEq, Repr

def chomping? : List Char → Option Chomping
  | '+' :: _ => some .keep
  | '-' :: _ => some .strip
  | _ => none

/-- The digit of an indentation indicator, which is not zero. -/
def indentDigit? : List Char → Option (Option Nat)
  | c :: _ =>
    if '1' ≤ c && c ≤ '9' then some (some (c.toNat - '0'.toNat))
    else if c = '0' then none
    else some none
  | [] => some none

/-- The chomping and the indentation that stand behind the indicator of a block, in either order. -/
def blockHeader? (c : Cursor) : Option (Chomping × Option Nat × Cursor) :=
  match chomping? c.rest with
  | some ch => do
    let c := c.skip 1
    let d ← indentDigit? c.rest
    return (ch, d, if d.isSome then c.skip 1 else c)
  | none => do
    let d ← indentDigit? c.rest
    let c := if d.isSome then c.skip 1 else c
    match d, chomping? c.rest with
    | some _, some ch => return (ch, d, c.skip 1)
    | _, _ => return (.clip, d, c)

/-- The empty lines of a block, and the indentation of its text, zero standing for one not known yet. -/
structure BlockBreaks where
  /-- The breaks of the empty lines. -/
  breaks : List Char
  indent : Nat
  /-- The place behind the indentation of the line that follows. -/
  cursor : Cursor

/-- Whether the indentation of a block reaches further than a column. -/
def indentBeyond (indent column : Nat) : Bool := indent = 0 || column < indent

/-- The blanks at the start of a line that belong to the indentation of a block. -/
def indentBlanks (indent : Nat) (c : Cursor) : Nat :=
  let n := (c.word (· == ' ')).length
  if indent = 0 then n else min n (indent - c.column)

/-- Reads empty lines on; `widest` is the widest indentation among them. -/
def blockBreaksFrom (parent : Int) (indent : Nat) :
    Nat → Nat → List Char → Cursor → Option BlockBreaks
  | 0, _, _, _ => none
  | fuel + 1, widest, breaks, c =>
    let c := c.skip (indentBlanks indent c)
    let widest := max widest c.column
    if indentBeyond indent c.column && c.at? '\t' then none
    else if startsWhere isBreak c.rest then
      blockBreaksFrom parent indent fuel widest (breaks ++ c.breakHere) c.skipBreak
    else
      -- The text stands further in than the collection around it, and never in the first column.
      let found := max widest (max (parent + 1).toNat 1)
      some ⟨breaks, if indent = 0 then found else indent, c⟩

/-- Reads the empty lines of a block. -/
def blockBreaks? (parent : Int) (indent : Nat) (c : Cursor) : Option BlockBreaks :=
  blockBreaksFrom parent indent (c.rest.length + 1) 0 [] c

/-- What has been read of a block in front of a line of its text. -/
structure BlockText where
  text : List Char
  /-- The break at the end of the last line. -/
  lastBreak : List Char
  /-- Whether the last line starts with a blank. -/
  blankBefore : Bool
  /-- The breaks of the empty lines since. -/
  breaks : List Char

/-- The text with the breaks in front of a line; between two lines of a folded block a break is a space. -/
def BlockText.joined (literal : Bool) (b : BlockText) (startsBlank : Bool) : List Char :=
  if !literal && b.lastBreak.head? = some '\n' && !b.blankBefore && !startsBlank then
    b.text ++ (if b.breaks.isEmpty then [' '] else b.breaks)
  else b.text ++ b.lastBreak ++ b.breaks

/-- The text of a block after its last line. -/
def BlockText.chomped (chomping : Chomping) (b : BlockText) : List Char :=
  match chomping with
  | .strip => b.text
  | .clip => b.text ++ b.lastBreak
  | .keep => b.text ++ b.lastBreak ++ b.breaks

def blockLines (literal : Bool) (parent : Int) (indent : Nat) :
    Nat → BlockText → Cursor → Option (BlockText × Cursor)
  | 0, b, c => some (b, c)
  | fuel + 1, b, c =>
    if c.column = indent && !c.atEnd then do
      let startsBlank := startsWhere isGap c.rest
      let line := c.word fun ch => !isBreak ch
      let text := b.joined literal startsBlank ++ line
      let c := c.skip line.length
      let next ← blockBreaks? parent indent c.skipBreak
      blockLines literal parent indent fuel ⟨text, c.breakHere, startsBlank, next.breaks⟩ next.cursor
    else some (b, c)

/-- Reads a block whose indicator stands here, in a collection indented by `parent`. -/
def block? (literal : Bool) (parent : Int) (c : Cursor) : Option (List Char × Cursor) := do
  let (chomping, digit, c) ← blockHeader? (c.skip 1)
  let c := c.skipTrailer
  if !atLineEnd c.rest then none
  else
    let c := c.skipBreak
    let indent := match digit with
      | some d => if 0 ≤ parent then parent.toNat + d else d
      | none => 0
    let start ← blockBreaks? parent indent c
    let (b, c) ← blockLines literal parent start.indent (c.rest.length + 1)
      ⟨[], [], false, start.breaks⟩ start.cursor
    return (b.chomped chomping, c)

end Phrasebook.Yaml
