import Phrasebook.Text.Basic
import Phrasebook.Name.Identifier

/-!
# Tags as they are written in a source

A parameter list is written as the tag of a value, and holds characters that a tag may not hold. Before a YAML
source is read, the tags of its values are therefore rewritten: what a tag may not hold is written as escaped
octets, and a tag between angle brackets is written without them.

The rewriting goes line by line. It leaves the text of block scalars alone, and it knows a tag only at the start of
a value: behind the colon of a key, or at the start of the line after one.

- `normalizeToken?` is the rewritten form of one tag.
- `normalizeTags` rewrites a text.
-/

namespace Phrasebook.SourceTag

open Phrasebook.Text Phrasebook.Name

/-! ## One tag -/

/-- The characters besides letters and digits that a tag may hold. -/
def tagMarks : List Char := "-_;/?:@&=+$.%!~*'()".toList

/-- Whether a tag may hold a character as it is. -/
def isTagChar (c : Char) : Bool := isAlphanumeric c || tagMarks.contains c

def escapedOctet (octet : Nat) : List Char :=
  ['%', (Nat.digitChar (octet / 16)).toUpper, (Nat.digitChar (octet % 16)).toUpper]

/-- A character of a tag as it may be written. -/
def writtenChar (c : Char) : List Char :=
  if isTagChar c then [c]
  else (String.ofList [c]).toUTF8.toList.flatMap fun b => escapedOctet b.toNat

/-- The parameter list that a tag spells, unless the tag is one to be left alone. -/
def payload? (token : List Char) : Option (List Char) :=
  match dropStart? ['!', '<'] token with
  | some behind =>
    match dropEnd? ['>'] behind with
    | none => none
    | some inner =>
      if (dropStart? ['t', 'a', 'g', ':'] inner).isSome then none
      else some ((dropStart? ['!'] inner).getD inner)
  | none => some (token.drop 1)

/-- The form of a tag that a value may have, when it differs from the tag. -/
def normalizeToken? (token : List Char) : Option (List Char) :=
  if token = ['!'] || (dropStart? ['!', '!'] token).isSome then none
  else match payload? token with
    | none => none
    | some payload =>
      let written := '!' :: payload.flatMap writtenChar
      if written = token then none else some written

/-! ## The value of a line -/

/-- The text behind the closing quote that completes a quoted key, with the quoted part. -/
def quotedKey (quote : Char) : List Char → List Char × List Char
  | [] => ([], [])
  | '\\' :: c :: cs =>
    if quote = '"' then
      let r := quotedKey quote cs
      ('\\' :: c :: r.1, r.2)
    else if c = quote then (['\\', c], cs)
    else
      let r := quotedKey quote cs
      ('\\' :: c :: r.1, r.2)
  | c :: cs =>
    if c = quote then ([c], cs)
    else
      let r := quotedKey quote cs
      (c :: r.1, r.2)

/-- A text behind a key with its colon and the blanks after it, cut in front of the value. -/
def afterKey (blankBefore : Bool) : List Char → Option (List Char × List Char)
  | [] => none
  | ':' :: cs =>
    match cs with
    | [] => some ([':'], [])
    | c :: _ =>
      if c = ' ' || c = '\t' then some (':' :: cs.takeWhile isBlank, cs.dropWhile isBlank)
      else (afterKey false cs).map fun r => (':' :: r.1, r.2)
  | c :: cs =>
    if c = '#' && blankBefore then none
    else (afterKey (c = ' ') cs).map fun r => (c :: r.1, r.2)

/-- The text of a line without its indentation, cut in front of the value of its key, if it has one. -/
def valueOf? (s : List Char) : Option (List Char × List Char) :=
  match s with
  | c :: cs =>
    if c = '"' || c = '\'' then
      let r := quotedKey c cs
      (afterKey false r.2).map fun v => (c :: (r.1 ++ v.1), v.2)
    else afterKey false s
  | [] => none

/-! ## Lines -/

/-- What the lines read so far mean for the next one. -/
structure LineState where
  /-- The indentation of the key whose block scalar is being read. -/
  blockParent : Option Nat
  /-- The indentation of the key whose value may start on this line. -/
  pending : Option Nat
  deriving DecidableEq, Repr

/-- The state in front of the first line. -/
def LineState.start : LineState := ⟨none, some 0⟩

/-- A line of a text, in its parts. -/
structure Line where
  /-- The blanks in front. -/
  indent : Nat
  /-- The text behind them. -/
  body : List Char
  /-- The characters that end the line. -/
  ending : List Char
  deriving DecidableEq, Repr

def Line.chars (l : Line) : List Char := List.replicate l.indent ' ' ++ l.body ++ l.ending

def isLineEnd (c : Char) : Bool := c = '\n' || c = '\r'

def Line.ofChars (s : List Char) : Line :=
  let ending := (s.reverse.takeWhile isLineEnd).reverse
  let text := (s.reverse.dropWhile isLineEnd).reverse
  ⟨(text.takeWhile (· == ' ')).length, text.dropWhile (· == ' '), ending⟩

/-- Whether a text has nothing of its own: it is empty or a comment. -/
def isVoid : List Char → Bool
  | [] => true
  | c :: _ => c = '#'

/-- Whether a text starts with the indicator of a block scalar. -/
def startsBlock : List Char → Bool
  | [] => false
  | c :: _ => c = '|' || c = '>'

/-- Rewrites the value of a line, `before` being the part in front of it and `parent` the indentation of its key. -/
def rewriteValue (st : LineState) (parent indent : Nat) (before value : List Char) :
    List Char × LineState :=
  match value with
  | '!' :: _ =>
    let token := value.takeWhile fun c => !isBlank c
    let behind := value.dropWhile fun c => !isBlank c
    let next := trimStart behind
    -- A tag alone on its line belongs to the value on a line after it.
    let st := if isVoid next then { st with pending := some parent } else st
    let st := if startsBlock next then { st with blockParent := some parent } else st
    (before ++ (normalizeToken? token).getD token ++ behind, st)
  | _ =>
    let st := if isVoid value then { st with pending := some indent } else st
    let st := if startsBlock value then { st with blockParent := some parent } else st
    (before ++ value, st)

/-- Rewrites a line outside block scalars that is neither empty nor a comment. -/
def rewriteBody (st : LineState) (indent : Nat) (body : List Char) : List Char × LineState :=
  let passed : LineState := { st with pending := none }
  match st.pending, body with
  | some parent, '!' :: _ => rewriteValue passed parent indent [] body
  | _, _ =>
    match valueOf? body with
    | some (before, value) => rewriteValue passed indent indent before value
    | none => (body, passed)

/-- Whether a line belongs to the block scalar that is being read. -/
def inBlock (st : LineState) (l : Line) : Bool :=
  match st.blockParent with
  | some parent => l.body.isEmpty || parent < l.indent
  | none => false

def rewriteLine (st : LineState) (l : Line) : Line × LineState :=
  if inBlock st l then (l, st)
  else
    let st : LineState := { st with blockParent := none }
    if isVoid l.body then (l, st)
    else if l.body = ['-', '-', '-'] then (l, { st with pending := some 0 })
    else
      let r := rewriteBody st l.indent l.body
      ({ l with body := r.1 }, r.2)

/-- Rewrites lines in order. -/
def rewriteLines (st : LineState) : List Line → List Line
  | [] => []
  | l :: ls =>
    let r := rewriteLine st l
    r.1 :: rewriteLines r.2 ls

/-- The lines of a text, each with its line feed. -/
def linesOf : List Char → List (List Char)
  | [] => []
  | c :: cs =>
    if c = '\n' then [c] :: linesOf cs
    else match linesOf cs with
      | [] => [[c]]
      | l :: ls => (c :: l) :: ls

def normalizeTags (s : List Char) : List Char :=
  (rewriteLines .start ((linesOf s).map .ofChars)).flatMap Line.chars

end Phrasebook.SourceTag
