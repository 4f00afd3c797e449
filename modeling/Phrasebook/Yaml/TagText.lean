import Phrasebook.Yaml.Cursor
import Phrasebook.Yaml.Token

/-!
# Written tags, names and directives

How a tag, an anchor and a directive are read. In a tag, `%` and two hexadecimal digits stand for an octet, and the
octets of one character stand together. A tag ends at the first null character, if it has one.

Each function gives what was read and the place behind it, and nothing where the grammar refuses the text.
-/

namespace Phrasebook.Yaml

/-! ## Octets -/

/-- The number of octets of a character by its first octet. -/
def octetCount? (octet : Nat) : Option Nat :=
  if octet < 0x80 then some 1
  else if 0xC0 ≤ octet && octet < 0xE0 then some 2
  else if 0xE0 ≤ octet && octet < 0xF0 then some 3
  else if 0xF0 ≤ octet && octet < 0xF8 then some 4
  else none

/-- The bits that the first of `count` octets adds to a character. -/
def leadingBits (count octet : Nat) : Nat :=
  if count = 1 then octet else octet % Nat.pow 2 (7 - count)

/-- The least code point that takes `count` octets. -/
def leastCode (count : Nat) : Nat :=
  if count = 1 then 0 else if count = 2 then 0x80 else if count = 3 then 0x800 else 0x10000

/-- The character of a code point that was written with `count` octets, unless fewer would do. -/
def charOfOctets (count code : Nat) : Option Char :=
  if h : code.isValidChar then
    if leastCode count ≤ code then some (Char.ofNatAux code h) else none
  else none

/-- The octet of an escape, and the text behind it. -/
def escapedOctet? : List Char → Option (Nat × List Char)
  | '%' :: a :: b :: cs => do
    let a ← hexValue? a
    let b ← hexValue? b
    return (a * 16 + b, cs)
  | _ => none

/-- Reads the further octets of a character. -/
def furtherOctets? : Nat → Nat → List Char → Option (Nat × List Char)
  | 0, code, s => some (code, s)
  | n + 1, code, s => do
    let (octet, s) ← escapedOctet? s
    if 0x80 ≤ octet && octet < 0xC0 then furtherOctets? n (code * 64 + octet % 64) s else none

/-- Reads a character written as escaped octets, with the number of octets and the text behind it. -/
def escapedChar? (s : List Char) : Option (Option Char × Nat × List Char) := do
  let (octet, s) ← escapedOctet? s
  let count ← octetCount? octet
  let (code, s) ← furtherOctets? (count - 1) (leadingBits count octet) s
  return (charOfOctets count code, count, s)

/-! ## Tags -/

/-- A character that may stand in a tag; `verbatim` says whether the tag is written between angle brackets. -/
def isTagChar (verbatim : Bool) (c : Char) : Bool :=
  isWordChar c || ";/?:@&=+$.%!~*'()".toList.contains c || (verbatim && ",[]".toList.contains c)

/-- Reads the characters of a tag on, with the number of characters they are written with. -/
def tagCharsFrom? (verbatim : Bool) : Nat → List Char → Option (TagText × Nat)
  | 0, _ => some ([], 0)
  | _, [] => some ([], 0)
  | fuel + 1, c :: cs =>
    if !isTagChar verbatim c then some ([], 0)
    else if c = '%' then do
      let (ch, octets, s) ← escapedChar? (c :: cs)
      let (text, n) ← tagCharsFrom? verbatim fuel s
      return (ch :: text, 3 * octets + n)
    else (tagCharsFrom? verbatim fuel cs).map fun r => (some c :: r.1, r.2 + 1)

/-- The text of a tag up to its first null character. -/
def untilNull (t : TagText) : TagText := t.takeWhile (· != some '\x00')

/-- Reads the characters of a tag and the place behind them. -/
def tagChars? (verbatim : Bool) (c : Cursor) : Option (TagText × Nat × Cursor) :=
  (tagCharsFrom? verbatim (c.rest.length + 1) c.rest).map fun r => (untilNull r.1, r.2, c.skip r.2)

/-- Reads an exclamation mark and the word behind it, which another mark may end. -/
def handle? (c : Cursor) : Option (List Char × Cursor) :=
  match c.rest with
  | '!' :: cs =>
    let word := cs.takeWhile isWordChar
    let c := c.skip (word.length + 1)
    if c.at? '!' then some ('!' :: (word ++ ['!']), c.skip 1) else some ('!' :: word, c)
  | _ => none

/-- Whether what was read in front of a tag abbreviates the start of the tag. -/
def isHandle (s : List Char) : Bool := 2 ≤ s.length && s.getLast? = some '!'

/-- Reads a tag that is written between angle brackets. -/
def verbatimTag? (c : Cursor) : Option (Token × Cursor) := do
  let (text, n, c) ← tagChars? true (c.skip 2)
  if n = 0 || !c.at? '>' then none else some (.tag [] text, c.skip 1)

/-- Reads a tag that may start with an abbreviation. -/
def shorthandTag? (c : Cursor) : Option (Token × Cursor) := do
  let (h, c) ← handle? c
  let (text, n, c) ← tagChars? false c
  if isHandle h then
    if n = 0 then none else some (.tag h text, c)
  else
    let suffix := untilNull (h.tail.map some ++ text)
    if suffix.isEmpty then some (.tag [] [some '!'], c) else some (.tag ['!'] suffix, c)

/-- Reads a tag that starts here; `flow` says whether it stands within brackets. -/
def tag? (flow : Bool) (c : Cursor) : Option (Token × Cursor) := do
  let (t, c) ← if startsWhere (· == '<') (c.rest.drop 1) then verbatimTag? c else shorthandTag? c
  if (flow && c.at? ',') || atWordEnd c.rest then some (t, c) else none

/-! ## Names -/

/-- A character that may follow a name directly. -/
def endsName (s : List Char) : Bool := atWordEnd s || startsWhere ("?:,]\x7d%@\x60".toList.contains ·) s

/-- Reads the name behind an anchor's or a reference's mark. -/
def name? (c : Cursor) : Option (List Char × Cursor) :=
  let c := c.skip 1
  let word := c.word isWordChar
  let c := c.skip word.length
  if word.isEmpty || !endsName c.rest then none else some (word, c)

/-! ## Directives -/

/-- The greatest number of digits of a part of a version. -/
def maxVersionDigits : Nat := 9

def versionPart? (c : Cursor) : Option (Nat × Cursor) :=
  let ds := c.word fun ch => '0' ≤ ch && ch ≤ '9'
  if ds.isEmpty || maxVersionDigits < ds.length then none
  else some (ds.foldl (fun n d => n * 10 + (d.toNat - '0'.toNat)) 0, c.skip ds.length)

def versionDirective? (c : Cursor) : Option (Token × Cursor) := do
  let (major, c) ← versionPart? (c.skipWhile isGap)
  if !c.at? '.' then none
  else
    let (minor, c) ← versionPart? (c.skip 1)
    return (.versionDirective major minor, c)

/-- Reads the abbreviation that a directive introduces. -/
def tagDirective? (c : Cursor) : Option (Token × Cursor) := do
  let (h, c) ← handle? (c.skipWhile isGap)
  if h ≠ ['!'] && !isHandle h then none
  else if !startsWhere isGap c.rest then none
  else
    let (text, n, c) ← tagChars? true (c.skipWhile isGap)
    if n = 0 || !atWordEnd c.rest then none else some (.tagDirective h text, c)

/-- Reads a directive that starts here, to the end of its line. -/
def directive? (c : Cursor) : Option (Token × Cursor) := do
  let c := c.skip 1
  let name := c.word isWordChar
  let c := c.skip name.length
  if name.isEmpty || !atWordEnd c.rest then none
  else
    let (t, c) ←
      if name = ['Y', 'A', 'M', 'L'] then versionDirective? c
      else if name = ['T', 'A', 'G'] then tagDirective? c
      else none
    let c := c.skipTrailer
    if atLineEnd c.rest then some (t, c.skipBreak) else none

end Phrasebook.Yaml
