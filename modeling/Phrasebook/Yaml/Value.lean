import Phrasebook.Number.Shortest
import Phrasebook.Yaml.Node
import Phrasebook.Yaml.Lexer

/-!
# From nodes to values

A value is what a node means: a plain scalar is null, a boolean, a number or a text by its spelling, references are
replaced by the nodes they mean, and a tag of the application's own stays with its value.

- `Scalar.resolve` says what a plain scalar means.
- `Linked` is a document in which each reference points at a node.
- `Value.read?` reads a text.
-/

namespace Phrasebook.Yaml

/-! ## Values -/

/-- A number. -/
inductive Number where
  /-- A whole number of 64 bits. -/
  | integer (value : Int)
  /-- A finite binary64 number. -/
  | float (value : Binary64)
  | infinite (negative : Bool)
  | notNumber
  deriving DecidableEq, Repr

/-- What a node means. -/
inductive Value where
  /-- Nothing. -/
  | null
  /-- A truth value. -/
  | bool (value : Bool)
  | number (value : Number)
  | string (text : String)
  /-- Values in order. -/
  | sequence (items : List Value)
  /-- Pairs of a key and a value, in the order of the document, no two keys being alike. -/
  | mapping (entries : List (Value × Value))
  /-- A value with a tag of the application's own. -/
  | tagged (tag : String) (value : Value)
  deriving Repr, Inhabited

/-! ## Alike values -/

namespace Number

/-- Whether two numbers are alike: the two zeros are. -/
def alike : Number → Number → Bool
  | .float x, .float y => x == y || (x.isZero && y.isZero)
  | x, y => x == y

/-- Positional between `1e-5` and `1e16`, and no sign in front of a positive exponent. -/
def layout : Layout := ⟨-5, 16, false⟩

def text : Number → String
  | .integer n =>
    String.ofList (if n < 0 then '-' :: Layout.natDigits n.natAbs else Layout.natDigits n.natAbs)
  | .float x => String.ofList (layout.text x)
  | .infinite true => "-.inf"
  | .infinite false => ".inf"
  | .notNumber => ".nan"

end Number

namespace Value

mutual

/-- Whether two values are alike; the order of the pairs of a mapping does not count. -/
def alike : Value → Value → Bool
  | .null, .null => true
  | .bool a, .bool b => a == b
  | .number a, .number b => a.alike b
  | .string a, .string b => a == b
  | .sequence as, .sequence bs => alikeItems as bs
  | .mapping es, .mapping fs => es.length == fs.length && alikeWithin es fs
  | .tagged t a, .tagged t' b => t == t' && alike a b
  | _, _ => false
termination_by structural a => a

def alikeItems : List Value → List Value → Bool
  | [], [] => true
  | a :: as, b :: bs => alike a b && alikeItems as bs
  | _, _ => false
termination_by structural as => as

/-- Whether each pair has one like it in another list. -/
def alikeWithin : List (Value × Value) → List (Value × Value) → Bool
  | [], _ => true
  | (k, v) :: es, fs => fs.any (fun f => alike k f.1 && alike v f.2) && alikeWithin es fs
termination_by structural es => es

end

end Value

/-! ## Spellings of plain scalars -/

namespace Scalar

/-- Whether a text is a spelling of null. -/
def isNull (s : String) : Bool := ["null", "Null", "NULL", "~"].contains s

/-- The boolean that a text spells. -/
def bool? (s : String) : Option Bool :=
  if ["true", "True", "TRUE"].contains s then some true
  else if ["false", "False", "FALSE"].contains s then some false
  else none

def digitIn? (base : Nat) (c : Char) : Option Nat :=
  (hexValue? c).bind fun d => if d < base then some d else none

def digits? (base : Nat) (s : List Char) : Option Nat :=
  if s.isEmpty then none
  else s.foldl (fun n c => n.bind fun n => (digitIn? base c).map (n * base + ·)) (some 0)

/-- A sign and a zero in front of further digits make a text, not a number. -/
def isPaddedDigits (s : List Char) : Bool :=
  let t := match s with
    | '-' :: r => r
    | '+' :: r => r
    | r => r
  match t with
  | '0' :: c :: cs => (c :: cs).all fun c => '0' ≤ c && c ≤ '9'
  | _ => false

/-- The number of digits behind the letter of a base. -/
def basedDigits? : List Char → Option Nat
  | '0' :: 'x' :: cs => digits? 16 cs
  | '0' :: 'o' :: cs => digits? 8 cs
  | '0' :: 'b' :: cs => digits? 2 cs
  | _ => none

/-- The whole number that a text spells, with or without a sign. -/
def integer? (s : List Char) : Option Int :=
  match s with
  | '-' :: r =>
    match basedDigits? r with
    | some n => some (-(n : Int))
    | none => if isPaddedDigits s then none else (digits? 10 r).map fun n => -(n : Int)
  | _ =>
    let r := match s with
      | '+' :: r => r
      | r => r
    match basedDigits? r with
    | some n => some n
    | none => if isPaddedDigits s then none else (digits? 10 r).map fun n => (n : Int)

/-- Whether a number needs more than 64 bits. -/
def isWide (n : Int) : Bool := n < -Int.pow 2 63 || Int.pow 2 64 ≤ n

/-- Whether a number needs more than 128 bits. -/
def isVeryWide (n : Int) : Bool := n < -Int.pow 2 127 || Int.pow 2 128 ≤ n

/-- The exponent that a text spells, with the letter in front. -/
def exponent? : List Char → Option Int
  | [] => some 0
  | c :: cs =>
    if c = 'e' || c = 'E' then
      match cs with
      | '-' :: r => (digits? 10 r).map fun n => -(n : Int)
      | '+' :: r => (digits? 10 r).map fun n => (n : Int)
      | r => (digits? 10 r).map fun n => (n : Int)
    else none

def isDigit (c : Char) : Bool := '0' ≤ c && c ≤ '9'

/-- The finite number that a text spells in decimal, without its sign. -/
def decimal? (negative : Bool) (s : List Char) : Option Binary64 :=
  let whole := s.takeWhile isDigit
  let rest := s.dropWhile isDigit
  let (fraction, rest) := match rest with
    | '.' :: r => (r.takeWhile isDigit, r.dropWhile isDigit)
    | r => ([], r)
  if whole.isEmpty && fraction.isEmpty then none
  else do
    let significand ← digits? 10 (whole ++ fraction)
    let exponent ← exponent? rest
    Binary64.ofDecimal negative significand (exponent - fraction.length)

/-- The number that a text spells in decimal or by a word. -/
def float? (s : List Char) : Option Number :=
  let unsigned := match s with
    | '+' :: r => r
    | r => r
  let word := String.ofList unsigned
  let whole := String.ofList s
  if s.head? = some '+' && (unsigned.head? = some '+' || unsigned.head? = some '-') then none
  else if [".inf", ".Inf", ".INF"].contains word then some (.infinite false)
  else if ["-.inf", "-.Inf", "-.INF"].contains whole then some (.infinite true)
  else if [".nan", ".NaN", ".NAN"].contains whole then some .notNumber
  else match unsigned with
    | '-' :: r => (decimal? true r).map .float
    | r => (decimal? false r).map .float

/-- The value of a whole number, unless it needs more than 64 bits. -/
def ofInteger? (n : Int) : Option Value := if isWide n then none else some (.number (.integer n))

/-- What a plain scalar means; a whole number between 64 and 128 bits means nothing. -/
def resolve (s : String) : Option Value :=
  if s.isEmpty || isNull s then some .null
  else match bool? s with
    | some b => some (.bool b)
    | none =>
      let number := match integer? s.toList with
        | some n => if isVeryWide n then none else some n
        | none => none
      match number with
      | some n => ofInteger? n
      | none =>
        -- Zeros in front of digits make a text here; `integer?` has refused them for the same reason.
        if isPaddedDigits s.toList then some (.string s)
        else match float? s.toList with
          | some x => some (.number x)
          | none => some (.string s)

/-! ## Tags -/

/-- The text of a tag, unless an escape in it encodes no character. -/
def tagText? (t : TagText) : Option (List Char) := t.mapM id

/-- The application's own tag that a node has, without its mark. -/
def ownTag? (t : Option TagText) : Option String :=
  match t with
  | some (some '!' :: rest) =>
    (tagText? (if rest.isEmpty then [some '!'] else rest)).map String.ofList
  | _ => none

def standardTag (kind : String) : TagText := ("tag:yaml.org,2002:" ++ kind).toList.map some

/-- What a scalar with a tag means, the tag being none of the application's own. -/
def resolveTagged (tag : TagText) (s : String) (plain : Bool) : Option Value :=
  if tag = standardTag "bool" then (bool? s).map .bool
  else if tag = standardTag "int" then
    match integer? s.toList with
    | some n => ofInteger? n
    | none => none
  else if tag = standardTag "float" then (float? s.toList).map .number
  else if tag = standardTag "null" then if isNull s then some .null else none
  else if tag.head? = some (some '!') && plain then resolve s
  else some (.string s)

/-- What a scalar means; `passed` says that its tag has been dealt with. -/
def value? (passed : Bool) (tag : Option TagText) (s : String) (plain : Bool) : Option Value :=
  match tag, passed with
  | some t, false => resolveTagged t s plain
  | _, _ => if plain then resolve s else some (.string s)

end Scalar

/-! ## References -/

/-- A node in which references and names are numbers. -/
inductive Linked where
  /-- A text, and whether it is written plainly. -/
  | scalar (anchor : Option Nat) (tag : Option TagText) (text : String) (plain : Bool)
  /-- Nodes in order. -/
  | sequence (anchor : Option Nat) (tag : Option TagText) (items : List Linked)
  /-- Pairs in order. -/
  | mapping (anchor : Option Nat) (tag : Option TagText) (entries : List (Linked × Linked))
  /-- The node of a number. -/
  | reference (anchor : Nat)
  deriving Repr, Inhabited

namespace Linked

/-- The names met so far, with their numbers. -/
abbrev Names := List (List Char × Nat)

/-- The names with one more; its number is the number of different names before it. -/
def define (names : Names) (anchor : Option (List Char)) : Option Nat × Names :=
  match anchor with
  | none => (none, names)
  | some a => (some names.length, (a, names.length) :: names.filter fun e => e.1 ≠ a)

mutual

/-- Replaces names by numbers, in the order of the document; a reference needs an earlier name. -/
def ofNode? (names : Names) : Node → Option (Linked × Names)
  | .scalar p text plain =>
    let (a, names) := define names p.anchor
    some (.scalar a p.tag (String.ofList text) plain, names)
  | .sequence p items =>
    let (a, names) := define names p.anchor
    (ofItems? names items).map fun r => (.sequence a p.tag r.1, r.2)
  | .mapping p entries =>
    let (a, names) := define names p.anchor
    (ofEntries? names entries).map fun r => (.mapping a p.tag r.1, r.2)
  | .reference name => (names.lookup name).map fun n => (.reference n, names)
termination_by structural n => n

/-- Replaces the names of nodes in order. -/
def ofItems? (names : Names) : List Node → Option (List Linked × Names)
  | [] => some ([], names)
  | n :: ns => match ofNode? names n with
    | none => none
    | some (l, names) => (ofItems? names ns).map fun r => (l :: r.1, r.2)
termination_by structural ns => ns

/-- Replaces the names of pairs in order. -/
def ofEntries? (names : Names) : List (Node × Node) → Option (List (Linked × Linked) × Names)
  | [] => some ([], names)
  | (k, v) :: es => match ofNode? names k with
    | none => none
    | some (lk, names) => match ofNode? names v with
      | none => none
      | some (lv, names) => (ofEntries? names es).map fun r => ((lk, lv) :: r.1, r.2)
termination_by structural es => es

end

mutual

/-- The nodes with a number, in the order of the document. -/
def named : Linked → List (Nat × Linked)
  | .scalar a t s p => (a.map fun n => (n, Linked.scalar a t s p)).toList
  | .sequence a t items => (a.map fun n => (n, Linked.sequence a t items)).toList ++ namedItems items
  | .mapping a t entries =>
    (a.map fun n => (n, Linked.mapping a t entries)).toList ++ namedEntries entries
  | .reference _ => []
termination_by structural n => n

/-- The nodes with a number among nodes in order. -/
def namedItems : List Linked → List (Nat × Linked)
  | [] => []
  | n :: ns => named n ++ namedItems ns
termination_by structural ns => ns

/-- The nodes with a number among pairs in order. -/
def namedEntries : List (Linked × Linked) → List (Nat × Linked)
  | [] => []
  | (k, v) :: es => named k ++ named v ++ namedEntries es
termination_by structural es => es

end

mutual

/-- The number of marks in a document: a collection has two, every other node one. -/
def marks : Linked → Nat
  | .scalar .. => 1
  | .sequence _ _ items => 2 + marksOfItems items
  | .mapping _ _ entries => 2 + marksOfEntries entries
  | .reference _ => 1
termination_by structural n => n

/-- The number of marks of nodes in order. -/
def marksOfItems : List Linked → Nat
  | [] => 0
  | n :: ns => marks n + marksOfItems ns
termination_by structural ns => ns

/-- The number of marks of pairs in order. -/
def marksOfEntries : List (Linked × Linked) → Nat
  | [] => 0
  | (k, v) :: es => marks k + marks v + marksOfEntries es
termination_by structural es => es

end

end Linked

/-! ## Values of a document -/

/-- What the references of a document mean. -/
structure Targets where
  /-- The nodes with a number, the later ones first. -/
  nodes : List (Nat × Linked)
  /-- The number of references that may be followed. -/
  limit : Nat

/-- The values of a list, by a function that counts the references it follows. -/
def collect {α β : Type} (f : α → Nat → Option (β × Nat)) : List α → Nat → Option (List β × Nat)
  | [], jumps => some ([], jumps)
  | a :: as, jumps => match f a jumps with
    | none => none
    | some (b, jumps) => (collect f as jumps).map fun r => (b :: r.1, r.2)

/-- Reads pairs after the pairs `seen`; no two keys may be alike. -/
def collectPairs (key value : Linked → Nat → Option (Value × Nat)) (seen : List (Value × Value)) :
    List (Linked × Linked) → Nat → Option (List (Value × Value) × Nat)
  | [], jumps => some (seen, jumps)
  | (k, v) :: es, jumps => match key k jumps with
    | none => none
    | some (k', jumps) =>
      -- A repeated key is refused before its value is read.
      if seen.any fun e => e.1.alike k' then none
      else match value v jumps with
        | none => none
        | some (v', jumps) => collectPairs key value (seen ++ [(k', v')]) es jumps

namespace Value

/-- The value with a tag, when there is one. -/
def withTag (tag : Option String) (r : Value × Nat) : Value × Nat :=
  match tag with
  | some t => (.tagged t r.1, r.2)
  | none => r

/-- The value of the node that is meant, a reference being followed. -/
def follow (targets : Targets) (read : Bool → Linked → Nat → Option (Value × Nat)) (passed : Bool) :
    Linked → Nat → Option (Value × Nat)
  | .reference n, jumps =>
    if targets.limit ≤ jumps then none
    else (targets.nodes.lookup n).bind fun node => read false node (jumps + 1)
  | node, jumps => read passed node jumps

/-- The value of a node that is no reference, collections nesting at most `depth` deep. The tag of a collection
is dealt with for its keys too. -/
def ofLinked? (targets : Targets) : Nat → Bool → Linked → Nat → Option (Value × Nat)
  | _, passed, .scalar _ tag s plain, jumps =>
    let own := if passed then none else Scalar.ownTag? tag
    (Scalar.value? (passed || own.isSome) tag s plain).map fun v => withTag own (v, jumps)
  | _, _, .reference _, _ => none
  | 0, _, _, _ => none
  | depth + 1, passed, .sequence _ tag items, jumps =>
    let own := if passed then none else Scalar.ownTag? tag
    (collect (follow targets (ofLinked? targets depth) false) items jumps).map fun r =>
      withTag own (.sequence r.1, r.2)
  | depth + 1, passed, .mapping _ tag entries, jumps =>
    let own := if passed then none else Scalar.ownTag? tag
    let read := ofLinked? targets depth
    (collectPairs (follow targets read (passed || own.isSome)) (follow targets read false) [] entries jumps).map
      fun r => withTag own (.mapping r.1, r.2)

/-- How deep collections may nest. -/
def maxDepth : Nat := 128

/-- How many references may be followed for each mark of a document. -/
def jumpsPerMark : Nat := 100

def ofNode? (n : Node) : Option Value :=
  (Linked.ofNode? [] n).bind fun r =>
    let targets : Targets := ⟨r.1.named.reverse, jumpsPerMark * r.1.marks⟩
    (follow targets (ofLinked? targets maxDepth) false r.1 0).map (·.1)

/-- Reads a text of at most one document; an empty text is null. -/
def read? (s : List Char) : Option Value :=
  match (tokens? s).bind Node.document? with
  | none => none
  | some none => some .null
  | some (some n) => ofNode? n

end Value

end Phrasebook.Yaml
