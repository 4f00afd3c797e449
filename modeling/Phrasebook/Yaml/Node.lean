import Phrasebook.Yaml.Token

/-!
# From tokens to nodes

A node is a scalar, a collection or a reference to an earlier node; it may have a name and a tag. A text holds at
most one document, and `document?` gives its node. An empty text has none.

Where the grammar leaves a node out, an empty plain scalar stands in its place.
-/

namespace Phrasebook.Yaml

/-- The name and the tag in front of a node. -/
structure Properties where
  /-- The name by which references mean the node. -/
  anchor : Option (List Char)
  /-- The tag, with its abbreviation resolved. -/
  tag : Option TagText
  deriving DecidableEq, Repr

/-- No name and no tag. -/
def Properties.none : Properties := ⟨.none, .none⟩

/-- Whether there is a name or a tag. -/
def Properties.any (p : Properties) : Bool := p.anchor.isSome || p.tag.isSome

/-- A node of a document. -/
inductive Node where
  /-- A text, and whether it is written plainly. -/
  | scalar (props : Properties) (text : List Char) (plain : Bool)
  /-- Nodes in order. -/
  | sequence (props : Properties) (items : List Node)
  /-- Pairs of a key and a value, in order. -/
  | mapping (props : Properties) (entries : List (Node × Node))
  /-- The earlier node of a name. -/
  | reference (name : List Char)
  deriving Repr, Inhabited

namespace Node

/-- What stands where a node is left out. -/
def absent : Node := .scalar .none [] true

abbrev Handles := List (List Char × TagText)

/-- The abbreviations that every document has. -/
def standardHandles : Handles :=
  [(['!'], [some '!']), (['!', '!'], "tag:yaml.org,2002:".toList.map some)]

/-! ## Properties -/

def resolveTag? (handles : Handles) (handle : List Char) (suffix : TagText) : Option TagText :=
  if handle.isEmpty then some suffix else (handles.lookup handle).map (· ++ suffix)

/-- Reads the name and the tag in front of a node, in either order. -/
def properties? (handles : Handles) : List Token → Option (Properties × List Token)
  | .anchor a :: .tag h s :: ts => (resolveTag? handles h s).map fun t => (⟨some a, some t⟩, ts)
  | .tag h s :: .anchor a :: ts => (resolveTag? handles h s).map fun t => (⟨some a, some t⟩, ts)
  | .anchor a :: ts => some (⟨some a, none⟩, ts)
  | .tag h s :: ts => (resolveTag? handles h s).map fun t => (⟨none, some t⟩, ts)
  | ts => some (.none, ts)

/-! ## Grammar -/

/-- The contexts a node may stand in. -/
inductive Context where
  /-- Within brackets. -/
  | flow
  /-- Among lines. -/
  | block
  /-- Among lines, where items may be indented no further than the key they belong to. -/
  | blockOrIndentless
  deriving DecidableEq, Repr

def next (p : Token → Bool) : List Token → Bool
  | [] => false
  | t :: _ => p t

/-- Tokens before which an item of a block sequence is left out. -/
def endsBlockItem (t : Token) : Bool := t = .blockEntry || t = .blockEnd

/-- Tokens before which an item of a sequence without indentation is left out. -/
def endsIndentlessItem (t : Token) : Bool :=
  t = .blockEntry || t = .key || t = .value || t = .blockEnd

/-- Tokens before which a key or a value of a block mapping is left out. -/
def endsBlockField (t : Token) : Bool := t = .key || t = .value || t = .blockEnd

/-- Tokens before which a key within brackets is left out. -/
def endsFlowKey (close t : Token) : Bool := t = .value || t = .flowEntry || t = close

/-- Tokens before which a value within brackets is left out. -/
def endsFlowValue (close t : Token) : Bool := t = .flowEntry || t = close

/-- The tokens of the next item within brackets: behind a comma, unless it is the first one. -/
def flowItem? (first : Bool) : List Token → Option (List Token)
  | .flowEntry :: ts => if first then some (.flowEntry :: ts) else some ts
  | ts => if first then some ts else none

/-- A node of which only the properties are written. -/
def bare? (props : Properties) (ts : List Token) : Option (Node × List Token) :=
  if props.any then some (.scalar props [] true, ts) else none

mutual

def node? (handles : Handles) (context : Context) : Nat → List Token → Option (Node × List Token)
  | 0, _ => none
  | _ + 1, .reference name :: ts => some (.reference name, ts)
  | fuel + 1, ts => match properties? handles ts with
    | none => none
    | some (props, ts) => match ts with
      | .scalar text plain :: ts => some (.scalar props text plain, ts)
      | .flowSequenceStart :: ts =>
        (flowItems? handles true fuel ts).map fun r => (.sequence props r.1, r.2)
      | .flowMappingStart :: ts =>
        (flowFields? handles true fuel ts).map fun r => (.mapping props r.1, r.2)
      | .blockSequenceStart :: ts' =>
        if context = .flow then bare? props (.blockSequenceStart :: ts')
        else (blockItems? handles fuel ts').map fun r => (.sequence props r.1, r.2)
      | .blockMappingStart :: ts' =>
        if context = .flow then bare? props (.blockMappingStart :: ts')
        else (blockFields? handles fuel ts').map fun r => (.mapping props r.1, r.2)
      | .blockEntry :: ts' =>
        if context = .blockOrIndentless then
          (indentlessItems? handles fuel (.blockEntry :: ts')).map fun r => (.sequence props r.1, r.2)
        else bare? props (.blockEntry :: ts')
      | ts => bare? props ts

def blockItems? (handles : Handles) : Nat → List Token → Option (List Node × List Token)
  | 0, _ => none
  | fuel + 1, .blockEntry :: ts =>
    if next endsBlockItem ts then
      (blockItems? handles fuel ts).map fun r => (absent :: r.1, r.2)
    else match node? handles .block fuel ts with
      | none => none
      | some (n, ts) => (blockItems? handles fuel ts).map fun r => (n :: r.1, r.2)
  | _ + 1, .blockEnd :: ts => some ([], ts)
  | _ + 1, _ => none

/-- Reads the items of a sequence without indentation. -/
def indentlessItems? (handles : Handles) : Nat → List Token → Option (List Node × List Token)
  | 0, _ => none
  | fuel + 1, .blockEntry :: ts =>
    if next endsIndentlessItem ts then
      (indentlessItems? handles fuel ts).map fun r => (absent :: r.1, r.2)
    else match node? handles .block fuel ts with
      | none => none
      | some (n, ts) => (indentlessItems? handles fuel ts).map fun r => (n :: r.1, r.2)
  | _ + 1, ts => some ([], ts)

/-- Reads a key or a value of a block mapping. -/
def blockField? (handles : Handles) : Nat → List Token → Option (Node × List Token)
  | 0, _ => none
  | fuel + 1, ts =>
    if next endsBlockField ts then some (absent, ts) else node? handles .blockOrIndentless fuel ts

/-- Reads the pairs of a block mapping. -/
def blockFields? (handles : Handles) : Nat → List Token → Option (List (Node × Node) × List Token)
  | 0, _ => none
  | fuel + 1, .key :: ts => match blockField? handles fuel ts with
    | none => none
    | some (k, .value :: ts) => match blockField? handles fuel ts with
      | none => none
      | some (v, ts) => (blockFields? handles fuel ts).map fun r => ((k, v) :: r.1, r.2)
    | some (k, ts) => (blockFields? handles fuel ts).map fun r => ((k, absent) :: r.1, r.2)
  | _ + 1, .blockEnd :: ts => some ([], ts)
  | _ + 1, _ => none

/-- Reads the value within brackets that follows a key. -/
def flowValue? (handles : Handles) (close : Token) : Nat → List Token → Option (Node × List Token)
  | 0, _ => none
  | fuel + 1, .value :: ts =>
    if next (endsFlowValue close) ts then some (absent, ts) else node? handles .flow fuel ts
  | _ + 1, ts => some (absent, ts)

/-- Reads an item of a sequence within brackets that is a single pair. -/
def flowPair? (handles : Handles) : Nat → List Token → Option (Node × List Token)
  | 0, _ => none
  | fuel + 1, ts =>
    -- Where the key is left out, the token that shows it is passed over, be it the colon or not.
    let key := if next (endsFlowKey .flowSequenceEnd) ts then some (absent, ts.drop 1)
      else node? handles .flow fuel ts
    match key with
    | none => none
    | some (k, ts) => (flowValue? handles .flowSequenceEnd fuel ts).map fun r =>
        (.mapping .none [(k, r.1)], r.2)

/-- Reads the items of a sequence within brackets. -/
def flowItems? (handles : Handles) (first : Bool) : Nat → List Token → Option (List Node × List Token)
  | 0, _ => none
  | _ + 1, .flowSequenceEnd :: ts => some ([], ts)
  | fuel + 1, ts => match flowItem? first ts with
    | none => none
    | some (.flowSequenceEnd :: ts) => some ([], ts)
    | some ts =>
      let item := match ts with
        | .key :: ts => flowPair? handles fuel ts
        | ts => node? handles .flow fuel ts
      match item with
      | none => none
      | some (n, ts) => (flowItems? handles false fuel ts).map fun r => (n :: r.1, r.2)

/-- Reads a pair of a mapping within brackets. -/
def flowField? (handles : Handles) : Nat → List Token → Option ((Node × Node) × List Token)
  | 0, _ => none
  | fuel + 1, .key :: ts =>
    let key := if next (endsFlowKey .flowMappingEnd) ts then some (absent, ts)
      else node? handles .flow fuel ts
    match key with
    | none => none
    | some (k, ts) => (flowValue? handles .flowMappingEnd fuel ts).map fun r => ((k, r.1), r.2)
  | fuel + 1, ts => (node? handles .flow fuel ts).map fun r => ((r.1, absent), r.2)

/-- Reads the pairs of a mapping within brackets. -/
def flowFields? (handles : Handles) (first : Bool) :
    Nat → List Token → Option (List (Node × Node) × List Token)
  | 0, _ => none
  | _ + 1, .flowMappingEnd :: ts => some ([], ts)
  | fuel + 1, ts => match flowItem? first ts with
    | none => none
    | some (.flowMappingEnd :: ts) => some ([], ts)
    | some ts => match flowField? handles fuel ts with
      | none => none
      | some (f, ts) => (flowFields? handles false fuel ts).map fun r => (f :: r.1, r.2)

end

/-! ## Documents -/

/-- The directives in front of a document. -/
structure Directives where
  versioned : Bool
  /-- The abbreviations introduced. -/
  handles : Handles

/-- Reads the directives in front of a document. -/
def directives? (d : Directives) : List Token → Option (Directives × List Token)
  | .versionDirective major minor :: ts =>
    if d.versioned || major ≠ 1 || !(minor = 1 || minor = 2) then none
    else directives? { d with versioned := true } ts
  | .tagDirective handle expansion :: ts =>
    if (d.handles.lookup handle).isSome then none
    else directives? { d with handles := d.handles ++ [(handle, expansion)] } ts
  | ts => some (d, ts)

/-- Whether a token shows that a document has a start mark. -/
def startsExplicitly : Token → Bool
  | .versionDirective .. => true
  | .tagDirective .. => true
  | .documentStart => true
  | _ => false

def endsDocument (t : Token) : Bool := startsExplicitly t || t = .documentEnd || t = .streamEnd

/-- Whether nothing but end marks follows. -/
def onlyEnds : List Token → Bool
  | .documentEnd :: ts => onlyEnds ts
  | [.streamEnd] => true
  | _ => false

/-- The number of steps that suffices for a list of tokens: each token is read in at most four. -/
def steps (ts : List Token) : Nat := 4 * ts.length + 4

def content (handles : Handles) (ts : List Token) : Option (Node × List Token) :=
  node? (handles ++ standardHandles) .block (steps ts) ts

/-- Reads a text of at most one document; an empty text gives no node. -/
def document? (ts : List Token) : Option (Option Node) :=
  if ts = [.streamEnd] then some none
  else
    let read :=
      if next startsExplicitly ts then
        match directives? ⟨false, []⟩ ts with
        | some (d, .documentStart :: ts) =>
          -- A start mark without content makes a document of one empty scalar.
          if next endsDocument ts then some (absent, ts) else content d.handles ts
        | _ => none
      else content [] ts
    match read with
    | some (n, ts) => if onlyEnds ts then some (some n) else none
    | none => none

end Node

end Phrasebook.Yaml
