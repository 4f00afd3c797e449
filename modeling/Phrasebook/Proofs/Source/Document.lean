import Phrasebook.Source.Reader

/-!
# Documents of a source

The tree of a source is read off a document, the source with its tags rewritten. A document with one scalar under
the key `k` is read by what the scalar means.
-/

namespace Phrasebook

open Phrasebook.Text

/-! ## §1 Reading without rewriting -/

namespace SourceTree

/-- The tree of a document. -/
def readDocument (s : List Char) : Except SourceError SourceTree :=
  match Yaml.Value.read? s with
  | none => .error .malformed
  | some .null => .ok empty
  | some v => ofYaml none "" v

/-- The tree of a text whose tags are left as they are. -/
def readAsWritten (text : String) : Except SourceError SourceTree :=
  if allBlank text then .ok empty else readDocument text.toList

theorem readYaml_eq_readDocument {text : String} (h : allBlank text = false) :
    readYaml text = readDocument (SourceTag.normalizeTags text.toList) := by
  rw [readYaml, h]
  rfl

theorem readAsWritten_eq_readDocument {text : String} (h : allBlank text = false) :
    readAsWritten text = readDocument text.toList := by
  rw [readAsWritten, h]
  rfl

theorem readYaml_eq_readAsWritten {text : String} (h : SourceTag.normalizeTags text.toList = text.toList) :
    readYaml text = readAsWritten text := by
  rw [readYaml, h]
  rfl

end SourceTree

/-! ## §2 One entry -/

/-- The document of one scalar under the key `k`. -/
def Yaml.Node.entry (p : Yaml.Properties) (text : List Char) (plain : Bool) : Yaml.Node :=
  .mapping .none [(.scalar .none ['k'] true, .scalar p text plain)]

/-- A scalar has its value whatever the references of the document mean. -/
theorem Yaml.Value.follow_scalar {targets : Yaml.Targets} {depth : Nat} {anchor : Option Nat}
    {tag : Option Yaml.TagText} {text : String} {plain : Bool} {v : Yaml.Value} {own : Option String}
    (hown : Yaml.Scalar.ownTag? tag = own) (h : Yaml.Scalar.value? own.isSome tag text plain = some v) (jumps : Nat) :
    follow targets (ofLinked? targets depth) false (.scalar anchor tag text plain) jumps
      = some ((withTag own (v, jumps)).1, jumps) := by
  rw [follow, ofLinked?]
  · simp only [Bool.false_eq_true, ↓reduceIte, hown, Bool.false_or, h, Option.map_some]
    cases own <;> rfl
  · intro n
    exact Yaml.Linked.noConfusion

section Entry

variable {p : Yaml.Properties} {text : List Char} {plain : Bool} {v : Yaml.Value} {own : Option String}
  (hown : Yaml.Scalar.ownTag? p.tag = own)
  (h : Yaml.Scalar.value? own.isSome p.tag (String.ofList text) plain = some v)
include hown h

theorem Yaml.Value.ofLinked?_entry (targets : Yaml.Targets) (depth : Nat) (anchor : Option Nat) :
    ofLinked? targets (depth + 1) false
        (.mapping none none [(.scalar none none "k" true, .scalar anchor p.tag (String.ofList text) plain)]) 0
      = some (.mapping [(.string "k", (withTag own (v, 0)).1)], 0) := by
  have htagless : Yaml.Scalar.ownTag? none = none := rfl
  have hkey : Yaml.Scalar.value? false none "k" true = some (.string "k") := rfl
  show (collectPairs (follow targets (ofLinked? targets depth) false) (follow targets (ofLinked? targets depth) false)
    [] [(.scalar none none "k" true, .scalar anchor p.tag (String.ofList text) plain)] 0).map
      (fun r => withTag none (.mapping r.1, r.2)) = _
  simp only [collectPairs, follow_scalar htagless hkey, follow_scalar hown h]
  rfl

theorem Yaml.Value.ofNode?_entry :
    ofNode? (.entry p text plain) = some (.mapping [(.string "k", (withTag own (v, 0)).1)]) := by
  -- The numbers of names are of no account where no reference is followed.
  obtain ⟨anchor, names, hlinked⟩ : ∃ anchor names, Yaml.Linked.ofNode? [] (.entry p text plain)
      = some (.mapping none none [(.scalar none none "k" true, .scalar anchor p.tag (String.ofList text) plain)],
          names) := by
    obtain ⟨name, tag⟩ := p
    cases name with
    | none => exact ⟨none, [], rfl⟩
    | some a => exact ⟨some 0, [(a, 0)], rfl⟩
  rw [ofNode?, hlinked, Option.bind_some]
  exact congrArg (Option.map (·.1)) (ofLinked?_entry hown h _ 127 anchor)

end Entry

/-- The tree of a text under the key `k`. -/
def SourceTree.entry (leaf : Leaf) : SourceTree := .branch [("k", .leaf leaf)]

theorem SourceTree.readDocument_entry {s : List Char} {shown : String} {own : Option String} (p : Yaml.Properties)
    (text : List Char) (plain : Bool)
    (hdocument : (Yaml.tokens? s).bind Yaml.Node.document? = some (some (.entry p text plain)))
    (hown : Yaml.Scalar.ownTag? p.tag = own)
    (hvalue : Yaml.Scalar.value? own.isSome p.tag (String.ofList text) plain = some (.string shown)) :
    readDocument s = .ok (entry ⟨shown, own.map bareTag⟩) := by
  rw [readDocument, Yaml.Value.read?, hdocument]
  simp only [Yaml.Value.ofNode?_entry hown hvalue]
  cases own <;> rfl

end Phrasebook
