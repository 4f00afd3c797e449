import Phrasebook.Accessor.Table

/-!
# Registries

A registry holds the tables of all contracts, the locales and the types of the properties. The host sets the values
of properties and asks for the provider of a contract, of which there is one: it is made when it is asked for first and
numbered in the order of making.

The values are in a bag. A provider has a handle of the bag and not a copy of its values, so that it reads what the host
has set since the provider was made. A property that is not declared, not set or not accepted by its type leaves its
placeholder as it is.

A host uses a registry by one request after another; `Registry.answer` is one of them, and `Registry.answerAfter` one
behind all requests of a run.
-/

namespace Phrasebook

/-! ## Types -/

/-- The handle of a bag. -/
structure BagHandle where
  number : Nat
  deriving DecidableEq

/-- The values of the properties in each bag. -/
abbrev PropertyBags := BagHandle → KeyMap Json

/-- The tables of all contracts with what they share. -/
structure Registry where
  managerName : String
  locales : List String
  defaultLocale : String
  propertyTypes : KeyMap ParamType
  /-- The bag that the host changes, and that every provider reads. -/
  bag : BagHandle
  tables : KeyMap Table
  deriving DecidableEq

/-- The provider of a contract. -/
structure Provider where
  /-- The number of the provider: no two providers of a registry have the same. -/
  serial : Nat
  table : Table
  propertyTypes : KeyMap ParamType
  bag : BagHandle
  deriving DecidableEq

/-- What changes while a registry is used. -/
structure RegistryState where
  bags : PropertyBags
  /-- The providers made so far, by contract. -/
  providers : KeyMap Provider

/-- What a host asks of a provider. -/
inductive ProviderCall where
  /-- The value of a property. -/
  | property (name : String)
  | render (key locale : String) (args : List Json)
  | renderByName (key locale : String) (args : List (String × Json))
  | invoke (method : String) (args : List Json)

inductive ProviderAnswer where
  | value (found : Except LookupError Json)
  | text (rendered : Except LookupError String)

/-! ## Providers -/

namespace Provider

variable (p : Provider) (bags : PropertyBags)

/-- The value of a declared property. -/
def property (name : String) : Except LookupError Json :=
  match p.propertyTypes.get? name with
  | none => .error (.propertyNotDeclared name)
  | some t => (t.coerce ((bags p.bag).get? name)).mapError fun found => .propertyType name t found

/-- The values that a template sees. -/
def properties : PropertySource := fun name =>
  match p.propertyTypes.get? name, (bags p.bag).get? name with
  | some t, some v => (t.coerce (some v)).toOption
  | _, _ => none

def render (key locale : String) (args : List Json) : Except LookupError String :=
  p.table.render key locale args (p.properties bags)

def renderByName (key locale : String) (args : List (String × Json)) : Except LookupError String :=
  p.table.renderByName key locale args (p.properties bags)

def invoke (method : String) (args : List Json) : Except LookupError String :=
  p.table.invoke method args (p.properties bags)

/-- What a provider answers while the bags have these values. -/
def call : ProviderCall → ProviderAnswer
  | .property name => .value (p.property bags name)
  | .render key locale args => .text (p.render bags key locale args)
  | .renderByName key locale args => .text (p.renderByName bags key locale args)
  | .invoke method args => .text (p.invoke bags method args)

end Provider

/-! ## Registries -/

namespace Registry

/-- The registry of tables, with a bag of its own; of two tables of one contract the later one stays. -/
def ofTables (managerName : String) (locales : List String) (defaultLocale : String)
    (propertyTypes : KeyMap ParamType) (tables : List Table) : Registry :=
  ⟨managerName, locales, defaultLocale, propertyTypes, ⟨0⟩, .ofList (tables.map fun t => (t.contract, t))⟩

/-- The contracts, in the order of their names. -/
def contracts (r : Registry) : List String := r.tables.keys

/-- A registry that nobody has used yet. -/
def fresh : RegistryState := ⟨fun _ => .empty, .empty⟩

/-- The provider that is made next, of a table. -/
def newProvider (r : Registry) (s : RegistryState) (t : Table) : Provider :=
  ⟨s.providers.size, t, r.propertyTypes, r.bag⟩

/-- The provider of a contract, and the state behind the question. -/
def provider (r : Registry) (s : RegistryState) (contract : String) :
    Except LookupError Provider × RegistryState :=
  match s.providers.get? contract with
  | some p => (.ok p, s)
  | none => match r.tables.get? contract with
    | none => (.error (.providerNotFound contract), s)
    | some t =>
      let p := r.newProvider s t
      (.ok p, { s with providers := s.providers.insert contract p })

end Registry

/-! ## Changes -/

namespace RegistryState

/-- The state with other values in a bag. -/
def withBag (s : RegistryState) (bag : BagHandle) (values : KeyMap Json) : RegistryState :=
  { s with bags := fun b => if b = bag then values else s.bags b }

def set (s : RegistryState) (bag : BagHandle) (name : String) (value : Json) : RegistryState :=
  s.withBag bag ((s.bags bag).insert name value)

/-- The value that a property is set to. -/
def get? (s : RegistryState) (bag : BagHandle) (name : String) : Option Json := (s.bags bag).get? name

/-- The state without a property, and the value it was set to. -/
def remove (s : RegistryState) (bag : BagHandle) (name : String) : Option Json × RegistryState :=
  (s.get? bag name, s.withBag bag ((s.bags bag).erase name))

end RegistryState

/-! ## Requests -/

/-- What a host asks of a registry. -/
inductive RegistryRequest where
  | provider (contract : String)
  | set (name : String) (value : Json)
  | get (name : String)
  | remove (name : String)
  /-- A call of a provider that was given out. -/
  | call (provider : Provider) (call : ProviderCall)

inductive RegistryAnswer where
  | provider (found : Except LookupError Provider)
  | done
  /-- The value that a property is set to. -/
  | value (current : Option Json)
  | called (answer : ProviderAnswer)

namespace Registry

/-- The answer to a request, and the state behind it. -/
def answer (r : Registry) (s : RegistryState) : RegistryRequest → RegistryAnswer × RegistryState
  | .provider contract => (.provider (r.provider s contract).1, (r.provider s contract).2)
  | .set name value => (.done, s.set r.bag name value)
  | .get name => (.value (s.get? r.bag name), s)
  | .remove name => (.value (s.remove r.bag name).1, (s.remove r.bag name).2)
  | .call p call => (.called (p.call s.bags call), s)

/-- The state behind the requests of a run, the first one first. -/
def stateAfter (r : Registry) (history : List RegistryRequest) : RegistryState :=
  history.foldl (fun s request => (r.answer s request).2) fresh

/-- The answer to a request behind those of a run. -/
def answerAfter (r : Registry) (history : List RegistryRequest) (request : RegistryRequest) : RegistryAnswer :=
  (r.answer (r.stateAfter history) request).1

end Registry

end Phrasebook
