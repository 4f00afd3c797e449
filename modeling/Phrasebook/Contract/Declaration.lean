import Phrasebook.CompileError
import Phrasebook.Contract.Basic

/-!
# Declarations

What a method of a contract declares: the parameters of its key, and which place of a call holds the locale.
-/

namespace Phrasebook

/-- The key that a method declares, with its parameters. -/
structure Declaration where
  method : String
  key : String
  /-- The parameters of the key, in the order of the method. -/
  parameters : ParameterList
  /-- The place of the locale in a call. -/
  localeSlot : Nat
  /-- The names of all parameters of the method, in the order of a call. -/
  methodParameters : List String
  deriving DecidableEq, Repr

namespace Declaration

def localeSlots (ps : List MethodParameter) : List Nat :=
  (ps.zipIdx.filter fun p => p.1.role = .locale).map (·.2)

/-- Reads the parameters of a method behind those whose names are `seen`. -/
def readParameters (seen : List String) : List MethodParameter → Except MethodFault ParameterList
  | [] => .ok []
  | p :: ps =>
    if seen.contains p.name then .error (.repeatedParameter p.name)
    else match p.role with
      | .argument => match ParamType.parse p.type with
        | .error e => .error (.invalidType p.name e)
        | .ok t => (readParameters (seen ++ [p.name]) ps).map (⟨p.name, t⟩ :: ·)
      | _ => readParameters (seen ++ [p.name]) ps

def ofMethod (m : Method) : Except MethodFault Declaration :=
  match localeSlots m.parameters with
  | [slot] => (readParameters [] m.parameters).map fun ps =>
      ⟨m.name, m.keyName, ps, slot, m.parameters.map (·.name)⟩
  | slots => .error (.localeCount slots.length)

def ofContractMethod (contract : String) (m : Method) : Except CompileError Declaration :=
  (ofMethod m).mapError fun fault => .invalidDeclaration contract m.name fault

end Declaration

def Contract.declarations (c : Contract) : Except CompileError (List Declaration) :=
  traverse (Declaration.ofContractMethod c.name) c.methods

end Phrasebook
