/-!
Types of symbols and of references that mappings may define. A reference type
points at a symbol type that was registered before.
-/

namespace EventHub

inductive MappingError where
  | symbolTypeRegistered (symbol : String)
  | symbolTypeNotRegistered (symbol : String)
  | referenceTypeRegistered (reference : String)
  deriving DecidableEq, Inhabited

namespace MappingError

def label : MappingError → String
  | symbolTypeRegistered _ => "mapping_symbol_type_registered"
  | symbolTypeNotRegistered _ => "mapping_symbol_type_not_registered"
  | referenceTypeRegistered _ => "mapping_reference_type_registered"

def message : MappingError → String
  | symbolTypeRegistered symbol => s!"symbol type '{symbol}' has been registered before"
  | symbolTypeNotRegistered symbol => s!"symbol type '{symbol}' has not been registered yet"
  | referenceTypeRegistered reference =>
    s!"reference type '{reference}' has been registered before"

end MappingError

structure MappingTypes where
  symbols : List String := []
  references : List (String × String) := []
  deriving DecidableEq, Inhabited

namespace MappingTypes

def addSymbol (t : MappingTypes) (symbol : String) : Except MappingError MappingTypes :=
  if symbol ∈ t.symbols then .error (.symbolTypeRegistered symbol)
  else .ok { t with symbols := t.symbols ++ [symbol] }

/-- A missing symbol is reported before a duplicate reference. -/
def addReference (t : MappingTypes) (reference symbol : String) :
    Except MappingError MappingTypes :=
  if symbol ∉ t.symbols then .error (.symbolTypeNotRegistered symbol)
  else if (t.references.lookup reference).isSome then
    .error (.referenceTypeRegistered reference)
  else .ok { t with references := t.references ++ [(reference, symbol)] }

/-- The symbol type that a reference type points at. -/
def referenced? (t : MappingTypes) (reference : String) : Option String :=
  t.references.lookup reference

/-- Registered symbol types in increasing order. -/
def sortedSymbols (t : MappingTypes) : List String :=
  t.symbols.mergeSort fun a b => !(b < a)

end MappingTypes

end EventHub
