import Schemata.Catalog.Resolve
import Schemata.Json.Mismatch
import Schemata.Position
import Schemata.Progress

/-! # Errors

Everything that can go wrong between a JSON text and a finished document, with the words for it. -/

namespace Schemata

/-- The codes under which errors are known to other programs. -/
inductive ErrorCode where
  | unreadable
  | catalog
  | unknownType
  | noStrategy
  | misuse
  | tooDeep
  | unresolved
  deriving Repr, DecidableEq, Inhabited

instance : Named ErrorCode where
  all := [.unreadable, .catalog, .unknownType, .noStrategy, .misuse, .tooDeep, .unresolved]
  name
    | .unreadable => "json_parse_error"
    | .catalog => "catalog_error"
    | .unknownType => "unknown_type"
    | .noStrategy => "no_converter"
    | .misuse => "registry_misuse"
    | .tooDeep => "depth_exceeded"
    | .unresolved => "unresolved_reference"

/-- What can go wrong. -/
inductive CompileError where
  /-- A text is not what it should be. -/
  | unreadable (cause : ReadError)
  /-- Declarations do not make a catalog. -/
  | catalog (cause : CatalogError)
  /-- No type has this name. -/
  | unknownType (name : String)
  /-- No strategy claims the type at this path. -/
  | noStrategy (path : List String) (typeName : String)
  /-- A strategy calls out of order for this type. -/
  | misuse (typeName : String) (cause : Misuse)
  /-- The walk goes deeper than the limit. -/
  | tooDeep (path : List String) (limit : Nat)
  /-- A reference still waits for this type. -/
  | unresolved (typeName : String)
  deriving Repr, DecidableEq

namespace CompileError

/-- The code of an error. -/
def code : CompileError → ErrorCode
  | .unreadable _ => .unreadable
  | .catalog _ => .catalog
  | .unknownType _ => .unknownType
  | .noStrategy _ _ => .noStrategy
  | .misuse _ _ => .misuse
  | .tooDeep _ _ => .tooDeep
  | .unresolved _ => .unresolved

/-- The path at which an error arose, for errors of a walk. -/
def path? : CompileError → Option String
  | .noStrategy path _ | .tooDeep path _ => some (Position.pathText path)
  | _ => none

/-- The words for an error. -/
def message : CompileError → String
  | .unreadable cause => s!"JSON (de)serialization error: {cause.message}"
  | .catalog cause => s!"Type catalog error: {cause.message}"
  | .unknownType name => s!"Unknown type `{name}`"
  | .noStrategy path typeName =>
    s!"No converter can handle type `{typeName}` at {Position.pathText path}"
  | .misuse typeName cause => s!"Type registry misuse for `{typeName}`: {cause.message}"
  | .tooDeep path limit => s!"Schema too deep at {Position.pathText path} (max: {limit})"
  | .unresolved typeName => s!"Reference to `{typeName}` was never resolved"

end CompileError

namespace Catalog

/-- The handle of a type that must be in the catalog. -/
def require (c : Catalog) (name : String) : Except CompileError TypeId :=
  match c.lookup name with
  | some t => .ok t
  | none => .error (.unknownType name)

end Catalog

end Schemata
