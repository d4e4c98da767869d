import Schemata.Json.Typed
import Schemata.Options.Basic

/-! # Options as JSON

Options are read from an object, or from an array of their values in order.  What is left out keeps
its usual value. -/

namespace Schemata

/-- Options as JSON. -/
def Options.encode (o : Options) : Json :=
  .object [("max-depth", .nat o.maxDepth), ("ref-prefix", .string o.refPrefix)]

namespace Reader

/-- The options that have been read. -/
structure OptionsDraft where
  maxDepth : Option Nat := none
  refPrefix : Option String := none

/-- The options of a draft, with usual values where it has none. -/
def OptionsDraft.finish (d : OptionsDraft) : Options :=
  let usual : Options := {}
  { maxDepth := d.maxDepth.getD usual.maxDepth, refPrefix := d.refPrefix.getD usual.refPrefix }

/-- Reads the size of a depth. -/
def depth : Reader Nat := natural "usize"

/-- Reads one option. -/
def OptionsDraft.step (d : OptionsDraft) (name : String) : Reader OptionsDraft := do
  match name with
  | "max-depth" => return { d with maxDepth := ← once name d.maxDepth depth }
  | "ref-prefix" => return { d with refPrefix := ← once name d.refPrefix string }
  | _ =>
    memberValue skip
    return d

/-- Reads options. -/
def options : Reader Options :=
  structured "struct CompileOptions"
    (do return (← objectBody OptionsDraft.step {}).finish)
    (do
      let maxDepth ← item? true depth
      let refPrefix ← item? maxDepth.isNone string
      closeArray
      return OptionsDraft.finish { maxDepth, refPrefix })

end Reader

end Schemata
