import Schemata.Document.Basic
import Schemata.Strategy.Standard
import Schemata.Walk

/-! # Compilers and sessions

A compiler is a choice of strategies, field policy and options.  A session compiles roots one after
the other on one build, and ends with a document.  A root that fails leaves what was built before
the failure, and the position of the root; the session can go on. -/

namespace Schemata

/-- A choice of strategies, field policy and options. -/
structure Compiler where
  strategies : List Strategy := Strategy.standard
  policy : FieldPolicy := FieldPolicy.accessible
  options : Options := {}

/-- One build of a schema. -/
structure Session where
  compiler : Compiler
  catalog : Catalog
  build : Build := {}
  /-- The nodes of the roots that were compiled, in order. -/
  roots : List NodeId := []
  position : Position := {}

namespace Session

/-- What does not change during a session. -/
def setting (s : Session) : Setting :=
  { catalog := s.catalog, options := s.compiler.options, policy := s.compiler.policy }

/-- The scope at the position of a session. -/
def scope (s : Session) : Scope := Walk.scopeAt s.compiler.strategies s.setting s.position

/-- Runs an action at the position of a session.  What it did to the build stays, even if it
fails. -/
def run {α : Type} (s : Session) (action : Scope → BuildM α) : Except CompileError α × Session :=
  let r := (action s.scope).runOn s.build
  (r.1, { s with build := r.2 })

/-- Converts a type at the position of a session. -/
def dispatch (s : Session) (t : TypeId) : Except CompileError NodeId × Session :=
  s.run fun scope => Walk.dispatch s.compiler.strategies scope t

/-- Converts a field below the position of a session. -/
def dispatchField (s : Session) (field : Field) : Except CompileError NodeId × Session :=
  s.run fun scope => scope.visit field

/-- The component name of a type of the catalog, given now if it has none. -/
def componentName (s : Session) (t : TypeId) : Except CompileError String × Session :=
  s.run fun scope => BuildM.componentName scope.catalog t

/-- Compiles a root.  A type of another catalog changes nothing. -/
def compileRoot (s : Session) (t : TypeId) : Except CompileError NodeId × Session :=
  match s.catalog.get? t with
  | none => (.error (.unknownType t.text), s)
  | some d =>
    -- the position is cleared only if the root comes to a node
    match dispatch { s with position := .root d.simpleName } t with
    | (.ok id, s) => (.ok id, { s with position := {}, roots := s.roots ++ [id] })
    | (.error e, s) => (.error e, s)

/-- The name of a completed type as a component: the name of its node, or its short name. -/
def componentOf (s : Session) (entry : TypeId × NodeId) : String × NodeId :=
  (((s.build.arena.get? entry.2).bind (·.name?)).getD (s.catalog.simpleName entry.1), entry.2)

/-- Ends a session.  No reference may be left waiting for its type. -/
def finish (s : Session) : Except CompileError Document :=
  match s.build.progress.firstPending? with
  | some t => .error (.unresolved (s.catalog.name t))
  | none =>
    .ok {
      arena := s.build.arena
      roots := s.roots
      components := s.build.progress.completed.map s.componentOf
      completed := s.build.progress.completed
      refPrefix := s.compiler.options.refPrefix }

end Session

namespace Compiler

/-- A session on a catalog. -/
def session (c : Compiler) (catalog : Catalog) : Session := { compiler := c, catalog }

/-- Compiles roots until one fails. -/
def compileRoots (s : Session) : List TypeId → Except CompileError Unit × Session
  | [] => (.ok (), s)
  | t :: rest =>
    match s.compileRoot t with
    | (.ok _, s) => compileRoots s rest
    | (.error e, s) => (.error e, s)

/-- Compiles roots in a session of their own, and says also how the session ended. -/
def compileLogged (c : Compiler) (catalog : Catalog) (roots : List TypeId) :
    Except CompileError Document × Build :=
  let (outcome, s) := compileRoots (c.session catalog) roots
  (outcome.bind fun _ => s.finish, s.build)

/-- Compiles roots in a session of their own. -/
def compileMany (c : Compiler) (catalog : Catalog) (roots : List TypeId) :
    Except CompileError Document :=
  (c.compileLogged catalog roots).1

/-- Compiles one root in a session of its own. -/
def compile (c : Compiler) (catalog : Catalog) (root : TypeId) : Except CompileError Document :=
  c.compileMany catalog [root]

/-- Compiles the types with the given qualified names. -/
def compileByName (c : Compiler) (catalog : Catalog) (roots : List String) :
    Except CompileError Document := do
  c.compileMany catalog (← roots.mapM catalog.require)

/-- A one-line summary: the names of the strategies, and the options. -/
def summary (c : Compiler) : String :=
  let names := ", ".intercalate (c.strategies.map fun s => Text.quoted s.name)
  "Compiler \x7b dispatcher: Dispatcher \x7b converters: [" ++ names
    ++ "] \x7d, options: CompileOptions \x7b max_depth: " ++ toString c.options.maxDepth
    ++ ", ref_prefix: " ++ Text.quoted c.options.refPrefix ++ " \x7d, .. \x7d"

end Compiler

end Schemata
