import JarFacts.Extract.Class

/-!
# Facts from archive entries

An entry of an archive is a class file at a path.  The path names the package and the class; the
class file has the facts.  Whatever happens to an entry, the next one finds no scope open and no
location set: the scopes of an entry that failed are cut off, and the failure is logged.
-/

namespace JarFacts

/-- What the path of an entry says. -/
structure EntryName where
  /-- The dotted package, empty for the default one. -/
  package : String
  /-- The name of the class inside its package. -/
  className : String
  /-- The dotted name of the class. -/
  classFqn : String
  deriving DecidableEq

/-- Reads the path of an entry: `a/b/C$D.class` is the class `C$D` of the package `a.b`. -/
def EntryName.parse (path : String) : Except SignatureError EntryName := do
  let stem := (Text.dropEnding? ".class".toList path.toList).getD path.toList
  let fqn ← Signature.decodeClassName (String.ofList stem)
  return ⟨Text.beforeLast '.' fqn, Text.afterLast '.' fqn, fqn⟩

namespace Extract

variable {σ : Type} [FactSink σ]

/-- Reads a class file; what was noted while reading goes to the log, also when reading failed. -/
def parseClass (bytes : Bytes) : Extract σ ClassFile := do
  let (result, noted) := ClassFile.parseWithLog bytes
  modify fun context => { context with log := context.log ++ noted }
  match result with
  | .ok cls => return cls
  | .error error => throw (.classFile error)

/-- The facts of an entry: its package, its class, and at last the file itself. -/
def entryFacts (name : EntryName) (path : String) (bytes : Bytes) : Extract σ Unit := do
  let cls ← parseClass bytes
  modify fun context =>
    { context with location := { context.location with file := cls.sourceFile } }
  emit (.entity (.bare .package name.package (← get).location))
  push name.package (.entity .package)
  classPass cls
  emit (.file ⟨.classFile, name.className, some path, (← get).location⟩)
  discard pop

/-- The whole procedure for one entry. -/
def entry (path : String) (bytes : Bytes) : Extract σ Unit := do
  let name ← decoded (EntryName.parse path)
  let depth := (← get).scope.depth
  modify fun context => { context with location := .ofClassFile name.package name.classFqn }
  try
    entryFacts name path bytes
    modify fun context => { context with location := .nowhere }
  catch error =>
    note (.extractionAborted path error.message)
    modify fun context =>
      { context with scope := context.scope.truncate depth, location := .nowhere }
    throw error

end Extract

end JarFacts
