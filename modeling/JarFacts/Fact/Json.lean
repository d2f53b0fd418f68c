import JarFacts.Fact.Summary
import JarFacts.Json.Decode
import JarFacts.Json.Parser

/-!
# Facts in JSON

The written form of facts and summaries, and reading it back.  Members are written in a fixed order.
A location leaves out what it does not know; everywhere else the unknown is written as null.
-/

namespace JarFacts

namespace Location

/-- The names of the members. -/
def memberNames : List String := ["package", "file", "line", "class_file"]

/-- A member that is left out when absent. -/
def known {α : Type} (name : String) (value : Option α) (encode : α → Json) :
    List (String × Json) :=
  match value with
  | some value => [(name, encode value)]
  | none => []

/-- The written form. -/
def toJson (location : Location) : Json :=
  .object <|
    ("package", .string location.package) ::
    (known "file" location.file .string ++ known "line" location.line .nat ++
      known "class_file" location.classFile .string)

/-- Reads the written form. -/
def ofJson? (json : Json) : Option Location := do
  let members ← json.record? memberNames
  return {
    package := ← Json.required members "package" Json.text?
    file := ← Json.maybe members "file" Json.text?
    line := ← Json.maybe members "line" (Json.unsigned? 32)
    classFile := ← Json.maybe members "class_file" Json.text? }

end Location

namespace Json

/-- Sixteen bits of flags. -/
def flags? (json : Json) : Option UInt16 :=
  (json.unsigned? 16).map UInt16.ofNat

end Json

namespace EntityFact

/-- The names of the members. -/
def memberNames : List String :=
  ["kind", "fqn", "name", "modifiers", "raw_signature", "generic_signature", "location"]

/-- The written form. -/
def toJson (fact : EntityFact) : Json :=
  .object [
    ("kind", .string fact.kind.name),
    ("fqn", .string fact.fqn),
    ("name", .optional fact.name),
    ("modifiers", .nat fact.modifiers.toNat),
    ("raw_signature", .optional fact.rawSignature),
    ("generic_signature", .optional fact.genericSignature),
    ("location", fact.location.toJson)]

/-- Reads the written form. -/
def ofJson? (json : Json) : Option EntityFact := do
  let members ← json.record? memberNames
  return {
    kind := ← Json.required members "kind" (Json.word? EntityKind.ofName?)
    fqn := ← Json.required members "fqn" Json.text?
    name := ← Json.maybe members "name" Json.text?
    modifiers := ← Json.required members "modifiers" Json.flags?
    rawSignature := ← Json.maybe members "raw_signature" Json.text?
    genericSignature := ← Json.maybe members "generic_signature" Json.text?
    location := ← Json.required members "location" Location.ofJson? }

end EntityFact

namespace RelationFact

/-- The names of the members. -/
def memberNames : List String := ["kind", "source", "target", "location"]

/-- The written form. -/
def toJson (fact : RelationFact) : Json :=
  .object [
    ("kind", .string fact.kind.name),
    ("source", .string fact.source),
    ("target", .string fact.target),
    ("location", fact.location.toJson)]

/-- Reads the written form. -/
def ofJson? (json : Json) : Option RelationFact := do
  let members ← json.record? memberNames
  return {
    kind := ← Json.required members "kind" (Json.word? RelationKind.ofName?)
    source := ← Json.required members "source" Json.text?
    target := ← Json.required members "target" Json.text?
    location := ← Json.required members "location" Location.ofJson? }

end RelationFact

namespace FileFact

/-- The names of the members. -/
def memberNames : List String := ["kind", "name", "path", "location"]

/-- The written form. -/
def toJson (fact : FileFact) : Json :=
  .object [
    ("kind", .string fact.kind.name),
    ("name", .string fact.name),
    ("path", .optional fact.path),
    ("location", fact.location.toJson)]

/-- Reads the written form. -/
def ofJson? (json : Json) : Option FileFact := do
  let members ← json.record? memberNames
  return {
    kind := ← Json.required members "kind" (Json.word? FileKind.ofName?)
    name := ← Json.required members "name" Json.text?
    path := ← Json.maybe members "path" Json.text?
    location := ← Json.required members "location" Location.ofJson? }

end FileFact

namespace VariableFact

/-- The names of the members. -/
def memberNames : List String :=
  ["kind", "name", "modifiers", "type_fqn", "declared_at", "owner", "position", "used_at"]

/-- The written form. -/
def toJson (fact : VariableFact) : Json :=
  .object [
    ("kind", .string fact.kind.name),
    ("name", .string fact.name),
    ("modifiers", .nat fact.modifiers.toNat),
    ("type_fqn", .string fact.typeFqn),
    ("declared_at", fact.declaredAt.toJson),
    ("owner", .string fact.owner),
    ("position", .nat fact.position),
    ("used_at", fact.usedAt.toJson)]

/-- Reads the written form. -/
def ofJson? (json : Json) : Option VariableFact := do
  let members ← json.record? memberNames
  return {
    kind := ← Json.required members "kind" (Json.word? VariableKind.ofName?)
    name := ← Json.required members "name" Json.text?
    modifiers := ← Json.required members "modifiers" Json.flags?
    typeFqn := ← Json.required members "type_fqn" Json.text?
    declaredAt := ← Json.required members "declared_at" Location.ofJson?
    owner := ← Json.required members "owner" Json.text?
    position := ← Json.required members "position" (Json.unsigned? 64)
    usedAt := ← Json.required members "used_at" Location.ofJson? }

end VariableFact

namespace Fact

/-- The written form of any fact. -/
def toJson : Fact → Json
  | .entity fact => fact.toJson
  | .relation fact => fact.toJson
  | .file fact => fact.toJson
  | .param fact => fact.toJson

end Fact

namespace FactCounts

/-- The names of the members. -/
def memberNames : List String := ["entities", "relations", "files", "local_variables"]

/-- The written form. -/
def toJson (counts : FactCounts) : Json :=
  .object [
    ("entities", .nat counts.entities),
    ("relations", .nat counts.relations),
    ("files", .nat counts.files),
    ("local_variables", .nat counts.params)]

/-- Reads the written form. -/
def ofJson? (json : Json) : Option FactCounts := do
  let members ← json.record? memberNames
  return {
    entities := ← Json.required members "entities" (Json.unsigned? 64)
    relations := ← Json.required members "relations" (Json.unsigned? 64)
    files := ← Json.required members "files" (Json.unsigned? 64)
    params := ← Json.required members "local_variables" (Json.unsigned? 64) }

end FactCounts

/-- Reads a point in time. -/
def Instant.ofJson? (json : Json) : Option Instant :=
  json.text?.bind Instant.parse?

namespace WalkSummary

/-- The names of the members. -/
def memberNames : List String :=
  ["jar", "sha256", "classes_seen", "classes_extracted", "classes_failed", "facts",
    "started_at", "finished_at"]

/-- The written form. -/
def toJson (summary : WalkSummary) : Json :=
  .object [
    ("jar", .string summary.jar),
    ("sha256", .optional summary.sha256),
    ("classes_seen", .nat summary.classesSeen),
    ("classes_extracted", .nat summary.classesExtracted),
    ("classes_failed", .nat summary.classesFailed),
    ("facts", summary.facts.toJson),
    ("started_at", .string summary.startedAt.print),
    ("finished_at", .string summary.finishedAt.print)]

/-- Reads the written form. -/
def ofJson? (json : Json) : Option WalkSummary := do
  let members ← json.record? memberNames
  return {
    jar := ← Json.required members "jar" Json.text?
    sha256 := ← Json.maybe members "sha256" Json.text?
    classesSeen := ← Json.required members "classes_seen" (Json.unsigned? 64)
    classesExtracted := ← Json.required members "classes_extracted" (Json.unsigned? 64)
    classesFailed := ← Json.required members "classes_failed" (Json.unsigned? 64)
    facts := ← Json.required members "facts" FactCounts.ofJson?
    startedAt := ← Json.required members "started_at" Instant.ofJson?
    finishedAt := ← Json.required members "finished_at" Instant.ofJson? }

end WalkSummary

end JarFacts
