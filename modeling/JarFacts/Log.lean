/-!
# Log events

What is worth telling about a run besides its facts.  An event is a cause with its data; level,
message and fields are functions of it.
-/

namespace JarFacts

/-- How much an event matters. -/
inductive LogLevel where
  | error
  | warn
  | info
  | debug
  deriving DecidableEq

/-- The name of the level. -/
def LogLevel.name : LogLevel → String
  | error => "ERROR"
  | warn => "WARN"
  | info => "INFO"
  | debug => "DEBUG"

/-- How much the level matters: the more, the smaller. -/
def LogLevel.rank : LogLevel → Nat
  | error => 1
  | warn => 2
  | info => 3
  | debug => 4

/-- The rank up to which events are shown when the given level is asked for; a word that is no level
asks for errors only. -/
def LogLevel.shownRank (wanted : String) : Nat :=
  match wanted.toLower with
  | "off" => 0
  | "warn" => 2
  | "info" => 3
  | "debug" => 4
  | "trace" => 4
  | _ => 1

/-- The value of a field of an event. -/
inductive LogValue where
  | text (value : String)
  | number (value : Nat)
  deriving DecidableEq

/-- What carries an attribute. -/
inductive AttributeHolder where
  | classFile
  | field
  | method
  deriving DecidableEq

/-- The word for what carries an attribute. -/
def AttributeHolder.word : AttributeHolder → String
  | classFile => "class"
  | field => "field"
  | method => "method"

/-- Something that happened. -/
inductive LogEvent where
  /-- A dynamic call site names no method. -/
  | callSiteSkipped (offset : Nat)
  /-- A class that only describes a package or module. -/
  | descriptorOnly (className : String)
  /-- Only the root class has no superclass. -/
  | supertypeMissing (fqn : String)
  /-- An attribute nothing is known about. -/
  | attributeUnrecognized (holder : AttributeHolder) (name attr : String)
  /-- The package by the class name differs from the one by the archive path. -/
  | parentMismatch (fqn parent enclosing : String)
  /-- Annotations inside annotations are left out. -/
  | nestedAnnotationSkipped (descriptor : String)
  /-- A field made by the compiler. -/
  | syntheticFieldSkipped (name : String)
  /-- A method made by the compiler. -/
  | bridgeMethodSkipped (name : String)
  /-- The default value of an annotation element. -/
  | annotationDefaultIgnored (fqn : String)
  /-- A type instruction whose operand is a member. -/
  | memberOperandUnexpected (name : String) (opcode : UInt8)
  /-- A class file that could not be worked through to its end. -/
  | extractionAborted (entry reason : String)
  /-- All fact files of a directory are complete. -/
  | outputFinished (directory : String)
  /-- An archive has been worked through. -/
  | jarExtracted (jar : String) (classes failed facts : Nat)
  /-- An archive is about to be worked through. -/
  | jarStarted (jar output : String)
  /-- A run over archives begins. -/
  | runStarted (jars : Nat) (output : String)
  deriving DecidableEq

namespace LogEvent

/-- How much the event matters. -/
def level : LogEvent → LogLevel
  | callSiteSkipped _ | descriptorOnly _ | nestedAnnotationSkipped _ | syntheticFieldSkipped _
  | bridgeMethodSkipped _ | annotationDefaultIgnored _ | memberOperandUnexpected _ _
      | outputFinished _
  | jarStarted _ _ => .debug
  | attributeUnrecognized _ _ _ | jarExtracted _ _ _ _ | runStarted _ _ => .info
  | supertypeMissing _ | parentMismatch _ _ _ => .warn
  | extractionAborted _ _ => .error

/-- The event in words. -/
def message : LogEvent → String
  | callSiteSkipped _ => "Skipping invokedynamic call site"
  | descriptorOnly _ => "Descriptor-only class, no entity emitted"
  | supertypeMissing _ => "Missing supertype"
  | attributeUnrecognized holder _ _ => "Unrecognized " ++ holder.word ++ " attribute"
  | parentMismatch _ _ _ => "Mismatch between inferred parent and enclosing scope"
  | nestedAnnotationSkipped _ => "Not descending into nested annotation"
  | syntheticFieldSkipped _ => "Skipping synthetic field"
  | bridgeMethodSkipped _ => "Skipping bridge method"
  | annotationDefaultIgnored _ => "Ignoring annotation default value"
  | memberOperandUnexpected _ _ => "Unexpected member operand"
  | extractionAborted _ _ => "Class extraction aborted"
  | outputFinished _ => "Fact output finished"
  | jarExtracted _ _ _ _ => "Jar extracted"
  | jarStarted _ _ => "Extracting jar"
  | runStarted _ _ => "Starting extraction"

/-- The data of the event, by name. -/
def fields : LogEvent → List (String × LogValue)
  | callSiteSkipped offset => [("offset", .number offset)]
  | descriptorOnly name => [("class", .text name)]
  | supertypeMissing fqn => [("class", .text fqn)]
  | attributeUnrecognized holder name attr => [(holder.word, .text name), ("attribute", .text attr)]
  | parentMismatch fqn parent enclosing =>
    [("class", .text fqn), ("parent", .text parent), ("enclosing", .text enclosing)]
  | nestedAnnotationSkipped descriptor => [("annotation", .text descriptor)]
  | syntheticFieldSkipped name => [("field", .text name)]
  | bridgeMethodSkipped name => [("method", .text name)]
  | annotationDefaultIgnored fqn => [("method", .text fqn)]
  | memberOperandUnexpected name opcode =>
      [("member", .text name), ("opcode", .number opcode.toNat)]
  | extractionAborted entry reason => [("entry", .text entry), ("error", .text reason)]
  | outputFinished directory => [("dir", .text directory)]
  | jarExtracted jar classes failed facts =>
    [("jar", .text jar), ("classes", .number classes), ("failed", .number failed),
      ("facts", .number facts)]
  | jarStarted jar output => [("jar", .text jar), ("output", .text output)]
  | runStarted jars output => [("jars", .number jars), ("output", .text output)]

/-- Is the event shown when the given level is asked for? -/
def isShown (wanted : String) (event : LogEvent) : Bool :=
  event.level.rank ≤ LogLevel.shownRank wanted

/-- The event on a line. -/
def line (event : LogEvent) : String :=
  let field : String × LogValue → String := fun
    | (name, .text value) => " " ++ name ++ "=" ++ value
    | (name, .number value) => " " ++ name ++ "=" ++ toString value
  event.level.name ++ " " ++ event.message ++ String.join (event.fields.map field) ++ "\n"

end LogEvent

end JarFacts
