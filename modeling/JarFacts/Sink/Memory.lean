import JarFacts.Sink.Basic

/-!
# Facts in memory

A sink that keeps all facts by family, with the questions one asks of them.  It never fails, and may
be closed more than once; the last summary counts.
-/

namespace JarFacts

/-- Facts by family, in the order they came. -/
structure MemorySink where
  entities : Array EntityFact
  relations : Array RelationFact
  files : Array FileFact
  params : Array VariableFact
  summary : Option WalkSummary
  deriving DecidableEq

namespace MemorySink

/-- No facts. -/
def empty : MemorySink := ⟨#[], #[], #[], #[], none⟩

/-- Takes a fact. -/
def add (sink : MemorySink) : Fact → MemorySink
  | .entity fact => { sink with entities := sink.entities.push fact }
  | .relation fact => { sink with relations := sink.relations.push fact }
  | .file fact => { sink with files := sink.files.push fact }
  | .param fact => { sink with params := sink.params.push fact }

/-- The first entity of a name. -/
def find? (sink : MemorySink) (fqn : String) : Option EntityFact :=
  sink.entities.toList.find? fun fact => fact.fqn = fqn

/-- The entities of a kind. -/
def entitiesOf (sink : MemorySink) (kind : EntityKind) : List EntityFact :=
  sink.entities.toList.filter fun fact => fact.kind = kind

/-- The relations of a kind. -/
def relationsOf (sink : MemorySink) (kind : RelationKind) : List RelationFact :=
  sink.relations.toList.filter fun fact => fact.kind = kind

/-- Where the relations of a kind lead from a source. -/
def targets (sink : MemorySink) (kind : RelationKind) (source : String) : List String :=
  ((sink.relationsOf kind).filter fun fact => fact.source = source).map RelationFact.target

/-- How often a relation was stated. -/
def countRelation (sink : MemorySink) (kind : RelationKind) (source target : String) : Nat :=
  (sink.relationsOf kind).countP fun fact => fact.source = source && fact.target = target

/-- Was a relation stated? -/
def hasRelation (sink : MemorySink) (kind : RelationKind) (source target : String) : Bool :=
  sink.countRelation kind source target > 0

/-- The parameters of a method by position; those of equal position stay in the order they came. -/
def parametersOf (sink : MemorySink) (owner : String) : List VariableFact :=
  (sink.params.toList.filter fun fact => fact.owner = owner).mergeSort fun a b =>
    a.position ≤ b.position

/-- Was the sink closed? -/
def isFinished (sink : MemorySink) : Bool :=
  sink.summary.isSome

end MemorySink

instance : FactSink MemorySink where
  write fact sink := (.ok (), sink.add fact)
  finish summary sink := (.ok (), { sink with summary := some summary })

end JarFacts
