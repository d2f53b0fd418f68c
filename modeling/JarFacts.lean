import JarFacts.Main
import JarFacts.Sink.Memory
import JarFacts.Sink.Recorder
import JarFacts.Proofs.Jar.Isolation
import JarFacts.Proofs.Signature.Grammar
import JarFacts.Proofs.ClassFile.RoundTrip
import JarFacts.Proofs.ClassFile.Accepting
import JarFacts.Proofs.ClassFile.Decoding
import JarFacts.Proofs.ClassFile.Coverage
import JarFacts.Proofs.ClassFile.RawClass
import JarFacts.Proofs.ClassFile.Literals
import JarFacts.Proofs.Extract.Moves
import JarFacts.Proofs.Extract.Scopes
import JarFacts.Proofs.ClassFile.Notes
import JarFacts.Proofs.Jar.Truncation
import JarFacts.Proofs.Extract.Written
import JarFacts.Proofs.Extract.Containment
import JarFacts.Proofs.Signature.Erasure
import JarFacts.Proofs.Signature.Declaration
import JarFacts.Proofs.Signature.Canonical
import JarFacts.Proofs.Signature.Delimiting
import JarFacts.Proofs.Signature.Splitting
import JarFacts.Proofs.Signature.Formals
import JarFacts.Proofs.Extract.Overloads
import JarFacts.Proofs.Extract.References
import JarFacts.Proofs.Extract.Stamped
import JarFacts.Proofs.Jar.Accounting
import JarFacts.Proofs.Storage.Volume
import JarFacts.Proofs.Json.Reading
import JarFacts.Proofs.Fact.RoundTrip
import JarFacts.Proofs.Storage.Directories
import JarFacts.Proofs.Storage.Trial
import JarFacts.Proofs.Sink.Channel
import JarFacts.Proofs.Sink.Output
import JarFacts.Proofs.Sink.ReadBack
import JarFacts.Proofs.Sink.Marker
import JarFacts.Proofs.Jar.Directories
import JarFacts.Proofs.Storage.Routine
import JarFacts.Proofs.Sink.Routine
import JarFacts.Proofs.Jar.Routine
import JarFacts.Proofs.Jar.Neighbours
import JarFacts.Proofs.Jar.Parallel
import JarFacts.Proofs.ClassFile.Composed
import JarFacts.Proofs.ClassFile.LookUp
import JarFacts.Proofs.ClassFile.Streaming
import JarFacts.Proofs.ClassFile.Nesting
import JarFacts.Proofs.Jar.Reporting
import JarFacts.Proofs.Extract.Explicit
import JarFacts.Proofs.Extract.Framing
import JarFacts.Proofs.Jar.Confinement
import JarFacts.Proofs.Alike
import JarFacts.Proofs.Extract.Essential
import JarFacts.Proofs.ClassFile.Spellings
import JarFacts.Proofs.ClassFile.Indexing
import JarFacts.Proofs.Signature.Boundaries
