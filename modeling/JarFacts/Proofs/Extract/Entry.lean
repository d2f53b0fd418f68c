import JarFacts.Extract.Entry
import JarFacts.Proofs.Extract.ClassPass

/-!
# An entry of an archive tells its account

The account of an entry (`entryAccount`) is the account of its class between the entity of its
package and the fact of the file itself; an entry whose path or bytes cannot be read has nothing to
tell but that.  `entry_run` says what the whole procedure for an entry does to an extraction,
whatever its sink, its location, its scopes and its log: it tells the account, and leaves the scopes
as it has found them, also where the class is given up half way with scopes of its own still open.
-/

namespace JarFacts

open Account

/-- The package and the name of an entry are cut out of what the path without its ending decodes
to. -/
lemma EntryName.parse_eq_map (path : String) :
    EntryName.parse path = (Signature.decodeClassName
      (String.ofList ((Text.dropEnding? ".class".toList path.toList).getD path.toList))).map
      fun fqn => ⟨Text.beforeLast '.' fqn, Text.afterLast '.' fqn, fqn⟩ := by
  rw [EntryName.parse]
  cases Signature.decodeClassName _ <;> rfl

/-- Where the facts of an entry are located. -/
def EntryName.location (name : EntryName) (cls : ClassFile) : Location :=
  ⟨name.package, cls.sourceFile, none, some name.classFqn⟩

/-- Everything a class file at a path has to tell. -/
def classFileAccount (name : EntryName) (path : String) (cls : ClassFile) : Account :=
  [.ok (.entity (.bare .package name.package (name.location cls)))] ++
  classAccount (name.location cls) cls ++
  [.ok (.file ⟨.classFile, name.className, some path, name.location cls⟩)]

/-- Everything an entry has to tell. -/
def entryAccount (path : String) (bytes : Bytes) : Account :=
  reading (EntryName.parse path) fun name =>
    match ClassFile.parse bytes with
    | .ok cls => classFileAccount name path cls
    | .error error => [.error (.classFile error)]

namespace Extract

variable {σ : Type} [FactSink σ]

/-- What is done with an entry once its class file has been read. -/
def classFileFacts (name : EntryName) (path : String) (cls : ClassFile) : Extract σ Unit := do
  emit (.entity (.bare .package name.package (← get).location))
  push name.package (.entity .package)
  classPass cls
  emit (.file ⟨.classFile, name.className, some path, (← get).location⟩)
  discard pop

lemma tells_classFileFacts (scope : ScopeStack) (name : EntryName) (path : String)
    (cls : ClassFile) :
    Tells (σ := σ) (name.location cls) scope.frames scope (classFileFacts name path cls)
      (classFileAccount name path cls) ⟨⟩
        (scope.passed (2 + cls.methods.countP fun info => !info.isBridge)) := by
  set methods := cls.methods.countP fun info => !info.isBridge
  set opened := scope.push name.package (.entity .package)
  set closing := opened.passed (1 + methods)
  have hclosing : closing.frames = ⟨.entity .package, name.package, false⟩ :: scope.frames := rfl
  have hfloor : scope.frames <:+ closing.frames := List.suffix_cons _ _
  have hclass : Tells (σ := σ) (name.location cls) scope.frames opened (classPass cls)
      (classAccount (name.location cls) cls) ⟨⟩ closing :=
    (tells_classPass cls (List.cons_ne_nil _ _)).mono_floor (List.suffix_cons _ _)
  have hpop : Tells (σ := σ) (name.location cls) scope.frames closing (discard pop) [] ⟨⟩
      (scope.passed (2 + methods)) := by
    have hpassed : scope.passed (2 + methods) =
        ⟨scope.frames, closing.pushes, closing.pops + 1⟩ := by
      simp only [ScopeStack.passed, ScopeStack.push, closing, opened, ScopeStack.mk.injEq, true_and]
      omega
    rw [hpassed]
    exact (tells_pop hclosing).bind_silent (.pure _)
  rw [classFileAccount, List.append_assoc]
  refine tells_get_bind fun _ _ _ => (tells_emit List.suffix_rfl _).bind ?_
  refine (tells_push _ _).bind_silent (hclass.bind ?_)
  exact tells_get_bind fun _ _ _ => (tells_emit hfloor _).bind_last hpop

omit [FactSink σ] in
/-- Reading a class file leaves all of an extraction as it is but the log. -/
lemma run_parseClass (bytes : Bytes) (context : ExtractContext σ) :
    (parseClass bytes).run.run context =
      ((ClassFile.parse bytes).mapError .classFile,
        { context with log := context.log ++ (ClassFile.parseWithLog bytes).2 }) := by
  unfold parseClass ClassFile.parse
  rcases ClassFile.parseWithLog bytes with ⟨_ | _, noted⟩ <;> rfl

lemma truncate_depth {frames : List ScopeFrame} {stack : ScopeStack} (h : frames <:+ stack.frames) :
    (stack.truncate frames.length).frames = frames := by
  obtain ⟨opened, hopened⟩ := h
  simp [ScopeStack.truncate, ← hopened]

/-- What is done with an entry whose path has been read, on its way in and on both ways out. -/
lemma entry_run_of_name {path : String} {name : EntryName} (hname : EntryName.parse path = .ok name)
    (bytes : Bytes) (context : ExtractContext σ) :
    (entry path bytes).run.run context =
      match (entryFacts name path bytes).run.run
        { context with location := .ofClassFile name.package name.classFqn } with
      | (.ok (), context') => (.ok (), { context' with location := .nowhere })
      | (.error error, context') =>
        (.error error,
          { context' with
            scope := context'.scope.truncate context.scope.depth
            location := .nowhere
            log := context'.log.push (.extractionAborted path error.message) }) := by
  rw [entry, hname, decoded_ok_bind]
  simp only [run_get_bind, run_modify_bind, run_tryCatch]
  rw [run_bind]
  rcases (entryFacts name path bytes).run.run _ with ⟨error | _, context'⟩ <;> rfl

/-- What is done with an entry that holds a class file, in the same way. -/
lemma entry_run_of_class {path : String} {name : EntryName}
    (hname : EntryName.parse path = .ok name)
    {bytes : Bytes} {cls : ClassFile} (hclass : ClassFile.parse bytes = .ok cls)
    (context : ExtractContext σ) :
    (entry path bytes).run.run context =
      match (classFileFacts name path cls).run.run
        ⟨context.sink, context.scope, name.location cls, context.counts,
        context.log ++ (ClassFile.parseWithLog bytes).2⟩ with
      | (.ok (), context') => (.ok (), { context' with location := .nowhere })
      | (.error error, context') =>
        (.error error,
          { context' with
            scope := context'.scope.truncate context.scope.depth
            location := .nowhere
            log := context'.log.push (.extractionAborted path error.message) }) := by
  rw [entry_run_of_name hname, entryFacts, run_bind, run_parseClass, hclass]
  rfl

/-- **The whole procedure for an entry tells its account**, and closes every scope that it has
opened. -/
lemma entry_run (path : String) (bytes : Bytes) (context : ExtractContext σ) :
    ∃ scope location log, scope.frames = context.scope.frames ∧
      (entry path bytes).run.run context =
        (((entryAccount path bytes).deliver context.sink context.counts).1,
          ⟨((entryAccount path bytes).deliver context.sink context.counts).2.1, scope, location,
            ((entryAccount path bytes).deliver context.sink context.counts).2.2, log⟩) := by
  rw [entryAccount]
  cases hname : EntryName.parse path with
  | error error =>
      refine ⟨context.scope, context.location, context.log, rfl, ?_⟩
      rw [entry, hname]
      rfl
  | ok name =>
      rw [reading_ok]
      cases hclass : ClassFile.parse bytes with
      | error error =>
          rw [entry_run_of_name hname, entryFacts, run_bind, run_parseClass, hclass]
          exact ⟨_, _, _, truncate_depth List.suffix_rfl, rfl⟩
      | ok cls =>
          rw [entry_run_of_class hname hclass]
          have hrun := tells_classFileFacts context.scope name path cls context.sink context.counts
            (context.log ++ (ClassFile.parseWithLog bytes).2)
          rcases hdeliver : (classFileAccount name path cls).deliver context.sink context.counts
            with ⟨error | _, sink', counts'⟩ <;> rw [hdeliver] at hrun
          · obtain ⟨log', left, -, hleft, heq⟩ := hrun
            rw [heq]
            exact ⟨left.truncate context.scope.depth, _, _, truncate_depth hleft, rfl⟩
          · obtain ⟨log', -, heq⟩ := hrun
            rw [heq]
            exact ⟨context.scope.passed _, _, _, rfl, rfl⟩

end Extract

end JarFacts
