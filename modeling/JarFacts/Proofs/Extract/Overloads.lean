import JarFacts.Proofs.Extract.Written
import JarFacts.Proofs.Signature.Erasure
import JarFacts.Proofs.Signature.Naming

/-!
# The names of overloaded methods

The full name of a method is made from its parameters, so that methods of one name stay distinct.
The parameters are those of the generic signature where there is one, and those of the descriptor
otherwise.  It is the descriptors that differ between the methods of a class, so distinctness rests
on how much of the descriptor is left in the text of the signature.

All of it is left where the parameters of the signature can be erased to those of the descriptor
(`MethodInfo.ErasesTo`): methods of one name then have different full names wherever their
descriptors have different parameters (`overloads_distinct_of_erasesTo`).  A type variable cannot be
erased, since its bound is not part of its text, and two methods that take one of different bounds
are given the same full name (`boundedTwins_collide`).
-/

namespace JarFacts

open Account ClassFile Signature

/-- The parameters that a method has in its name are types that can be erased, to the given ones. -/
def MethodInfo.ErasesTo (method : MethodInfo) (raw : List String) : Prop :=
  ∃ tree, Parser.methodTree.runOn (method.signature.getD method.descriptor) = .ok tree ∧
    (∀ type ∈ tree.parameters, type.isPlain = true) ∧
    tree.parameters.mapM TypeTree.erasure? = some (raw.map String.toList)

instance (method : MethodInfo) (raw : List String) : Decidable (method.ErasesTo raw) :=
  match htree : Parser.methodTree.runOn (method.signature.getD method.descriptor) with
  | .ok tree =>
    decidable_of_iff ((∀ type ∈ tree.parameters, type.isPlain = true) ∧
        tree.parameters.mapM TypeTree.erasure? = some (raw.map String.toList))
      ⟨fun h => ⟨tree, htree, h⟩, fun ⟨_, hfound, h⟩ => Except.ok.inj (htree.symm.trans hfound) ▸ h⟩
  | .error _ => isFalse fun ⟨_, hfound, _⟩ => nomatch htree.symm.trans hfound

/-! ## Parameter lists -/

/-- Parameter lists that are the same text have the same erasures. -/
lemma eq_of_parameterList_eq {method method' : MethodInfo} {signature signature' : MethodSignature}
    {raw raw' : List String} (h : method.ErasesTo raw) (h' : method'.ErasesTo raw')
    (hsignature : MethodSignature.decode (method.signature.getD method.descriptor) = .ok signature)
    (hsignature' : MethodSignature.decode (method'.signature.getD method'.descriptor) =
      .ok signature')
    (heq : signature.parameterList = signature'.parameterList) : raw = raw' := by
  obtain ⟨tree, htree, hplain, herased⟩ := h
  obtain ⟨tree', htree', hplain', herased'⟩ := h'
  rw [MethodSignature.decode_eq_map, htree] at hsignature
  rw [MethodSignature.decode_eq_map, htree'] at hsignature'
  cases hsignature
  cases hsignature'
  have hrender (trees : List TypeTree) : (trees.map canonical).map String.toList =
      trees.map TypeTree.render := by
    simp only [List.map_map]
    exact List.map_congr_left fun type _ => String.toList_ofList
  have htext := congrArg String.toList heq
  simp only [MethodSignature.parameterList, toList_parameterList, MethodTree.canonical, hrender,
    List.cons.injEq, true_and, List.append_cancel_right_eq] at htext
  have hnames := erasures_eq_of_commaSeparated_eq hplain hplain' herased herased' htext
  exact List.map_injective_iff.mpr (fun _ _ => String.toList_inj.mp) hnames

/-! ## The methods of a pass -/

/-- The methods that have an entity, each with it. -/
def methodsTold (location : Location) (owner : String) (cls : ClassFile) :
    List (MethodInfo × EntityFact) :=
  cls.methods.filterMap fun method =>
    (methodEntity? location cls.kind? owner method).map (method, ·)

/-- The last entities that a class tells are those of its methods. -/
lemma suffix_entities_classAccount {location : Location} {cls : ClassFile} {fqn : String}
    (hname : decodeClassName cls.name = .ok fqn) :
    (methodsTold location fqn cls).map Prod.snd <:+
      (classAccount location cls).collect Fact.entity? := by
  have htold : (methodsTold location fqn cls).map Prod.snd =
      collect Fact.entity? (cls.methods.flatMap (methodAccount location cls.kind? fqn)) := by
    simp only [methodsTold, List.map_filterMap, collect_flatMap, (collect_methodAccount _ _ _ _).1,
      ← List.filterMap_eq_flatMap_toList, Option.map_map]
    exact congrArg (cls.methods.filterMap ·) (funext fun method => Option.map_id')
  have hplace : collect Fact.entity? (placeAccount location fqn cls) = [] := by
    unfold placeAccount
    split <;> rfl
  rw [classAccount, hname, reading_ok, collect_append, hplace, List.append_nil,
    collect_append, membersAccount, collect_append, ← List.append_assoc, htold]
  exact List.suffix_append _ _

lemma exists_methodEntity {location : Location} {holder : Option EntityKind} {owner : String}
    {method : MethodInfo} (hbridge : method.isBridge = false)
    (h : (methodAccount location holder owner method).verdict = .ok ()) :
    ∃ entity, methodEntity? location holder owner method = some entity := by
  simp only [methodAccount, hbridge, Bool.false_eq_true, if_false, verdict_reading_eq_ok] at h
  obtain ⟨raw, hraw, signature, hsignature, -⟩ := h
  simp only [methodEntity?, hbridge, hraw, hsignature, Bool.false_eq_true, if_false]
  exact ⟨_, rfl⟩

/-- Where an account was told to the end every method but a bridge has an entity. -/
lemma map_fst_methodsTold {location : Location} {cls : ClassFile} {fqn : String}
    (hname : decodeClassName cls.name = .ok fqn)
    (h : (classAccount location cls).verdict = .ok ()) :
    (methodsTold location fqn cls).map Prod.fst = cls.methods.filter fun method =>
      !method.isBridge := by
  rw [classAccount, hname, reading_ok, verdict_append_eq_ok, verdict_append_eq_ok, membersAccount,
    verdict_append_eq_ok, verdict_flatMap_eq_ok] at h
  have hmethods := h.1.2.2
  have hentity : ∀ method ∈ cls.methods,
      ((methodEntity? location cls.kind? fqn method).map (method, ·)).map Prod.fst =
      Option.guard (fun method => !method.isBridge) method := by
    intro method hmethod
    rw [Option.map_map, Option.guard]
    cases hbridge : method.isBridge with
    | true => simp [methodEntity?, hbridge]
    | false =>
        obtain ⟨entity, hsome⟩ := exists_methodEntity hbridge (hmethods method hmethod)
        rw [hsome]
        rfl
  rw [methodsTold, List.map_filterMap, ← List.filterMap_eq_filter]
  exact List.filterMap_congr hentity

/-- A method that has an entity is named after its class, its own name and the parameters of its
signature. -/
lemma fqn_of_mem_methodsTold {location : Location} {cls : ClassFile} {owner : String}
    {method : MethodInfo}
    {entity : EntityFact} (h : (method, entity) ∈ methodsTold location owner cls) :
    ∃ signature, MethodSignature.decode (method.signature.getD method.descriptor) = .ok signature ∧
      entity.fqn = owner ++ "." ++ method.name ++ signature.parameterList := by
  obtain ⟨other, -, hentity⟩ := List.mem_filterMap.mp h
  obtain ⟨found, hfound, heq⟩ := Option.map_eq_some_iff.mp hentity
  cases heq
  unfold methodEntity? at hfound
  split at hfound
  · cases hfound
  · split at hfound
    next raw signature _ hsignature =>
      cases hfound
      exact ⟨signature, hsignature, rfl⟩
    next => cases hfound

namespace Extract

variable {σ : Type} [FactSink σ]

/-- **Overloaded methods stay distinct where their signatures can be erased.**  A pass that succeeds
has written an entity for every method that is no bridge, in order, behind all its other entities.
Two methods of one name are given the same full name exactly when the parameter lists of their
signatures are the same text.  That is never so where their descriptors have different parameters
and their signatures can be erased to them. -/
theorem overloads_distinct_of_erasesTo (cls : ClassFile) (context : ExtractContext (Traced σ))
    (hok : ((classPass cls).run.run context).1 = .ok ()) :
    ∃ (facts : List Fact) (told : List (MethodInfo × EntityFact)),
      ((classPass cls).run.run context).2.sink.accepted = context.sink.accepted ++ facts.map .fact ∧
      told.map Prod.fst = cls.methods.filter (fun method => !method.isBridge) ∧
      told.map Prod.snd <:+ facts.filterMap Fact.entity? ∧
      ∀ method entity method' entity', (method, entity) ∈ told → (method', entity') ∈ told →
        method.name = method'.name →
        (∀ signature signature',
          MethodSignature.decode (method.signature.getD method.descriptor) = .ok signature →
          MethodSignature.decode (method'.signature.getD method'.descriptor) = .ok signature' →
          (entity.fqn = entity'.fqn ↔ signature.parameterList = signature'.parameterList)) ∧
        ∀ raw raw',
          (MethodSignature.decode method.descriptor).map MethodSignature.parameters = .ok raw →
          (MethodSignature.decode method'.descriptor).map MethodSignature.parameters = .ok raw' →
          raw ≠ raw' →
          method.ErasesTo raw → method'.ErasesTo raw' → entity.fqn ≠ entity'.fqn := by
  obtain ⟨hverdict, hwritten⟩ := classPass_written hok
  obtain ⟨fqn, hname, -⟩ := verdict_reading_eq_ok.mp hverdict
  refine ⟨_, methodsTold context.location fqn cls, hwritten,
    map_fst_methodsTold hname hverdict, ?_, ?_⟩
  · rw [← collect_eq _ hverdict]
    exact suffix_entities_classAccount hname
  intro method entity method' entity' hmethod hmethod' hsame
  obtain ⟨signature, hsignature, hfqn⟩ := fqn_of_mem_methodsTold hmethod
  obtain ⟨signature', hsignature', hfqn'⟩ := fqn_of_mem_methodsTold hmethod'
  have hiff : entity.fqn = entity'.fqn ↔ signature.parameterList = signature'.parameterList := by
    rw [hfqn, hfqn', hsame]
    exact String.append_right_inj _
  refine ⟨fun found found' hfound hfound' => ?_, fun raw raw' _ _ hraw herases herases' heq => ?_⟩
  · cases hsignature.symm.trans hfound
    cases hsignature'.symm.trans hfound'
    exact hiff
  · exact hraw (eq_of_parameterList_eq herases herases' hsignature hsignature' (hiff.mp heq))

/-- A method `f` without a body, by its descriptor and its signature. -/
def genericMethod (descriptor signature : String) : MethodInfo :=
  ⟨0x0401, "f", descriptor, some signature, [], [], [], false, none, []⟩

/-- An interface with the given methods. -/
def interfaceOf (methods : List MethodInfo) : ClassFile where
  minorVersion := 0
  majorVersion := 52
  access := 0x0601
  name := "p/A"
  superName := some "java/lang/Object"
  interfaces := []
  signature := none
  sourceFile := none
  enclosingMethod := none
  annotations := []
  unknownAttributes := []
  fields := []
  methods := methods

/-- A method that takes a list of something. -/
def takesList : MethodInfo :=
  genericMethod "(Ljava/util/List;)V" "<T:Ljava/lang/Object;>(Ljava/util/List<TT;>;)V"

/-- A method that takes a set of something. -/
def takesSet : MethodInfo :=
  genericMethod "(Ljava/util/Set;)V" "<T:Ljava/lang/Object;>(Ljava/util/Set<TT;>;)V"

/-- What a list or a set is of does not show in a descriptor, and the two are told apart all the
same. -/
theorem collectionTwins_distinct :
    ((classPass (interfaceOf [takesList, takesSet])).run.run packageContext.traced).1 = .ok () ∧
    takesList.ErasesTo ["java.util.List"] ∧ takesSet.ErasesTo ["java.util.Set"] ∧
    ∃ (facts : List Fact) (entity entity' : EntityFact),
      ((classPass (interfaceOf [takesList, takesSet])).run.run
        packageContext.traced).2.sink.accepted =
        facts.map .fact ∧
      [entity, entity'] <:+ facts.filterMap Fact.entity? ∧ entity.fqn ≠ entity'.fqn := by
  have hok : ((classPass (interfaceOf [takesList, takesSet])).run.run packageContext.traced).1 =
      .ok () := by
    decide +kernel
  have hlist : takesList.ErasesTo ["java.util.List"] := by decide +kernel
  have hset : takesSet.ErasesTo ["java.util.Set"] := by decide +kernel
  obtain ⟨facts, told, hwritten, hmethods, hsuffix, hdistinct⟩ :=
    overloads_distinct_of_erasesTo (interfaceOf [takesList, takesSet]) packageContext.traced hok
  have htwo : told.map Prod.fst = [takesList, takesSet] := hmethods
  obtain ⟨⟨_, entity⟩, rest, rfl, rfl, hrest⟩ := List.map_eq_cons_iff.mp htwo
  obtain ⟨⟨_, entity'⟩, none, rfl, rfl, hnone⟩ := List.map_eq_cons_iff.mp hrest
  obtain rfl := List.map_eq_nil_iff.mp hnone
  refine ⟨hok, hlist, hset, facts, entity, entity', hwritten, hsuffix, ?_⟩
  exact (hdistinct takesList entity takesSet entity' (by simp) (by simp) rfl).2 _ _
    (by decide +kernel) (by decide +kernel) (by decide) hlist hset

/-- A method that takes anything. -/
def takesAnything : MethodInfo :=
  genericMethod "(Ljava/lang/Object;)V" "<T:Ljava/lang/Object;>(TT;)V"

/-- A method that takes any number. -/
def takesNumber : MethodInfo :=
  genericMethod "(Ljava/lang/Number;)V" "<T:Ljava/lang/Number;>(TT;)V"

/-- The names and the raw parameters of the methods that a recorder has taken. -/
def methodNames (recorder : Recorder) : List (String × Option String) :=
  recorder.accepted.toList.filterMap fun
    | .fact (.entity entity) => if entity.kind = .method then some (entity.fqn, entity.rawSignature)
      else none
    | _ => none

/-- The bound of a type variable is not part of a name, and overloads that differ by nothing else
collide. -/
theorem boundedTwins_collide :
    ((classPass (interfaceOf [takesAnything, takesNumber])).run.run packageContext).1 = .ok () ∧
    takesAnything.isBridge = false ∧ takesNumber.isBridge = false ∧
    takesAnything.name = takesNumber.name ∧
    (MethodSignature.decode takesAnything.descriptor).map MethodSignature.parameters =
      .ok ["java.lang.Object"] ∧
    (MethodSignature.decode takesNumber.descriptor).map MethodSignature.parameters =
      .ok ["java.lang.Number"] ∧
    methodNames
      ((classPass (interfaceOf [takesAnything, takesNumber])).run.run packageContext).2.sink =
      [("p.A.f(<T>)", some "(java.lang.Object)"), ("p.A.f(<T>)", some "(java.lang.Number)")] := by
  decide +kernel

end Extract

end JarFacts
