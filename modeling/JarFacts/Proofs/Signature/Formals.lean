import JarFacts.Proofs.Signature.Accepted

/-!
# Formal type parameters without bounds

Behind the colon of a formal type parameter one character decides whether a class bound is read.  A
further colon or the bracket that closes the list says that there is none; anything else is taken
for the beginning of one, the name of the next parameter included.  So a parameter may do without
bounds only at the end of the list (`Separable.boundedButLast`), and there it does.

The grammar of signatures has no such condition.  `ParameterTree.Proper` is a parameter of the
grammar, and `formals_reported_iff` says of the declarations with such parameters which are reported
as they were written.
-/

namespace JarFacts.Signature

/-- A class signature of the grammar. -/
@[mk_iff]
structure ClassTree.Proper (tree : ClassTree) : Prop where
  parameters : ∀ parameter ∈ tree.typeParameters, parameter.Proper
  superclass : tree.superclass.Fits
  interfaces : ∀ type ∈ tree.interfaces, type.Fits

/-- A method signature of the grammar. -/
@[mk_iff]
structure MethodTree.Proper (tree : MethodTree) : Prop where
  formals : ∀ parameter ∈ tree.typeParameters, parameter.Proper
  parameters : ∀ type ∈ tree.parameters, type.Fits
  returnType : tree.returnType = .void ∨ tree.returnType.Fits
  exceptions : ∀ type ∈ tree.exceptions, type.Fits

/-- A parameter that is followed by another one has a bound. -/
def BoundedButLast (parameters : List ParameterTree) : Prop :=
  ∀ parameter ∈ parameters.dropLast, parameter.bounds ≠ []

lemma boundedButLast_cons_cons {parameter successor : ParameterTree} {others : List ParameterTree} :
    BoundedButLast (parameter :: successor :: others) ↔
      parameter.bounds ≠ [] ∧ BoundedButLast (successor :: others) := by
  rw [BoundedButLast, List.dropLast_cons_cons, List.forall_mem_cons]
  rfl

/-- The names of the parameters and of their bounds tell which of them have any. -/
lemma boundedButLast_iff_formalNames {parameters : List ParameterTree} :
    BoundedButLast parameters ↔
    ∀ formal ∈ (formalNames parameters).dropLast, formal.bounds ≠ [] := by
  rw [formalNames, ← List.map_dropLast, List.forall_mem_map]
  simp only [ne_eq, List.map_eq_nil_iff]
  rfl

lemma Separable.boundedButLast {parameters : List ParameterTree} (h : Separable parameters) :
    BoundedButLast parameters := by
  obtain ⟨-, hchain⟩ := h
  induction hchain with
  | nil => exact fun _ hmem => absurd hmem List.not_mem_nil
  | singleton => exact fun _ hmem => absurd hmem List.not_mem_nil
  | cons_cons hprecedes _ ih => exact boundedButLast_cons_cons.mpr ⟨hprecedes.1, ih⟩

/-- The parameters of the grammar are told apart by their bounds. -/
lemma separable_of_boundedButLast {parameters : List ParameterTree}
    (hproper : ∀ parameter ∈ parameters, parameter.Proper) (hbounded : BoundedButLast parameters) :
    Separable parameters := by
  refine ⟨fun parameter hmem => (hproper parameter hmem).readable, ?_⟩
  induction parameters with
  | nil => exact List.isChain_nil
  | cons parameter others ih =>
      cases others with
      | nil => exact List.isChain_singleton _
      | cons successor others =>
          obtain ⟨hbounds, hothers⟩ := boundedButLast_cons_cons.mp hbounded
          have hsuccessor := hproper successor (List.mem_cons_of_mem _ List.mem_cons_self)
          refine List.isChain_cons_cons.mpr ⟨hsuccessor.precedes hbounds, ih ?_ hothers⟩
          exact fun found hmem => hproper found (List.mem_cons_of_mem _ hmem)

/-- What is reported as these parameters has been read as parameters of which all but the last are
bounded. -/
lemma boundedButLast_of_reported {parameters reported : List ParameterTree}
    (hreported : Separable reported)
    (hnames : formalNames reported = formalNames parameters) : BoundedButLast parameters := by
  rw [boundedButLast_iff_formalNames, ← hnames]
  exact boundedButLast_iff_formalNames.mp hreported.boundedButLast

lemma ClassTree.Proper.readable {tree : ClassTree} (h : tree.Proper)
    (hbounded : BoundedButLast tree.typeParameters) :
    tree.Readable :=
  ⟨separable_of_boundedButLast h.parameters hbounded, h.superclass, h.interfaces⟩

lemma MethodTree.Proper.readable {tree : MethodTree} (h : tree.Proper)
    (hbounded : BoundedButLast tree.typeParameters) : tree.Readable where
  formals := separable_of_boundedButLast h.formals hbounded
  parameters := h.parameters
  returnType := (TypeTree.legal_true_of_returnType h.returnType).1
  nesting_le := (TypeTree.legal_true_of_returnType h.returnType).2
  exceptions := h.exceptions

namespace Parser

/-- No type is read where none begins. -/
lemma run_typeTree_of_not_start {c : Char} (hstart : c ∉ "BCDFIJSZTL[".toList) (position : Nat)
    (rest : List Char) :
    (typeTree false).run ⟨position, c :: rest⟩ =
      .error (.unexpected ((Utf8.encodeChar c).headD 0) position) := by
  have hletter : BaseType.ofLetter? c = none := by
    cases hbase : BaseType.ofLetter? c with
    | none => rfl
    | some b =>
        rw [BaseType.letter_of_ofLetter? hbase] at hstart
        exact absurd (by cases b <;> decide) hstart
  have hother (d : Char) (hd : d ∈ "BCDFIJSZTL[".toList) : c ≠ d := fun hc => hstart (hc ▸ hd)
  have hvoid : ¬(c = 'V' ∧ false = true) := fun h => Bool.false_ne_true h.2
  show (typeWith false 0 (2 * (c :: rest).length + 1 + 1)).run ⟨position, c :: rest⟩ = _
  rw [typeWith, run_get_bind, run_bind, run_next]
  dsimp only
  rw [if_neg (hother '[' (by decide)), if_neg (hother 'L' (by decide)),
    if_neg (hother 'T' (by decide)), if_neg hvoid, hletter]
  rfl

variable {name : List Char} {c : Char}

/-- Behind the colon of a parameter without bounds the name of the next one is refused, unless a
type begins like it. -/
lemma run_typeParameter_of_unbounded (hname : ∀ d ∈ name, d ∉ [':']) (hcolon : c ≠ ':')
    (hbracket : c ≠ '>') (hstart : c ∉ "BCDFIJSZTL[".toList) (position : Nat) (rest : List Char) :
    typeParameter.run ⟨position, name ++ ':' :: c :: rest⟩ =
      .error (.unexpected ((Utf8.encodeChar c).headD 0) (position + Utf8.byteLength name + 1)) := by
  have hexpect : (expect ':').run ⟨position + Utf8.byteLength name, ':' :: c :: rest⟩ =
      .ok ((), ⟨position + Utf8.byteLength name + 1, c :: rest⟩) :=
    Reads.expect ':' (position + Utf8.byteLength name) (c :: rest)
  have hpeek : peek.run ⟨position + Utf8.byteLength name + 1, c :: rest⟩ =
      .ok (some c, ⟨position + Utf8.byteLength name + 1, c :: rest⟩) := rfl
  have hbound : ¬(some c = some ':' ∨ some c = some '>') := by
    rintro (h | h)
    · exact hcolon (Option.some.inj h)
    · exact hbracket (Option.some.inj h)
  rw [typeParameter, run_bind, run_name_of_stop position (c :: rest) hname List.mem_cons_self]
  dsimp only
  rw [run_bind, hexpect]
  dsimp only
  rw [run_bind, hpeek]
  dsimp only
  rw [if_neg hbound, map_eq_pure_bind, run_bind, run_bind, run_typeTree_of_not_start hstart]

lemma run_typeParameters_of_unbounded (hname : ∀ d ∈ name, d ∉ [':']) (hcolon : c ≠ ':')
    (hbracket : c ≠ '>') (hstart : c ∉ "BCDFIJSZTL[".toList) (position : Nat) (rest : List Char) :
    typeParameters.run ⟨position, '<' :: (name ++ ':' :: c :: rest)⟩ =
      .error (.unexpected ((Utf8.encodeChar c).headD 0)
        (position + 1 + Utf8.byteLength name + 1)) := by
  have hopen : typeParameters.run ⟨position, '<' :: (name ++ ':' :: c :: rest)⟩ =
      (typeParametersTail (2 * (name ++ ':' :: c :: rest).length + 1 + 1)).run
        ⟨position + 1, name ++ ':' :: c :: rest⟩ := rfl
  rw [hopen, typeParametersTail, run_bind,
    run_typeParameter_of_unbounded hname hcolon hbracket hstart]

end Parser

end JarFacts.Signature

namespace JarFacts

open Signature

/-- A signature that begins with a parameter without bounds is refused for the name of the next one,
unless a type begins like it. -/
lemma MethodSignature.decode_of_unbounded {name : List Char} {c : Char}
    (hname : ∀ d ∈ name, d ∉ [':'])
    (hcolon : c ≠ ':') (hbracket : c ≠ '>') (hstart : c ∉ "BCDFIJSZTL[".toList) (rest : List Char)
    {text : String} (htext : text.toList = '<' :: (name ++ ':' :: c :: rest)) :
    decode text =
      .error (.unexpected text ((Utf8.encodeChar c).headD 0) (Utf8.byteLength name + 2)) := by
  have hrun := Parser.run_typeParameters_of_unbounded hname hcolon hbracket hstart 0 rest
  have hposition : 0 + 1 + Utf8.byteLength name + 1 = Utf8.byteLength name + 2 := by omega
  rw [hposition] at hrun
  rw [decode_eq_map, Parser.runOn_eq, htext, Cursor.start, Parser.methodTree, Parser.run_bind, hrun]
  rfl

/-- **Formal parameters are reported as they are written if only the last of them is without
bounds.**  Where another one follows a parameter without bounds the signature is refused, or
something else is reported. -/
theorem formals_reported_iff {classTree : ClassTree} {methodTree : MethodTree}
    (hclass : classTree.Proper) (hmethod : methodTree.Proper) :
    ((∃ signature, ClassSignature.decode (String.ofList classTree.print) = .ok signature ∧
        signature.typeParameters = formalNames classTree.typeParameters) ↔
        BoundedButLast classTree.typeParameters) ∧
    (BoundedButLast classTree.typeParameters →
      ClassSignature.decode (String.ofList classTree.print) =
        .ok ⟨formalNames classTree.typeParameters, canonical classTree.superclass,
          classTree.interfaces.map canonical⟩) ∧
    ((∃ signature, MethodSignature.decode (String.ofList methodTree.print) = .ok signature ∧
        signature.typeParameters = formalNames methodTree.typeParameters) ↔
      BoundedButLast methodTree.typeParameters) ∧
    (BoundedButLast methodTree.typeParameters →
      MethodSignature.decode (String.ofList methodTree.print) =
        .ok ⟨formalNames methodTree.typeParameters, methodTree.parameters.map canonical,
          canonical methodTree.returnType, methodTree.exceptions.map canonical⟩) ∧
    ∀ parameter : ParameterTree, parameter.bounds = [] →
      parameter.canonical.render = "<" ++ String.ofList parameter.name ++ ">" := by
  refine ⟨⟨?_, ?_⟩, fun hbounded => (hclass.readable hbounded).decode, ⟨?_, ?_⟩,
    fun hbounded => (hmethod.readable hbounded).decode, ?_⟩
  · rintro ⟨signature, hdecode, hnames⟩
    obtain ⟨found, hreadable, -, rfl⟩ := ClassSignature.decode_eq_ok_iff.mp hdecode
    exact boundedButLast_of_reported hreadable.parameters hnames
  · exact fun hbounded => ⟨_, (hclass.readable hbounded).decode, rfl⟩
  · rintro ⟨signature, hdecode, hnames⟩
    obtain ⟨found, hreadable, -, rfl⟩ := MethodSignature.decode_eq_ok_iff.mp hdecode
    exact boundedButLast_of_reported hreadable.formals hnames
  · exact fun hbounded => ⟨_, (hmethod.readable hbounded).decode, rfl⟩
  · intro parameter hbounds
    have hcanonical : parameter.canonical.bounds = parameter.bounds.map canonical := rfl
    rw [FormalTypeParameter.render, hcanonical, hbounds]
    rfl

/-- A class whose last parameter is without bounds. -/
def looseClass : ClassTree where
  typeParameters := [⟨['T'], none, [.named ['K'] []]⟩, ⟨['U'], none, []⟩]
  superclass := .named ['S'] []
  interfaces := [.named ['J'] []]

/-- A method whose first parameter is without bounds.  The name of the second is not the beginning
of a type. -/
def looseMethod : MethodTree where
  typeParameters := [⟨['T'], none, []⟩, ⟨['U'], some (.named "java/lang/Object".toList []), []⟩]
  parameters := [.var ['T']]
  returnType := .void
  exceptions := []

/-- A class of the parameters `T` and `IA`, the first without bounds.  The name of the second begins
like the text of `int`. -/
def mistakenClass : ClassTree where
  typeParameters := [⟨['T'], none, []⟩, ⟨['I', 'A'], some (.named ['B'] []), []⟩]
  superclass := .named ['C'] []
  interfaces := []

/-- A class of the parameters `T` and `A`, the first bounded by `int`. -/
def boundedByInt : ClassTree where
  typeParameters := [⟨['T'], some (.base .int), []⟩, ⟨['A'], some (.named ['B'] []), []⟩]
  superclass := .named ['C'] []
  interfaces := []

lemma looseClass_proper : looseClass.Proper := by
  simp [looseClass, ClassTree.proper_iff, ParameterTree.proper_iff, ParameterTree.bounds,
    TypeTree.fits_iff, TypeTree.Legal, LegalSuffixes, IsSegment, TypeTree.nesting, nestingSuffixes]

lemma looseMethod_proper : looseMethod.Proper := by
  simp [looseMethod, MethodTree.proper_iff, ParameterTree.proper_iff, ParameterTree.bounds,
    TypeTree.fits_iff, TypeTree.Legal, LegalSuffixes, IsSegment, TypeTree.nesting, nestingSuffixes]

lemma mistakenClass_proper : mistakenClass.Proper := by
  simp [mistakenClass, ClassTree.proper_iff, ParameterTree.proper_iff, ParameterTree.bounds,
    TypeTree.fits_iff, TypeTree.Legal, LegalSuffixes, IsSegment, TypeTree.nesting, nestingSuffixes]

lemma boundedByInt_proper : boundedByInt.Proper := by
  simp [boundedByInt, ClassTree.proper_iff, ParameterTree.proper_iff, ParameterTree.bounds,
    TypeTree.fits_iff, TypeTree.Legal, LegalSuffixes, IsSegment, TypeTree.nesting, nestingSuffixes]

/-- The last parameter is reported without bounds, and rendered so.  No report of the method, whose
first parameter has none, has its parameters. -/
theorem formals_reported_looseClass :
    looseClass.Proper ∧ looseMethod.Proper ∧ BoundedButLast looseClass.typeParameters ∧
    ClassSignature.decode "<T::LK;U:>LS;LJ;" = .ok ⟨[⟨"T", ["K"]⟩, ⟨"U", []⟩], "S", ["J"]⟩ ∧
    (ParameterTree.mk ['U'] none []).canonical.render = "<" ++ "U" ++ ">" ∧
    ¬∃ signature, MethodSignature.decode (String.ofList looseMethod.print) = .ok signature ∧
      signature.typeParameters = formalNames looseMethod.typeParameters := by
  obtain ⟨-, hclass, hmethod, -, hrender⟩ :=
    formals_reported_iff looseClass_proper looseMethod_proper
  have hbounded : BoundedButLast looseClass.typeParameters := by
    simp [BoundedButLast, looseClass, ParameterTree.bounds]
  have hunbounded : ¬BoundedButLast looseMethod.typeParameters := by
    simp [BoundedButLast, looseMethod, ParameterTree.bounds]
  have hprint : String.ofList looseClass.print = "<T::LK;U:>LS;LJ;" := by decide
  have hnames : formalNames looseClass.typeParameters = [⟨"T", ["K"]⟩, ⟨"U", []⟩] := by decide
  have hsuperclass : canonical looseClass.superclass = "S" := by decide
  have hinterfaces : looseClass.interfaces.map canonical = ["J"] := by decide
  have hdecode := hclass hbounded
  rw [hprint, hnames, hsuperclass, hinterfaces] at hdecode
  exact ⟨looseClass_proper, looseMethod_proper, hbounded, hdecode, hrender _ rfl,
    mt hmethod.mp hunbounded⟩

/-- A parameter without bounds is not read in front of another one: it is refused for the name of
that, or it gets a bound that was not written and leaves the rest of the name to the other. -/
theorem formals_not_reported :
    looseMethod.Proper ∧
    String.ofList looseMethod.print = "<T:U:Ljava/lang/Object;>(TT;)V" ∧
    MethodSignature.decode (String.ofList looseMethod.print) =
      .error (.unexpected "<T:U:Ljava/lang/Object;>(TT;)V" 85 3) ∧
    mistakenClass.Proper ∧
    String.ofList mistakenClass.print = "<T:IA:LB;>LC;" ∧
    formalNames mistakenClass.typeParameters = [⟨"T", []⟩, ⟨"IA", ["B"]⟩] ∧
    ClassSignature.decode (String.ofList mistakenClass.print) =
      .ok ⟨[⟨"T", ["int"]⟩, ⟨"A", ["B"]⟩], "C", []⟩ := by
  have hmethod : String.ofList looseMethod.print = "<T:U:Ljava/lang/Object;>(TT;)V" := by decide
  have hclass : String.ofList mistakenClass.print = "<T:IA:LB;>LC;" := by decide
  have hsame : mistakenClass.print = boundedByInt.print := by decide
  have hnames : formalNames mistakenClass.typeParameters = [⟨"T", []⟩, ⟨"IA", ["B"]⟩] := by decide
  have hname : ∀ d ∈ ['T'], d ∉ [':'] := by simp
  have htext : "<T:U:Ljava/lang/Object;>(TT;)V".toList =
      '<' :: (['T'] ++ ':' :: 'U' :: ":Ljava/lang/Object;>(TT;)V".toList) := by decide
  have hrefused :=
    MethodSignature.decode_of_unbounded hname (by decide) (by decide) (by decide) _ htext
  have hbounded : BoundedButLast boundedByInt.typeParameters := by
    simp [BoundedButLast, boundedByInt, ParameterTree.bounds]
  have hreported : boundedByInt.canonical = ⟨[⟨"T", ["int"]⟩, ⟨"A", ["B"]⟩], "C", []⟩ := by rfl
  refine ⟨looseMethod_proper, hmethod, ?_, mistakenClass_proper, hclass, hnames, ?_⟩
  · rw [hmethod]
    exact hrefused
  · rw [hsame, (boundedByInt_proper.readable hbounded).decode, hreported]

end JarFacts
