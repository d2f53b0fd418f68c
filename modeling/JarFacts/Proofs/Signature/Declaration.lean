import Mathlib.Data.List.Chain
import JarFacts.Proofs.Signature.Grammar
import JarFacts.Proofs.Steps

/-!
# Class and method signatures say what they were printed from

Nothing separates the types of a declaration from each other.  A list of bounds ends where no colon
follows, the list of formal parameters at its bracket, the interfaces and thrown types at the end of
the text.  `ReadsBefore` is reading under a condition on what follows, and the conditions are met
one by one: the name of the next parameter is not empty and holds no colon, and a type begins with a
letter of its own (`TypeTree.exists_start`).

What this asks of a tree is that it is `Readable`, and more need not be asked: no name but the one
behind another parameter has to be there, the last parameter may do without a bound, and the return
type may be an array of `void`.

The second half is about what takes the parts.  `listening` puts a list of the parts in front of
whatever takes them, and `Delivered` says what is on that list in the end: all parts, or those up to
the first that was refused.
-/

namespace JarFacts.Signature

/-! ## The texts of declarations -/

/-- The type can be read: it has a text, and its argument lists are not nested too deep. -/
@[mk_iff]
structure TypeTree.Fits (tree : TypeTree) : Prop where
  legal : tree.Legal false
  nesting_le : tree.nesting ≤ 256

namespace ParameterTree

/-- The bounds in the order in which they are listed. -/
def bounds (parameter : ParameterTree) : List TypeTree :=
  parameter.classBound.toList ++ parameter.interfaceBounds

/-- The text of a formal type parameter.  Where there is no class bound two colons stand side by
side. -/
def print (parameter : ParameterTree) : List Char :=
  parameter.name ++ ':' :: (parameter.classBound.toList.flatMap TypeTree.print ++
    parameter.interfaceBounds.flatMap fun bound => ':' :: bound.print)

/-- The parameter has a text of its own: its name can be told from what stands around it, and it has
a bound. -/
@[mk_iff]
structure Legal (parameter : ParameterTree) : Prop where
  name_ne_nil : parameter.name ≠ []
  not_mem_name : ∀ c ∈ parameter.name, c ∉ ['.', ';', '[', '/', '<', '>', ':']
  bounds_ne_nil : parameter.bounds ≠ []
  fits_of_mem : ∀ bound ∈ parameter.bounds, bound.Fits

/-- A parameter of the grammar: its name is an identifier, and it may have any number of bounds or
none. -/
@[mk_iff]
structure Proper (parameter : ParameterTree) : Prop where
  name_ne_nil : parameter.name ≠ []
  not_mem_name : ∀ c ∈ parameter.name, c ∉ ['.', ';', '[', '/', '<', '>', ':']
  fits_of_mem : ∀ bound ∈ parameter.bounds, bound.Fits

/-- The parameter can be read: its name ends at the first colon, and its bounds can be read. -/
structure Readable (parameter : ParameterTree) : Prop where
  not_mem_name : ∀ c ∈ parameter.name, c ∉ [':']
  fits_of_mem : ∀ bound ∈ parameter.bounds, bound.Fits

/-- A successor can be told from the parameter in front of it.  Behind a colon the name of the
successor would be read as a bound, so the parameter needs one; and a successor has to have a name
that is not taken for the end of the list. -/
def Precedes (parameter successor : ParameterTree) : Prop :=
  parameter.bounds ≠ [] ∧ ∃ c rest, successor.name = c :: rest ∧ c ≠ '>'

end ParameterTree

/-- The parameters can be read one behind the other. -/
structure Separable (parameters : List ParameterTree) : Prop where
  readable : ∀ parameter ∈ parameters, parameter.Readable
  precedes : parameters.IsChain ParameterTree.Precedes

/-- The text of the formal type parameters, none when there are none. -/
def printParameters (parameters : List ParameterTree) : List Char :=
  if parameters.isEmpty then [] else '<' :: (parameters.flatMap ParameterTree.print ++ ['>'])

namespace ClassTree

/-- The text of a class signature. -/
def print (tree : ClassTree) : List Char :=
  printParameters tree.typeParameters ++
    (tree.superclass.print ++ tree.interfaces.flatMap TypeTree.print)

/-- The types of the signature, those in bounds included. -/
def types (tree : ClassTree) : List TypeTree :=
  tree.typeParameters.flatMap ParameterTree.bounds ++ tree.superclass :: tree.interfaces

/-- The signature has a text that can be read. -/
@[mk_iff]
structure Legal (tree : ClassTree) : Prop where
  parameters : ∀ parameter ∈ tree.typeParameters, parameter.Legal
  superclass : tree.superclass.Fits
  interfaces : ∀ type ∈ tree.interfaces, type.Fits

/-- The signature can be read, whatever the names of its parameters are and whether or not the last
one has a bound. -/
structure Readable (tree : ClassTree) : Prop where
  parameters : Separable tree.typeParameters
  superclass : tree.superclass.Fits
  interfaces : ∀ type ∈ tree.interfaces, type.Fits

end ClassTree

namespace MethodTree

/-- The text of a method signature. -/
def print (tree : MethodTree) : List Char :=
  printParameters tree.typeParameters ++ '(' :: (tree.parameters.flatMap TypeTree.print ++
    ')' :: (tree.returnType.print ++ tree.exceptions.flatMap fun type => '^' :: type.print))

/-- The types of the signature, those in bounds included, the return type apart. -/
def types (tree : MethodTree) : List TypeTree :=
  tree.typeParameters.flatMap ParameterTree.bounds ++ (tree.parameters ++ tree.exceptions)

/-- The signature has a text that can be read. -/
@[mk_iff]
structure Legal (tree : MethodTree) : Prop where
  formals : ∀ parameter ∈ tree.typeParameters, parameter.Legal
  parameters : ∀ type ∈ tree.parameters, type.Fits
  returnType : tree.returnType = .void ∨ tree.returnType.Fits
  exceptions : ∀ type ∈ tree.exceptions, type.Fits

/-- The signature can be read, whatever the names of its parameters are, whether or not the last one
has a bound, and with a return type that may be an array of `void`. -/
structure Readable (tree : MethodTree) : Prop where
  formals : Separable tree.typeParameters
  parameters : ∀ type ∈ tree.parameters, type.Fits
  returnType : tree.returnType.Legal true
  nesting_le : tree.returnType.nesting ≤ 256
  exceptions : ∀ type ∈ tree.exceptions, type.Fits

end MethodTree

lemma ParameterTree.print_ne_nil (parameter : ParameterTree) : parameter.print ≠ [] := by
  rw [print]
  exact List.append_ne_nil_of_right_ne_nil _ (List.cons_ne_nil _ _)

namespace ParameterTree

variable {parameter successor : ParameterTree}

lemma Proper.readable (h : parameter.Proper) : parameter.Readable where
  not_mem_name c hc hcolon := h.not_mem_name c hc (by rw [List.mem_singleton.mp hcolon]; decide)
  fits_of_mem := h.fits_of_mem

lemma Proper.precedes (hsuccessor : successor.Proper) (hbounds : parameter.bounds ≠ []) :
    parameter.Precedes successor := by
  obtain ⟨c, rest, hname⟩ := List.exists_cons_of_ne_nil hsuccessor.name_ne_nil
  refine ⟨hbounds, c, rest, hname, fun hc => hsuccessor.not_mem_name c ?_ (by rw [hc]; decide)⟩
  rw [hname]
  exact List.mem_cons_self

lemma Legal.proper (h : parameter.Legal) : parameter.Proper :=
  ⟨h.name_ne_nil, h.not_mem_name, h.fits_of_mem⟩

end ParameterTree

lemma separable_of_legal {parameters : List ParameterTree}
    (h : ∀ parameter ∈ parameters, parameter.Legal) :
    Separable parameters where
  readable parameter hmem := (h parameter hmem).proper.readable
  precedes := (List.pairwise_of_forall_mem_list fun first hfirst second hsecond =>
    (h second hsecond).proper.precedes (h first hfirst).bounds_ne_nil).isChain

/-- A type begins with a letter that tells its kind. -/
lemma TypeTree.exists_start (tree : TypeTree) :
    ∃ c text, tree.print = c :: text ∧ c ∈ "BCDFIJSZVTL[".toList := by
  cases tree with
  | base b => exact ⟨b.letter, [], by rw [print], by cases b <;> decide⟩
  | void => exact ⟨'V', [], by rw [print], by decide⟩
  | var name => exact ⟨'T', _, by rw [print], by decide⟩
  | named name suffixes => exact ⟨'L', _, by rw [print], by decide⟩
  | array element => exact ⟨'[', _, by rw [print], by decide⟩

lemma TypeTree.print_ne_nil (tree : TypeTree) : tree.print ≠ [] := by
  obtain ⟨c, text, hstart, -⟩ := tree.exists_start
  rw [hstart]
  exact List.cons_ne_nil c text

/-- A type may stand where a return type is asked for. -/
lemma TypeTree.Legal.voidAllowed {tree : TypeTree} (h : tree.Legal false) : tree.Legal true := by
  match tree with
  | .base b => rwa [Legal] at h ⊢
  | .void =>
      rw [Legal] at h
      cases h
  | .var name => rwa [Legal] at h ⊢
  | .named name suffixes => rwa [Legal] at h ⊢
  | .array element =>
      rw [Legal] at h ⊢
      exact TypeTree.Legal.voidAllowed h

lemma TypeTree.legal_true_of_returnType {tree : TypeTree} (h : tree = .void ∨ tree.Fits) :
    tree.Legal true ∧ tree.nesting ≤ 256 := by
  obtain rfl | hfits := h
  · rw [Legal, nesting]
    exact ⟨rfl, Nat.zero_le _⟩
  · exact ⟨hfits.legal.voidAllowed, hfits.nesting_le⟩

/-- The text of a tree is read as the tree or, where it is nested too deep, not at all. -/
lemma decodeType_print_eq_ok_iff {tree : TypeTree} (h : tree.Legal false) (name : String) :
    decodeType (String.ofList tree.print) = .ok name ↔ tree.nesting ≤ 256 ∧
    canonical tree = name := by
  have hreads := Parser.reads_typeTree false h
  rw [← String.toList_ofList (l := tree.print)] at hreads
  by_cases hnesting : tree.nesting ≤ 256
  · rw [unlessTooDeep, if_pos (by rw [Nat.zero_add]; exact hnesting)] at hreads
    rw [decodeType_eq_map, parseType, hreads.runOn]
    simp [hnesting, Except.map, canonical]
  · have htooDeep : unlessTooDeep 0 tree.nesting tree = none := if_neg (by rw [maxNesting]; omega)
    rw [htooDeep] at hreads
    obtain ⟨position, hrun⟩ := hreads.runOn_tooDeep
    rw [decodeType_eq_map, parseType, hrun]
    simp [hnesting, Except.map]

lemma TypeTree.Fits.decodeType {tree : TypeTree} (h : tree.Fits) :
    decodeType (String.ofList tree.print) = .ok (canonical tree) :=
  (decodeType_print_eq_ok_iff h.legal _).mpr ⟨h.nesting_le, rfl⟩

/-! ## Reading in front of something -/

namespace Parser

variable {α β : Type}

/-- In front of everything that may follow, the parser consumes exactly the text and has the
value. -/
def ReadsBefore (follows : List Char → Prop) (parser : Parser α) (text : List Char) (value : α) :
    Prop :=
  ∀ (position : Nat) (rest : List Char), follows rest →
    parser.run ⟨position, text ++ rest⟩ = .ok (value, ⟨position + Utf8.byteLength text, rest⟩)

/-- What follows does not begin with this character. -/
def OtherThan (c : Char) (rest : List Char) : Prop :=
  rest.head? ≠ some c

namespace ReadsBefore

variable {follows first : List Char → Prop} {parser : Parser α} {next : α → Parser β}
  {text text' : List Char} {value : α} {value' : β}

lemma of_reads (h : Reads parser text (some value)) : ReadsBefore follows parser text value :=
  fun position rest _ => h position rest

lemma mono (h : ReadsBefore first parser text value) (hfirst : ∀ rest, follows rest → first rest) :
    ReadsBefore follows parser text value :=
  fun position rest hrest => h position rest (hfirst rest hrest)

lemma pure (value : α) : ReadsBefore follows (pure value) [] value :=
  fun _ _ _ => rfl

lemma bind (hparser : ReadsBefore first parser text value)
    (hnext : ReadsBefore follows (next value) text' value')
    (hfirst : ∀ rest, follows rest → first (text' ++ rest)) :
    ReadsBefore follows (parser >>= next) (text ++ text') value' := by
  intro position rest hrest
  have hrun := hparser position (text' ++ rest) (hfirst rest hrest)
  have hrun' := hnext (position + Utf8.byteLength text) rest hrest
  rw [run_bind, List.append_assoc, hrun, byteLength_append, ← Nat.add_assoc]
  exact hrun'

/-- What is read in front of anything may be followed by anything. -/
lemma reads_bind (hparser : Reads parser text (some value))
    (hnext : ReadsBefore follows (next value) text' value') :
    ReadsBefore follows (parser >>= next) (text ++ text') value' := by
  have hfree : ReadsBefore (fun _ => True) parser text value := of_reads hparser
  exact hfree.bind hnext fun _ _ => trivial

lemma map (h : ReadsBefore follows parser text value) (f : α → β) :
    ReadsBefore follows (parser >>= fun found => Pure.pure (f found)) text (f value) := by
  intro position rest hrest
  rw [run_bind, h position rest hrest]
  rfl

/-- Two things in a row are read together. -/
lemma both {γ : Type} {second : Parser β} (join : α → β → γ)
    (hfirst : Reads parser text (some value)) (hsecond : ReadsBefore follows second text' value') :
    ReadsBefore follows (do
      let found ← parser
      return join found (← second)) (text ++ text') (join value value') :=
  reads_bind hfirst (hsecond.map _)

lemma peek_cons_bind {c : Char} {next : Option Char → Parser β}
    (h : ReadsBefore follows (next (some c)) (c :: text) value') :
    ReadsBefore follows (peek >>= next) (c :: text) value' :=
  h

/-- Where the text is empty, a look at the next character sees what follows. -/
lemma peek_nil_bind {next : Option Char → Parser β}
    (h : ∀ rest : List Char, follows rest → ReadsBefore follows (next rest.head?) [] value') :
    ReadsBefore follows (peek >>= next) [] value' :=
  fun position rest hrest => h rest hrest position rest hrest

lemma discard_next_bind (c : Char) {next : PUnit → Parser β}
    (h : ReadsBefore follows (next ⟨⟩) text value') :
    ReadsBefore follows (discard Parser.next >>= next) (c :: text) value' := by
  have hdiscard : Reads (discard Parser.next) [c] (some ⟨⟩) := by
    rw [← bind_pure (discard Parser.next)]
    exact .discard_next_bind c (.pure _)
  exact reads_bind hdiscard h

lemma expect_bind (c : Char) {next : PUnit → Parser β}
    (h : ReadsBefore follows (next ⟨⟩) text value') :
    ReadsBefore follows (expect c >>= next) (c :: text) value' :=
  reads_bind (Reads.expect c) h

lemma name_bind {stops taken tail : List Char} {stop : Char} {next : List Char → Parser β}
    (htaken : ∀ c ∈ taken, c ∉ stops) (hstop : stop ∈ stops)
    (h : ReadsBefore follows (next taken) (stop :: tail) value') :
    ReadsBefore follows (name stops >>= next) (taken ++ stop :: tail) value' := by
  have hname : ReadsBefore (fun rest => rest.head? = some stop) (name stops) taken taken := by
    intro position rest hrest
    obtain ⟨behind, rfl⟩ : ∃ behind, rest = stop :: behind := List.head?_eq_some_iff.mp hrest
    exact run_name_of_stop position behind htaken hstop
  exact hname.bind h fun _ _ => rfl

/-- The rounds are set for all that is left, of which the text is the beginning. -/
lemma rounds_bind {next : Nat → Parser β}
    (h : ∀ rounds, text.length < rounds → ReadsBefore follows (next rounds) text value') :
    ReadsBefore follows (rounds >>= next) text value' := by
  intro position rest hrest
  have hrounds : text.length < 2 * (text ++ rest).length + 2 := by
    rw [List.length_append]
    omega
  exact h _ hrounds position rest hrest

lemma runOn {text : String} (h : ReadsBefore (· = []) parser text.toList value) :
    parser.runOn text = .ok value := by
  have hrun := h 0 [] rfl
  rw [List.append_nil] at hrun
  rw [runOn_eq, Cursor.start, hrun]

/-- A text is not read as two things. -/
lemma unique {found : α} (h : ReadsBefore (· = []) parser text value)
    (hfound : ReadsBefore (· = []) parser text found) : value = found := by
  have hsame := (h 0 [] rfl).symm.trans (hfound 0 [] rfl)
  exact (Prod.mk.inj (Except.ok.inj hsame)).1

end ReadsBefore

/-! ## Reading declarations -/

lemma reads_typeTree_of_legal {voidAllowed : Bool} {tree : TypeTree}
    (hlegal : tree.Legal voidAllowed)
    (hnesting : tree.nesting ≤ 256) : Reads (typeTree voidAllowed) tree.print (some tree) := by
  have hreads := reads_typeTree voidAllowed hlegal
  rwa [unlessTooDeep, if_pos (by rw [Nat.zero_add]; exact hnesting)] at hreads

lemma reads_typeTree_of_fits {tree : TypeTree} (h : tree.Fits) :
    Reads (typeTree false) tree.print (some tree) :=
  reads_typeTree_of_legal h.legal h.nesting_le

/-- Bounds are read as long as a colon comes next. -/
lemma readsBefore_interfaceBounds (bounds : List TypeTree) (hbounds : ∀ bound ∈ bounds, bound.Fits)
    (rounds : Nat) (hrounds : bounds.length ≤ rounds) :
    ReadsBefore (OtherThan ':') (interfaceBounds rounds)
      (bounds.flatMap fun bound => ':' :: bound.print) bounds := by
  induction bounds generalizing rounds with
  | nil =>
      cases rounds with
      | zero => exact .pure []
      | succ rounds =>
          rw [interfaceBounds]
          refine .peek_nil_bind fun rest hrest => ?_
          rw [if_neg hrest]
          exact .pure []
  | cons bound bounds ih =>
      obtain ⟨rounds, rfl⟩ : ∃ fewer, rounds = fewer + 1 := ⟨rounds - 1, by simp at hrounds; omega⟩
      have hbound : bound.Fits := hbounds bound List.mem_cons_self
      have hrest :=
        ih (fun type h => hbounds type (List.mem_cons_of_mem _ h)) rounds (by simpa using hrounds)
      rw [interfaceBounds, List.flatMap_cons, List.cons_append]
      apply ReadsBefore.peek_cons_bind
      rw [if_pos rfl]
      apply ReadsBefore.discard_next_bind
      exact .both (· :: ·) (reads_typeTree_of_fits hbound) hrest

lemma length_le_length_flatMap {γ : Type} (f : γ → List Char) (items : List γ)
    (h : ∀ item ∈ items, f item ≠ []) :
    items.length ≤ (items.flatMap f).length := by
  induction items with
  | nil => exact Nat.le_refl 0
  | cons item items ih =>
      have hitem : 0 < (f item).length := List.length_pos_iff.mpr (h item List.mem_cons_self)
      have hrest := ih fun item hitem => h item (List.mem_cons_of_mem _ hitem)
      rw [List.flatMap_cons, List.length_append, List.length_cons]
      omega

/-- What may stand behind a formal parameter: no further bound, and the end of the list if there was
none at all. -/
def EndsParameter (parameter : ParameterTree) (rest : List Char) : Prop :=
  OtherThan ':' rest ∧ (parameter.bounds = [] → rest.head? = some '>')

/-- Behind the class bound that was found the interface bounds are read up to where no colon
follows. -/
lemma readsBefore_otherBounds (name : List Char) (found : Option TypeTree) {bounds : List TypeTree}
    (hbounds : ∀ bound ∈ bounds, bound.Fits) :
    ReadsBefore (OtherThan ':')
      (rounds >>= fun rounds => interfaceBounds rounds >>= fun bounds => pure ⟨name, found, bounds⟩)
      (bounds.flatMap fun bound => ':' :: bound.print) (⟨name, found, bounds⟩ : ParameterTree) := by
  refine .rounds_bind fun rounds hrounds => ?_
  have hlength := length_le_length_flatMap (fun bound => ':' :: bound.print) bounds fun _ _ =>
      List.cons_ne_nil _ _
  exact (readsBefore_interfaceBounds bounds hbounds rounds (by omega)).map _

/-- A class bound is read as one, since no type starts like an interface bound or like the end of
the list. -/
lemma readsBefore_classBound (name : List Char) {classBound : TypeTree} (hclass : classBound.Fits)
    {bounds : List TypeTree} (hbounds : ∀ bound ∈ bounds, bound.Fits) :
    ReadsBefore (OtherThan ':')
      (do
        let next ← peek
        let found ← if next = some ':' ∨ next = some '>' then pure none else some <$> typeTree false
        return ParameterTree.mk name found (← interfaceBounds (← rounds)))
      (classBound.print ++ bounds.flatMap fun bound => ':' :: bound.print)
        ⟨name, some classBound, bounds⟩ := by
  obtain ⟨c, tail, hstart, hc⟩ := classBound.exists_start
  have hpeek : ¬(some c = some ':' ∨ some c = some '>') := by
    rintro (heq | heq) <;> cases heq <;> exact absurd hc (by decide)
  have hfound : Reads (some <$> typeTree false) classBound.print (some (some classBound)) := by
    rw [map_eq_pure_bind]
    exact (reads_typeTree_of_fits hclass).map some
  have hreads : ReadsBefore (OtherThan ':')
      (do
        let found ← some <$> typeTree false
        return ParameterTree.mk name found (← interfaceBounds (← rounds)))
      (classBound.print ++ bounds.flatMap fun bound => ':' :: bound.print)
        ⟨name, some classBound, bounds⟩ :=
    .reads_bind hfound (readsBefore_otherBounds name (some classBound) hbounds)
  rw [hstart] at hreads ⊢
  refine .peek_cons_bind ?_
  rw [if_neg hpeek]
  exact hreads

/-- A formal parameter is read up to where no colon follows. -/
lemma readsBefore_typeParameter {parameter : ParameterTree} (h : parameter.Readable) :
    ReadsBefore (EndsParameter parameter) typeParameter parameter.print parameter := by
  obtain ⟨name, classBound, bounds⟩ := parameter
  have hbounds : ∀ bound ∈ bounds, bound.Fits :=
    fun bound hbound => h.fits_of_mem bound (List.mem_append_right _ hbound)
  have hothers : ReadsBefore (EndsParameter ⟨name, none, bounds⟩) _ _
      (⟨name, none, bounds⟩ : ParameterTree) :=
    (readsBefore_otherBounds name none hbounds).mono fun _ hends => hends.1
  rw [typeParameter, ParameterTree.print]
  refine .name_bind h.not_mem_name (List.mem_singleton_self ':') ?_
  refine .expect_bind ':' ?_
  cases classBound with
  | none =>
      cases bounds with
      | nil =>
          -- Without any bound the end of the list comes next.
          refine .peek_nil_bind fun rest hends => ?_
          rw [if_pos (.inr (hends.2 rfl))]
          exact hothers
      | cons bound others =>
          -- Without a class bound the colon of an interface bound comes next.
          refine .peek_cons_bind ?_
          rw [if_pos (.inl rfl)]
          exact hothers
  | some bound =>
      have hbound : bound.Fits :=
        h.fits_of_mem bound (List.mem_append_left _ (List.mem_singleton_self bound))
      dsimp only
      rw [Option.toList_some, List.flatMap_singleton]
      exact (readsBefore_classBound name hbound hbounds).mono fun _ hends => hends.1

/-- The list of formal parameters is read up to its bracket. -/
lemma readsBefore_typeParametersTail {follows : List Char → Prop} (parameter : ParameterTree)
    (others : List ParameterTree) (h : Separable (parameter :: others)) (rounds : Nat)
    (hrounds : others.length < rounds) :
    ReadsBefore follows (typeParametersTail rounds)
      ((parameter :: others).flatMap ParameterTree.print ++ ['>']) (parameter :: others) := by
  have hparameter := readsBefore_typeParameter (h.readable parameter List.mem_cons_self)
  induction others generalizing parameter rounds with
  | nil =>
      obtain ⟨rounds, rfl⟩ : ∃ fewer, rounds = fewer + 1 := ⟨rounds - 1, by omega⟩
      rw [typeParametersTail, List.flatMap_singleton]
      refine hparameter.bind (.peek_cons_bind ?_) fun rest _ => ?_
      · rw [if_pos rfl]
        exact .discard_next_bind '>' (.pure _)
      · exact ⟨fun heq => (by cases heq), fun _ => rfl⟩
  | cons successor others ih =>
      obtain ⟨rounds, rfl⟩ : ∃ fewer, rounds = fewer + 1 := ⟨rounds - 1, by omega⟩
      obtain ⟨⟨hbounds, c, name, hname, hbracket⟩, hchain⟩ := List.isChain_cons_cons.mp h.precedes
      have hsuccessor := h.readable successor (List.mem_cons_of_mem _ List.mem_cons_self)
      have hothers :=
        ih successor
        ⟨fun found hmem => h.readable found (List.mem_cons_of_mem _ hmem), hchain⟩ rounds
        (by simpa using hrounds) (readsBefore_typeParameter hsuccessor)
      -- The name of the successor comes next, which is neither empty nor begins with a bracket or a
      -- colon.
      have hcolon : c ∉ [':'] := hsuccessor.not_mem_name c (by rw [hname]; exact List.mem_cons_self)
      obtain ⟨tail, hstart⟩ : ∃ tail, successor.print = c :: tail :=
        ⟨_, by rw [ParameterTree.print, hname, List.cons_append]⟩
      rw [typeParametersTail, List.flatMap_cons, List.append_assoc]
      rw [List.flatMap_cons, hstart, List.cons_append, List.cons_append] at hothers ⊢
      refine hparameter.bind (.peek_cons_bind ?_) fun rest _ => ?_
      · rw [if_neg fun heq => hbracket (Option.some.inj heq)]
        exact hothers.map _
      · exact ⟨fun heq => hcolon (List.mem_singleton.mpr (Option.some.inj heq)), fun hnil =>
          absurd hnil hbounds⟩

/-- A list of formal parameters is read if there is one, and none is found where no bracket comes
next. -/
lemma readsBefore_typeParameters {parameters : List ParameterTree} (h : Separable parameters) :
    ReadsBefore (OtherThan '<') typeParameters (printParameters parameters) parameters := by
  rw [typeParameters]
  cases parameters with
  | nil =>
      refine .peek_nil_bind fun rest hrest => ?_
      rw [if_neg hrest]
      exact .pure []
  | cons parameter others =>
      refine .peek_cons_bind ?_
      rw [if_pos rfl]
      refine .discard_next_bind '<' (.rounds_bind fun rounds hrounds => ?_)
      have hlength := length_le_length_flatMap ParameterTree.print (parameter :: others)
        fun found _ => found.print_ne_nil
      rw [List.length_append] at hrounds
      rw [List.length_cons] at hlength
      exact readsBefore_typeParametersTail parameter others h rounds (by omega)

/-- Types are read up to the end. -/
lemma readsBefore_typesToEnd (types : List TypeTree) (htypes : ∀ type ∈ types, type.Fits)
    (rounds : Nat) (hrounds : types.length ≤ rounds) :
    ReadsBefore (· = []) (typesToEnd rounds) (types.flatMap TypeTree.print) types := by
  induction types generalizing rounds with
  | nil =>
      cases rounds with
      | zero => exact .pure []
      | succ rounds => exact .peek_nil_bind fun rest hrest => by rw [hrest]; exact .pure []
  | cons type types ih =>
      obtain ⟨rounds, rfl⟩ : ∃ fewer, rounds = fewer + 1 := ⟨rounds - 1, by simp at hrounds; omega⟩
      have hrest :=
        ih (fun type h => htypes type (List.mem_cons_of_mem _ h)) rounds (by simpa using hrounds)
      have hboth :=
        ReadsBefore.both (· :: ·) (reads_typeTree_of_fits (htypes type List.mem_cons_self)) hrest
      obtain ⟨c, tail, hstart, -⟩ := type.exists_start
      rw [typesToEnd, List.flatMap_cons]
      rw [hstart, List.cons_append] at hboth ⊢
      exact .peek_cons_bind hboth

/-- Types are read up to the parenthesis behind them. -/
lemma readsBefore_typesToParenthesis {follows : List Char → Prop} (types : List TypeTree)
    (htypes : ∀ type ∈ types, type.Fits) (rounds : Nat) (hrounds : types.length < rounds) :
    ReadsBefore follows (typesToParenthesis rounds)
      (types.flatMap TypeTree.print ++ [')']) types := by
  induction types generalizing rounds with
  | nil =>
      obtain ⟨rounds, rfl⟩ : ∃ fewer, rounds = fewer + 1 := ⟨rounds - 1, by omega⟩
      rw [typesToParenthesis]
      refine .peek_cons_bind ?_
      rw [if_pos rfl]
      exact .discard_next_bind ')' (.pure [])
  | cons type types ih =>
      obtain ⟨rounds, rfl⟩ : ∃ fewer, rounds = fewer + 1 := ⟨rounds - 1, by omega⟩
      have hrest :=
        ih (fun type h => htypes type (List.mem_cons_of_mem _ h)) rounds (by simpa using hrounds)
      have hboth :=
        ReadsBefore.both (· :: ·) (reads_typeTree_of_fits (htypes type List.mem_cons_self)) hrest
      obtain ⟨c, tail, hstart, hc⟩ := type.exists_start
      have hpeek : ¬some c = some ')' := by
        intro heq
        cases heq
        exact absurd hc (by decide)
      rw [typesToParenthesis, List.flatMap_cons, List.append_assoc]
      rw [hstart, List.cons_append] at hboth ⊢
      refine .peek_cons_bind ?_
      rw [if_neg hpeek]
      exact hboth

/-- Thrown types are read up to the end, each behind its caret. -/
lemma readsBefore_exceptionsToEnd (types : List TypeTree) (htypes : ∀ type ∈ types, type.Fits)
    (rounds : Nat) (hrounds : types.length ≤ rounds) :
    ReadsBefore (· = []) (exceptionsToEnd rounds)
      (types.flatMap fun type => '^' :: type.print) types := by
  induction types generalizing rounds with
  | nil =>
      cases rounds with
      | zero => exact .pure []
      | succ rounds => exact .peek_nil_bind fun rest hrest => by rw [hrest]; exact .pure []
  | cons type types ih =>
      obtain ⟨rounds, rfl⟩ : ∃ fewer, rounds = fewer + 1 := ⟨rounds - 1, by simp at hrounds; omega⟩
      have hrest :=
        ih (fun type h => htypes type (List.mem_cons_of_mem _ h)) rounds (by simpa using hrounds)
      have hboth :=
        ReadsBefore.both (· :: ·) (reads_typeTree_of_fits (htypes type List.mem_cons_self)) hrest
      rw [exceptionsToEnd, List.flatMap_cons, List.cons_append]
      exact .peek_cons_bind (.expect_bind '^' hboth)

/-- **The text of a class signature is read as the signature.** -/
lemma readsBefore_classTree {tree : ClassTree} (h : tree.Readable) :
    ReadsBefore (· = []) classTree tree.print tree := by
  have hrest : ReadsBefore (· = [])
      (do
        let superclass ← typeTree false
        return ClassTree.mk tree.typeParameters superclass (← typesToEnd (← rounds)))
      (tree.superclass.print ++ tree.interfaces.flatMap TypeTree.print) tree := by
    refine .reads_bind (reads_typeTree_of_fits h.superclass) (.rounds_bind fun rounds hrounds => ?_)
    have hlength := length_le_length_flatMap TypeTree.print tree.interfaces fun type _ =>
        type.print_ne_nil
    exact (readsBefore_typesToEnd tree.interfaces h.interfaces rounds (by omega)).map _
  refine (readsBefore_typeParameters h.parameters).bind hrest fun rest _ => ?_
  obtain ⟨c, tail, hstart, hc⟩ := tree.superclass.exists_start
  rw [hstart]
  intro heq
  cases heq
  exact absurd hc (by decide)

/-- **The text of a method signature is read as the signature.** -/
lemma readsBefore_methodTree {tree : MethodTree} (h : tree.Readable) :
    ReadsBefore (· = []) methodTree tree.print tree := by
  have hexceptions : ∀ returnType, ReadsBefore (· = [])
      (do
        return MethodTree.mk tree.typeParameters tree.parameters returnType
          (← exceptionsToEnd (← rounds)))
      (tree.exceptions.flatMap fun type => '^' :: type.print)
      ⟨tree.typeParameters, tree.parameters, returnType, tree.exceptions⟩ := by
    refine fun returnType => .rounds_bind fun rounds hrounds => ?_
    have hlength := length_le_length_flatMap (fun type => '^' :: type.print) tree.exceptions
      fun _ _ => List.cons_ne_nil _ _
    exact (readsBefore_exceptionsToEnd tree.exceptions h.exceptions rounds (by omega)).map _
  have hrest : ReadsBefore (· = [])
      (do
        expect '('
        let parameters ← typesToParenthesis (← rounds)
        let returnType ← typeTree true
        return MethodTree.mk tree.typeParameters parameters returnType
          (← exceptionsToEnd (← rounds)))
      ('(' :: (tree.parameters.flatMap TypeTree.print ++
        ')' :: (tree.returnType.print ++
          tree.exceptions.flatMap fun type => '^' :: type.print))) tree := by
    refine .expect_bind '(' (.rounds_bind fun rounds hrounds => ?_)
    have hlength := length_le_length_flatMap TypeTree.print tree.parameters fun type _ =>
        type.print_ne_nil
    have hparameters : ReadsBefore (fun _ => True) (typesToParenthesis rounds)
        (tree.parameters.flatMap TypeTree.print ++ [')']) tree.parameters :=
      readsBefore_typesToParenthesis tree.parameters h.parameters rounds
        (by rw [List.length_append] at hrounds; omega)
    rw [List.append_cons]
    refine hparameters.bind (.reads_bind (reads_typeTree_of_legal h.returnType h.nesting_le) ?_)
      fun _ _ => trivial
    exact hexceptions tree.returnType
  refine (readsBefore_typeParameters h.formals).bind hrest fun rest _ => ?_
  exact fun heq => by cases heq

end Parser

end JarFacts.Signature

namespace JarFacts

/-! ## Taking parts -/

section Taking

variable {ε τ π α : Type}

/-- A state together with the parts that were handed over so far. -/
structure Heard (τ π : Type) where
  state : τ
  calls : List π

/-- Takes parts as `take` does, and keeps a list of all that it is handed. -/
def listening (take : π → ExceptT ε (StateM τ) Unit) (part : π) :
    ExceptT ε (StateM (Heard τ π)) Unit :=
  ExceptT.mk fun heard =>
    let answer := (take part).run.run heard.state
    (answer.1, ⟨answer.2, heard.calls ++ [part]⟩)

/-- How taking the parts from this state ends, and what was handed over by then: every part, if all
are taken, and otherwise the parts up to the first that is not, this one included and nothing behind
it. -/
inductive Delivered (take : π → ExceptT ε (StateM τ) Unit) (state : τ) (parts : List π)
    (value : α) :
    Except ε α × Heard τ π → Prop where
  | all {state' : τ} (h : (parts.forM take).run.run state = (.ok ⟨⟩, state')) :
      Delivered take state parts value (.ok value, ⟨state', parts⟩)
  | stopped {front rest : List π} {part : π} {state' state'' : τ} {error : ε}
      (hparts : parts = front ++ part :: rest)
      (hfront : (front.forM take).run.run state = (.ok ⟨⟩, state'))
      (hpart : (take part).run.run state' = (.error error, state'')) :
      Delivered take state parts value (.error error, ⟨state'', front ++ [part]⟩)

lemma run_forM_append (take : π → ExceptT ε (StateM τ) Unit) (front : List π) (part : π)
    {state state' : τ} (hfront : (front.forM take).run.run state = (.ok ⟨⟩, state')) :
    ((front ++ [part]).forM take).run.run state = (take part).run.run state' := by
  have hsplit : (front ++ [part]).forM take = front.forM take >>= fun _ => take part := by
    simp only [List.forM_eq_forM, List.forM_append, List.forM_cons, List.forM_nil, bind_pure_unit]
  rw [hsplit, run_bind, hfront]

/-- The induction is on the parts that are still to be taken; `front` has been taken. -/
lemma delivered_forM_append (take : π → ExceptT ε (StateM τ) Unit) (state : τ)
    (front parts : List π) {state' : τ}
    (hfront : (front.forM take).run.run state = (.ok ⟨⟩, state')) :
    Delivered take state (front ++ parts) (⟨⟩ : Unit)
      ((parts.forM (listening take)).run.run ⟨state', front⟩) := by
  induction parts generalizing front state' with
  | nil =>
      rw [List.append_nil]
      exact .all hfront
  | cons part parts ih =>
      rw [List.forM, run_bind]
      rcases hpart : (take part).run.run state' with ⟨error | ⟨⟩, state''⟩
      · have hstop : (listening take part).run.run ⟨state', front⟩ =
            (.error error, ⟨state'', front ++ [part]⟩) := by
          change (((take part).run.run state').1,
            Heard.mk ((take part).run.run state').2 (front ++ [part])) = _
          rw [hpart]
        rw [hstop]
        exact .stopped rfl hfront hpart
      · have htaken : (listening take part).run.run ⟨state', front⟩ =
            (.ok ⟨⟩, ⟨state'', front ++ [part]⟩) := by
          change (((take part).run.run state').1,
            Heard.mk ((take part).run.run state').2 (front ++ [part])) = _
          rw [hpart]
        rw [htaken, List.append_cons]
        exact ih (front ++ [part]) ((run_forM_append take front part hfront).trans hpart)

end Taking

open Signature

/-- Formal parameters with the names of their bounds, the class bound first. -/
def formalNames (parameters : List ParameterTree) : List FormalTypeParameter :=
  parameters.map fun parameter => ⟨String.ofList parameter.name, parameter.bounds.map canonical⟩

lemma Signature.ClassTree.Readable.decode {tree : ClassTree} (h : tree.Readable) :
    ClassSignature.decode (String.ofList tree.print) = .ok tree.canonical := by
  have hreads := Parser.readsBefore_classTree h
  rw [← String.toList_ofList (l := tree.print)] at hreads
  rw [ClassSignature.decode_eq_map, hreads.runOn]
  rfl

lemma Signature.ClassTree.Legal.readable {tree : ClassTree} (h : tree.Legal) : tree.Readable :=
  ⟨separable_of_legal h.parameters, h.superclass, h.interfaces⟩

lemma Signature.ClassTree.Legal.decode {tree : ClassTree} (h : tree.Legal) :
    ClassSignature.decode (String.ofList tree.print) =
      .ok ⟨formalNames tree.typeParameters, Signature.canonical tree.superclass,
        tree.interfaces.map Signature.canonical⟩ :=
  h.readable.decode

lemma Signature.ClassTree.Legal.fits_of_mem {tree : ClassTree} (h : tree.Legal) :
    ∀ type ∈ tree.types, type.Fits := by
  intro type htype
  obtain hbound | htype := List.mem_append.mp htype
  · obtain ⟨parameter, hparameter, hbound⟩ := List.mem_flatMap.mp hbound
    exact (h.parameters parameter hparameter).fits_of_mem type hbound
  · obtain rfl | hinterface := List.mem_cons.mp htype
    · exact h.superclass
    · exact h.interfaces type hinterface

lemma Signature.MethodTree.Readable.decode {tree : MethodTree} (h : tree.Readable) :
    MethodSignature.decode (String.ofList tree.print) = .ok tree.canonical := by
  have hreads := Parser.readsBefore_methodTree h
  rw [← String.toList_ofList (l := tree.print)] at hreads
  rw [MethodSignature.decode_eq_map, hreads.runOn]
  rfl

lemma Signature.MethodTree.Legal.readable {tree : MethodTree} (h : tree.Legal) : tree.Readable where
  formals := separable_of_legal h.formals
  parameters := h.parameters
  returnType := (TypeTree.legal_true_of_returnType h.returnType).1
  nesting_le := (TypeTree.legal_true_of_returnType h.returnType).2
  exceptions := h.exceptions

lemma Signature.MethodTree.Legal.decode {tree : MethodTree} (h : tree.Legal) :
    MethodSignature.decode (String.ofList tree.print) =
      .ok ⟨formalNames tree.typeParameters, tree.parameters.map Signature.canonical,
        Signature.canonical tree.returnType, tree.exceptions.map Signature.canonical⟩ :=
  h.readable.decode

lemma Signature.MethodTree.Legal.fits_of_mem {tree : MethodTree} (h : tree.Legal) :
    ∀ type ∈ tree.types, type.Fits := by
  intro type htype
  obtain hbound | htype := List.mem_append.mp htype
  · obtain ⟨parameter, hparameter, hbound⟩ := List.mem_flatMap.mp hbound
    exact (h.formals parameter hparameter).fits_of_mem type hbound
  · obtain hparameter | hexception := List.mem_append.mp htype
    · exact h.parameters type hparameter
    · exact h.exceptions type hexception

section Visiting

variable {ε τ : Type} (fault : SignatureError → ε)

lemma ClassSignature.delivered_visit (take : ClassPart → ExceptT ε (StateM τ) Unit) (state : τ)
    {text : String} {signature : ClassSignature} (h : decode text = .ok signature) :
    Delivered take state signature.parts (⟨⟩ : Unit)
      ((visit fault (listening take) text).run.run ⟨state, []⟩) := by
  rw [visit, h]
  exact delivered_forM_append take state [] signature.parts rfl

lemma MethodSignature.delivered_visit (take : MethodPart → ExceptT ε (StateM τ) Unit) (state : τ)
    {text : String} {signature : MethodSignature} (h : decode text = .ok signature) :
    Delivered take state signature.parts signature
      ((visit fault (listening take) text).run.run ⟨state, []⟩) := by
  have hparts := delivered_forM_append take state [] signature.parts rfl
  rw [visit, h]
  dsimp only
  rw [run_bind]
  generalize (signature.parts.forM (listening take)).run.run ⟨state, []⟩ = outcome at hparts ⊢
  cases hparts with
  | all hall => exact .all hall
  | stopped hparts hfront hpart => exact .stopped hparts hfront hpart

/-- **A signature hands over what it was printed from, all of it or nothing.**  The parts come in
one order, with the names that the types have by themselves, and up to the first that is not taken.
Of a text that is no signature no part is handed over. -/
theorem visit_print (takeClass : ClassPart → ExceptT ε (StateM τ) Unit)
    (takeMethod : MethodPart → ExceptT ε (StateM τ) Unit) (state : τ) :
    (∀ tree : ClassTree, tree.Legal →
      Delivered takeClass state
        (.typeParameters (formalNames tree.typeParameters) ::
          .superclass (canonical tree.superclass) ::
          tree.interfaces.map fun type => .interface (canonical type))
        (⟨⟩ : Unit)
        ((ClassSignature.visit fault (listening takeClass) (String.ofList tree.print)).run.run
          ⟨state, []⟩) ∧
      ∀ type ∈ tree.types, decodeType (String.ofList type.print) = .ok (canonical type)) ∧
    (∀ tree : MethodTree, tree.Legal →
      (∃ signature : MethodSignature,
        MethodSignature.decode (String.ofList tree.print) = .ok signature ∧
        signature = ⟨formalNames tree.typeParameters, tree.parameters.map canonical,
          canonical tree.returnType, tree.exceptions.map canonical⟩ ∧
        Delivered takeMethod state
          (.parameters (tree.parameters.map canonical) ::
            .typeParameters (formalNames tree.typeParameters) ::
            .returnType (canonical tree.returnType) ::
            tree.exceptions.map fun type => .exception (canonical type))
          signature
          ((MethodSignature.visit fault (listening takeMethod) (String.ofList tree.print)).run.run
            ⟨state, []⟩)) ∧
      (∀ type ∈ tree.types, decodeType (String.ofList type.print) = .ok (canonical type)) ∧
      (tree.returnType = .void ∧ canonical tree.returnType = "void" ∨
        decodeType (String.ofList tree.returnType.print) = .ok (canonical tree.returnType))) ∧
    (∀ text error, ClassSignature.decode text = .error error →
      (ClassSignature.visit fault (listening takeClass) text).run.run ⟨state, []⟩ =
        (.error (fault error), ⟨state, []⟩)) ∧
    ∀ text error, MethodSignature.decode text = .error error →
      (MethodSignature.visit fault (listening takeMethod) text).run.run ⟨state, []⟩ =
        (.error (fault error), ⟨state, []⟩) := by
  refine ⟨fun tree h => ⟨?_, ?_⟩, fun tree h => ⟨?_, ?_, ?_⟩, ?_, ?_⟩
  · have hvisit := ClassSignature.delivered_visit fault takeClass state h.decode
    rw [ClassSignature.parts, List.map_map] at hvisit
    exact hvisit
  · exact fun type htype => (h.fits_of_mem type htype).decodeType
  · have hvisit := MethodSignature.delivered_visit fault takeMethod state h.decode
    rw [MethodSignature.parts, List.map_map] at hvisit
    exact ⟨_, h.decode, rfl, hvisit⟩
  · exact fun type htype => (h.fits_of_mem type htype).decodeType
  · obtain hvoid | hfits := h.returnType
    · refine .inl ⟨hvoid, ?_⟩
      rw [hvoid]
      rfl
    · exact .inr hfits.decodeType
  · intro text error hdecode
    rw [ClassSignature.visit, hdecode]
    rfl
  · intro text error hdecode
    rw [MethodSignature.visit, hdecode]
    rfl

end Visiting

/-- Takes three parts and fails at the next. -/
def takeThree {π : Type} (_ : π) : ExceptT SignatureError (StateM Nat) Unit := do
  if (← get) = 3 then throw .empty else modify (· + 1)

/-- A class of two formal parameters, one of them without a class bound. -/
def boundedClass : ClassTree where
  typeParameters :=
    [⟨['T'], none, [.named "Comparable".toList [.arguments [.lower (.var ['T'])]]]⟩,
      ⟨['U'], some (.var ['T']), [.named ['A'] [], .named ['B'] []]⟩]
  superclass := .named "p/S".toList [.arguments [.only (.var ['U'])], .inner ['I']]
  interfaces := [.named ['J'] [.arguments [.any]], .named ['K'] []]

/-- A method that throws what it is parametrized by. -/
def throwingMethod : MethodTree where
  typeParameters := [⟨['E'], some (.named ['X'] []), []⟩]
  parameters := [.base .int, .array (.var ['E'])]
  returnType := .void
  exceptions := [.var ['E'], .named ['Y'] []]

lemma boundedClass_legal : boundedClass.Legal := by
  simp [boundedClass, ClassTree.legal_iff, ParameterTree.legal_iff, ParameterTree.bounds,
    TypeTree.fits_iff, TypeTree.Legal, LegalSuffixes, LegalArguments, IsSegment, TypeTree.nesting,
    nestingSuffixes, nestingArguments, or_imp, forall_and]

lemma throwingMethod_legal : throwingMethod.Legal := by
  simp [throwingMethod, MethodTree.legal_iff, ParameterTree.legal_iff, ParameterTree.bounds,
    TypeTree.fits_iff, TypeTree.Legal, LegalSuffixes, IsSegment, TypeTree.nesting, nestingSuffixes]

/-- Bounds, interfaces and thrown types come apart again, and the fourth part is the last one handed
over to what takes three. -/
theorem visit_print_boundedClass :
    boundedClass.Legal ∧
    String.ofList boundedClass.print = "<T::LComparable<-TT;>;U:TT;:LA;:LB;>Lp/S<TU;>.I;LJ<*>;LK;" ∧
    Delivered takeThree 0
      [.typeParameters [⟨"T", ["Comparable<<?-<T>>>"]⟩, ⟨"U", ["<T>", "A", "B"]⟩],
        .superclass "p.S$I<<U>>", .interface "J<<?>>", .interface "K"] (⟨⟩ : Unit)
      ((ClassSignature.visit id (listening takeThree) (String.ofList boundedClass.print)).run.run
        ⟨0, []⟩) ∧
    throwingMethod.Legal ∧
    (∃ signature, MethodSignature.decode (String.ofList throwingMethod.print) = .ok signature ∧
      Delivered takeThree 0
        [.parameters ["int", "<E>[]"], .typeParameters [⟨"E", ["X"]⟩], .returnType "void",
          .exception "<E>", .exception "Y"] signature
        ((MethodSignature.visit id (listening takeThree)
          (String.ofList throwingMethod.print)).run.run ⟨0, []⟩)) ∧
    ClassSignature.decode "LA;V" = .error (.unexpected "LA;V" 86 3) ∧
    (ClassSignature.visit id (listening takeThree) "LA;V").run.run ⟨0, []⟩ =
      (.error (.unexpected "LA;V" 86 3), ⟨0, []⟩) := by
  have hvisit := visit_print id takeThree takeThree 0
  have hrefused : ClassSignature.decode "LA;V" = .error (.unexpected "LA;V" 86 3) := by rfl
  obtain ⟨signature, hdecode, -, hmethod⟩ := (hvisit.2.1 throwingMethod throwingMethod_legal).1
  exact ⟨boundedClass_legal, by decide, (hvisit.1 boundedClass boundedClass_legal).1,
    throwingMethod_legal, ⟨signature, hdecode, hmethod⟩, hrefused, hvisit.2.2.1 _ _ hrefused⟩

end JarFacts
