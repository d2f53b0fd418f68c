import Mathlib.Tactic.Common
import JarFacts.Proofs.Signature.TreeReader

/-!
# The names that are put together are the names of trees

A type is read into a buffer without a tree of it.  What this leaves in the buffer is what its tree
would leave there (`Buffer.take`): the two readers take the same steps, and the one maps the outcome
of the other (`Parser.fillsBuffers`, an induction on the rounds).  Finishing such a buffer puts the
pieces in the order of the canonical name (`Buffer.finish_take`, an induction on the tree), although
they came in another one: dimensions before the element type, and arguments between the names of a
class and its inner classes.

So whatever is read, its name is the rendering of its tree (`decodeType_eq_map`,
`ClassSignature.decode_eq_map`, `MethodSignature.decode_eq_map`).
-/

namespace JarFacts

namespace Signature

/-! ## What a tree leaves in a buffer -/

namespace Buffer

mutual

/-- The buffer once a type was read into it. -/
def take (buffer : Buffer) : TypeTree → Buffer
  | .base b => buffer.baseType b.keyword
  | .void => buffer.baseType "void".toList
  | .var name => buffer.typeVariable name
  | .named name suffixes => (buffer.classType name).takeSuffixes suffixes
  | .array element => buffer.addDimension.take element

/-- The buffer of a class type once argument lists and inner names were read into it. -/
def takeSuffixes (buffer : Buffer) : List ClassSuffix → Buffer
  | [] => buffer
  | .arguments args :: rest => (buffer.takeArguments args).takeSuffixes rest
  | .inner name :: rest => (buffer.innerClassType name).takeSuffixes rest

/-- The buffer of a class type once the arguments of a list were read into it. -/
def takeArguments (buffer : Buffer) : List TypeArgument → Buffer
  | [] => buffer
  | .any :: rest => (buffer.addArgument "<?>".toList).takeArguments rest
  | .upper bound :: rest =>
      (buffer.addArgument ((bounded '+').take bound).finish).takeArguments rest
  | .lower bound :: rest =>
      (buffer.addArgument ((bounded '-').take bound).finish).takeArguments rest
  | .only type :: rest => (buffer.addArgument (take {} type).finish).takeArguments rest

end

/-! ## Finishing -/

section

variable (text : List Char) (dimensions : Nat) (wildcard : Option Char)

/-- The arguments of a class type stand behind its text. -/
lemma finish_args (args : List (List Char)) :
    finish ⟨text, args, dimensions, wildcard⟩ =
      finish ⟨text ++ bracketed args, [], dimensions, wildcard⟩ := by
  cases args with
  | nil => rw [bracketed, List.isEmpty_nil, if_pos rfl, List.append_nil]
  | cons arg rest => rfl

/-- Of all dimensions the first one read stands last. -/
lemma finish_dimensions :
    finish ⟨text, [], dimensions + 1, wildcard⟩ =
      finish ⟨text ++ ['[', ']'], [], dimensions, wildcard⟩ := by
  simp only [finish, List.replicate_succ, List.flatten_cons, List.append_assoc, List.isEmpty_nil,
    if_true]

lemma finish_type : finish ⟨text, [], 0, none⟩ = text :=
  List.append_nil text

lemma finish_bounded (sign : Char) :
    finish ⟨text, [], 0, some sign⟩ = '<' :: '?' :: sign :: (text ++ ['>']) := by
  rw [finish]
  simp only [List.isEmpty_nil, if_true, List.replicate_zero, List.flatten_nil, List.append_nil]

end

mutual

/-- A type that is read into an empty buffer leaves its canonical name there. -/
theorem finish_take (tree : TypeTree) (dimensions : Nat) (wildcard : Option Char) :
    (take ⟨[], [], dimensions, wildcard⟩ tree).finish =
      finish ⟨tree.render, [], dimensions, wildcard⟩ := by
  match tree with
  | .base b => rfl
  | .void => rfl
  | .var name => rfl
  | .named name suffixes =>
      have hname : fullName name suffixes =
          Text.substitute '/' '.' name ++ fullName [] suffixes := rfl
      rw [take, takeSuffixes_eq, TypeTree.render, ← finish_args, hname]
      rfl
  | .array element =>
      rw [TypeTree.render, ← finish_dimensions, ← finish_take element]
      rfl

/-- Inner names go behind the text, and arguments behind the arguments. -/
theorem takeSuffixes_eq : ∀ (suffixes : List ClassSuffix) (buffer : Buffer),
    buffer.takeSuffixes suffixes =
      { buffer with
        result := buffer.result ++ fullName [] suffixes
        args := buffer.args ++ renderSuffixes suffixes }
  | [], buffer => by
      rw [takeSuffixes, renderSuffixes, List.append_nil]
      change _ = { buffer with result := buffer.result ++ [], args := buffer.args }
      rw [List.append_nil]
  | .arguments args :: rest, buffer => by
      rw [takeSuffixes, takeSuffixes_eq rest, takeArguments_eq args, renderSuffixes,
        ← List.append_assoc]
      rfl
  | .inner name :: rest, buffer => by
      have hname : fullName [] (.inner name :: rest) = '$' :: name ++ fullName [] rest := rfl
      rw [takeSuffixes, takeSuffixes_eq rest, renderSuffixes, hname, ← List.append_assoc]
      rfl

/-- The name of each argument is finished on its own. -/
theorem takeArguments_eq : ∀ (args : List TypeArgument) (buffer : Buffer),
    buffer.takeArguments args = { buffer with args := buffer.args ++ renderArguments args }
  | [], _ => by rw [takeArguments, renderArguments, List.append_nil]
  | .any :: rest, buffer => by
      rw [takeArguments, takeArguments_eq rest, renderArguments, List.append_cons]
      rfl
  | .upper bound :: rest, buffer => by
      have hbound : ((bounded '+').take bound).finish = "<?+".toList ++ (bound.render ++ ['>']) :=
        (finish_take bound 0 (some '+')).trans (finish_bounded _ '+')
      rw [takeArguments, takeArguments_eq rest, renderArguments, List.append_cons, hbound]
      rfl
  | .lower bound :: rest, buffer => by
      have hbound : ((bounded '-').take bound).finish = "<?-".toList ++ (bound.render ++ ['>']) :=
        (finish_take bound 0 (some '-')).trans (finish_bounded _ '-')
      rw [takeArguments, takeArguments_eq rest, renderArguments, List.append_cons, hbound]
      rfl
  | .only type :: rest, buffer => by
      have htype : (take {} type).finish = type.render :=
        (finish_take type 0 none).trans (finish_type _)
      rw [takeArguments, takeArguments_eq rest, renderArguments, List.append_cons, htype]
      rfl

end

/-- The name that is put together for a type is the canonical name of its tree. -/
lemma finish_take_empty (tree : TypeTree) : (take {} tree).finish = tree.render :=
  (finish_take tree 0 none).trans (finish_type _)

end Buffer

/-! ## The readers take the same steps -/

namespace Parser

/-- With so many rounds a type is read into a buffer as it is read as a tree, and what the tree
leaves in the buffer is there at the end. -/
structure FillsBuffers (rounds : Nat) : Prop where
  type (voidAllowed : Bool) (depth : Nat) (buffer : Buffer) :
    typeInto voidAllowed depth rounds buffer = buffer.take <$> typeWith voidAllowed depth rounds
  suffixes (depth : Nat) (buffer : Buffer) :
    suffixesInto depth rounds buffer = buffer.takeSuffixes <$> suffixesWith depth rounds
  arguments (depth : Nat) (buffer : Buffer) :
    argumentsInto depth rounds buffer = buffer.takeArguments <$> argumentsWith depth rounds

lemma baseTypeName?_eq (c : Char) :
    baseTypeName? c = (BaseType.ofLetter? c).map BaseType.keyword := by
  unfold baseTypeName?
  split
  case h_9 => rw [BaseType.ofLetter?, Option.map_none] <;> assumption
  all_goals rfl

section

variable {rounds : Nat}

lemma typeInto_succ (h : FillsBuffers rounds) (voidAllowed : Bool) (depth : Nat) (buffer : Buffer) :
    typeInto voidAllowed depth (rounds + 1) buffer =
      buffer.take <$> typeWith voidAllowed depth (rounds + 1) := by
  rw [typeInto, typeWith]
  simp only [map_bind]
  refine bind_congr fun cursor => bind_congr fun c => ?_
  split_ifs
  · simp only [h.type, map_eq_pure_bind, bind_assoc, pure_bind, Buffer.take]
  · simp only [h.suffixes, map_eq_pure_bind, bind_assoc, pure_bind, Buffer.take]
  · simp only [map_eq_pure_bind, bind_assoc, pure_bind, Buffer.take]
  · rw [map_pure, Buffer.take]
  · rw [baseTypeName?_eq]
    cases BaseType.ofLetter? c <;> rfl

lemma suffixesInto_succ (h : FillsBuffers rounds) (depth : Nat) (buffer : Buffer) :
    suffixesInto depth (rounds + 1) buffer =
      buffer.takeSuffixes <$> suffixesWith depth (rounds + 1) := by
  rw [suffixesInto, suffixesWith]
  simp only [map_bind]
  refine bind_congr fun cursor => bind_congr fun c => ?_
  split_ifs
  · rfl
  · simp only [h.arguments, h.suffixes, map_eq_pure_bind, bind_assoc, pure_bind,
      Buffer.takeSuffixes]
  · simp only [h.suffixes, map_eq_pure_bind, bind_assoc, pure_bind, Buffer.takeSuffixes]
  · rw [map_pure, Buffer.takeSuffixes]
  · rfl

lemma argumentsInto_succ (h : FillsBuffers rounds) (depth : Nat) (buffer : Buffer) :
    argumentsInto depth (rounds + 1) buffer =
      buffer.takeArguments <$> argumentsWith depth (rounds + 1) := by
  rw [argumentsInto, argumentsWith]
  simp only [map_bind]
  refine bind_congr fun first => ?_
  split
  · rfl
  · simp only [map_eq_pure_bind, bind_assoc, pure_bind, Buffer.takeArguments]
  all_goals
    simp only [h.type, h.arguments, map_eq_pure_bind, bind_assoc, pure_bind, Buffer.takeArguments]

end

/-- The induction is on the rounds, and over the three readers at once: each hands fewer rounds to
the others. -/
lemma fillsBuffers (rounds : Nat) : FillsBuffers rounds := by
  induction rounds with
  | zero =>
      refine ⟨fun _ _ _ => ?_, fun _ _ => ?_, fun _ _ => ?_⟩
      · rw [typeInto, typeWith]
        rfl
      · rw [suffixesInto, suffixesWith]
        rfl
      · rw [argumentsInto, argumentsWith]
        rfl
  | succ rounds ih => exact ⟨typeInto_succ ih, suffixesInto_succ ih, argumentsInto_succ ih⟩

/-! ## Names for trees, everywhere -/

lemma typeSignature_eq (voidAllowed : Bool) :
    typeSignature voidAllowed = canonical <$> typeTree voidAllowed := by
  rw [typeSignature, typeTree, map_bind]
  refine bind_congr fun rounds => ?_
  rw [(fillsBuffers rounds).type, bind_map_left, map_eq_pure_bind]
  simp only [Buffer.finish_take_empty, canonical]

lemma boundNames_eq (rounds : Nat) :
    boundNames rounds = List.map canonical <$> interfaceBounds rounds := by
  induction rounds with
  | zero => rw [boundNames, interfaceBounds, map_pure, List.map_nil]
  | succ rounds ih =>
      rw [boundNames, interfaceBounds, map_bind]
      refine bind_congr fun first => ?_
      split_ifs
      · simp only [typeSignature_eq, ih, map_bind, map_pure, bind_map_left, List.map_cons]
      · rw [map_pure, List.map_nil]

lemma formalTypeParameter_eq :
    formalTypeParameter = ParameterTree.canonical <$> typeParameter := by
  rw [formalTypeParameter, typeParameter]
  simp only [map_bind]
  refine bind_congr fun name => bind_congr fun _ => bind_congr fun following => ?_
  split_ifs
  · simp only [boundNames_eq, map_bind, map_pure, pure_bind, bind_map_left]
    rfl
  · simp only [boundNames_eq, typeSignature_eq, map_bind, map_pure, bind_map_left, Functor.map_map]
    rfl

lemma formalTypeParametersTail_eq (rounds : Nat) :
    formalTypeParametersTail rounds = List.map ParameterTree.canonical <$>
      typeParametersTail rounds := by
  induction rounds with
  | zero => rfl
  | succ rounds ih =>
      rw [formalTypeParametersTail, typeParametersTail, formalTypeParameter_eq,
        map_bind, bind_map_left]
      refine bind_congr fun parameter => ?_
      rw [map_bind]
      refine bind_congr fun first => ?_
      split_ifs
      · simp only [map_bind, map_pure, List.map_cons, List.map_nil]
      · simp only [ih, map_bind, map_pure, bind_map_left, List.map_cons]

lemma formalTypeParameters_eq :
    formalTypeParameters = List.map ParameterTree.canonical <$> typeParameters := by
  rw [formalTypeParameters, typeParameters, map_bind]
  refine bind_congr fun first => ?_
  split_ifs
  · simp only [formalTypeParametersTail_eq, map_bind]
  · rw [map_pure, List.map_nil]

lemma namesToEnd_eq (rounds : Nat) :
    namesToEnd rounds = List.map canonical <$> typesToEnd rounds := by
  induction rounds with
  | zero => rw [namesToEnd, typesToEnd, map_pure, List.map_nil]
  | succ rounds ih =>
      rw [namesToEnd, typesToEnd, map_bind]
      refine bind_congr fun first => ?_
      split_ifs
      · rw [map_pure, List.map_nil]
      · simp only [typeSignature_eq, ih, map_bind, map_pure, bind_map_left, List.map_cons]

lemma namesToParenthesis_eq (rounds : Nat) :
    namesToParenthesis rounds = List.map canonical <$> typesToParenthesis rounds := by
  induction rounds with
  | zero => rfl
  | succ rounds ih =>
      rw [namesToParenthesis, typesToParenthesis, map_bind]
      refine bind_congr fun first => ?_
      split_ifs
      · simp only [map_bind, map_pure, List.map_nil]
      · simp only [typeSignature_eq, ih, map_bind, map_pure, bind_map_left, List.map_cons]

lemma thrownToEnd_eq (rounds : Nat) :
    thrownToEnd rounds = List.map canonical <$> exceptionsToEnd rounds := by
  induction rounds with
  | zero => rw [thrownToEnd, exceptionsToEnd, map_pure, List.map_nil]
  | succ rounds ih =>
      rw [thrownToEnd, exceptionsToEnd, map_bind]
      refine bind_congr fun first => ?_
      split_ifs
      · rw [map_pure, List.map_nil]
      · simp only [typeSignature_eq, ih, map_bind, map_pure, bind_map_left, List.map_cons]

lemma classSignature_eq : classSignature = ClassTree.canonical <$> classTree := by
  rw [classSignature, classTree]
  simp only [formalTypeParameters_eq, typeSignature_eq, namesToEnd_eq, map_bind,
    map_pure, bind_map_left, ClassTree.canonical]

lemma methodSignature_eq : methodSignature = MethodTree.canonical <$> methodTree := by
  rw [methodSignature, methodTree]
  simp only [formalTypeParameters_eq, typeSignature_eq, namesToParenthesis_eq,
    thrownToEnd_eq, map_bind, map_pure, bind_map_left, MethodTree.canonical]

lemma runOn_map {α β : Type} (f : α → β) (parser : Parser α) (text : String) :
    (f <$> parser).runOn text = (parser.runOn text).map f := by
  have hdone : (f <$> parser) <* done = f <$> (parser <* done) := by
    simp only [seqLeft_eq_bind, map_bind, bind_map_left, map_pure]
  rw [runOn, runOn, hdone, StateT.run'_eq, StateT.run'_eq, StateT.run_map]
  cases (parser <* done).run (.start text.toList) <;> rfl

end Parser

/-- The name of a type is the canonical name of its tree. -/
lemma decodeType_eq_map (signature : String) :
    decodeType signature = (parseType signature).map canonical := by
  rw [decodeType, parseType, Parser.typeSignature_eq, Parser.runOn_map]

end Signature

namespace ClassSignature

lemma decode_eq_map (signature : String) :
    decode signature =
      (Signature.Parser.classTree.runOn signature).map Signature.ClassTree.canonical := by
  rw [decode, Signature.Parser.classSignature_eq, Signature.Parser.runOn_map]

end ClassSignature

namespace MethodSignature

lemma decode_eq_map (signature : String) :
    decode signature =
      (Signature.Parser.methodTree.runOn signature).map Signature.MethodTree.canonical := by
  rw [decode, Signature.Parser.methodSignature_eq, Signature.Parser.runOn_map]

end MethodSignature

end JarFacts
