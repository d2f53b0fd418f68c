import JarFacts.Proofs.Signature.Declaration

/-!
# Which declarations are accepted

The way back from a reading to its text, for class and method signatures.  Where a list of bounds
ends is seen from what stands behind it, so `YieldsBefore` speaks of that as well: whenever the
parser has a value, something holds of the value, of the text that was consumed and of the text that
is left.

What comes out are the trees that `ReadsBefore` starts from, and nothing else.  A signature is
accepted exactly when it is the text of a readable tree (`ClassSignature.decode_eq_ok_iff`,
`MethodSignature.decode_eq_ok_iff`).
-/

namespace JarFacts.Signature

namespace Parser

variable {α β : Type}

/-- Whenever the parser has a value, this holds of it, of the text that was consumed and of the
rest. -/
def YieldsBefore (parser : Parser α) (holds : α → (text rest : List Char) → Prop) : Prop :=
  ∀ (cursor : Cursor) (value : α) (cursor' : Cursor), parser.run cursor = .ok (value, cursor') →
    ∃ text, cursor.rest = text ++ cursor'.rest ∧ holds value text cursor'.rest

namespace YieldsBefore

variable {parser : Parser α} {first holds : α → (text rest : List Char) → Prop}

lemma of_yields {spells : α → List Char → Prop} (h : Yields parser spells) :
    YieldsBefore parser fun value text _ => spells value text := by
  intro cursor value cursor' hrun
  obtain ⟨text, hrest, -, hspells⟩ := h cursor value cursor' hrun
  exact ⟨text, hrest, hspells⟩

lemma mono (h : YieldsBefore parser first)
    (hfirst : ∀ value text rest, first value text rest → holds value text rest) :
    YieldsBefore parser holds := by
  intro cursor value cursor' hrun
  obtain ⟨text, hrest, hheld⟩ := h cursor value cursor' hrun
  exact ⟨text, hrest, hfirst value text _ hheld⟩

lemma pure {value : α} (h : ∀ rest, holds value [] rest) : YieldsBefore (pure value) holds := by
  intro cursor found cursor' hrun
  cases hrun
  exact ⟨[], rfl, h _⟩

lemma throw {fault : Fault} : YieldsBefore (throw fault) holds := by
  intro cursor found cursor' hrun
  cases hrun

lemma bind {next : α → Parser β} {holds : β → (text rest : List Char) → Prop}
    (hparser : YieldsBefore parser first)
    (hnext : ∀ value, YieldsBefore (next value) fun value' text' rest =>
      ∀ text, first value text (text' ++ rest) → holds value' (text ++ text') rest) :
    YieldsBefore (parser >>= next) holds := by
  intro cursor value' cursor'' hrun
  rw [run_bind] at hrun
  cases hfirst : parser.run cursor with
  | error fault => rw [hfirst] at hrun; cases hrun
  | ok found =>
      obtain ⟨value, cursor'⟩ := found
      rw [hfirst] at hrun
      obtain ⟨text, hrest, hheld⟩ := hparser cursor value cursor' hfirst
      obtain ⟨text', hrest', hheld'⟩ := hnext value cursor' value' cursor'' hrun
      refine ⟨text ++ text', by rw [hrest, hrest', List.append_assoc], hheld' text ?_⟩
      rw [← hrest']
      exact hheld

lemma peek_bind {next : Option Char → Parser α}
    (h : ∀ following, YieldsBefore (next following) fun value text rest =>
      (text ++ rest).head? = following → holds value text rest) :
        YieldsBefore (peek >>= next) holds := by
  intro cursor value cursor' hrun
  obtain ⟨text, hrest, hheld⟩ := h cursor.rest.head? cursor value cursor' hrun
  exact ⟨text, hrest, hheld (by rw [hrest])⟩

lemma rounds_bind {next : Nat → Parser α}
    (h : ∀ number, YieldsBefore (next number) fun value text rest =>
      (text ++ rest).length < number → holds value text rest) :
        YieldsBefore (rounds >>= next) holds := by
  intro cursor value cursor' hrun
  obtain ⟨text, hrest, hheld⟩ := h (2 * cursor.rest.length + 2) cursor value cursor' hrun
  refine ⟨text, hrest, hheld ?_⟩
  rw [← hrest]
  omega

lemma runOn (h : YieldsBefore parser holds) {text : String} {value : α}
    (hvalue : parser.runOn text = .ok value) :
    holds value text.toList [] := by
  rw [runOn_eq] at hvalue
  split at hvalue
  · next found position hrun =>
      cases hvalue
      obtain ⟨consumed, hrest, hheld⟩ := h _ _ _ hrun
      rw [List.append_nil] at hrest
      change text.toList = consumed at hrest
      rwa [hrest]
  · cases hvalue
  · cases hvalue

/-- What is made of an accepted text is made of something that has this text. -/
lemma exists_of_map_runOn {print : α → List Char} {readable : α → Prop}
    (h : YieldsBefore parser fun value text _ => text = print value ∧ readable value) {make : α → β}
    {text : String} {made : β} (hmade : (parser.runOn text).map make = .ok made) :
    ∃ value, readable value ∧ String.ofList (print value) = text ∧ make value = made := by
  cases hvalue : parser.runOn text with
  | error error =>
      rw [hvalue] at hmade
      cases hmade
  | ok value =>
      rw [hvalue] at hmade
      obtain ⟨htext, hreadable⟩ := h.runOn hvalue
      exact ⟨value, hreadable, by rw [← htext, String.ofList_toList], Except.ok.inj hmade⟩

end YieldsBefore

/-! ## Formal parameters -/

lemma yieldsBefore_typeTree :
    YieldsBefore (typeTree false) fun tree text _ => text = tree.print ∧ tree.Fits := by
  refine (YieldsBefore.of_yields (yields_typeTree false)).mono fun tree text _ h => ?_
  obtain ⟨htext, hlegal, hnesting⟩ := h
  rw [Nat.zero_add] at hnesting
  exact ⟨htext, hlegal, hnesting⟩

/-- Bounds are read as long as there are colons and rounds. -/
lemma yieldsBefore_interfaceBounds (rounds : Nat) :
    YieldsBefore (interfaceBounds rounds) fun bounds text rest =>
      text = (bounds.flatMap fun bound => ':' :: bound.print) ∧ (∀ bound ∈ bounds, bound.Fits) ∧
        (bounds.length < rounds → OtherThan ':' rest) := by
  induction rounds with
  | zero =>
      rw [interfaceBounds]
      exact .pure fun rest => ⟨rfl, by simp, fun h => absurd h (Nat.not_lt_zero _)⟩
  | succ rounds ih =>
      rw [interfaceBounds]
      refine .peek_bind fun following => ?_
      split
      · next hcolon =>
          refine (YieldsBefore.of_yields Yields.discard_next).bind fun _ => ?_
          refine yieldsBefore_typeTree.bind fun bound => ih.bind fun bounds => .pure ?_
          rintro rest _ ⟨rfl, hbounds, hends⟩ _ ⟨rfl, hbound⟩ _ ⟨c, rfl⟩ hhead
          rw [hcolon] at hhead
          cases hhead
          refine ⟨by simp, List.forall_mem_cons.mpr ⟨hbound, hbounds⟩, fun hrounds => ?_⟩
          exact hends (Nat.lt_of_succ_lt_succ hrounds)
      · next hother =>
          refine .pure fun rest hhead => ⟨rfl, by simp, fun _ hcolon => hother ?_⟩
          rw [← hhead]
          exact hcolon

/-- There is no class bound only where a colon or the end of the list comes next. -/
lemma yieldsBefore_classBound (following : Option Char) :
    YieldsBefore
      (if following = some ':' ∨ following = some '>' then pure none else some <$> typeTree false)
      fun classBound text _ =>
        text = classBound.toList.flatMap TypeTree.print ∧
        (∀ bound ∈ classBound.toList, bound.Fits) ∧
          (classBound = none → following = some ':' ∨ following = some '>') := by
  split
  · next hnone => exact .pure fun _ => ⟨rfl, by simp, fun _ => hnone⟩
  · rw [map_eq_pure_bind]
    refine yieldsBefore_typeTree.bind fun bound => .pure ?_
    rintro _ _ ⟨rfl, hbound⟩
    exact ⟨by simp, by simpa using hbound, fun hnone => by cases hnone⟩

/-- A formal parameter ends where its last bound does. -/
lemma yieldsBefore_typeParameter :
    YieldsBefore typeParameter fun parameter text rest =>
      text = parameter.print ∧ parameter.Readable ∧ EndsParameter parameter rest := by
  rw [typeParameter]
  refine (YieldsBefore.of_yields (Yields.name [':'])).bind fun name => ?_
  refine (YieldsBefore.of_yields (Yields.expect ':')).bind fun _ => .peek_bind fun following => ?_
  have hjoin (next : Option TypeTree → Parser ParameterTree) :
      (if following = some ':' ∨ following = some '>' then pure none >>= next
        else (some <$> typeTree false) >>= next) =
      (if following = some ':' ∨ following = some '>' then pure none else some <$>
        typeTree false) >>= next := by
    split <;> rfl
  dsimp only
  rw [hjoin]
  refine (yieldsBefore_classBound following).bind fun classBound => .rounds_bind fun number => ?_
  refine (yieldsBefore_interfaceBounds number).bind fun bounds => .pure ?_
  rintro rest _ ⟨rfl, hbounds, hends⟩ hnumber _ ⟨rfl, hclassBound, hnone⟩ hhead _ rfl _ ⟨rfl, hname⟩
  have hlength := length_le_length_flatMap (fun bound => ':' :: bound.print) bounds fun _ _ =>
      List.cons_ne_nil _ _
  have hcolon : OtherThan ':' rest := hends (by simp only [List.length_append] at hnumber; omega)
  refine ⟨by simp [ParameterTree.print], ⟨hname, ?_⟩, hcolon, fun hunbounded => ?_⟩
  · intro bound hbound
    exact (List.mem_append.mp hbound).elim (hclassBound bound) (hbounds bound)
  · -- Nothing was read behind the colon, so what comes next is what was seen there.
    obtain ⟨hclass, rfl⟩ := List.append_eq_nil_iff.mp hunbounded
    rw [Option.toList_eq_nil_iff] at hclass
    subst hclass
    obtain hsame | hclose := hnone rfl
    · exact absurd (hhead.trans hsame) hcolon
    · exact hhead.trans hclose

/-- What begins behind a parameter, and does not close the list, is a parameter that can be told
from it. -/
lemma precedes_of_endsParameter {parameter successor : ParameterTree} {rest : List Char}
    (hends : EndsParameter parameter (successor.print ++ rest))
    (hopen : (successor.print ++ rest).head? ≠ some '>') : parameter.Precedes successor := by
  refine ⟨fun hbounds => hopen (hends.2 hbounds), ?_⟩
  cases hname : successor.name with
  | nil =>
      rw [ParameterTree.print, hname] at hends
      exact absurd rfl hends.1
  | cons c name =>
      rw [ParameterTree.print, hname] at hopen
      exact ⟨c, name, rfl, fun hc => hopen (congrArg some hc)⟩

/-- Formal parameters are read up to the bracket that closes their list. -/
lemma yieldsBefore_typeParametersTail (rounds : Nat) :
    YieldsBefore (typeParametersTail rounds) fun parameters text _ =>
      text = parameters.flatMap ParameterTree.print ++ ['>'] ∧ parameters ≠ [] ∧
      Separable parameters := by
  induction rounds with
  | zero =>
      rw [typeParametersTail]
      exact .throw
  | succ rounds ih =>
      rw [typeParametersTail]
      refine yieldsBefore_typeParameter.bind fun parameter => .peek_bind fun following => ?_
      split
      · next hclose =>
          refine (YieldsBefore.of_yields Yields.discard_next).bind fun _ => .pure ?_
          rintro rest _ ⟨c, rfl⟩ hhead _ ⟨rfl, hparameter, -⟩
          rw [hclose] at hhead
          cases hhead
          exact ⟨by simp, List.cons_ne_nil _ _, by simpa using hparameter, List.isChain_singleton _⟩
      · next hopen =>
          refine ih.bind fun others => .pure ?_
          rintro rest _ ⟨rfl, hothers, hseparable⟩ hhead _ ⟨rfl, hparameter, hends⟩
          refine ⟨by simp, List.cons_ne_nil _ _,
            List.forall_mem_cons.mpr ⟨hparameter, hseparable.readable⟩, ?_⟩
          cases others with
          | nil => exact absurd rfl hothers
          | cons successor others =>
              rw [← hhead] at hopen
              simp only [List.flatMap_cons, List.append_assoc] at hopen hends
              exact List.isChain_cons_cons.mpr
                ⟨precedes_of_endsParameter hends hopen, hseparable.precedes⟩

lemma yieldsBefore_typeParameters :
    YieldsBefore typeParameters fun parameters text _ => text = printParameters parameters ∧
    Separable parameters := by
  rw [typeParameters]
  refine .peek_bind fun following => ?_
  split
  · next hopen =>
      refine (YieldsBefore.of_yields Yields.discard_next).bind fun _ =>
        .rounds_bind fun number => ?_
      refine (yieldsBefore_typeParametersTail number).mono ?_
      rintro parameters _ rest ⟨rfl, hparameters, hseparable⟩ - _ ⟨c, rfl⟩ hhead
      rw [hopen] at hhead
      cases hhead
      refine ⟨?_, hseparable⟩
      rw [printParameters, if_neg (by simpa using hparameters)]
      rfl
  · exact .pure fun rest _ => ⟨rfl, by simp, List.isChain_nil⟩

/-! ## Types in a row -/

lemma yieldsBefore_typesToEnd (rounds : Nat) :
    YieldsBefore (typesToEnd rounds) fun types text _ =>
      text = types.flatMap TypeTree.print ∧ ∀ type ∈ types, type.Fits := by
  induction rounds with
  | zero =>
      rw [typesToEnd]
      exact .pure fun _ => ⟨rfl, by simp⟩
  | succ rounds ih =>
      rw [typesToEnd]
      refine .peek_bind fun following => ?_
      split
      · exact .pure fun _ _ => ⟨rfl, by simp⟩
      · refine yieldsBefore_typeTree.bind fun type => ih.bind fun types => .pure ?_
        rintro rest _ ⟨rfl, htypes⟩ _ ⟨rfl, htype⟩ -
        exact ⟨by simp, List.forall_mem_cons.mpr ⟨htype, htypes⟩⟩

lemma yieldsBefore_typesToParenthesis (rounds : Nat) :
    YieldsBefore (typesToParenthesis rounds) fun types text _ =>
      text = types.flatMap TypeTree.print ++ [')'] ∧ ∀ type ∈ types, type.Fits := by
  induction rounds with
  | zero =>
      rw [typesToParenthesis]
      exact .throw
  | succ rounds ih =>
      rw [typesToParenthesis]
      refine .peek_bind fun following => ?_
      split
      · next hclose =>
          refine (YieldsBefore.of_yields Yields.discard_next).bind fun _ => .pure ?_
          rintro rest _ ⟨c, rfl⟩ hhead
          rw [hclose] at hhead
          cases hhead
          exact ⟨by simp, by simp⟩
      · refine yieldsBefore_typeTree.bind fun type => ih.bind fun types => .pure ?_
        rintro rest _ ⟨rfl, htypes⟩ _ ⟨rfl, htype⟩ -
        exact ⟨by simp, List.forall_mem_cons.mpr ⟨htype, htypes⟩⟩

lemma yieldsBefore_exceptionsToEnd (rounds : Nat) :
    YieldsBefore (exceptionsToEnd rounds) fun types text _ =>
      text = (types.flatMap fun type => '^' :: type.print) ∧ ∀ type ∈ types, type.Fits := by
  induction rounds with
  | zero =>
      rw [exceptionsToEnd]
      exact .pure fun _ => ⟨rfl, by simp⟩
  | succ rounds ih =>
      rw [exceptionsToEnd]
      refine .peek_bind fun following => ?_
      split
      · exact .pure fun _ _ => ⟨rfl, by simp⟩
      · refine (YieldsBefore.of_yields (Yields.expect '^')).bind fun _ => ?_
        refine yieldsBefore_typeTree.bind fun type => ih.bind fun types => .pure ?_
        rintro rest _ ⟨rfl, htypes⟩ _ ⟨rfl, htype⟩ _ rfl -
        exact ⟨by simp, List.forall_mem_cons.mpr ⟨htype, htypes⟩⟩

/-! ## Declarations -/

lemma yieldsBefore_classTree :
    YieldsBefore classTree fun tree text _ => text = tree.print ∧ tree.Readable := by
  rw [classTree]
  refine yieldsBefore_typeParameters.bind fun parameters =>
    yieldsBefore_typeTree.bind fun superclass => ?_
  refine .rounds_bind fun number => (yieldsBefore_typesToEnd number).bind fun interfaces => .pure ?_
  rintro rest _ ⟨rfl, hinterfaces⟩ - _ ⟨rfl, hsuperclass⟩ _ ⟨rfl, hparameters⟩
  exact ⟨by simp [ClassTree.print], hparameters, hsuperclass, hinterfaces⟩

lemma yieldsBefore_methodTree :
    YieldsBefore methodTree fun tree text _ => text = tree.print ∧ tree.Readable := by
  rw [methodTree]
  refine yieldsBefore_typeParameters.bind fun formals => ?_
  refine (YieldsBefore.of_yields (Yields.expect '(')).bind fun _ => .rounds_bind fun number => ?_
  refine (yieldsBefore_typesToParenthesis number).bind fun parameters => ?_
  refine (YieldsBefore.of_yields (yields_typeTree true)).bind fun returnType =>
    .rounds_bind fun number' => ?_
  refine (yieldsBefore_exceptionsToEnd number').bind fun exceptions => .pure ?_
  rintro rest _ ⟨rfl, hexceptions⟩ - _ ⟨rfl, hlegal, hnesting⟩ _
    ⟨rfl, hparameters⟩ - _ rfl _ ⟨rfl, hformals⟩
  rw [Nat.zero_add] at hnesting
  exact ⟨by simp [MethodTree.print], hformals, hparameters, hlegal, hnesting, hexceptions⟩

end Parser

end JarFacts.Signature

namespace JarFacts

open Signature

/-- A text is accepted as a class signature exactly if it is the text of a readable one. -/
lemma ClassSignature.decode_eq_ok_iff {text : String} {signature : ClassSignature} :
    decode text = .ok signature ↔
      ∃ tree : ClassTree, tree.Readable ∧ String.ofList tree.print = text ∧
        tree.canonical = signature := by
  constructor
  · intro h
    rw [decode_eq_map] at h
    exact Parser.yieldsBefore_classTree.exists_of_map_runOn h
  · rintro ⟨tree, hreadable, rfl, rfl⟩
    exact hreadable.decode

/-- A text is accepted as a method signature exactly if it is the text of a readable one. -/
lemma MethodSignature.decode_eq_ok_iff {text : String} {signature : MethodSignature} :
    decode text = .ok signature ↔
      ∃ tree : MethodTree, tree.Readable ∧ String.ofList tree.print = text ∧
        tree.canonical = signature := by
  constructor
  · intro h
    rw [decode_eq_map] at h
    exact Parser.yieldsBefore_methodTree.exists_of_map_runOn h
  · rintro ⟨tree, hreadable, rfl, rfl⟩
    exact hreadable.decode

end JarFacts
