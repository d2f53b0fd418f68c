import JarFacts.Proofs.Signature.Reading
import JarFacts.Proofs.Signature.Naming

/-!
# The grammar of types

Which trees a text can spell (`TypeTree.Legal`) is a matter of the names alone: a name ends at the
first character that may stand behind it, and so must not hold one.  The text of every such tree is
read as the tree (`Parser.reads_type`, an induction on the tree), and everything that is read spells
such a tree (`Parser.yields_of_rounds`, an induction on the rounds).  Argument lists nested too deep
are part of the first half: their text is refused for the nesting, wherever in the tree it is
exceeded.
-/

namespace JarFacts.Signature

/-- A name within a class type. -/
def IsSegment (name : List Char) : Prop :=
  ∀ c ∈ name, c ∉ ['<', '.', ';']

mutual

/-- The tree has a text: its names can be told from what stands behind them, and there is a `void`
only where one is allowed. -/
def TypeTree.Legal (voidAllowed : Bool) : TypeTree → Prop
  | .base _ => True
  | .void => voidAllowed = true
  | .var name => ∀ c ∈ name, c ∉ [';']
  | .named name suffixes => IsSegment name ∧ LegalSuffixes suffixes
  | .array element => element.Legal voidAllowed

/-- The argument lists and inner names have a text. -/
def LegalSuffixes : List ClassSuffix → Prop
  | [] => True
  | .arguments args :: rest => LegalArguments args ∧ LegalSuffixes rest
  | .inner name :: rest => IsSegment name ∧ LegalSuffixes rest

/-- The arguments have a text. -/
def LegalArguments : List TypeArgument → Prop
  | [] => True
  | .any :: rest => LegalArguments rest
  | .upper bound :: rest => bound.Legal false ∧ LegalArguments rest
  | .lower bound :: rest => bound.Legal false ∧ LegalArguments rest
  | .only type :: rest => type.Legal false ∧ LegalArguments rest

end

/-! ## Every legal text is read -/

/-- The value of something with this nesting, where so many argument lists are open already. -/
def unlessTooDeep {α : Type} (depth nesting : Nat) (value : α) : Option α :=
  if depth + nesting ≤ maxNesting then some value else none

lemma unlessTooDeep_zero {α : Type} {depth : Nat} (hdepth : depth ≤ maxNesting) (value : α) :
    unlessTooDeep depth 0 value = some value :=
  if_pos hdepth

lemma map_unlessTooDeep {α β : Type} (depth nesting : Nat) (value : α) (f : α → β) :
    (unlessTooDeep depth nesting value).map f = unlessTooDeep depth nesting (f value) := by
  unfold unlessTooDeep
  split_ifs <;> rfl

/-- Of two things the deeper one decides. -/
lemma bind_unlessTooDeep {α β : Type} (depth first second : Nat) (value : α) (value' : α → β) :
    ((unlessTooDeep depth first value).bind fun found =>
      unlessTooDeep depth second (value' found)) =
      unlessTooDeep depth (max first second) (value' value) := by
  unfold unlessTooDeep
  by_cases hfirst : depth + first ≤ maxNesting <;>
    by_cases hsecond : depth + second ≤ maxNesting <;>
    simp [hfirst, hsecond] <;> omega

/-- An argument list is one level deeper than what stands in it. -/
lemma unlessTooDeep_succ {α : Type} (depth nesting : Nat) (value : α) :
    unlessTooDeep (depth + 1) nesting value = unlessTooDeep depth (nesting + 1) value := by
  rw [unlessTooDeep, unlessTooDeep, Nat.add_right_comm, Nat.add_assoc]

/-- The first character of a type is none of those that mark an argument. -/
lemma TypeTree.exists_print_eq_cons (tree : TypeTree) :
    ∃ c text, tree.print = c :: text ∧ c ≠ '>' ∧ c ≠ '*' ∧ c ≠ '+' ∧ c ≠ '-' := by
  cases tree with
  | base b => exact ⟨b.letter, [], by rw [print], by cases b <;> decide⟩
  | void => exact ⟨'V', [], by rw [print], by decide⟩
  | var name => exact ⟨'T', _, by rw [print], by decide⟩
  | named name suffixes => exact ⟨'L', _, by rw [print], by decide⟩
  | array element => exact ⟨'[', _, by rw [print], by decide⟩

/-- A name within a class type is followed by an argument list, an inner name or the end. -/
lemma exists_printSuffixes_eq_cons (suffixes : List ClassSuffix) :
    ∃ stop tail, printSuffixes suffixes ++ [';'] = stop :: tail ∧ stop ∈ ['<', '.', ';'] := by
  match suffixes with
  | [] => exact ⟨';', [], by rw [printSuffixes]; rfl, by decide⟩
  | .arguments args :: rest => exact ⟨'<', _, by rw [printSuffixes]; rfl, by decide⟩
  | .inner name :: rest => exact ⟨'.', _, by rw [printSuffixes]; rfl, by decide⟩

namespace Parser

/-- Two things in a row are read together. -/
lemma reads_both {α β γ : Type} {first : Parser α} {second : Parser β} {text text' : List Char}
    {depth nesting nesting' : Nat} {value : α} {value' : β} (join : α → β → γ)
    (hfirst : Reads first text (unlessTooDeep depth nesting value))
    (hsecond : Reads second text' (unlessTooDeep depth nesting' value')) :
    Reads (do
      let found ← first
      return join found (← second)) (text ++ text')
      (unlessTooDeep depth (max nesting nesting') (join value value')) := by
  rw [← bind_unlessTooDeep depth nesting nesting' value fun found => join found value']
  refine hfirst.bind fun found _ => ?_
  rw [← map_unlessTooDeep]
  exact hsecond.map _

/-- Where no mark stands, an argument is a type. -/
lemma reads_argumentsWith_only {depth rounds : Nat} {c : Char} {text : List Char}
    {value : Option (List TypeArgument)} (hc : c ≠ '>' ∧ c ≠ '*' ∧ c ≠ '+' ∧ c ≠ '-')
    (h : Reads (do
      let type ← typeWith false depth rounds
      return .only type :: (← argumentsWith depth rounds)) (c :: text) value) :
    Reads (argumentsWith depth (rounds + 1)) (c :: text) value := by
  rw [argumentsWith]
  refine .peek_bind ?_
  obtain ⟨hclose, hany, hupper, hlower⟩ := hc
  split <;> simp_all

mutual

/-- The text of a type is read as the type. -/
theorem reads_type (voidAllowed : Bool) {depth : Nat} (hdepth : depth ≤ maxNesting)
    (tree : TypeTree)
    (htree : tree.Legal voidAllowed) (rounds : Nat) (hrounds : 2 * tree.print.length ≤ rounds + 1) :
    Reads (typeWith voidAllowed depth (rounds + 1)) tree.print
      (unlessTooDeep depth tree.nesting tree) := by
  rw [typeWith]
  match tree with
  | .base b =>
      rw [TypeTree.nesting, unlessTooDeep_zero hdepth]
      refine .get_bind fun cursor => .next_bind b.letter ?_
      cases b <;> exact .pure _
  | .void =>
      rw [TypeTree.nesting, unlessTooDeep_zero hdepth]
      refine .get_bind fun cursor => .next_bind 'V' ?_
      rw [TypeTree.Legal] at htree
      subst htree
      exact .pure _
  | .var name =>
      rw [TypeTree.nesting, unlessTooDeep_zero hdepth]
      refine .get_bind fun cursor => .next_bind 'T' ?_
      rw [TypeTree.Legal] at htree
      exact .name_bind htree ⟨';', [], rfl, by decide⟩ ((Reads.expect ';').map _)
  | .named name suffixes =>
      rw [TypeTree.Legal] at htree
      simp only [TypeTree.print, List.length_cons, List.length_append] at hrounds
      rw [TypeTree.nesting, ← map_unlessTooDeep, TypeTree.print]
      obtain ⟨rounds, rfl⟩ : ∃ fewer, rounds = fewer + 1 := ⟨rounds - 1, by omega⟩
      refine .get_bind fun cursor => .next_bind 'L' ?_
      refine .name_bind htree.1 (exists_printSuffixes_eq_cons suffixes) ?_
      exact (reads_suffixes hdepth suffixes htree.2 rounds (by simp; omega)).map _
  | .array element =>
      rw [TypeTree.Legal] at htree
      simp only [TypeTree.print, List.length_cons] at hrounds
      rw [TypeTree.nesting, ← map_unlessTooDeep, TypeTree.print]
      obtain ⟨rounds, rfl⟩ : ∃ fewer, rounds = fewer + 1 := ⟨rounds - 1, by omega⟩
      refine .get_bind fun cursor => .next_bind '[' ?_
      exact (reads_type voidAllowed hdepth element htree rounds (by omega)).map _

/-- What stands behind the name of a class type is read up to the semicolon. -/
theorem reads_suffixes {depth : Nat} (hdepth : depth ≤ maxNesting) (suffixes : List ClassSuffix)
    (hsuffixes : LegalSuffixes suffixes) (rounds : Nat)
    (hrounds : 2 * (printSuffixes suffixes ++ [';']).length ≤ rounds + 1) :
    Reads (suffixesWith depth (rounds + 1)) (printSuffixes suffixes ++ [';'])
      (unlessTooDeep depth (nestingSuffixes suffixes) suffixes) := by
  rw [suffixesWith]
  match suffixes with
  | [] =>
      rw [nestingSuffixes, unlessTooDeep_zero hdepth, printSuffixes]
      exact .get_bind fun cursor => .next_bind ';' (.pure _)
  | .inner name :: rest =>
      rw [LegalSuffixes] at hsuffixes
      simp only [printSuffixes, List.length_cons, List.length_append] at hrounds
      rw [nestingSuffixes, ← map_unlessTooDeep, printSuffixes, List.cons_append, List.append_assoc]
      obtain ⟨rounds, rfl⟩ : ∃ fewer, rounds = fewer + 1 := ⟨rounds - 1, by omega⟩
      refine .get_bind fun cursor => .next_bind '.' ?_
      refine .name_bind hsuffixes.1 (exists_printSuffixes_eq_cons rest) ?_
      exact (reads_suffixes hdepth rest hsuffixes.2 rounds (by simp; omega)).map _
  | .arguments args :: rest =>
      rw [LegalSuffixes] at hsuffixes
      simp only [printSuffixes, List.length_cons, List.length_append] at hrounds
      rw [nestingSuffixes, printSuffixes, List.cons_append]
      obtain ⟨rounds, rfl⟩ : ∃ fewer, rounds = fewer + 1 := ⟨rounds - 1, by omega⟩
      refine .get_bind fun cursor => .next_bind '<' ?_
      rw [if_pos rfl]
      by_cases hdeeper : depth + 1 > maxNesting
      · have hnone : unlessTooDeep depth (max (nestingArguments args + 1) (nestingSuffixes rest))
            (ClassSuffix.arguments args :: rest) = none := if_neg (by omega)
        rw [if_pos hdeeper, hnone]
        exact fun position rest => ⟨position, rfl⟩
      · have hargs := reads_arguments (Nat.le_of_not_lt hdeeper) args hsuffixes.1 rounds
            (by simp; omega)
        have hrest := reads_suffixes hdepth rest hsuffixes.2 rounds (by simp; omega)
        rw [unlessTooDeep_succ] at hargs
        have htext : printArguments args ++ '>' :: printSuffixes rest ++ [';'] =
            (printArguments args ++ ['>']) ++ (printSuffixes rest ++ [';']) := by simp
        rw [if_neg hdeeper, htext]
        exact reads_both (fun args rest => .arguments args :: rest) hargs hrest

/-- The arguments of a list are read up to the closing bracket. -/
theorem reads_arguments {depth : Nat} (hdepth : depth ≤ maxNesting) (args : List TypeArgument)
    (hargs : LegalArguments args) (rounds : Nat)
    (hrounds : 2 * (printArguments args ++ ['>']).length ≤ rounds + 1) :
    Reads (argumentsWith depth (rounds + 1)) (printArguments args ++ ['>'])
      (unlessTooDeep depth (nestingArguments args) args) := by
  match args with
  | [] =>
      rw [argumentsWith, nestingArguments, unlessTooDeep_zero hdepth, printArguments]
      exact .peek_bind (.discard_next_bind '>' (.pure _))
  | .any :: rest =>
      rw [LegalArguments] at hargs
      simp only [printArguments, List.length_cons, List.length_append] at hrounds
      rw [argumentsWith, nestingArguments, printArguments, ← map_unlessTooDeep]
      obtain ⟨rounds, rfl⟩ : ∃ fewer, rounds = fewer + 1 := ⟨rounds - 1, by omega⟩
      refine .peek_bind (.discard_next_bind '*' ?_)
      exact (reads_arguments hdepth rest hargs rounds (by simp; omega)).map _
  | .upper bound :: rest =>
      rw [LegalArguments] at hargs
      simp only [printArguments, List.length_cons, List.length_append] at hrounds
      rw [argumentsWith, nestingArguments, printArguments, List.cons_append, List.append_assoc]
      obtain ⟨rounds, rfl⟩ : ∃ fewer, rounds = fewer + 1 := ⟨rounds - 1, by omega⟩
      refine .peek_bind (.discard_next_bind '+' ?_)
      exact reads_both (fun bound rest => .upper bound :: rest)
        (reads_type false hdepth bound hargs.1 rounds (by omega))
        (reads_arguments hdepth rest hargs.2 rounds (by simp; omega))
  | .lower bound :: rest =>
      rw [LegalArguments] at hargs
      simp only [printArguments, List.length_cons, List.length_append] at hrounds
      rw [argumentsWith, nestingArguments, printArguments, List.cons_append, List.append_assoc]
      obtain ⟨rounds, rfl⟩ : ∃ fewer, rounds = fewer + 1 := ⟨rounds - 1, by omega⟩
      refine .peek_bind (.discard_next_bind '-' ?_)
      exact reads_both (fun bound rest => .lower bound :: rest)
        (reads_type false hdepth bound hargs.1 rounds (by omega))
        (reads_arguments hdepth rest hargs.2 rounds (by simp; omega))
  | .only type :: rest =>
      rw [LegalArguments] at hargs
      simp only [printArguments, List.length_append] at hrounds
      obtain ⟨c, text, htext, hc⟩ := type.exists_print_eq_cons
      have hlength : 1 ≤ type.print.length := by rw [htext]; exact Nat.le_add_left _ _
      obtain ⟨rounds, rfl⟩ : ∃ fewer, rounds = fewer + 1 := ⟨rounds - 1, by simp at hrounds; omega⟩
      have hboth := reads_both (fun type rest => TypeArgument.only type :: rest)
        (reads_type false hdepth type hargs.1 rounds (by simp at hrounds; omega))
        (reads_arguments hdepth rest hargs.2 rounds (by simp at hrounds ⊢; omega))
      rw [nestingArguments, printArguments, List.append_assoc, htext]
      rw [htext] at hboth
      exact reads_argumentsWith_only hc hboth

end

end Parser

/-! ## Everything that is read is legal -/

/-- The text spells the type, and the type may stand where so many argument lists are open. -/
def Spells (voidAllowed : Bool) (depth : Nat) (tree : TypeTree) (text : List Char) : Prop :=
  text = tree.print ∧ tree.Legal voidAllowed ∧ depth + tree.nesting ≤ maxNesting

/-- The text spells what stands behind the name of a class type. -/
def SpellsSuffixes (depth : Nat) (suffixes : List ClassSuffix) (text : List Char) : Prop :=
  text = printSuffixes suffixes ++ [';'] ∧ LegalSuffixes suffixes ∧
  depth + nestingSuffixes suffixes ≤ maxNesting

/-- The text spells the arguments of an open list and closes it. -/
def SpellsArguments (depth : Nat) (args : List TypeArgument) (text : List Char) : Prop :=
  text = printArguments args ++ ['>'] ∧ LegalArguments args ∧
  depth + nestingArguments args ≤ maxNesting

/-- An argument with a type in it is spelled by its mark, if it has one, and the text of the
type. -/
lemma SpellsArguments.cons {depth : Nat} {mark text text' : List Char} {arg : TypeArgument}
    {type : TypeTree} {rest : List TypeArgument}
    (hprint : printArguments (arg :: rest) = mark ++ (type.print ++ printArguments rest))
    (hlegal : LegalArguments (arg :: rest) = (type.Legal false ∧ LegalArguments rest))
    (hnesting : nestingArguments (arg :: rest) = max type.nesting (nestingArguments rest))
    (htype : Spells false depth type text) (hrest : SpellsArguments depth rest text') :
    SpellsArguments depth (arg :: rest) (mark ++ (text ++ text')) := by
  obtain ⟨htext, htypeLegal, htypeNesting⟩ := htype
  obtain ⟨htext', hrestLegal, hrestNesting⟩ := hrest
  subst htext htext'
  refine ⟨?_, ?_, ?_⟩
  · rw [hprint, List.append_assoc, List.append_assoc]
  · rw [hlegal]
    exact ⟨htypeLegal, hrestLegal⟩
  · rw [hnesting]
    omega

namespace Parser

lemma yields_typeWith_succ {rounds : Nat}
    (htype : ∀ voidAllowed depth, depth ≤ maxNesting →
      Yields (typeWith voidAllowed depth rounds) (Spells voidAllowed depth))
    (hsuffixes : ∀ depth, depth ≤ maxNesting →
      Yields (suffixesWith depth rounds) (SpellsSuffixes depth))
    (voidAllowed : Bool) {depth : Nat} (hdepth : depth ≤ maxNesting) :
    Yields (typeWith voidAllowed depth (rounds + 1)) (Spells voidAllowed depth) := by
  rw [typeWith]
  refine .get_bind fun cursor => Yields.next.bind fun c text htext => ?_
  subst htext
  split_ifs with harray hnamed hvar hvoid
  · refine (htype voidAllowed depth hdepth).bind fun element text helement => .pure ?_
    obtain ⟨htext, hlegal, hnesting⟩ := helement
    subst harray htext
    exact ⟨by simp [TypeTree.print], by rwa [TypeTree.Legal], by rwa [TypeTree.nesting]⟩
  · refine (Yields.name _).bind fun outer text houter => ?_
    refine (hsuffixes depth hdepth).bind fun suffixes text' hrest => .pure ?_
    obtain ⟨htext, hlegal, hnesting⟩ := hrest
    obtain ⟨htaken, hsegment⟩ := houter
    subst hnamed htext htaken
    exact ⟨by simp [TypeTree.print], by rw [TypeTree.Legal]; exact ⟨hsegment, hlegal⟩, by
      rwa [TypeTree.nesting]⟩
  · refine (Yields.name _).bind fun name text hname =>
      (Yields.expect ';').bind fun _ text' hend => .pure ?_
    obtain ⟨htaken, hlegal⟩ := hname
    subst hvar htaken hend
    exact ⟨by simp [TypeTree.print], by rwa [TypeTree.Legal], by rwa [TypeTree.nesting]⟩
  · refine .pure ⟨by simp [TypeTree.print, hvoid.1], ?_, by rwa [TypeTree.nesting]⟩
    rw [TypeTree.Legal]
    exact hvoid.2
  · cases hbase : BaseType.ofLetter? c with
    | none => exact .refuse
    | some b =>
        refine .pure ⟨?_, by rw [TypeTree.Legal]; trivial, by rwa [TypeTree.nesting]⟩
        rw [BaseType.letter_of_ofLetter? hbase, TypeTree.print]
        rfl

lemma yields_suffixesWith_succ {rounds : Nat}
    (hsuffixes : ∀ depth, depth ≤ maxNesting →
      Yields (suffixesWith depth rounds) (SpellsSuffixes depth))
    (harguments : ∀ depth, depth ≤ maxNesting →
      Yields (argumentsWith depth rounds) (SpellsArguments depth))
    {depth : Nat} (hdepth : depth ≤ maxNesting) :
    Yields (suffixesWith depth (rounds + 1)) (SpellsSuffixes depth) := by
  rw [suffixesWith]
  refine .get_bind fun cursor => Yields.next.bind fun c text htext => ?_
  subst htext
  split_ifs with hopen hdeeper hinner hend
  · exact .get_bind fun _ => .throw_bind
  · refine (harguments (depth + 1) (Nat.le_of_not_lt hdeeper)).bind fun args text hargs => ?_
    refine (hsuffixes depth hdepth).bind fun rest text' hrest => .pure ?_
    obtain ⟨htext, hlegal, hnesting⟩ := hargs
    obtain ⟨htext', hlegal', hnesting'⟩ := hrest
    subst hopen htext htext'
    exact ⟨by simp [printSuffixes], by rw [LegalSuffixes]; exact ⟨hlegal, hlegal'⟩, by
      rw [nestingSuffixes]; omega⟩
  · refine (Yields.name _).bind fun inner text hname => ?_
    refine (hsuffixes depth hdepth).bind fun rest text' hrest => .pure ?_
    obtain ⟨htaken, hsegment⟩ := hname
    obtain ⟨htext, hlegal, hnesting⟩ := hrest
    subst hinner htaken htext
    exact ⟨by simp [printSuffixes], by rw [LegalSuffixes]; exact ⟨hsegment, hlegal⟩, by
      rwa [nestingSuffixes]⟩
  · subst hend
    exact .pure ⟨by simp [printSuffixes], by rw [LegalSuffixes]; trivial, by rwa [nestingSuffixes]⟩
  · exact .refuse

lemma yields_argumentsWith_succ {rounds : Nat}
    (htype : ∀ voidAllowed depth, depth ≤ maxNesting →
      Yields (typeWith voidAllowed depth rounds) (Spells voidAllowed depth))
    (harguments : ∀ depth, depth ≤ maxNesting →
      Yields (argumentsWith depth rounds) (SpellsArguments depth))
    {depth : Nat} (hdepth : depth ≤ maxNesting) :
    Yields (argumentsWith depth (rounds + 1)) (SpellsArguments depth) := by
  rw [argumentsWith]
  refine .peek_bind fun first => ?_
  split
  · exact .throw
  · refine Yields.discard_next.bind fun _ _ hdropped => .pure fun hfirst => ?_
    obtain ⟨c, rfl⟩ := hdropped
    cases hfirst c [] rfl
    exact ⟨by simp [printArguments], by rw [LegalArguments]; trivial, by rwa [nestingArguments]⟩
  · refine Yields.discard_next.bind fun _ _ hdropped => ?_
    refine (harguments depth hdepth).bind fun rest text' hrest => .pure fun hfirst => ?_
    obtain ⟨c, rfl⟩ := hdropped
    obtain ⟨rfl, hlegal, hnesting⟩ := hrest
    cases hfirst c _ rfl
    exact ⟨by simp [printArguments], by rwa [LegalArguments], by rwa [nestingArguments]⟩
  · refine Yields.discard_next.bind fun _ _ hdropped => ?_
    refine (htype false depth hdepth).bind fun bound text' hbound => ?_
    refine (harguments depth hdepth).bind fun rest text'' hrest => .pure fun hfirst => ?_
    obtain ⟨c, rfl⟩ := hdropped
    cases hfirst c _ rfl
    rw [List.append_nil]
    exact .cons (by simp [printArguments]) (by rw [LegalArguments])
      (by rw [nestingArguments]) hbound hrest
  · refine Yields.discard_next.bind fun _ _ hdropped => ?_
    refine (htype false depth hdepth).bind fun bound text' hbound => ?_
    refine (harguments depth hdepth).bind fun rest text'' hrest => .pure fun hfirst => ?_
    obtain ⟨c, rfl⟩ := hdropped
    cases hfirst c _ rfl
    rw [List.append_nil]
    exact .cons (by simp [printArguments]) (by rw [LegalArguments])
      (by rw [nestingArguments]) hbound hrest
  · refine (htype false depth hdepth).bind fun type text htype => ?_
    refine (harguments depth hdepth).bind fun rest text' hrest => .pure fun _ => ?_
    rw [List.append_nil]
    change SpellsArguments depth _ ([] ++ (text ++ text'))
    exact .cons (by simp [printArguments]) (by rw [LegalArguments])
      (by rw [nestingArguments]) htype hrest

/-- The induction is on the rounds, and over the three readers at once: each hands fewer rounds to
the others. -/
lemma yields_of_rounds (rounds : Nat) :
    (∀ voidAllowed depth, depth ≤ maxNesting →
      Yields (typeWith voidAllowed depth rounds) (Spells voidAllowed depth)) ∧
    (∀ depth, depth ≤ maxNesting → Yields (suffixesWith depth rounds) (SpellsSuffixes depth)) ∧
    ∀ depth, depth ≤ maxNesting → Yields (argumentsWith depth rounds) (SpellsArguments depth) := by
  induction rounds with
  | zero =>
      refine ⟨fun voidAllowed depth _ => ?_, fun depth _ => ?_, fun depth _ => ?_⟩
      · rw [typeWith]
        exact .throw
      · rw [suffixesWith]
        exact .throw
      · rw [argumentsWith]
        exact .throw
  | succ rounds ih =>
      obtain ⟨htype, hsuffixes, harguments⟩ := ih
      exact ⟨fun voidAllowed _ hdepth => yields_typeWith_succ htype hsuffixes voidAllowed hdepth,
        fun _ hdepth => yields_suffixesWith_succ hsuffixes harguments hdepth,
        fun _ hdepth => yields_argumentsWith_succ htype harguments hdepth⟩

/-- What is read as a type spells the type. -/
lemma yields_typeTree (voidAllowed : Bool) : Yields (typeTree voidAllowed) (Spells voidAllowed 0) :=
  .get_bind fun _ => (yields_of_rounds _).1 voidAllowed 0 (Nat.zero_le _)

/-- The text of a legal tree is read as the tree, unless it is nested too deep. -/
lemma reads_typeTree (voidAllowed : Bool) {tree : TypeTree} (htree : tree.Legal voidAllowed) :
    Reads (typeTree voidAllowed) tree.print (unlessTooDeep 0 tree.nesting tree) := by
  intro position rest
  -- The rounds are set for the whole rest of the text, of which the tree is only the beginning.
  have hreads :=
    reads_type voidAllowed (Nat.zero_le _) tree htree (2 * (tree.print ++ rest).length + 1)
    (by rw [List.length_append]; omega)
  exact hreads position rest

end Parser

/-! ## Exactly the legal texts are read -/

lemma parseType_eq_ok_iff {signature : String} {tree : TypeTree} :
    parseType signature = .ok tree ↔ Spells false 0 tree signature.toList := by
  constructor
  · exact (Parser.yields_typeTree false).runOn
  · rintro ⟨htext, hlegal, hnesting⟩
    have hreads := Parser.reads_typeTree false hlegal
    rw [unlessTooDeep, if_pos hnesting, ← htext] at hreads
    exact hreads.runOn

/-- Behind a name there is the tree that was read. -/
lemma exists_spells_of_decodeType {signature name : String} (h : decodeType signature = .ok name) :
    ∃ tree : TypeTree, Spells false 0 tree signature.toList ∧ canonical tree = name := by
  rw [decodeType_eq_map] at h
  cases htree : parseType signature with
  | error error => rw [htree] at h; cases h
  | ok tree =>
      rw [htree] at h
      cases h
      exact ⟨tree, parseType_eq_ok_iff.mp htree, rfl⟩

/-- **A type signature is accepted exactly when it is the text of a tree**, and the name that is put
together for it is the rendering of that tree.  The text of a tree whose argument lists are nested
too deep is refused for that and nothing else. -/
theorem decodeType_eq_ok_iff_exists_tree (signature name : String) :
    (decodeType signature = .ok name ↔
      ∃ tree : TypeTree, tree.Legal false ∧ String.ofList tree.print = signature ∧
        tree.nesting ≤ 256 ∧ String.ofList tree.render = name) ∧
    ∀ tree : TypeTree, tree.Legal false → String.ofList tree.print = signature →
      256 < tree.nesting →
      ∃ position, decodeType signature = .error (.tooDeep 256 position) := by
  refine ⟨⟨fun hdecode => ?_, ?_⟩, ?_⟩
  · obtain ⟨tree, ⟨htext, hlegal, hnesting⟩, hname⟩ := exists_spells_of_decodeType hdecode
    refine ⟨tree, hlegal, ?_, by rwa [Nat.zero_add] at hnesting, hname⟩
    rw [← htext, String.ofList_toList]
  · rintro ⟨tree, hlegal, rfl, hnesting, rfl⟩
    have hspells : Spells false 0 tree (String.ofList tree.print).toList :=
      ⟨String.toList_ofList, hlegal, by rwa [Nat.zero_add]⟩
    rw [decodeType_eq_map, parseType_eq_ok_iff.mpr hspells]
    rfl
  · rintro tree hlegal rfl hnesting
    have hreads := Parser.reads_typeTree false hlegal
    have htooDeep : unlessTooDeep 0 tree.nesting tree = none := if_neg (by rw [maxNesting]; omega)
    rw [htooDeep, ← String.toList_ofList (l := tree.print)] at hreads
    obtain ⟨position, hrun⟩ := hreads.runOn_tooDeep
    refine ⟨position, ?_⟩
    rw [decodeType_eq_map, parseType, hrun]
    rfl

/-- The type `A<A<…<int>…>>` with the given number of argument lists. -/
def nestedType : Nat → TypeTree
  | 0 => .base .int
  | lists + 1 => .named ['A'] [.arguments [.only (nestedType lists)]]

lemma nestedType_legal (lists : Nat) : (nestedType lists).Legal false := by
  induction lists with
  | zero => simp [nestedType, TypeTree.Legal]
  | succ lists ih => simp [nestedType, TypeTree.Legal, LegalSuffixes, LegalArguments, IsSegment, ih]

lemma nesting_nestedType (lists : Nat) : (nestedType lists).nesting = lists := by
  induction lists with
  | zero => simp [nestedType, TypeTree.nesting]
  | succ lists ih => simp [nestedType, TypeTree.nesting, nestingSuffixes, nestingArguments, ih]

/-- An array of inner classes with arguments on both levels has a name, and one argument list too
many is refused. -/
theorem decodeType_mapEntry_and_nestedType :
    decodeType "[Ljava/util/Map<TK;+[I>.Entry<*-[LA;>;" =
      .ok "java.util.Map$Entry<<K>,<?+int[]>,<?>,<?-A[]>>[]" ∧
    (nestedType 257).Legal false ∧ 256 < (nestedType 257).nesting ∧
    ∃ position, decodeType (String.ofList (nestedType 257).print) =
      .error (.tooDeep 256 position) := by
  refine ⟨?_, nestedType_legal 257, by rw [nesting_nestedType]; decide, ?_⟩
  · refine (decodeType_eq_ok_iff_exists_tree _ _).1.mpr ⟨.array (.named "java/util/Map".toList
      [.arguments [.only (.var ['K']), .upper (.array (.base .int))], .inner "Entry".toList,
        .arguments [.any, .lower (.array (.named ['A'] []))]]), ?_⟩
    refine ⟨?_, by decide, by decide, by decide⟩
    simp [TypeTree.Legal, LegalSuffixes, LegalArguments, IsSegment]
  · exact (decodeType_eq_ok_iff_exists_tree _ "").2 (nestedType 257) (nestedType_legal 257) rfl
      (by rw [nesting_nestedType]; decide)

end JarFacts.Signature
