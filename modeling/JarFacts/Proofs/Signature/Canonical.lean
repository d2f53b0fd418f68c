import Mathlib.Data.List.Basic
import JarFacts.Proofs.Signature.Declaration
import JarFacts.Proofs.Signature.Erasure

/-!
# What a canonical name leaves of a type

The canonical name of a class type joins the names of inner classes to the outer one and gathers the
arguments of all of them.  A `FlatType` is a type to which this has been done, and nothing else.
Rendering goes through it (`render_flatten`), and from there on nothing gets lost: a flat type can
be read off its canonical name (`FlatType.cancel`), and a list of them off the text of a parameter
list (`flatten_eq_of_parameterList_eq`).

The names use one set of separators at every depth.  What makes them readable is that each piece
ends before a separator that it cannot hold itself: a name before any of them, a type before a comma
or a closing bracket.  Only the brackets of arrays stand behind a type that could have ended there,
and so a type is taken apart into its `core` and its `dimensions`.
-/

namespace JarFacts.Signature

/-! ## Types without the structure of inner classes -/

mutual

/-- A type in which a class type is its full name and one list of arguments. -/
inductive FlatType where
  | base (type : BaseType)
  | void
  | var (name : List Char)
  | named (name : List Char) (args : List FlatArgument)
  | array (element : FlatType)

/-- An argument of a flat type. -/
inductive FlatArgument where
  | any
  | upper (bound : FlatType)
  | lower (bound : FlatType)
  | only (type : FlatType)

end

mutual

/-- The type with inner names joined to the outer one, and all arguments in one list. -/
def TypeTree.flatten : TypeTree → FlatType
  | .base b => .base b
  | .void => .void
  | .var name => .var name
  | .named name suffixes => .named (fullName name suffixes) (flattenSuffixes suffixes)
  | .array element => .array element.flatten

/-- All arguments of a class type, in order of appearance. -/
def flattenSuffixes : List ClassSuffix → List FlatArgument
  | [] => []
  | .arguments args :: rest => flattenArguments args ++ flattenSuffixes rest
  | .inner _ :: rest => flattenSuffixes rest

/-- The arguments of one list. -/
def flattenArguments : List TypeArgument → List FlatArgument
  | [] => []
  | .any :: rest => .any :: flattenArguments rest
  | .upper bound :: rest => .upper bound.flatten :: flattenArguments rest
  | .lower bound :: rest => .lower bound.flatten :: flattenArguments rest
  | .only type :: rest => .only type.flatten :: flattenArguments rest

end

mutual

/-- The canonical name of a flat type. -/
def FlatType.render : FlatType → List Char
  | .base b => b.keyword
  | .void => "void".toList
  | .var name => '<' :: (name ++ ['>'])
  | .named name args => name ++ bracketed (renderFlat args)
  | .array element => element.render ++ ['[', ']']

/-- The canonical name of an argument. -/
def FlatArgument.render : FlatArgument → List Char
  | .any => "<?>".toList
  | .upper bound => "<?+".toList ++ (bound.render ++ ['>'])
  | .lower bound => "<?-".toList ++ (bound.render ++ ['>'])
  | .only type => type.render

/-- The canonical names of a list of arguments. -/
def renderFlat : List FlatArgument → List (List Char)
  | [] => []
  | arg :: rest => arg.render :: renderFlat rest

end

lemma renderFlat_append (first second : List FlatArgument) :
    renderFlat (first ++ second) = renderFlat first ++ renderFlat second := by
  induction first with
  | nil => rfl
  | cons arg rest ih => rw [List.cons_append, renderFlat, renderFlat, ih, List.cons_append]

mutual

/-- A type is rendered as what is left of it once it is flat. -/
theorem render_flatten (tree : TypeTree) : tree.flatten.render = tree.render := by
  match tree with
  | .base b => rw [TypeTree.flatten, FlatType.render, TypeTree.render]
  | .void => rw [TypeTree.flatten, FlatType.render, TypeTree.render]
  | .var name => rw [TypeTree.flatten, FlatType.render, TypeTree.render]
  | .named name suffixes =>
      rw [TypeTree.flatten, FlatType.render, TypeTree.render, renderFlat_flattenSuffixes suffixes]
  | .array element =>
      rw [TypeTree.flatten, FlatType.render, TypeTree.render, render_flatten element]

theorem renderFlat_flattenSuffixes (suffixes : List ClassSuffix) :
    renderFlat (flattenSuffixes suffixes) = renderSuffixes suffixes := by
  match suffixes with
  | [] => rw [flattenSuffixes, renderFlat, renderSuffixes]
  | .arguments args :: rest =>
      rw [flattenSuffixes, renderSuffixes, renderFlat_append, renderFlat_flattenArguments args,
        renderFlat_flattenSuffixes rest]
  | .inner name :: rest => rw [flattenSuffixes, renderSuffixes, renderFlat_flattenSuffixes rest]

theorem renderFlat_flattenArguments (args : List TypeArgument) :
    renderFlat (flattenArguments args) = renderArguments args := by
  match args with
  | [] => rw [flattenArguments, renderFlat, renderArguments]
  | .any :: rest =>
      rw [flattenArguments, renderFlat, renderArguments, FlatArgument.render,
        renderFlat_flattenArguments rest]
  | .upper bound :: rest =>
      rw [flattenArguments, renderFlat, renderArguments, FlatArgument.render, render_flatten bound,
        renderFlat_flattenArguments rest]
  | .lower bound :: rest =>
      rw [flattenArguments, renderFlat, renderArguments, FlatArgument.render, render_flatten bound,
        renderFlat_flattenArguments rest]
  | .only type :: rest =>
      rw [flattenArguments, renderFlat, renderArguments, FlatArgument.render, render_flatten type,
        renderFlat_flattenArguments rest]

end

/-! ## Names that can be told from what stands around them -/

/-- The characters that separate the parts of a canonical name. -/
def separators : List Char :=
  ['<', '>', ',', '[', '?']

/-- A name in a canonical name. -/
def IsWord (name : List Char) : Prop :=
  name ≠ [] ∧ ∀ c ∈ name, c ∉ separators

-- Characters can be enumerated, so the instance for lists is named: it looks at those of the name
-- only.
instance (name : List Char) : Decidable (IsWord name) :=
  have := List.decidableBAll (· ∉ separators) name
  inferInstanceAs (Decidable (_ ∧ _))

mutual

/-- The type has names that can be told from separators and class names that can be told from
primitive types, and it is not `void`. -/
def FlatType.Readable : FlatType → Prop
  | .base _ => True
  | .void => False
  | .var name => IsWord name
  | .named name args => IsWord name ∧ (∀ b : BaseType, name ≠ b.keyword) ∧ ReadableArguments args
  | .array element => element.Readable

/-- The arguments have such names. -/
def ReadableArguments : List FlatArgument → Prop
  | [] => True
  | arg :: rest => arg.Readable ∧ ReadableArguments rest

/-- The argument has such names. -/
def FlatArgument.Readable : FlatArgument → Prop
  | .any => True
  | .upper bound => bound.Readable
  | .lower bound => bound.Readable
  | .only type => type.Readable

end

/-- The text is at its end, or goes on with one of these characters. -/
def Ends (stops text : List Char) : Prop :=
  ∀ c ∈ text.head?, c ∈ stops

lemma Ends.mono {stops stops' text : List Char} (h : Ends stops text) (hstops : stops ⊆ stops') :
    Ends stops' text :=
  fun c hc => hstops (h c hc)

lemma ends_close {stops : List Char} (hstops : '>' ∈ stops) (text : List Char) :
    Ends stops ('>' :: text) := by
  intro c hc
  cases hc
  exact hstops

/-- What holds no stop, in front of what begins with one, can be told from it. -/
lemma append_cancel_of_ends {stops name name' rest rest' : List Char}
    (hname : ∀ c ∈ name, c ∉ stops)
    (hname' : ∀ c ∈ name', c ∉ stops) (hrest : Ends stops rest) (hrest' : Ends stops rest')
    (h : name ++ rest = name' ++ rest') : name = name' ∧ rest = rest' := by
  induction name generalizing name' with
  | nil =>
      cases name' with
      | nil => exact ⟨rfl, h⟩
      | cons c name' =>
          have hstop : c ∈ stops := hrest c (by rw [← List.nil_append rest, h]; rfl)
          exact absurd hstop (hname' c List.mem_cons_self)
  | cons c name ih =>
      cases name' with
      | nil =>
          have hstop : c ∈ stops := hrest' c (by rw [← List.nil_append rest', ← h]; rfl)
          exact absurd hstop (hname c List.mem_cons_self)
      | cons c' name' =>
          obtain ⟨rfl, htail⟩ := List.cons.inj h
          have hboth := ih (fun d hd => hname d (List.mem_cons_of_mem _ hd))
            (fun d hd => hname' d (List.mem_cons_of_mem _ hd)) htail
          exact ⟨by rw [hboth.1], hboth.2⟩

lemma isWord_keyword (b : BaseType) : IsWord b.keyword := by
  cases b <;> decide

lemma keyword_injective {b b' : BaseType} (h : b.keyword = b'.keyword) : b = b' := by
  revert h
  cases b <;> cases b' <;> decide

/-! ## Cores and dimensions -/

namespace FlatType

/-- The type of which a type is an array, however many dimensions it has. -/
def core : FlatType → FlatType
  | .array element => element.core
  | type => type

/-- The number of dimensions of an array, none for any other type. -/
def dimensions : FlatType → Nat
  | .array element => element.dimensions + 1
  | _ => 0

end FlatType

/-- The brackets of so many dimensions. -/
def brackets : Nat → List Char
  | 0 => []
  | dimensions + 1 => '[' :: ']' :: brackets dimensions

lemma brackets_append (dimensions : Nat) :
    brackets dimensions ++ ['[', ']'] = brackets (dimensions + 1) := by
  induction dimensions with
  | zero => rfl
  | succ dimensions ih => rw [brackets, List.cons_append, List.cons_append, ih, ← brackets]

/-- Brackets can be told from what begins with something else. -/
lemma brackets_cancel {dimensions dimensions' : Nat} {rest rest' : List Char}
    (hrest : Ends [',', '>'] rest) (hrest' : Ends [',', '>'] rest')
    (h : brackets dimensions ++ rest = brackets dimensions' ++ rest') :
    dimensions = dimensions' ∧ rest = rest' := by
  induction dimensions generalizing dimensions' with
  | zero =>
      cases dimensions' with
      | zero => exact ⟨rfl, h⟩
      | succ fewer =>
          have hstop : '[' ∈ [',', '>'] := hrest '[' (by rw [← List.nil_append rest]; exact h ▸ rfl)
          exact absurd hstop (by decide)
  | succ dimensions ih =>
      cases dimensions' with
      | zero =>
          have hstop : '[' ∈ [',', '>'] :=
            hrest' '[' (by rw [← List.nil_append rest']; exact h ▸ rfl)
          exact absurd hstop (by decide)
      | succ fewer =>
          have htail : brackets dimensions ++ rest = brackets fewer ++ rest' :=
            List.tail_eq_of_cons_eq (List.tail_eq_of_cons_eq h)
          obtain ⟨rfl, heq⟩ := ih htail
          exact ⟨rfl, heq⟩

namespace FlatType

lemma render_eq_core (type : FlatType) :
    type.render = type.core.render ++ brackets type.dimensions := by
  match type with
  | .base _ | .void | .var _ | .named _ _ => simp [core, dimensions, brackets]
  | .array element =>
      rw [render, core, dimensions, render_eq_core element, List.append_assoc, brackets_append]

lemma core_ne_array (type element : FlatType) : type.core ≠ .array element := by
  match type with
  | .base _ | .void | .var _ | .named _ _ => simp [core]
  | .array inner =>
      rw [core]
      exact core_ne_array inner element

lemma Readable.core {type : FlatType} (h : type.Readable) : type.core.Readable := by
  match type with
  | .base _ | .void | .var _ | .named _ _ => simpa only [FlatType.core] using h
  | .array element =>
      rw [FlatType.core]
      rw [Readable] at h
      exact Readable.core h

/-- A type is the array of its core with its dimensions. -/
lemma iterate_array_core (type : FlatType) : array^[type.dimensions] type.core = type := by
  match type with
  | .base _ | .void | .var _ | .named _ _ => rfl
  | .array element =>
      rw [dimensions, core, Function.iterate_succ_apply', iterate_array_core element]

/-- Where the core and what follows it are the same, the types are the same and what follows them
is. -/
lemma eq_of_core_eq {type type' : FlatType} {rest rest' : List Char} (hrest : Ends [',', '>'] rest)
    (hrest' : Ends [',', '>'] rest') (hcore : type.core = type'.core)
    (hbehind : brackets type.dimensions ++ rest = brackets type'.dimensions ++ rest') :
    type = type' ∧ rest = rest' := by
  obtain ⟨hdimensions, heq⟩ := brackets_cancel hrest hrest' hbehind
  refine ⟨?_, heq⟩
  rw [← iterate_array_core type, ← iterate_array_core type', hcore, hdimensions]

/-! ## Reading a type off its canonical name -/

/-- What stands behind the name of a class. -/
lemma ends_bracketed (args : List FlatArgument) {rest : List Char}
    (hrest : Ends [',', '>', '['] rest) :
    Ends separators (bracketed (renderFlat args) ++ rest) := by
  cases args with
  | nil => exact hrest.mono (by decide)
  | cons arg args => exact fun c hc => by cases hc; decide

/-- A name does not begin with a separator. -/
lemma word_append_ne {c : Char} (hc : c ∈ separators) {name rest text : List Char}
    (h : IsWord name) :
    name ++ rest ≠ c :: text := by
  obtain ⟨d, name, rfl⟩ := List.exists_cons_of_ne_nil h.1
  intro heq
  obtain ⟨rfl, -⟩ := List.cons.inj heq
  exact h.2 d List.mem_cons_self hc

/-- A type variable in a list of arguments cannot be taken for a wildcard. -/
lemma render_append_ne_wildcard (type : FlatType) (h : type.Readable) (rest text : List Char) :
    type.render ++ rest ≠ '<' :: '?' :: text := by
  match type with
  | .base b => exact word_append_ne (by decide) (isWord_keyword b)
  | .void => rw [Readable] at h; exact h.elim
  | .var name =>
      rw [Readable] at h
      obtain ⟨c, name, rfl⟩ := List.exists_cons_of_ne_nil h.1
      intro heq
      rw [render] at heq
      obtain ⟨rfl, -⟩ := List.cons.inj (List.tail_eq_of_cons_eq heq)
      exact h.2 '?' List.mem_cons_self (by decide)
  | .named name args =>
      rw [Readable] at h
      rw [render, List.append_assoc]
      exact word_append_ne (by decide) h.1
  | .array element =>
      rw [Readable] at h
      rw [render, List.append_assoc]
      exact render_append_ne_wildcard element h _ text

end FlatType

/-- A list of arguments with what follows it: the first argument, and behind it a comma and the
others or the bracket that closes the list. -/
lemma commaSeparated_cons_append (arg : FlatArgument) (args : List FlatArgument)
    (rest : List Char) :
    Text.commaSeparated (renderFlat (arg :: args)) ++ '>' :: rest =
      arg.render ++ (if args.isEmpty then '>' :: rest
        else ',' :: (Text.commaSeparated (renderFlat args) ++ '>' :: rest)) := by
  cases args with
  | nil => simp [renderFlat, Text.commaSeparated]
  | cons next args => simp [renderFlat, Text.commaSeparated]

/-- No type begins with the bracket that closes a list. -/
lemma FlatType.render_append_ne_close (type : FlatType) (h : type.Readable)
    (rest text : List Char) :
    type.render ++ rest ≠ '>' :: text := by
  match type with
  | .base b => exact word_append_ne (by decide) (isWord_keyword b)
  | .void => rw [Readable] at h; exact h.elim
  | .var name =>
      rw [render]
      exact fun heq => by cases heq
  | .named name args =>
      rw [Readable] at h
      rw [render, List.append_assoc]
      exact word_append_ne (by decide) h.1
  | .array element =>
      rw [Readable] at h
      rw [render, List.append_assoc]
      exact render_append_ne_close element h _ text

lemma FlatArgument.render_append_ne_close (arg : FlatArgument) (h : arg.Readable)
    (rest text : List Char) :
    arg.render ++ rest ≠ '>' :: text := by
  cases arg with
  | only type =>
      rw [Readable] at h
      rw [render]
      exact type.render_append_ne_close h rest text
  | _ =>
      rw [render]
      exact fun heq => by cases heq

namespace FlatType

/-- The arguments of a list can be read off it, whatever follows. -/
def Cancels (args : List FlatArgument) : Prop :=
  ∀ args' rest rest', ReadableArguments args' →
    Text.commaSeparated (renderFlat args) ++ '>' :: rest =
      Text.commaSeparated (renderFlat args') ++ '>' :: rest' →
    args = args' ∧ rest = rest'

variable {type' : FlatType} {rest rest' : List Char}

lemma cancel_base (b : BaseType) (h' : type'.Readable) (harray : ∀ element, type' ≠ .array element)
    (hrest : Ends [',', '>', '['] rest) (hrest' : Ends [',', '>', '['] rest')
    (heq : (base b).render ++ rest = type'.render ++ rest') : .base b = type' ∧ rest = rest' := by
  rw [render] at heq
  cases type' with
  | base b' =>
      rw [render] at heq
      obtain ⟨hkeyword, hbehind⟩ := append_cancel_of_ends (isWord_keyword b).2 (isWord_keyword b').2
        (hrest.mono (by decide)) (hrest'.mono (by decide)) heq
      exact ⟨by rw [keyword_injective hkeyword], hbehind⟩
  | void => rw [Readable] at h'; exact h'.elim
  | var name =>
      exact absurd heq (by rw [render]; exact word_append_ne (by decide) (isWord_keyword b))
  | named name args =>
      rw [Readable] at h'
      rw [render, List.append_assoc] at heq
      obtain ⟨hkeyword, -⟩ :=
        append_cancel_of_ends (isWord_keyword b).2 h'.1.2 (hrest.mono (by decide))
        (ends_bracketed args hrest') heq
      exact absurd hkeyword.symm (h'.2.1 b)
  | array element => exact absurd rfl (harray element)

lemma cancel_var {name : List Char} (h : IsWord name) (h' : type'.Readable)
    (harray : ∀ element, type' ≠ .array element)
    (heq : (var name).render ++ rest = type'.render ++ rest') :
    .var name = type' ∧ rest = rest' := by
  rw [render] at heq
  cases type' with
  | base b =>
      exact absurd heq.symm (by rw [render]; exact word_append_ne (by decide) (isWord_keyword b))
  | void => rw [Readable] at h'; exact h'.elim
  | var name' =>
      rw [Readable] at h'
      rw [render] at heq
      have hnames : name ++ '>' :: rest = name' ++ '>' :: rest' := by
        simpa using heq
      obtain ⟨rfl, hbehind⟩ :=
        append_cancel_of_ends h.2 h'.2 (ends_close (by decide) rest)
          (ends_close (by decide) rest') hnames
      exact ⟨rfl, List.tail_eq_of_cons_eq hbehind⟩
  | named name' args =>
      rw [Readable] at h'
      rw [render, List.append_assoc] at heq
      exact absurd heq.symm (word_append_ne (by decide) h'.1)
  | array element => exact absurd rfl (harray element)

lemma cancel_named {name : List Char} {args : List FlatArgument} (h : (named name args).Readable)
    (hargs : Cancels args) (h' : type'.Readable) (harray : ∀ element, type' ≠ .array element)
    (hrest : Ends [',', '>', '['] rest) (hrest' : Ends [',', '>', '['] rest')
    (heq : (named name args).render ++ rest = type'.render ++ rest') :
    .named name args = type' ∧ rest = rest' := by
  rw [Readable] at h
  cases type' with
  | base b =>
      have hreadable : (named name args).Readable := by rwa [Readable]
      obtain ⟨hbase, -⟩ := cancel_base b hreadable (fun _ => by simp) hrest' hrest heq.symm
      exact absurd hbase (by simp)
  | void => rw [Readable] at h'; exact h'.elim
  | var name' =>
      rw [render, render, List.append_assoc] at heq
      exact absurd heq (word_append_ne (by decide) h.1)
  | named name' args' =>
      rw [Readable] at h'
      rw [render, render, List.append_assoc, List.append_assoc] at heq
      obtain ⟨rfl, hbehind⟩ := append_cancel_of_ends h.1.2 h'.1.2 (ends_bracketed args hrest)
        (ends_bracketed args' hrest') heq
      have hopen : ∀ {text behind : List Char}, Ends [',', '>', '['] text →
          text ≠ '<' :: behind := by
        rintro text behind htext rfl
        exact absurd (htext '<' rfl) (by decide)
      cases args with
      | nil =>
          cases args' with
          | nil => exact ⟨rfl, hbehind⟩
          | cons arg' others' => exact absurd hbehind (hopen hrest)
      | cons arg others =>
          cases args' with
          | nil => exact absurd hbehind.symm (hopen hrest')
          | cons arg' others' =>
              have hlists : Text.commaSeparated (renderFlat (arg :: others)) ++ '>' :: rest =
                  Text.commaSeparated (renderFlat (arg' :: others')) ++ '>' :: rest' := by
                simpa [bracketed, renderFlat] using hbehind
              obtain ⟨hargs, htail⟩ := hargs _ _ _ h'.2.2 hlists
              exact ⟨by rw [hargs], htail⟩
  | array element => exact absurd rfl (harray element)

end FlatType

mutual

/-- A type can be told from what stands behind it, up to brackets that may belong to either.  The
induction is on the type, over its arguments and theirs. -/
theorem FlatType.cancel_core (type : FlatType) (h : type.Readable) {type' : FlatType}
    (h' : type'.Readable) {rest rest' : List Char} (hrest : Ends [',', '>', '['] rest)
    (hrest' : Ends [',', '>', '['] rest') (heq : type.render ++ rest = type'.render ++ rest') :
    type.core = type'.core ∧
    brackets type.dimensions ++ rest = brackets type'.dimensions ++ rest' := by
  have hbrackets : Ends [',', '>', '['] (brackets type'.dimensions ++ rest') := by
    cases type'.dimensions with
    | zero => exact hrest'
    | succ fewer => exact fun c hc => by cases hc; decide
  match type with
  | .base b =>
      rw [type'.render_eq_core, List.append_assoc] at heq
      exact FlatType.cancel_base b h'.core type'.core_ne_array hrest hbrackets heq
  | .void => rw [FlatType.Readable] at h; exact h.elim
  | .var name =>
      rw [FlatType.Readable] at h
      rw [type'.render_eq_core, List.append_assoc] at heq
      exact FlatType.cancel_var h h'.core type'.core_ne_array heq
  | .named name args =>
      rw [type'.render_eq_core, List.append_assoc] at heq
      have hargs : FlatType.Cancels args :=
        cancel_arguments args (by rw [FlatType.Readable] at h; exact h.2.2)
      exact FlatType.cancel_named h hargs h'.core type'.core_ne_array hrest hbrackets heq
  | .array element =>
      rw [FlatType.Readable] at h
      rw [FlatType.render, List.append_assoc] at heq
      have hopen : Ends [',', '>', '['] (['[', ']'] ++ rest) := fun c hc => by cases hc; decide
      obtain ⟨hcore, hbehind⟩ := FlatType.cancel_core element h h' hopen hrest' heq
      rw [FlatType.core, FlatType.dimensions, ← brackets_append, List.append_assoc]
      exact ⟨hcore, hbehind⟩

/-- An argument can be told from the comma or the bracket behind it. -/
theorem FlatArgument.cancel (arg : FlatArgument) (h : arg.Readable) {arg' : FlatArgument}
    (h' : arg'.Readable)
    {rest rest' : List Char} (hrest : Ends [',', '>'] rest) (hrest' : Ends [',', '>'] rest')
    (heq : arg.render ++ rest = arg'.render ++ rest') : arg = arg' ∧ rest = rest' := by
  match arg, arg' with
  | .any, .any => exact ⟨rfl, List.append_cancel_left heq⟩
  | .upper bound, .upper bound' =>
      rw [FlatArgument.Readable] at h h'
      have hbounds : bound.render ++ '>' :: rest = bound'.render ++ '>' :: rest' := by
        simpa [FlatArgument.render] using heq
      have hcore :=
        FlatType.cancel_core bound h h' (ends_close (by decide) rest)
        (ends_close (by decide) rest') hbounds
      obtain ⟨rfl, htail⟩ :=
        FlatType.eq_of_core_eq (ends_close (by decide) rest)
          (ends_close (by decide) rest') hcore.1 hcore.2
      exact ⟨rfl, List.tail_eq_of_cons_eq htail⟩
  | .lower bound, .lower bound' =>
      rw [FlatArgument.Readable] at h h'
      have hbounds : bound.render ++ '>' :: rest = bound'.render ++ '>' :: rest' := by
        simpa [FlatArgument.render] using heq
      have hcore :=
        FlatType.cancel_core bound h h' (ends_close (by decide) rest)
        (ends_close (by decide) rest') hbounds
      obtain ⟨rfl, htail⟩ :=
        FlatType.eq_of_core_eq (ends_close (by decide) rest)
          (ends_close (by decide) rest') hcore.1 hcore.2
      exact ⟨rfl, List.tail_eq_of_cons_eq htail⟩
  | .only type, .only type' =>
      rw [FlatArgument.Readable] at h h'
      rw [FlatArgument.render, FlatArgument.render] at heq
      obtain ⟨hcore, hbehind⟩ :=
        FlatType.cancel_core type h h' (hrest.mono (by decide)) (hrest'.mono (by decide)) heq
      obtain ⟨rfl, htail⟩ := FlatType.eq_of_core_eq hrest hrest' hcore hbehind
      exact ⟨rfl, htail⟩
  | .only type, .any | .only type, .upper _ | .only type, .lower _ =>
      rw [FlatArgument.Readable] at h
      rw [FlatArgument.render, FlatArgument.render] at heq
      exact absurd heq (type.render_append_ne_wildcard h _ _)
  | .any, .only type' | .upper _, .only type' | .lower _, .only type' =>
      rw [FlatArgument.Readable.eq_def] at h'
      rw [FlatArgument.render, FlatArgument.render] at heq
      exact absurd heq.symm (type'.render_append_ne_wildcard h' _ _)
  | .any, .upper _ | .any, .lower _ | .upper _, .any | .upper _, .lower _ | .lower _, .any
      | .lower _, .upper _ =>
      rw [FlatArgument.render, FlatArgument.render] at heq
      exact absurd heq (by simp)

theorem cancel_arguments (args : List FlatArgument) (h : ReadableArguments args) :
    FlatType.Cancels args := by
  intro args' rest rest' h' heq
  match args, args' with
  | [], [] => exact ⟨rfl, List.tail_eq_of_cons_eq heq⟩
  | [], arg' :: others' =>
      rw [ReadableArguments] at h'
      rw [commaSeparated_cons_append] at heq
      exact absurd heq.symm (arg'.render_append_ne_close h'.1 _ _)
  | arg :: others, [] =>
      rw [ReadableArguments] at h
      rw [commaSeparated_cons_append] at heq
      exact absurd heq (arg.render_append_ne_close h.1 _ _)
  | arg :: others, arg' :: others' =>
      rw [ReadableArguments] at h h'
      rw [commaSeparated_cons_append, commaSeparated_cons_append] at heq
      have hends : ∀ (others : List FlatArgument) (rest : List Char), Ends [',', '>']
          (if others.isEmpty then '>' :: rest
          else ',' :: (Text.commaSeparated (renderFlat others) ++ '>' :: rest)) := by
        intro others rest c hc
        split at hc <;> cases hc <;> decide
      obtain ⟨rfl, htail⟩ :=
        FlatArgument.cancel arg h.1 h'.1 (hends others rest) (hends others' rest') heq
      match others, others' with
      | [], [] => exact ⟨rfl, List.tail_eq_of_cons_eq htail⟩
      | [], _ :: _ => cases htail
      | _ :: _, [] => cases htail
      | next :: others, next' :: others' =>
          obtain ⟨heq, hrest⟩ :=
            cancel_arguments (next :: others) h.2 _ _ _ h'.2 (List.tail_eq_of_cons_eq htail)
          exact ⟨by rw [heq], hrest⟩

end

/-! ## Types with names -/

/-- The name of a type variable or a class.  It holds no character that separates anything, in a
signature or in a canonical name; this goes for identifiers, and for identifiers joined by
slashes. -/
def IsIdentifier (name : List Char) : Prop :=
  name ≠ [] ∧ ∀ c ∈ name, c ∉ '.' :: ';' :: separators

instance (name : List Char) : Decidable (IsIdentifier name) :=
  have := List.decidableBAll (· ∉ '.' :: ';' :: separators) name
  inferInstanceAs (Decidable (_ ∧ _))

mutual

/-- The names in the type are identifiers, and no class in it is named like a primitive type. -/
def TypeTree.Proper : TypeTree → Prop
  | .base _ => True
  | .void => False
  | .var name => IsIdentifier name
  | .named name suffixes =>
    IsIdentifier name ∧ (∀ b : BaseType, fullName name suffixes ≠ b.keyword) ∧
    ProperSuffixes suffixes
  | .array element => element.Proper

/-- The names behind the name of a class are identifiers, and so are those in the arguments. -/
def ProperSuffixes : List ClassSuffix → Prop
  | [] => True
  | .arguments args :: rest => ProperArguments args ∧ ProperSuffixes rest
  | .inner name :: rest => IsIdentifier name ∧ ProperSuffixes rest

/-- The names in the arguments are identifiers. -/
def ProperArguments : List TypeArgument → Prop
  | [] => True
  | .any :: rest => ProperArguments rest
  | .upper bound :: rest => bound.Proper ∧ ProperArguments rest
  | .lower bound :: rest => bound.Proper ∧ ProperArguments rest
  | .only type :: rest => type.Proper ∧ ProperArguments rest

end

lemma IsIdentifier.isSegment {name : List Char} (h : IsIdentifier name) : IsSegment name := by
  have hstops : ['<', '.', ';'] ⊆ '.' :: ';' :: separators := by decide
  exact fun c hc hstop => h.2 c hc (hstops hstop)

lemma IsIdentifier.not_mem_separators {name : List Char} (h : IsIdentifier name) :
    ∀ c ∈ name, c ∉ separators :=
  fun c hc hstop => h.2 c hc (List.mem_cons_of_mem _ (List.mem_cons_of_mem _ hstop))

mutual

theorem TypeTree.Proper.legal {tree : TypeTree} (h : tree.Proper) : tree.Legal false := by
  match tree with
  | .base _ => rw [TypeTree.Legal]; trivial
  | .void => rw [TypeTree.Proper] at h; exact h.elim
  | .var name =>
      rw [TypeTree.Proper] at h
      rw [TypeTree.Legal]
      exact fun c hc hstop => h.isSegment c hc (by rw [List.mem_singleton.mp hstop]; decide)
  | .named name suffixes =>
      rw [TypeTree.Proper] at h
      rw [TypeTree.Legal]
      exact ⟨h.1.isSegment, ProperSuffixes.legal h.2.2⟩
  | .array element =>
      rw [TypeTree.Proper] at h
      rw [TypeTree.Legal]
      exact TypeTree.Proper.legal h

theorem ProperSuffixes.legal {suffixes : List ClassSuffix} (h : ProperSuffixes suffixes) :
    LegalSuffixes suffixes := by
  match suffixes with
  | [] => rw [LegalSuffixes]; trivial
  | .arguments args :: rest =>
      rw [ProperSuffixes] at h
      rw [LegalSuffixes]
      exact ⟨ProperArguments.legal h.1, ProperSuffixes.legal h.2⟩
  | .inner name :: rest =>
      rw [ProperSuffixes] at h
      rw [LegalSuffixes]
      exact ⟨h.1.isSegment, ProperSuffixes.legal h.2⟩

theorem ProperArguments.legal {args : List TypeArgument} (h : ProperArguments args) :
    LegalArguments args := by
  match args with
  | [] => rw [LegalArguments]; trivial
  | .any :: rest =>
      rw [ProperArguments] at h
      rw [LegalArguments]
      exact ProperArguments.legal h
  | .upper _ :: rest | .lower _ :: rest | .only _ :: rest =>
      rw [ProperArguments] at h
      rw [LegalArguments]
      exact ⟨TypeTree.Proper.legal h.1, ProperArguments.legal h.2⟩

end

/-- The full name of a class is made of the characters of the names in it, a dot and a dollar
sign. -/
lemma not_mem_fullName {c : Char} {name : List Char} {suffixes : List ClassSuffix}
    (hc : c ∈ separators) (hname : IsIdentifier name) (hsuffixes : ProperSuffixes suffixes) :
      c ∉ fullName name suffixes := by
  have hdot : c ≠ '.' := by rintro rfl; revert hc; decide
  have hdollar : c ≠ '$' := by rintro rfl; revert hc; decide
  have hinner : ∀ suffixes, ProperSuffixes suffixes → c ∉ fullName [] suffixes := by
    intro suffixes h
    induction suffixes with
    | nil => exact List.not_mem_nil
    | cons suffix rest ih =>
        cases suffix with
        | arguments args =>
            rw [ProperSuffixes] at h
            exact ih h.2
        | inner inner =>
            rw [ProperSuffixes] at h
            have hfull : fullName [] (.inner inner :: rest) = '$' :: inner ++ fullName [] rest := by
              simp [fullName, Text.substitute]
            rw [hfull, List.mem_append, List.mem_cons, not_or, not_or]
            exact ⟨⟨hdollar, fun hmem => h.1.not_mem_separators c hmem hc⟩, ih h.2⟩
  have hfull : fullName name suffixes = Text.substitute '/' '.' name ++ fullName [] suffixes := by
    simp [fullName, Text.substitute]
  rw [hfull, List.mem_append, not_or]
  exact ⟨not_mem_substitute hdot fun hmem => hname.not_mem_separators c hmem hc,
    hinner suffixes hsuffixes⟩

lemma isWord_fullName {name : List Char} {suffixes : List ClassSuffix} (hname : IsIdentifier name)
    (hsuffixes : ProperSuffixes suffixes) : IsWord (fullName name suffixes) := by
  refine ⟨?_, fun c hc hstop => not_mem_fullName hstop hname hsuffixes hc⟩
  obtain ⟨c, rest, rfl⟩ := List.exists_cons_of_ne_nil hname.1
  simp [fullName, Text.substitute]

lemma readableArguments_append {first second : List FlatArgument} (hfirst : ReadableArguments first)
    (hsecond : ReadableArguments second) : ReadableArguments (first ++ second) := by
  induction first with
  | nil => exact hsecond
  | cons arg rest ih =>
      rw [ReadableArguments] at hfirst
      rw [List.cons_append, ReadableArguments]
      exact ⟨hfirst.1, ih hfirst.2⟩

mutual

theorem TypeTree.Proper.readable {tree : TypeTree} (h : tree.Proper) : tree.flatten.Readable := by
  match tree with
  | .base _ => rw [TypeTree.flatten, FlatType.Readable]; trivial
  | .void => rw [TypeTree.Proper] at h; exact h.elim
  | .var name =>
      rw [TypeTree.Proper] at h
      rw [TypeTree.flatten, FlatType.Readable]
      exact ⟨h.1, h.not_mem_separators⟩
  | .named name suffixes =>
      rw [TypeTree.Proper] at h
      rw [TypeTree.flatten, FlatType.Readable]
      exact ⟨isWord_fullName h.1 h.2.2, h.2.1, ProperSuffixes.readable h.2.2⟩
  | .array element =>
      rw [TypeTree.Proper] at h
      rw [TypeTree.flatten, FlatType.Readable]
      exact TypeTree.Proper.readable h

theorem ProperSuffixes.readable {suffixes : List ClassSuffix} (h : ProperSuffixes suffixes) :
    ReadableArguments (flattenSuffixes suffixes) := by
  match suffixes with
  | [] => rw [flattenSuffixes, ReadableArguments]; trivial
  | .arguments args :: rest =>
      rw [ProperSuffixes] at h
      rw [flattenSuffixes]
      exact readableArguments_append (ProperArguments.readable h.1) (ProperSuffixes.readable h.2)
  | .inner name :: rest =>
      rw [ProperSuffixes] at h
      rw [flattenSuffixes]
      exact ProperSuffixes.readable h.2

theorem ProperArguments.readable {args : List TypeArgument} (h : ProperArguments args) :
    ReadableArguments (flattenArguments args) := by
  match args with
  | [] => rw [flattenArguments, ReadableArguments]; trivial
  | .any :: rest =>
      rw [ProperArguments] at h
      rw [flattenArguments, ReadableArguments, FlatArgument.Readable]
      exact ⟨trivial, ProperArguments.readable h⟩
  | .upper _ :: rest | .lower _ :: rest | .only _ :: rest =>
      rw [ProperArguments] at h
      rw [flattenArguments, ReadableArguments, FlatArgument.Readable]
      exact ⟨TypeTree.Proper.readable h.1, ProperArguments.readable h.2⟩

end

/-! ## Lists of types -/

/-- The types as arguments of a list. -/
def asArguments (types : List TypeTree) : List FlatArgument :=
  types.map fun type => .only type.flatten

lemma renderFlat_asArguments (types : List TypeTree) :
    renderFlat (asArguments types) = (types.map canonical).map String.toList := by
  induction types with
  | nil => rfl
  | cons type types ih =>
      have htype : (FlatArgument.only type.flatten).render = (canonical type).toList := by
        rw [FlatArgument.render, render_flatten, canonical, String.toList_ofList]
      rw [List.map_cons, List.map_cons, ← ih, ← htype]
      rfl

lemma readableArguments_asArguments {types : List TypeTree} (h : ∀ type ∈ types, type.Proper) :
    ReadableArguments (asArguments types) := by
  induction types with
  | nil => trivial
  | cons type types ih =>
      rw [asArguments, List.map_cons, ReadableArguments, FlatArgument.Readable]
      exact ⟨(h type List.mem_cons_self).readable, ih fun type htype =>
        h type (List.mem_cons_of_mem _ htype)⟩

/-- **A parameter list tells its types up to the structure of inner classes.** -/
lemma parameterList_canonical_eq_iff {types types' : List TypeTree}
    (h : ∀ type ∈ types, type.Proper) (h' : ∀ type ∈ types', type.Proper) :
    parameterList (types.map canonical) = parameterList (types'.map canonical) ↔
      types.map TypeTree.flatten = types'.map TypeTree.flatten := by
  constructor
  · intro heq
    have htext := congrArg String.toList heq
    rw [toList_parameterList,
      toList_parameterList, ← renderFlat_asArguments, ← renderFlat_asArguments] at htext
    have hlists : Text.commaSeparated (renderFlat (asArguments types)) =
        Text.commaSeparated (renderFlat (asArguments types')) :=
      List.append_cancel_right (List.tail_eq_of_cons_eq htext)
    obtain ⟨hargs, -⟩ := cancel_arguments (asArguments types) (readableArguments_asArguments h)
        (asArguments types')
      [] [] (readableArguments_asArguments h') (by rw [hlists])
    have hflat : ∀ types : List TypeTree, asArguments types =
        (types.map TypeTree.flatten).map FlatArgument.only :=
      fun types => (List.map_map).symm
    rw [hflat, hflat] at hargs
    exact List.map_injective_iff.mpr (fun _ _ => FlatArgument.only.inj) hargs
  · intro heq
    have hcanonical : ∀ types : List TypeTree,
        types.map canonical = (types.map TypeTree.flatten).map fun type =>
          String.ofList type.render := by
      intro types
      rw [List.map_map]
      refine List.map_congr_left fun type _ => ?_
      rw [Function.comp_apply, render_flatten, canonical]
    rw [hcanonical, hcanonical, heq]

/-! ## Descriptors -/

/-- The type can stand in a descriptor: it is made of primitive types, classes and arrays. -/
def TypeTree.Raw : TypeTree → Prop
  | .base _ => True
  | .void => False
  | .var _ => False
  | .named _ suffixes => suffixes = []
  | .array element => element.Raw

lemma substitute_injective {name name' : List Char} (h : '.' ∉ name) (h' : '.' ∉ name')
    (heq : Text.substitute '/' '.' name = Text.substitute '/' '.' name') : name = name' := by
  induction name generalizing name' with
  | nil => exact (List.map_eq_nil_iff.mp heq.symm).symm
  | cons c name ih =>
      cases name' with
      | nil => cases heq
      | cons c' name' =>
          rw [List.mem_cons, not_or] at h h'
          obtain ⟨hhead, htail⟩ := List.cons.inj heq
          have hc : c = c' := by
            dsimp only at hhead
            by_cases hslash : c = '/' <;> by_cases hslash' : c' = '/' <;> simp_all
          rw [hc, ih h.2 h'.2 htail]

/-- A descriptor type has no structure that could get lost. -/
lemma TypeTree.Raw.eq_of_flatten_eq {type type' : TypeTree} (h : type.Raw) (h' : type'.Raw)
    (hproper : type.Proper)
    (hproper' : type'.Proper) (heq : type.flatten = type'.flatten) : type = type' := by
  match type, type' with
  | .base b, .base b' => simpa [TypeTree.flatten] using heq
  | .named name suffixes, .named name' suffixes' =>
      rw [Raw] at h h'
      subst h h'
      rw [Proper] at hproper hproper'
      have hfull : fullName name [] = fullName name' [] := by
        rw [TypeTree.flatten, TypeTree.flatten] at heq
        exact (FlatType.named.inj heq).1
      have hnames : name = name' := by
        refine substitute_injective (fun hdot => ?_) (fun hdot => ?_)
          (List.append_cancel_right hfull)
        · exact hproper.1.2 '.' hdot List.mem_cons_self
        · exact hproper'.1.2 '.' hdot List.mem_cons_self
      rw [hnames]
  | .array element, .array element' =>
      rw [Raw] at h h'
      rw [Proper] at hproper hproper'
      rw [TypeTree.flatten, TypeTree.flatten] at heq
      rw [TypeTree.Raw.eq_of_flatten_eq h h' hproper hproper' (FlatType.array.inj heq)]
  | .void, _ | .var _, _ => rw [Raw] at h; exact h.elim
  | .base _, .void | .base _, .var _ | .named _ _, .void | .named _ _, .var _ | .array _, .void
      | .array _, .var _ =>
      rw [Raw] at h'
      exact h'.elim
  | .base _, .named _ _ | .base _, .array _ | .named _ _, .base _ | .named _ _, .array _
      | .array _, .base _
  | .array _, .named _ _ =>
      rw [TypeTree.flatten, TypeTree.flatten] at heq
      cases heq

lemma TypeTree.Raw.nesting_eq_zero {type : TypeTree} (h : type.Raw) : type.nesting = 0 := by
  match type with
  | .base _ => rw [nesting]
  | .void | .var _ => rw [Raw] at h; exact h.elim
  | .named name suffixes =>
      rw [Raw] at h
      rw [h, nesting, nestingSuffixes]
  | .array element =>
      rw [Raw] at h
      rw [nesting]
      exact TypeTree.Raw.nesting_eq_zero h

/-- A type of a descriptor, with names that can be told from separators. -/
structure TypeTree.IsDescriptor (type : TypeTree) : Prop where
  raw : type.Raw
  proper : type.Proper

lemma TypeTree.IsDescriptor.fits {type : TypeTree} (h : type.IsDescriptor) : type.Fits :=
  ⟨h.proper.legal, by rw [h.raw.nesting_eq_zero]; exact Nat.zero_le _⟩

/-- A method descriptor: it has neither formal parameters nor thrown types, and no generic types. -/
structure MethodTree.IsDescriptor (tree : MethodTree) : Prop where
  typeParameters : tree.typeParameters = []
  parameters : ∀ type ∈ tree.parameters, type.IsDescriptor
  returnType : tree.returnType = .void ∨ tree.returnType.IsDescriptor
  exceptions : tree.exceptions = []

namespace MethodTree.IsDescriptor

variable {tree tree' : MethodTree}

lemma legal (h : tree.IsDescriptor) : tree.Legal where
  formals := by simp [h.typeParameters]
  parameters := fun type htype => (h.parameters type htype).fits
  returnType := h.returnType.imp_right TypeTree.IsDescriptor.fits
  exceptions := by simp [h.exceptions]

lemma parameters_eq_of_flatten_eq {types types' : List TypeTree}
    (h : ∀ type ∈ types, type.IsDescriptor) (h' : ∀ type ∈ types', type.IsDescriptor)
    (heq : types.map TypeTree.flatten = types'.map TypeTree.flatten) :
    types = types' := by
  induction types generalizing types' with
  | nil => exact (List.map_eq_nil_iff.mp heq.symm).symm
  | cons type types ih =>
      obtain ⟨type', rest, rfl, hflat, hrest⟩ := List.map_eq_cons_iff.mp heq.symm
      have htype := h type List.mem_cons_self
      have htype' := h' type' List.mem_cons_self
      have hhead : type = type' :=
        htype.raw.eq_of_flatten_eq htype'.raw htype.proper htype'.proper hflat.symm
      have htail := ih (fun type htype => h type (List.mem_cons_of_mem _ htype))
        (fun type htype => h' type (List.mem_cons_of_mem _ htype)) hrest.symm
      rw [hhead, htail]

/-- The parameter list of a descriptor determines its parameter types. -/
lemma parameterList_eq_iff (h : tree.IsDescriptor) (h' : tree'.IsDescriptor) :
    parameterList (tree.parameters.map Signature.canonical) =
      parameterList (tree'.parameters.map Signature.canonical) ↔
      tree.parameters = tree'.parameters := by
  rw [parameterList_canonical_eq_iff (fun type htype => (h.parameters type htype).proper)
    fun type htype => (h'.parameters type htype).proper]
  exact ⟨parameters_eq_of_flatten_eq h.parameters h'.parameters, fun heq => by rw [heq]⟩

end MethodTree.IsDescriptor

end JarFacts.Signature
