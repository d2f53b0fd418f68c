import Mathlib.Tactic.Common
import JarFacts.Proofs.Signature.Tree

/-!
# What the text of a parameter list tells of its types

The canonical name of a generic type holds the name of the class and, in angle brackets, its
arguments.  A type variable is all in brackets: its name says nothing of the class that stands for
it at run time.

`outside` strips a text of everything in brackets.  Where the names in a type hold none of the
characters that separate them (`TypeTree.isPlain`), its canonical name closes every bracket it opens
(`closed_render`), and stripped of its arguments it is the erasure of the type (`outside_render`).
So the text of a list of types that can be erased determines the list of their erasures, whatever
the arguments are (`erasures_eq_of_commaSeparated_eq`).
-/

namespace JarFacts.Signature

/-- The name of a class or of a type variable that can be told apart from what stands around it. -/
def IsPlain (name : List Char) : Prop :=
  name ≠ [] ∧ '<' ∉ name ∧ '>' ∉ name ∧ ',' ∉ name

instance (name : List Char) : Decidable (IsPlain name) :=
  inferInstanceAs (Decidable (_ ∧ _))

mutual

/-- Are all names in the tree plain? -/
def TypeTree.isPlain : TypeTree → Bool
  | .base _ => true
  | .void => true
  | .var name => IsPlain name
  | .named name suffixes => IsPlain name && plainSuffixes suffixes
  | .array element => element.isPlain

/-- Are all names in the argument lists and the inner names plain? -/
def plainSuffixes : List ClassSuffix → Bool
  | [] => true
  | .arguments args :: rest => plainArguments args && plainSuffixes rest
  | .inner name :: rest => IsPlain name && plainSuffixes rest

/-- Are all names in the arguments plain? -/
def plainArguments : List TypeArgument → Bool
  | [] => true
  | .any :: rest => plainArguments rest
  | .upper bound :: rest => bound.isPlain && plainArguments rest
  | .lower bound :: rest => bound.isPlain && plainArguments rest
  | .only type :: rest => type.isPlain && plainArguments rest

end

/-- The canonical name of a type without any arguments.  What a type variable stands for is not
known here. -/
def TypeTree.erasure? : TypeTree → Option (List Char)
  | .base b => some b.keyword
  | .void => some "void".toList
  | .var _ => none
  | .named name suffixes => some (fullName name suffixes)
  | .array element => element.erasure?.map (· ++ ['[', ']'])

/-! ## Texts without what is in brackets -/

/-- The part of a text that stands in no angle bracket, where so many are open before it. -/
def outside : (opened : Nat) → List Char → List Char
  | _, [] => []
  | opened, c :: rest =>
    if c = '<' then outside (opened + 1) rest
    else if c = '>' then outside (opened - 1) rest
    else if opened = 0 then c :: outside 0 rest
    else outside opened rest

/-- The text closes every bracket that it opens, and no other: what is behind it is as it was. -/
def Closed (text : List Char) : Prop :=
  ∀ opened rest, outside opened (text ++ rest) = (if opened = 0 then outside 0 text else []) ++
    outside opened rest

namespace Closed

variable {first second text : List Char}

lemma nil : Closed [] := by
  intro opened rest
  simp [outside]

lemma outside_append (h : Closed first) (rest : List Char) :
    outside 0 (first ++ rest) = outside 0 first ++ outside 0 rest := by
  rw [h 0 rest, if_pos rfl]

lemma append (hfirst : Closed first) (hsecond : Closed second) : Closed (first ++ second) := by
  intro opened rest
  rw [List.append_assoc, hfirst, hsecond, hfirst.outside_append]
  by_cases hopened : opened = 0
  · simp only [if_pos hopened, List.append_assoc]
  · simp only [if_neg hopened, List.nil_append]

/-- A text in brackets is not outside any. -/
lemma bracketed (h : Closed text) :
    Closed ('<' :: (text ++ ['>'])) ∧ outside 0 ('<' :: (text ++ ['>'])) = [] := by
  have hinside (opened : Nat) (rest : List Char) :
      outside opened ('<' :: (text ++ ['>']) ++ rest) = outside opened rest := by
    rw [List.cons_append, List.append_assoc, outside, if_pos rfl, h,
      if_neg (Nat.succ_ne_zero opened), List.nil_append]
    rfl
  have hnil : outside 0 ('<' :: (text ++ ['>'])) = [] := by
    have := hinside 0 []
    rwa [List.append_nil] at this
  refine ⟨fun opened rest => ?_, hnil⟩
  rw [hinside, hnil, ite_self, List.nil_append]

end Closed

/-- A text without brackets is all outside. -/
lemma closed_of_no_bracket {text : List Char} (hopen : '<' ∉ text) (hclose : '>' ∉ text) :
    Closed text ∧ outside 0 text = text := by
  induction text with
  | nil => exact ⟨.nil, rfl⟩
  | cons c rest ih =>
      rw [List.mem_cons, not_or] at hopen hclose
      obtain ⟨hclosed, hrest⟩ := ih hopen.2 hclose.2
      have hkept : outside 0 (c :: rest) = c :: rest := by
        rw [outside, if_neg (Ne.symm hopen.1), if_neg (Ne.symm hclose.1), if_pos rfl, hrest]
      refine ⟨fun opened more => ?_, hkept⟩
      rw [hkept, List.cons_append, outside, if_neg (Ne.symm hopen.1), if_neg (Ne.symm hclose.1)]
      by_cases hopened : opened = 0
      · rw [if_pos hopened, if_pos hopened, hopened, hclosed.outside_append, hrest]
        rfl
      · rw [if_neg hopened, if_neg hopened, hclosed, if_neg hopened]

/-- A list of closed texts is closed, and the commas between them are outside. -/
lemma closed_commaSeparated {texts : List (List Char)} (h : ∀ text ∈ texts, Closed text) :
    Closed (Text.commaSeparated texts) ∧
      outside 0 (Text.commaSeparated texts) = Text.commaSeparated (texts.map (outside 0)) := by
  have hcomma : Closed [','] ∧
      outside 0 [','] = [','] := closed_of_no_bracket (by decide) (by decide)
  unfold Text.commaSeparated
  induction texts with
  | nil => exact ⟨.nil, rfl⟩
  | cons text rest ih =>
      have htext := h text List.mem_cons_self
      obtain ⟨hclosed, houtside⟩ := ih fun other hother => h other (List.mem_cons_of_mem _ hother)
      by_cases hrest : rest = []
      · rw [hrest, List.map_cons, List.map_nil, List.intercalate_singleton,
          List.intercalate_singleton]
        exact ⟨htext, rfl⟩
      · rw [List.intercalate_cons_of_ne_nil hrest, List.map_cons,
          List.intercalate_cons_of_ne_nil (mt List.map_eq_nil_iff.mp hrest)]
        refine ⟨(htext.append hcomma.1).append hclosed, ?_⟩
        rw [(htext.append hcomma.1).outside_append, htext.outside_append, hcomma.2, houtside]

/-! ## Canonical names -/

lemma IsPlain.closed {name : List Char} (h : IsPlain name) : Closed name ∧ outside 0 name = name :=
  closed_of_no_bracket h.2.1 h.2.2.1

/-- The inner names, each behind a dollar sign, hold no character that none of them holds. -/
lemma not_mem_innerNames {suffixes : List ClassSuffix} (h : plainSuffixes suffixes = true) :
    '<' ∉ fullName [] suffixes ∧ '>' ∉ fullName [] suffixes ∧ ',' ∉ fullName [] suffixes := by
  induction suffixes with
  | nil => decide
  | cons suffix rest ih =>
      cases suffix with
      | arguments args =>
          simp only [plainSuffixes, Bool.and_eq_true] at h
          exact ih h.2
      | inner name =>
          simp only [plainSuffixes, Bool.and_eq_true, decide_eq_true_eq] at h
          obtain ⟨⟨-, hopen, hclose, hcomma⟩, hrest⟩ := h
          have hfull : fullName [] (.inner name :: rest) = '$' :: name ++ fullName [] rest := by
            simp [fullName, Text.substitute]
          simp [hfull, hopen, hclose, hcomma, ih hrest]

lemma not_mem_substitute {c : Char} {name : List Char} (hdot : c ≠ '.') (hname : c ∉ name) :
    c ∉ Text.substitute '/' '.' name := by
  intro hc
  obtain ⟨d, hd, heq⟩ := List.mem_map.mp hc
  split at heq
  · exact hdot heq.symm
  · exact hname (heq ▸ hd)

/-- The full name of a class is as plain as the names in it. -/
lemma plain_fullName {name : List Char} {suffixes : List ClassSuffix} (hname : IsPlain name)
    (hsuffixes : plainSuffixes suffixes = true) : IsPlain (fullName name suffixes) := by
  have hfull : fullName name suffixes = Text.substitute '/' '.' name ++ fullName [] suffixes := by
    simp [fullName, Text.substitute]
  obtain ⟨hne, hopen, hclose, hcomma⟩ := hname
  obtain ⟨hopen', hclose', hcomma'⟩ := not_mem_innerNames hsuffixes
  have hne' : Text.substitute '/' '.' name ≠ [] := mt List.map_eq_nil_iff.mp hne
  rw [hfull]
  refine ⟨by simp [hne'], ?_, ?_, ?_⟩ <;> rw [List.mem_append, not_or]
  · exact ⟨not_mem_substitute (by decide) hopen, hopen'⟩
  · exact ⟨not_mem_substitute (by decide) hclose, hclose'⟩
  · exact ⟨not_mem_substitute (by decide) hcomma, hcomma'⟩

/-- A wildcard, which has a mark in front of its bound. -/
lemma closed_wildcard {mark bound : List Char} (hopen : '<' ∉ mark) (hclose : '>' ∉ mark)
    (hbound : Closed bound) :
    Closed ('<' :: (mark ++ bound ++ ['>'])) :=
  ((closed_of_no_bracket hopen hclose).1.append hbound).bracketed.1

mutual

lemma closed_render (tree : TypeTree) (h : tree.isPlain = true) : Closed tree.render := by
  match tree with
  | .base b =>
      rw [TypeTree.render]
      exact (closed_of_no_bracket (by cases b <;> decide) (by cases b <;> decide)).1
  | .void =>
      rw [TypeTree.render]
      exact (closed_of_no_bracket (by decide) (by decide)).1
  | .var name =>
      simp only [TypeTree.isPlain, decide_eq_true_eq] at h
      rw [TypeTree.render]
      exact h.closed.1.bracketed.1
  | .named name suffixes =>
      simp only [TypeTree.isPlain, Bool.and_eq_true, decide_eq_true_eq] at h
      rw [TypeTree.render]
      refine (plain_fullName h.1 h.2).closed.1.append ?_
      unfold bracketed
      split
      · exact .nil
      · exact (closed_commaSeparated (closed_renderSuffixes suffixes h.2)).1.bracketed.1
  | .array element =>
      rw [TypeTree.isPlain] at h
      rw [TypeTree.render]
      exact (closed_render element h).append (closed_of_no_bracket (by decide) (by decide)).1

lemma closed_renderSuffixes (suffixes : List ClassSuffix) (h : plainSuffixes suffixes = true) :
    ∀ text ∈ renderSuffixes suffixes, Closed text := by
  match suffixes with
  | [] =>
      rw [renderSuffixes]
      exact fun text htext => by cases htext
  | .arguments args :: rest =>
      simp only [plainSuffixes, Bool.and_eq_true] at h
      rw [renderSuffixes]
      intro text htext
      rcases List.mem_append.mp htext with hargs | hrest
      · exact closed_renderArguments args h.1 text hargs
      · exact closed_renderSuffixes rest h.2 text hrest
  | .inner name :: rest =>
      simp only [plainSuffixes, Bool.and_eq_true, decide_eq_true_eq] at h
      rw [renderSuffixes]
      exact closed_renderSuffixes rest h.2

lemma closed_renderArguments (args : List TypeArgument) (h : plainArguments args = true) :
    ∀ text ∈ renderArguments args, Closed text := by
  match args with
  | [] =>
      rw [renderArguments]
      exact fun text htext => by cases htext
  | .any :: rest =>
      rw [plainArguments] at h
      rw [renderArguments]
      intro text htext
      rcases List.mem_cons.mp htext with rfl | hrest
      · have hopen : '<' ∉ ['?'] := by decide
        exact closed_wildcard hopen (by decide) .nil
      · exact closed_renderArguments rest h text hrest
  | .upper bound :: rest =>
      simp only [plainArguments, Bool.and_eq_true] at h
      rw [renderArguments]
      intro text htext
      rcases List.mem_cons.mp htext with rfl | hrest
      · have hopen : '<' ∉ ['?', '+'] := by decide
        exact closed_wildcard hopen (by decide) (closed_render bound h.1)
      · exact closed_renderArguments rest h.2 text hrest
  | .lower bound :: rest =>
      simp only [plainArguments, Bool.and_eq_true] at h
      rw [renderArguments]
      intro text htext
      rcases List.mem_cons.mp htext with rfl | hrest
      · have hopen : '<' ∉ ['?', '-'] := by decide
        exact closed_wildcard hopen (by decide) (closed_render bound h.1)
      · exact closed_renderArguments rest h.2 text hrest
  | .only type :: rest =>
      simp only [plainArguments, Bool.and_eq_true] at h
      rw [renderArguments]
      intro text htext
      rcases List.mem_cons.mp htext with rfl | hrest
      · exact closed_render type h.1
      · exact closed_renderArguments rest h.2 text hrest

end

/-- Without what is in brackets, the canonical name of a type that can be erased is its erasure. -/
lemma outside_render (tree : TypeTree) (h : tree.isPlain = true) {erased : List Char}
    (herased : tree.erasure? = some erased) :
    outside 0 tree.render = erased ∧ erased ≠ [] ∧ ',' ∉ erased := by
  match tree with
  | .base b =>
      cases herased
      cases b <;> decide
  | .void =>
      cases herased
      decide
  | .var name => cases herased
  | .named name suffixes =>
      cases herased
      simp only [TypeTree.isPlain, Bool.and_eq_true, decide_eq_true_eq] at h
      have hplain := plain_fullName h.1 h.2
      obtain ⟨hclosed, hname⟩ := hplain.closed
      refine ⟨?_, hplain.1, hplain.2.2.2⟩
      rw [TypeTree.render, hclosed.outside_append, hname]
      unfold bracketed
      split
      · exact List.append_nil _
      · rw [(closed_commaSeparated (closed_renderSuffixes suffixes h.2)).1.bracketed.2,
          List.append_nil]
  | .array element =>
      rw [TypeTree.isPlain] at h
      obtain ⟨inner, hinner, rfl⟩ := Option.map_eq_some_iff.mp herased
      obtain ⟨houtside, -, hcomma⟩ := outside_render element h hinner
      refine ⟨?_, by simp, by simpa using hcomma⟩
      rw [TypeTree.render, (closed_render element h).outside_append, houtside]
      rfl

/-! ## Lists of types -/

lemma map_outside_render {trees : List TypeTree} (h : ∀ tree ∈ trees, tree.isPlain = true)
    {erased : List (List Char)} (herased : trees.mapM TypeTree.erasure? = some erased) :
    trees.map (fun tree => outside 0 tree.render) = erased ∧ ∀ name ∈ erased, name ≠ [] ∧
      ',' ∉ name := by
  induction trees generalizing erased with
  | nil =>
      cases herased
      exact ⟨rfl, fun name hname => by cases hname⟩
  | cons tree rest ih =>
      simp only [List.mapM_cons, Option.bind_eq_bind, Option.bind_eq_some_iff, Option.pure_def,
        Option.some.injEq]
        at herased
      obtain ⟨name, hname, names, hnames, rfl⟩ := herased
      obtain ⟨houtside, hplain⟩ := outside_render tree (h tree List.mem_cons_self) hname
      obtain ⟨hrest, hplains⟩ :=
        ih (fun other hother => h other (List.mem_cons_of_mem _ hother)) hnames
      refine ⟨by rw [List.map_cons, houtside, hrest], fun other hother => ?_⟩
      rcases List.mem_cons.mp hother with rfl | hmem
      · exact hplain
      · exact hplains other hmem

/-- The text of a list of types that can be erased, without what is in brackets, is the list of
their erasures. -/
lemma outside_commaSeparated {trees : List TypeTree} (h : ∀ tree ∈ trees, tree.isPlain = true)
    {erased : List (List Char)} (herased : trees.mapM TypeTree.erasure? = some erased) :
    outside 0 (Text.commaSeparated (trees.map TypeTree.render)) = Text.commaSeparated erased := by
  have hclosed : ∀ text ∈ trees.map TypeTree.render, Closed text := by
    intro text htext
    obtain ⟨tree, htree, rfl⟩ := List.mem_map.mp htext
    exact closed_render tree (h tree htree)
  rw [(closed_commaSeparated hclosed).2, List.map_map, ← (map_outside_render h herased).1]
  rfl

/-- Lists of names that are not empty and hold no comma can be told apart by their texts. -/
lemma eq_of_commaSeparated_eq {first second : List (List Char)}
    (hfirst : ∀ name ∈ first, name ≠ [] ∧ ',' ∉ name)
    (hsecond : ∀ name ∈ second, name ≠ [] ∧ ',' ∉ name)
    (h : Text.commaSeparated first = Text.commaSeparated second) : first = second := by
  have hsplit {names : List (List Char)} (hnames : ∀ name ∈ names, name ≠ [] ∧ ',' ∉ name) :
      (Text.commaSeparated names).splitOn ',' = if names = [] then [[]] else names := by
    split
    next hnil => rw [hnil]; rfl
    next hne => exact List.splitOn_intercalate ',' (fun name hname => (hnames name hname).2) hne
  have heq := congrArg (List.splitOn ',') h
  rw [hsplit hfirst, hsplit hsecond] at heq
  split at heq <;> split at heq
  · simp_all
  · exact absurd rfl (hsecond [] (heq ▸ List.mem_cons_self)).1
  · exact absurd rfl (hfirst [] (heq ▸ List.mem_cons_self)).1
  · exact heq

/-- The text of a list of types that can be erased determines the erasures. -/
lemma erasures_eq_of_commaSeparated_eq {trees trees' : List TypeTree}
    (h : ∀ tree ∈ trees, tree.isPlain = true)
    (h' : ∀ tree ∈ trees', tree.isPlain = true) {erased erased' : List (List Char)}
    (herased : trees.mapM TypeTree.erasure? = some erased)
    (herased' : trees'.mapM TypeTree.erasure? = some erased')
    (heq : Text.commaSeparated (trees.map TypeTree.render) =
      Text.commaSeparated (trees'.map TypeTree.render)) :
    erased = erased' := by
  refine eq_of_commaSeparated_eq (map_outside_render h herased).2
    (map_outside_render h' herased').2 ?_
  rw [← outside_commaSeparated h herased, ← outside_commaSeparated h' herased', heq]

lemma toList_parameterList (types : List String) :
    (parameterList types).toList =
      '(' :: (Text.commaSeparated (types.map String.toList) ++ [')']) := by
  simp [parameterList, Text.commaSeparated]

end JarFacts.Signature
