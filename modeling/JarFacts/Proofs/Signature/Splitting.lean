import Mathlib.Data.List.Forall2
import JarFacts.Proofs.Signature.Accepted

/-!
# A method signature is made of types

Of the types in a method signature only the return type is read in a way of its own, since `void`
may stand there.  The flag that allows it is handed on through the brackets of an array, so an array
of `void` is accepted as a return type, too, which is no type anywhere else.

The statement is about texts.  A `MethodText` is a method signature cut into pieces, and
`MethodText.Says` compares each piece, read by itself, with what the signature reports for it.  The
way there is by the trees: a signature is accepted if it is the text of a readable tree
(`MethodSignature.decode_eq_ok_iff`), and so is each of its types.
-/

namespace JarFacts

open Signature

/-- The parameter that comes next is not taken for a bound of this one, or for the end of the
list. -/
def FormalTypeParameter.Precedes (formal successor : FormalTypeParameter) : Prop :=
  formal.bounds ≠ [] ∧ ∃ c rest, successor.name.toList = c :: rest ∧ c ≠ '>'

/-- Written one behind the other, the formal parameters can be told apart. -/
structure Separated (formals : List FormalTypeParameter) : Prop where
  not_mem_name : ∀ formal ∈ formals, ':' ∉ formal.name.toList
  precedes : formals.IsChain FormalTypeParameter.Precedes

/-! ## Signatures in pieces -/

/-- A formal type parameter as it is written. -/
structure ParameterText where
  name : String
  classBound : Option String
  interfaceBounds : List String

namespace ParameterText

/-- The texts of the bounds, the class bound first. -/
def bounds (written : ParameterText) : List String :=
  written.classBound.toList ++ written.interfaceBounds

/-- The pieces put together: each bound stands behind a colon, and where there is no class bound its
colon stays. -/
def text (written : ParameterText) : String :=
  written.name ++ ":" ++ String.join written.classBound.toList ++ String.join
    (written.interfaceBounds.map (":" ++ ·))

/-- The parameter has the name that is written, and the bounds that the texts stand for. -/
structure Says (written : ParameterText) (parameter : FormalTypeParameter) : Prop where
  name : written.name = parameter.name
  bounds :
    List.Forall₂ (fun text name => decodeType text = .ok name) written.bounds parameter.bounds

end ParameterText

/-- A method signature as it is written. -/
structure MethodText where
  formals : List ParameterText
  parameters : List String
  returnType : String
  exceptions : List String

namespace MethodText

/-- The pieces put together, without any brackets where there are no formal parameters. -/
def text (written : MethodText) : String :=
  (if written.formals.isEmpty then ""
    else "<" ++ String.join (written.formals.map ParameterText.text) ++ ">") ++
    "(" ++ String.join written.parameters ++ ")" ++ written.returnType ++
    String.join (written.exceptions.map ("^" ++ ·))

/-- The signature reports what the pieces stand for, and the return type what `returns` says. -/
structure Says (returns : (text name : String) → Prop) (written : MethodText)
    (signature : MethodSignature) : Prop where
  formals : List.Forall₂ ParameterText.Says written.formals signature.typeParameters
  parameters : List.Forall₂ (fun text name => decodeType text = .ok name) written.parameters
      signature.parameters
  returnType : returns written.returnType signature.returnType
  exceptions : List.Forall₂ (fun text name => decodeType text = .ok name) written.exceptions
      signature.exceptions

end MethodText

lemma MethodText.Says.mono {returns returns' : (text name : String) → Prop} {written : MethodText}
    {signature : MethodSignature} (h : written.Says returns signature)
    (hreturns : ∀ text name, returns text name → returns' text name) :
      written.Says returns' signature :=
  ⟨h.formals, h.parameters, hreturns _ _ h.returnType, h.exceptions⟩

/-- A whole return type: `void`, or what is a type anywhere. -/
def IsReturnType (text name : String) : Prop :=
  text = "V" ∧ name = "void" ∨ decodeType text = .ok name

/-- An array with nothing but `void` in it. -/
def IsVoidArray (text name : String) : Prop :=
  ∃ dimensions, 0 < dimensions ∧ text = String.ofList (List.replicate dimensions '[' ++ ['V']) ∧
    name = "void" ++ String.join (List.replicate dimensions "[]")

/-! ## Return types -/

namespace Signature

/-- The array of `void` of this many dimensions. -/
def voidArray : (dimensions : Nat) → TypeTree
  | 0 => .void
  | dimensions + 1 => .array (voidArray dimensions)

lemma print_voidArray (dimensions : Nat) :
    (voidArray dimensions).print = List.replicate dimensions '[' ++ ['V'] := by
  induction dimensions with
  | zero => rfl
  | succ dimensions ih => rw [voidArray, TypeTree.print, ih, List.replicate_succ, List.cons_append]

lemma canonical_voidArray (dimensions : Nat) :
    canonical (voidArray dimensions) = "void" ++ String.join (List.replicate dimensions "[]") := by
  induction dimensions with
  | zero => rfl
  | succ dimensions ih =>
      have hlast : canonical (voidArray (dimensions + 1)) =
          canonical (voidArray dimensions) ++ "[]" := by
        rw [canonical, voidArray, TypeTree.render, String.ofList_append]
        rfl
      rw [hlast, ih, List.replicate_succ', String.join_append, String.append_assoc]
      rfl

lemma nesting_voidArray (dimensions : Nat) : (voidArray dimensions).nesting = 0 := by
  induction dimensions with
  | zero => rw [voidArray, TypeTree.nesting]
  | succ dimensions ih => rw [voidArray, TypeTree.nesting, ih]

/-- Where `void` is allowed it is allowed inside arrays, and nowhere else inside a type. -/
lemma TypeTree.legal_true_iff {tree : TypeTree} :
    tree.Legal true ↔ tree.Legal false ∨ ∃ dimensions, tree = voidArray dimensions := by
  constructor
  · intro h
    match tree with
    | .base b => exact .inl (by rwa [Legal] at h ⊢)
    | .void => exact .inr ⟨0, rfl⟩
    | .var name => exact .inl (by rwa [Legal] at h ⊢)
    | .named name suffixes => exact .inl (by rwa [Legal] at h ⊢)
    | .array element =>
        rw [Legal] at h ⊢
        obtain hlegal | ⟨dimensions, rfl⟩ := TypeTree.legal_true_iff.mp h
        · exact .inl hlegal
        · exact .inr ⟨dimensions + 1, rfl⟩
  · rintro (hlegal | ⟨dimensions, rfl⟩)
    · exact hlegal.voidAllowed
    · induction dimensions with
      | zero => rw [voidArray, Legal]
      | succ dimensions ih => rwa [voidArray, Legal]

lemma readable_voidArray (dimensions : Nat) :
    (voidArray dimensions).Legal true ∧ (voidArray dimensions).nesting ≤ 256 := by
  rw [nesting_voidArray]
  exact ⟨TypeTree.legal_true_iff.mpr (.inr ⟨dimensions, rfl⟩), Nat.zero_le _⟩

lemma not_legal_voidArray (dimensions : Nat) : ¬(voidArray dimensions).Legal false := by
  induction dimensions with
  | zero =>
      rw [voidArray, TypeTree.Legal]
      decide
  | succ dimensions ih => rwa [voidArray, TypeTree.Legal]

/-- A readable type is known by its text. -/
lemma TypeTree.eq_of_print_eq {tree tree' : TypeTree} (hlegal : tree.Legal true)
    (hnesting : tree.nesting ≤ 256) (hlegal' : tree'.Legal true) (hnesting' : tree'.nesting ≤ 256)
    (hprint : tree.print = tree'.print) :
    tree = tree' := by
  have hreads := Parser.reads_typeTree_of_legal hlegal hnesting
  have hreads' := Parser.reads_typeTree_of_legal hlegal' hnesting'
  rw [hprint] at hreads
  exact (Parser.ReadsBefore.of_reads hreads).unique (.of_reads hreads')

/-- What is decoded is the text of a type that fits. -/
lemma exists_fits_iff {text name : String} :
    (∃ tree : TypeTree, tree.Fits ∧ String.ofList tree.print = text ∧ canonical tree = name) ↔
      decodeType text = .ok name := by
  constructor
  · rintro ⟨tree, hfits, rfl, rfl⟩
    exact hfits.decodeType
  · intro hdecode
    obtain ⟨tree, ⟨htext, hlegal, hnesting⟩, hname⟩ := exists_spells_of_decodeType hdecode
    rw [Nat.zero_add] at hnesting
    exact ⟨tree, ⟨hlegal, hnesting⟩, by rw [← htext, String.ofList_toList], hname⟩

/-- A type may stand as a return type if it is one, or an array of `void`. -/
lemma exists_returnType_iff {text name : String} :
    (∃ tree : TypeTree, (tree.Legal true ∧ tree.nesting ≤ 256) ∧ String.ofList tree.print = text ∧
      canonical tree = name) ↔ IsReturnType text name ∨ IsVoidArray text name := by
  constructor
  · rintro ⟨tree, ⟨hlegal, hnesting⟩, rfl, rfl⟩
    obtain hlegal | ⟨dimensions, rfl⟩ := TypeTree.legal_true_iff.mp hlegal
    · exact .inl (.inr (TypeTree.Fits.mk hlegal hnesting).decodeType)
    · by_cases hdimensions : dimensions = 0
      · subst hdimensions
        exact .inl (.inl ⟨by rw [print_voidArray]; rfl, by rw [canonical_voidArray]; rfl⟩)
      · refine .inr ⟨dimensions, Nat.pos_of_ne_zero hdimensions, ?_, canonical_voidArray dimensions⟩
        rw [print_voidArray]
  · rintro ((⟨rfl, rfl⟩ | hdecode) | ⟨dimensions, -, rfl, rfl⟩)
    · exact ⟨voidArray 0,
        readable_voidArray 0, by rw [print_voidArray]; rfl, by rw [canonical_voidArray]; rfl⟩
    · obtain ⟨tree, htree, htext, hname⟩ := exists_fits_iff.mpr hdecode
      exact ⟨tree, ⟨htree.legal.voidAllowed, htree.nesting_le⟩, htext, hname⟩
    · refine ⟨voidArray dimensions, readable_voidArray dimensions, ?_,
        canonical_voidArray dimensions⟩
      rw [print_voidArray]

/-- Whether a return type is an array of `void` can be seen from its text. -/
lemma not_isVoidArray_of_isReturnType {text name name' : String} (h : IsReturnType text name) :
    ¬IsVoidArray text name' := by
  rintro ⟨dimensions, hdimensions, rfl, -⟩
  obtain ⟨hvoid, hflat⟩ := readable_voidArray dimensions
  obtain ⟨htext, -⟩ | hdecode := h
  · have hlength := congrArg String.length htext
    rw [String.length_ofList, List.length_append, List.length_replicate] at hlength
    have hone : dimensions + 1 = 1 := hlength
    omega
  · obtain ⟨tree, hfits, htext, -⟩ := exists_fits_iff.mpr hdecode
    rw [← print_voidArray] at htext
    have hprint : tree.print = (voidArray dimensions).print := String.ofList_inj.mp htext
    have htree :=
      TypeTree.eq_of_print_eq hfits.legal.voidAllowed hfits.nesting_le hvoid hflat hprint
    rw [htree] at hfits
    exact not_legal_voidArray dimensions hfits.legal

/-! ## From trees to texts -/

/-- Two lists go together item by item if both come from one list. -/
lemma forall₂_iff_exists_map {α β γ : Type} {accepted : α → Prop} {first : α → β} {second : α → γ}
    {together : β → γ → Prop}
    (h : ∀ b c, together b c ↔ ∃ item, accepted item ∧ first item = b ∧ second item = c)
    {firsts : List β} {seconds : List γ} :
    List.Forall₂ together firsts seconds ↔
      ∃ items : List α, (∀ item ∈ items, accepted item) ∧ items.map first = firsts ∧
        items.map second = seconds := by
  constructor
  · intro hall
    induction hall with
    | nil => exact ⟨[], by simp, rfl, rfl⟩
    | cons hpair _ ih =>
        obtain ⟨item, hitem, rfl, rfl⟩ := (h _ _).mp hpair
        obtain ⟨items, hitems, rfl, rfl⟩ := ih
        exact ⟨item :: items, List.forall_mem_cons.mpr ⟨hitem, hitems⟩, rfl, rfl⟩
  · rintro ⟨items, hitems, rfl, rfl⟩
    rw [List.forall₂_map_left_iff, List.forall₂_map_right_iff, List.forall₂_same]
    exact fun item hitem => (h _ _).mpr ⟨item, hitems item hitem, rfl, rfl⟩

/-- What a list of at most one item was made from is a list of at most one item. -/
lemma exists_toList_eq_of_map_eq {α β : Type} {make : α → β} {items : List α} {made : Option β}
    (h : items.map make = made.toList) : ∃ item : Option α, item.toList = items ∧
      item.map make = made := by
  cases made with
  | none => exact ⟨none, (List.map_eq_nil_iff.mp h).symm, rfl⟩
  | some result =>
      obtain ⟨item, rfl, rfl⟩ := List.map_eq_singleton_iff.mp h
      exact ⟨some item, rfl, rfl⟩

lemma forall₂_decodeType_iff {texts names : List String} :
    List.Forall₂ (fun text name => decodeType text = .ok name) texts names ↔
      ∃ trees : List TypeTree, (∀ tree ∈ trees, tree.Fits) ∧
        trees.map (fun tree => String.ofList tree.print) = texts ∧
        trees.map canonical = names :=
  forall₂_iff_exists_map fun _ _ => exists_fits_iff.symm

/-- The pieces of a formal parameter. -/
def ParameterTree.written (parameter : ParameterTree) : ParameterText where
  name := String.ofList parameter.name
  classBound := parameter.classBound.map fun bound => String.ofList bound.print
  interfaceBounds := parameter.interfaceBounds.map fun bound => String.ofList bound.print

namespace ParameterTree

lemma bounds_written (parameter : ParameterTree) :
    parameter.written.bounds = parameter.bounds.map fun bound => String.ofList bound.print := by
  rw [ParameterText.bounds, written, bounds, List.map_append, Option.toList_map]

lemma text_written (parameter : ParameterTree) :
    parameter.written.text = String.ofList parameter.print := by
  apply String.toList_inj.mp
  cases hbound : parameter.classBound <;>
    simp [ParameterText.text, written, print, hbound, String.toList_join, List.flatMap_map]

/-- A formal parameter is reported as it is written if its bounds are types. -/
lemma exists_tree_iff (written : ParameterText) (formal : FormalTypeParameter) :
    (∃ parameter : ParameterTree, (∀ bound ∈ parameter.bounds, bound.Fits) ∧
      parameter.written = written ∧
      parameter.canonical = formal) ↔ written.Says formal := by
  constructor
  · rintro ⟨parameter, hfits, rfl, rfl⟩
    refine ⟨rfl, ?_⟩
    rw [bounds_written]
    exact forall₂_decodeType_iff.mpr ⟨parameter.bounds, hfits, rfl, rfl⟩
  · obtain ⟨name, bounds⟩ := formal
    rintro ⟨hname, hbounds⟩
    obtain ⟨trees, hfits, htexts, rfl⟩ := forall₂_decodeType_iff.mp hbounds
    obtain ⟨first, others, rfl, hfirst, hothers⟩ := List.map_eq_append_iff.mp htexts
    obtain ⟨classBound, rfl, hclass⟩ := exists_toList_eq_of_map_eq hfirst
    refine ⟨⟨written.name.toList, classBound, others⟩, hfits, ?_, ?_⟩
    · rw [ParameterTree.written, String.ofList_toList, hclass, hothers]
    · rw [canonical, String.ofList_toList, hname]

lemma precedes_canonical_iff {parameter successor : ParameterTree} :
    parameter.canonical.Precedes successor.canonical ↔ parameter.Precedes successor := by
  have hbounds : parameter.canonical.bounds = parameter.bounds.map Signature.canonical := rfl
  rw [FormalTypeParameter.Precedes, Precedes, hbounds, ne_eq, List.map_eq_nil_iff, canonical,
    String.toList_ofList]

end ParameterTree

lemma Separable.separated {parameters : List ParameterTree} (h : Separable parameters) :
    Separated (parameters.map ParameterTree.canonical) where
  not_mem_name := by
    intro formal hmem hcolon
    obtain ⟨parameter, hparameter, rfl⟩ := List.mem_map.mp hmem
    rw [ParameterTree.canonical, String.toList_ofList] at hcolon
    exact (h.readable parameter hparameter).not_mem_name ':' hcolon List.mem_cons_self
  precedes :=
    (List.isChain_map _).mpr (h.precedes.imp fun _ _ => ParameterTree.precedes_canonical_iff.mpr)

lemma separable_of_separated {parameters : List ParameterTree}
    (hfits : ∀ parameter ∈ parameters, ∀ bound ∈ parameter.bounds, bound.Fits)
    (h : Separated (parameters.map ParameterTree.canonical)) : Separable parameters where
  readable := by
    intro parameter hmem
    have hname := h.not_mem_name parameter.canonical (List.mem_map_of_mem hmem)
    rw [ParameterTree.canonical, String.toList_ofList] at hname
    exact ⟨fun c hc hcolon => hname (List.mem_singleton.mp hcolon ▸ hc), hfits parameter hmem⟩
  precedes := ((List.isChain_map _).mp h.precedes).imp fun _ _ =>
    ParameterTree.precedes_canonical_iff.mp

/-- The pieces of a method signature. -/
def MethodTree.written (tree : MethodTree) : MethodText where
  formals := tree.typeParameters.map ParameterTree.written
  parameters := tree.parameters.map fun type => String.ofList type.print
  returnType := String.ofList tree.returnType.print
  exceptions := tree.exceptions.map fun type => String.ofList type.print

namespace MethodTree

lemma text_written (tree : MethodTree) : tree.written.text = String.ofList tree.print := by
  apply String.toList_inj.mp
  cases hformals : tree.typeParameters <;>
    simp [MethodText.text, written, print, printParameters, hformals, ParameterTree.text_written,
      String.toList_join, List.flatMap_map]

/-- A readable signature is known by its text. -/
lemma Readable.eq_of_print_eq {tree tree' : MethodTree} (h : tree.Readable) (h' : tree'.Readable)
    (hprint : tree.print = tree'.print) : tree = tree' := by
  have hreads := Parser.readsBefore_methodTree h
  rw [hprint] at hreads
  exact hreads.unique (Parser.readsBefore_methodTree h')

/-- Cut into pieces, a readable signature has its types in them. -/
lemma exists_tree_iff {written : MethodText} {signature : MethodSignature} :
    (∃ tree : MethodTree, tree.Readable ∧ tree.written = written ∧ tree.canonical = signature) ↔
      Separated signature.typeParameters ∧
        written.Says (fun text name => IsReturnType text name ∨
          IsVoidArray text name) signature := by
  have hformal (written : ParameterText) (formal : FormalTypeParameter) :=
    (ParameterTree.exists_tree_iff written formal).symm
  constructor
  · rintro ⟨tree, hreadable, rfl, rfl⟩
    obtain ⟨hformals, hparameters, hreturn, hnesting, hexceptions⟩ := hreadable
    refine ⟨hformals.separated, ⟨?_, ?_, ?_, ?_⟩⟩
    · exact (forall₂_iff_exists_map hformal).mpr
        ⟨tree.typeParameters, fun formal hmem =>
          (hformals.readable formal hmem).fits_of_mem, rfl, rfl⟩
    · exact forall₂_decodeType_iff.mpr ⟨tree.parameters, hparameters, rfl, rfl⟩
    · exact exists_returnType_iff.mp ⟨tree.returnType, ⟨hreturn, hnesting⟩, rfl, rfl⟩
    · exact forall₂_decodeType_iff.mpr ⟨tree.exceptions, hexceptions, rfl, rfl⟩
  · obtain ⟨formals, parameters, returnType, exceptions⟩ := signature
    obtain ⟨formalTexts, parameterTexts, returnText, exceptionTexts⟩ := written
    rintro ⟨hseparated, hformals, hparameters, hreturn, hexceptions⟩
    obtain ⟨formalTrees, hfit, rfl, rfl⟩ := (forall₂_iff_exists_map hformal).mp hformals
    obtain ⟨parameterTrees, hparameterTrees, rfl, rfl⟩ := forall₂_decodeType_iff.mp hparameters
    obtain ⟨returnTree, ⟨hlegal, hnesting⟩, rfl, rfl⟩ := exists_returnType_iff.mpr hreturn
    obtain ⟨exceptionTrees, hexceptionTrees, rfl, rfl⟩ := forall₂_decodeType_iff.mp hexceptions
    have hseparable := separable_of_separated hfit hseparated
    exact ⟨⟨formalTrees, parameterTrees, returnTree, exceptionTrees⟩,
      ⟨hseparable, hparameterTrees, hlegal, hnesting, hexceptionTrees⟩, rfl, rfl⟩

end MethodTree

end Signature

namespace MethodSignature

variable {text : String} {signature : MethodSignature}

lemma decode_eq_ok_iff_exists_text :
    decode text = .ok signature ↔
      Separated signature.typeParameters ∧ ∃ written : MethodText, written.text = text ∧
        written.Says (fun text name => IsReturnType text name ∨
          IsVoidArray text name) signature := by
  rw [decode_eq_ok_iff]
  constructor
  · rintro ⟨tree, hreadable, rfl, rfl⟩
    obtain ⟨hseparated, hpieces⟩ := MethodTree.exists_tree_iff.mp ⟨tree, hreadable, rfl, rfl⟩
    exact ⟨hseparated, tree.written, tree.text_written, hpieces⟩
  · rintro ⟨hseparated, written, rfl, hpieces⟩
    obtain ⟨tree, hreadable, rfl, hcanonical⟩ :=
      MethodTree.exists_tree_iff.mpr ⟨hseparated, hpieces⟩
    exact ⟨tree, hreadable, tree.text_written.symm, hcanonical⟩

/-- There is one way to cut a text into what a signature reports. -/
lemma eq_of_text_eq {written written' : MethodText}
    (hseparated : Separated signature.typeParameters)
    (h : written.Says (fun text name => IsReturnType text name ∨ IsVoidArray text name) signature)
    (h' : written'.Says (fun text name => IsReturnType text name ∨ IsVoidArray text name) signature)
    (htext : written.text = written'.text) : written = written' := by
  obtain ⟨tree, hreadable, rfl, -⟩ := MethodTree.exists_tree_iff.mpr ⟨hseparated, h⟩
  obtain ⟨tree', hreadable', rfl, -⟩ := MethodTree.exists_tree_iff.mpr ⟨hseparated, h'⟩
  rw [MethodTree.text_written, MethodTree.text_written] at htext
  rw [hreadable.eq_of_print_eq hreadable' (String.ofList_inj.mp htext)]

/-- **A method signature is accepted if it is made of types.**  It can be cut into formal
parameters, parameters, a return type and thrown types, each of which is a type by itself and
reported as what it is by itself.  The return type alone may also be `void`, and, since brackets do
not take back what is allowed, an array of `void`; and the text says which. -/
theorem decode_eq_ok_iff_made_of_types :
    (decode text = .ok signature ↔
      Separated signature.typeParameters ∧ ∃ written : MethodText, written.text = text ∧
        written.Says (fun text name => IsReturnType text name ∨ IsVoidArray text name) signature) ∧
    (decode text = .ok signature →
      ((∃ written : MethodText, written.text = text ∧ written.Says IsReturnType signature) ↔
        ¬∃ written : MethodText, written.text = text ∧ written.Says IsVoidArray signature)) := by
  refine ⟨decode_eq_ok_iff_exists_text, fun hdecode => ?_⟩
  obtain ⟨hseparated, written, rfl, hpieces⟩ := decode_eq_ok_iff_exists_text.mp hdecode
  constructor
  · rintro ⟨legal, hlegal, hreturn⟩ ⟨void, hvoid, harray⟩
    obtain rfl :=
      eq_of_text_eq hseparated (hreturn.mono fun _ _ => .inl) (harray.mono fun _ _ => .inr)
      (hlegal.trans hvoid.symm)
    exact not_isVoidArray_of_isReturnType hreturn.returnType harray.returnType
  · intro hnone
    refine ⟨written, rfl, hpieces.formals, hpieces.parameters, ?_, hpieces.exceptions⟩
    refine hpieces.returnType.resolve_right fun harray => hnone ⟨written, rfl, ?_⟩
    exact ⟨hpieces.formals, hpieces.parameters, harray, hpieces.exceptions⟩

/-- An array of `void` is accepted as a return type, though it is neither `void` nor a type. -/
theorem decode_voidArray :
    decode "()[V" = .ok ⟨[], [], "void[]", []⟩ ∧
    ¬∃ written : MethodText, written.text = "()[V" ∧
      written.Says IsReturnType ⟨[], [], "void[]", []⟩ := by
  refine ⟨by rfl, ?_⟩
  rintro ⟨⟨formals, parameters, returnType, exceptions⟩, htext, hformals, hparameters,
    hreturn, hexceptions⟩
  obtain rfl := List.forall₂_nil_right_iff.mp hformals
  obtain rfl := List.forall₂_nil_right_iff.mp hparameters
  obtain rfl := List.forall₂_nil_right_iff.mp hexceptions
  obtain rfl : returnType = "[V" := by
    have hlist := congrArg String.toList htext
    simpa [MethodText.text, String.toList_join, ← String.toList_inj] using hlist
  obtain ⟨hvoid, -⟩ | hdecode := hreturn
  · exact absurd hvoid (by decide)
  · have hrefused : decodeType "[V" = .error (.unexpected "[V" 86 1) := by rfl
    rw [hrefused] at hdecode
    cases hdecode

end MethodSignature

end JarFacts
