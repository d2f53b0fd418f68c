import Mathlib.Tactic.Common
import JarFacts.Text.Split

/-!
# Text that was cut at a separator

What stands before the last separator is told from it and from what follows it
(`cutAtLast_beforeLast`). Cutting at every separator is undone by joining, and joining by cutting
where no part holds the separator (`intercalate_separated`, `separated_intercalate`).
-/

namespace JarFacts.Text

/-! ## At the last separator -/

/-- The text `before` is what stands before the last `sep` of a text; it is empty where there is
none. -/
def CutAtLast (sep : Char) (text before : String) : Prop :=
  (∃ after, sep ∉ after ∧ text.toList = before.toList ++ sep :: after) ∨
  (sep ∉ text.toList ∧ before = "")

lemma splitAtLast?_eq_none {sep : Char} {text : List Char} (h : splitAtLast? sep text = none) :
    sep ∉ text := by
  induction text with
  | nil => exact List.not_mem_nil
  | cons c rest ih =>
      unfold splitAtLast? at h
      split at h
      next => cases h
      next hrest =>
        split at h
        next => cases h
        next hsep => exact List.not_mem_cons_of_ne_of_not_mem (Ne.symm hsep) (ih hrest)

lemma splitAtLast?_eq_some {sep : Char} {text before after : List Char}
    (h : splitAtLast? sep text = some (before, after)) : sep ∉ after ∧
    text = before ++ sep :: after := by
  induction text generalizing before with
  | nil => cases h
  | cons c rest ih =>
      unfold splitAtLast? at h
      split at h
      next found last hrest =>
        cases h
        obtain ⟨hafter, hsplit⟩ := ih hrest
        exact ⟨hafter, congrArg (c :: ·) hsplit⟩
      next hrest =>
        split at h
        next hsep =>
          cases h
          exact ⟨splitAtLast?_eq_none hrest, by rw [hsep]; rfl⟩
        next => cases h

lemma cutAtLast_beforeLast (sep : Char) (text : String) :
    CutAtLast sep text (beforeLast sep text) := by
  unfold beforeLast
  cases hsplit : splitAtLast? sep text.toList with
  | none => exact .inr ⟨splitAtLast?_eq_none hsplit, rfl⟩
  | some parts =>
      obtain ⟨hafter, htext⟩ := splitAtLast?_eq_some hsplit
      exact .inl ⟨parts.2, hafter, by simpa using htext⟩

lemma splitAtLast?_of_not_mem {sep : Char} {text : List Char} (h : sep ∉ text) :
    splitAtLast? sep text = none := by
  rw [Option.eq_none_iff_forall_ne_some]
  intro parts hsome
  obtain ⟨-, rfl⟩ := splitAtLast?_eq_some hsome
  exact h (List.mem_append_right _ List.mem_cons_self)

lemma splitAtLast?_append {sep : Char} {after : List Char} (h : sep ∉ after) (before : List Char) :
    splitAtLast? sep (before ++ sep :: after) = some (before, after) := by
  induction before with
  | nil =>
      rw [List.nil_append, splitAtLast?, splitAtLast?_of_not_mem h]
      simp
  | cons c before ih => rw [List.cons_append, splitAtLast?, ih]

/-- A text is cut at its last separator in one way. -/
lemma CutAtLast.eq_beforeLast {sep : Char} {text before : String} (h : CutAtLast sep text before) :
    before = beforeLast sep text := by
  obtain ⟨after, hafter, htext⟩ | ⟨hnone, rfl⟩ := h
  · rw [beforeLast, htext, splitAtLast?_append hafter]
    exact String.ofList_toList.symm
  · rw [beforeLast, splitAtLast?_of_not_mem hnone]

/-! ## At every separator -/

lemma separated_of_not_mem {sep : Char} {text : List Char} (h : sep ∉ text) :
    separated sep text = [text] := by
  induction text with
  | nil => rfl
  | cons c rest ih =>
      have hrest := ih fun hmem => h (List.mem_cons_of_mem _ hmem)
      have hc : c ≠ sep := fun heq => h (heq ▸ List.mem_cons_self)
      rw [separated, hrest]
      simp [hc]

lemma separated_ne_nil (sep : Char) (text : List Char) : separated sep text ≠ [] := by
  cases text with
  | nil => exact List.cons_ne_nil _ _
  | cons c rest =>
      rw [separated]
      split
      · exact List.cons_ne_nil _ _
      · split <;> exact List.cons_ne_nil _ _

lemma separated_append (sep : Char) (first second : List Char) :
    separated sep (first ++ sep :: second) = separated sep first ++ separated sep second := by
  induction first with
  | nil =>
      rw [List.nil_append, separated]
      cases hsecond : separated sep second with
      | nil => exact absurd hsecond (separated_ne_nil sep second)
      | cons part parts => simp [separated, hsecond]
  | cons c rest ih =>
      rw [List.cons_append, separated, separated, ih]
      cases hrest : separated sep rest with
      | nil => exact absurd hrest (separated_ne_nil sep rest)
      | cons part parts =>
          simp only [List.cons_append]
          split <;> rfl

lemma intercalate_append {sep : Char} {first second : List (List Char)} (hfirst : first ≠ [])
    (hsecond : second ≠ []) :
    [sep].intercalate (first ++ second) =
      [sep].intercalate first ++ sep :: [sep].intercalate second := by
  induction first with
  | nil => exact absurd rfl hfirst
  | cons part rest ih =>
      cases rest with
      | nil =>
          cases second with
          | nil => exact absurd rfl hsecond
          | cons next more => simp [List.intercalate_cons_cons, List.intercalate_singleton]
      | cons next more =>
          have hrest := ih (List.cons_ne_nil _ _)
          simp only [List.cons_append, List.intercalate_cons_cons] at hrest ⊢
          rw [hrest]
          simp

lemma intercalate_separated (sep : Char) (text : List Char) :
    [sep].intercalate (separated sep text) = text := by
  induction text with
  | nil => rfl
  | cons c rest ih =>
      rw [separated]
      cases hrest : separated sep rest with
      | nil => exact absurd hrest (separated_ne_nil sep rest)
      | cons part parts =>
          rw [hrest] at ih
          dsimp only
          split
          · rename_i hc
            rw [List.intercalate_cons_cons, ih, hc]
            rfl
          · cases parts with
            | nil =>
                rw [List.intercalate_singleton] at ih ⊢
                rw [ih]
            | cons next more =>
                rw [List.intercalate_cons_cons] at ih ⊢
                rw [← ih]
                rfl

lemma separated_intercalate {sep : Char} {parts : List (List Char)} (hparts : parts ≠ [])
    (h : ∀ part ∈ parts, sep ∉ part) : separated sep ([sep].intercalate parts) = parts := by
  induction parts with
  | nil => exact absurd rfl hparts
  | cons part rest ih =>
      have hpart : separated sep part = [part] := separated_of_not_mem (h part List.mem_cons_self)
      cases rest with
      | nil => rw [List.intercalate_singleton, hpart]
      | cons next more =>
          have hrest := ih (List.cons_ne_nil _ _) fun part hmem =>
              h part (List.mem_cons_of_mem _ hmem)
          rw [List.intercalate_cons_cons, List.append_assoc, List.singleton_append,
            separated_append, hpart, hrest]
          rfl

lemma not_mem_of_mem_separated {sep : Char} {text part : List Char}
    (h : part ∈ separated sep text) : sep ∉ part := by
  induction text generalizing part with
  | nil =>
      rw [separated, List.mem_singleton] at h
      simp [h]
  | cons c rest ih =>
      rw [separated] at h
      cases hrest : separated sep rest with
      | nil => exact absurd hrest (separated_ne_nil sep rest)
      | cons first parts =>
          rw [hrest] at h ih
          dsimp only at h
          split at h
          · rcases List.mem_cons.mp h with rfl | hmem
            · exact List.not_mem_nil
            · exact ih hmem
          · rename_i hc
            rcases List.mem_cons.mp h with rfl | hmem
            · rw [List.mem_cons, not_or]
              exact ⟨Ne.symm hc, ih List.mem_cons_self⟩
            · exact ih (List.mem_cons_of_mem _ hmem)

end JarFacts.Text
