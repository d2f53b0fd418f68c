import Mathlib.Data.List.Nodup
import Mathlib.Order.Bounds.Basic
import JarFacts.Jar.Output
import JarFacts.Proofs.Extract.Containment
import JarFacts.Proofs.Storage.Parent
import JarFacts.Proofs.Text.Digits

/-!
# Every archive has a directory of its own

An archive gets the directory that is named after it, unless an earlier one was given that; then it
gets the name with the smallest number that makes a new one (`Suits`).  The search for the number
comes to an end: of the numbers that are tried one is free, since they are more than the names there
are.  No directory is given twice, however many archives are called the same, and whatever they are
called (`every_archive_has_its_own_directory`).

Most of them are neighbours below one root: each is the root and a plain name.  Dots make the
exception, for which a number makes up again: `numbered` always gives a plain name.
-/

namespace JarFacts

namespace Path

variable {path name other root : String}

/-- The name of the file without its extension is one that a directory can have. -/
def HasStem (path : String) : Prop :=
  ∃ stem ∈ stem? path, stem ≠ "." ∧ stem ≠ ".."

instance (path : String) : Decidable (HasStem path) :=
  inferInstanceAs (Decidable (∃ stem ∈ stem? path, stem ≠ "." ∧ stem ≠ ".."))

/-- The names among the steps of a path are plain. -/
lemma isPlain_of_mem_components (h : .normal name ∈ components path) : IsPlain name := by
  have hcomponent : ∀ {segment}, segment ∈ segments path →
      component? segment = some (.normal name) → IsPlain name := by
    intro segment hmem hsome
    unfold component? at hsome
    split at hsome
    · cases hsome
    · rename_i hidle
      rw [not_or] at hidle
      split at hsome
      · cases hsome
      · rename_i hparent
        cases hsome
        exact ⟨hidle.1, hidle.2, hparent, slash_not_mem_of_mem_segments hmem⟩
  unfold components at h
  cases hsegments : segments path with
  | nil => exact absurd hsegments (segments_ne_nil path)
  | cons first rest =>
      rw [hsegments] at h hcomponent
      rcases List.mem_append.mp h with hhead | hrest
      · split at hhead
        · simp at hhead
        · split at hhead
          · simp at hhead
          · exact hcomponent List.mem_cons_self (Option.mem_toList.mp hhead)
      · obtain ⟨segment, hmem, hsome⟩ := List.mem_filterMap.mp hrest
        exact hcomponent (List.mem_cons_of_mem _ hmem) hsome

lemma isPlain_of_fileName? (h : fileName? path = some name) : IsPlain name := by
  unfold fileName? at h
  split at h
  · rename_i found hfound
    cases h
    exact isPlain_of_mem_components (List.mem_of_getLast? hfound)
  · cases h

/-! ## Stems -/

/-- The stem is the file name, or what stands in front of a dot and an extension. -/
lemma stem?_cases {stem : String} (h : stem? path = some stem) :
    fileName? path = some stem ∨ stem ≠ "" ∧ ∃ extension, '.' ∉ extension.toList ∧
      fileName? path = some (stem ++ "." ++ extension) := by
  obtain ⟨name, hname, rfl⟩ := Option.map_eq_some_iff.mp h
  rw [hname]
  unfold splitName
  cases hsplit : Text.splitAtLast? '.' name.toList with
  | none => exact .inl rfl
  | some parts =>
      obtain ⟨before, after⟩ := parts
      obtain ⟨hafter, htext⟩ := Text.splitAtLast?_eq_some hsplit
      cases before with
      | nil => exact .inl rfl
      | cons c rest =>
          refine .inr ⟨by simp, String.ofList after, by rwa [String.toList_ofList], ?_⟩
          rw [Option.some.injEq, ← String.toList_inj, htext]
          simp

/-- A stem is a part of a segment, so that no slash is in it. -/
lemma isSegment_of_stem? {stem : String} (h : stem? path = some stem) : IsSegment stem := by
  rcases stem?_cases h with hname | ⟨hempty, extension, -, hname⟩
  · exact (isPlain_of_fileName? hname).isSegment
  · refine ⟨hempty, fun hmem => (isPlain_of_fileName? hname).2.2.2 ?_⟩
    rw [String.toList_append, String.toList_append, List.append_assoc]
    exact List.mem_append_left _ hmem

/-- The file is called by a step of dots and an extension, like `..jar` and `...jar`. -/
def IsDotted (path : String) : Prop :=
  ∃ dots extension, (dots = "." ∨ dots = "..") ∧ '.' ∉ extension.toList ∧
    fileName? path = some (dots ++ "." ++ extension)

/-- A file that is not called so has no stem that means another directory. -/
lemma isPlain_of_not_isDotted (h : ¬IsDotted path) {stem : String}
    (hstem : stem? path = some stem) : IsPlain stem := by
  rcases stem?_cases hstem with hname | ⟨-, extension, hextension, hname⟩
  · exact isPlain_of_fileName? hname
  · obtain ⟨hempty, hslash⟩ := isSegment_of_stem? hstem
    refine ⟨hempty, ?_, ?_, hslash⟩
    · exact fun hdots => h ⟨stem, extension, .inl hdots, hextension, hname⟩
    · exact fun hdots => h ⟨stem, extension, .inr hdots, hextension, hname⟩

lemma IsDotted.exists_stem? (h : IsDotted path) :
    ∃ dots, (dots = "." ∨ dots = "..") ∧ stem? path = some dots := by
  obtain ⟨dots, extension, hdots, hextension, hname⟩ := h
  refine ⟨dots, hdots, ?_⟩
  have hsplit : Text.splitAtLast? '.' (dots ++ "." ++ extension).toList =
      some (dots.toList, extension.toList) := by
    have htext : (dots ++ "." ++ extension).toList = dots.toList ++ '.' :: extension.toList := by
      simp
    rw [htext, Text.splitAtLast?_append hextension]
  have hsplitName : (splitName (dots ++ "." ++ extension)).1 = dots := by
    rw [splitName, hsplit]
    rcases hdots with rfl | rfl <;> rfl
  rw [stem?, hname, Option.map_some, hsplitName]

lemma HasStem.not_isDotted (h : HasStem path) : ¬IsDotted path := by
  intro hdotted
  obtain ⟨stem, hstem, hdot, hparent⟩ := h
  obtain ⟨dots, hdots, hdotted⟩ := hdotted.exists_stem?
  obtain rfl : dots = stem := Option.some.inj (hdotted.symm.trans hstem)
  exact hdots.elim hdot hparent

/-! ## Neighbours -/

/-- The steps to something in a directory are those to the directory, and one more.  A dot is a step
only where nothing stands in front of it. -/
lemma components_join (h : IsSegment name) (hdot : root = "" → name ≠ ".") :
    components (join root name) = components root ++ (component? name).toList := by
  by_cases hroot : root = ""
  · have hsegments : segments name = [name] := segments_of_isSegment h
    have hempty : components "" = [] := by decide
    rw [hroot, join_of_isSegment h, if_pos (.inl rfl), String.empty_append, hempty]
    simp [components, hsegments, not_isAbsolute_of_isSegment h, hdot hroot]
  · obtain ⟨front, hfront, hsegments, hjoin⟩ := exists_segments_join hroot
    obtain ⟨first, rest, rfl⟩ := List.exists_cons_of_ne_nil hfront
    have habsolute := isAbsolute_join h hroot
    have hidle : component? "" = none := by decide
    have hlast : [name].filterMap component? = (component? name).toList := by
      cases hname : component? name with
      | none => rw [List.filterMap_cons_none hname]; rfl
      | some component => rw [List.filterMap_cons_some hname]; rfl
    rcases hsegments with hsegments | hsegments
    · simp only [components, hjoin name h, hsegments, habsolute, List.cons_append,
        List.filterMap_append, hlast, List.append_assoc]
    · simp only [components, hjoin name h, hsegments, habsolute, List.cons_append,
        List.filterMap_append, hlast, List.append_assoc, List.filterMap_cons, hidle,
        List.filterMap_nil, List.append_nil]

lemma components_join_of_isPlain (h : IsPlain name) (root : String) :
    components (join root name) = components root ++ [.normal name] := by
  rw [components_join h.isSegment fun _ => h.2.1, component?,
    if_neg (by simp [h.1, h.2.1]), if_neg h.2.2.1]
  rfl

/-- Neighbours are the same only if they have one name. -/
lemma components_join_injective (h : IsPlain name) (h' : IsPlain other)
    (hsame : components (join root name) = components (join root other)) : name = other := by
  rw [components_join_of_isPlain h, components_join_of_isPlain h'] at hsame
  simpa using hsame

end Path

namespace OutputDirectory

variable {root directory name : String} {taken assigned all past given : List String}

/-- The directory is something below the root, under a plain name. -/
def IsBelow (root directory : String) : Prop :=
  ∃ name, Path.IsPlain name ∧ directory = Path.join root name

/-- The directory is the root and one step more, which may be one of dots. -/
def IsStepFrom (root directory : String) : Prop :=
  ∃ name, Path.IsSegment name ∧ directory = Path.join root name

/-- To be among others is a matter of steps. -/
lemma isAmong_iff {others : List String} :
    isAmong directory others = true ↔ Path.components directory ∈ others.map Path.components := by
  rw [isAmong, List.any_eq_true, List.mem_map]
  refine exists_congr fun other => and_congr_right fun _ => ?_
  rw [Path.same, beq_iff_eq]
  exact eq_comm

lemma isAmong_of_mem {others : List String} (h : directory ∈ others) :
    isAmong directory others = true :=
  isAmong_iff.mpr (List.mem_map_of_mem h)

lemma same_eq_false_of_not_isAmong {others : List String} (h : isAmong directory others = false)
    {other : String} (hother : other ∈ others) : Path.same directory other = false := by
  rw [isAmong, List.any_eq_false] at h
  exact eq_false_of_ne_true (h other hother)

/-! ## Numbers -/

lemma toList_numbered (directory : String) (number : Nat) :
    (numbered directory number).toList = directory.toList ++ '-' :: Nat.toDigits 10 number := by
  simp [numbered, String.toList_append]

lemma numbered_injective (directory : String) {number other : Nat}
    (h : numbered directory number = numbered directory other) :
    number = other := by
  have hchars := congrArg String.toList h
  rw [toList_numbered, toList_numbered] at hchars
  have hdigits := List.tail_eq_of_cons_eq (List.append_cancel_left hchars)
  rw [← Text.digitsValue_toDigits number, hdigits, Text.digitsValue_toDigits]

/-- With a number even dots make a plain name. -/
lemma isPlain_numbered (h : Path.IsSegment name) (number : Nat) :
    Path.IsPlain (numbered name number) := by
  obtain ⟨-, hslash⟩ := h
  have hdash : '-' ∈ (numbered name number).toList := by simp [toList_numbered]
  refine ⟨?_, ?_, ?_, ?_⟩
  · intro heq
    rw [heq] at hdash
    exact absurd hdash (by decide)
  · intro heq
    rw [heq] at hdash
    exact absurd hdash (by decide)
  · intro heq
    rw [heq] at hdash
    exact absurd hdash (by decide)
  · rw [toList_numbered, List.mem_append, List.mem_cons]
    rintro (hmem | hmem | hmem)
    · exact hslash hmem
    · exact absurd hmem (by decide)
    · exact absurd (Text.isDigit_of_mem_toDigits hmem) (by decide)

lemma numbered_join (h : Path.IsSegment name) (number : Nat) :
    numbered (Path.join root name) number = Path.join root (numbered name number) := by
  rw [Path.join_of_isSegment h, Path.join_of_isPlain (isPlain_numbered h number)]
  split <;> simp [numbered, String.append_assoc]

lemma isBelow_numbered (h : IsStepFrom root directory) (number : Nat) :
    IsBelow root (numbered directory number) := by
  obtain ⟨name, hname, rfl⟩ := h
  exact ⟨_, isPlain_numbered hname number, numbered_join hname number⟩

/-- Different numbers lead to different places. -/
lemma components_numbered_injective (h : IsStepFrom root directory) :
    Function.Injective fun number => Path.components (numbered directory number) := by
  obtain ⟨name, hname, rfl⟩ := h
  intro number other hsame
  dsimp only at hsame
  rw [numbered_join hname, numbered_join hname] at hsame
  exact numbered_injective name
    (Path.components_join_injective (isPlain_numbered hname number)
      (isPlain_numbered hname other) hsame)

/-- What is found carries a number; the numbers in front of it are taken, and it is itself only if
it was the last to be tried. -/
lemma firstFree_cases (directory : String) (taken : List String) (tries number : Nat) :
    ∃ found, number ≤ found ∧ firstFree directory taken tries number = numbered directory found ∧
      (∀ before, number ≤ before → before < found →
        isAmong (numbered directory before) taken = true) ∧
      (isAmong (numbered directory found) taken = true → found = number + tries) := by
  induction tries generalizing number with
  | zero =>
      exact ⟨number, Nat.le_refl _, rfl, fun before hle hlt =>
        absurd hle (Nat.not_le_of_lt hlt), fun _ => rfl⟩
  | succ tries ih =>
      rw [firstFree]
      by_cases hamong : isAmong (numbered directory number) taken = true
      · rw [if_pos hamong]
        obtain ⟨found, hle, hfound, hbefore, hlast⟩ := ih (number + 1)
        refine ⟨found, by omega, hfound, fun before hle hlt => ?_, fun htaken => ?_⟩
        · rcases Nat.eq_or_lt_of_le hle with rfl | hgt
          · exact hamong
          · exact hbefore before hgt hlt
        · rw [hlast htaken]
          omega
      · rw [if_neg hamong]
        exact ⟨number, Nat.le_refl _, rfl, fun before hle hlt => absurd hle (Nat.not_le_of_lt hlt),
          fun htaken => absurd htaken hamong⟩

/-- There are more numbers to try than directories that are taken. -/
lemma exists_not_isAmong_numbered (h : IsStepFrom root directory) (taken : List String) :
    ∃ further ≤ taken.length, isAmong (numbered directory (2 + further)) taken = false := by
  by_contra hall
  push Not at hall
  have hnodup : ((List.range (taken.length + 1)).map fun further =>
      Path.components (numbered directory (2 + further))).Nodup := by
    refine List.nodup_range.map fun a b heq => ?_
    exact Nat.add_left_cancel (components_numbered_injective h heq)
  have hsubset : ((List.range (taken.length + 1)).map fun further =>
      Path.components (numbered directory (2 + further))) ⊆ taken.map Path.components := by
    intro steps hmem
    obtain ⟨further, hrange, rfl⟩ := List.mem_map.mp hmem
    have hle : further ≤ taken.length := Nat.lt_succ_iff.mp (List.mem_range.mp hrange)
    exact isAmong_iff.mp (eq_true_of_ne_false (hall further hle))
  have hlength := hnodup.length_le_of_subset hsubset
  simp only [List.length_map, List.length_range] at hlength
  omega

/-- The search ends at the smallest number from two on that is free. -/
lemma exists_isLeast_firstFree (h : IsStepFrom root directory) (taken : List String) :
    ∃ number, IsLeast {number | 2 ≤ number ∧
      isAmong (numbered directory number) taken = false} number ∧
      firstFree directory taken taken.length 2 = numbered directory number := by
  obtain ⟨found, hle, hfound, hbefore, hlast⟩ := firstFree_cases directory taken taken.length 2
  obtain ⟨further, hfurther, hfree⟩ := exists_not_isAmong_numbered h taken
  have hreached : found ≤ 2 + further := by
    by_contra hlt
    rw [hbefore (2 + further) (by omega) (by omega)] at hfree
    cases hfree
  have hnot : isAmong (numbered directory found) taken = false := by
    by_contra htaken
    have hend := hlast (eq_true_of_ne_false htaken)
    obtain rfl : found = 2 + further := by omega
    exact htaken hfree
  refine ⟨found, ⟨⟨hle, hnot⟩, fun number hnumber => ?_⟩, hfound⟩
  by_contra hlt
  have htaken := hbefore number hnumber.1 (Nat.lt_of_not_le hlt)
  rw [hnumber.2] at htaken
  cases htaken

/-! ## The archives one by one -/

/-- What an archive with the directory `directory` is given when the archives before it have the
directories `past` and were given `given`, and all of the run have `all`: its own directory if none
before has it, and else the one with the smallest number that no archive has and none was given.
What was given without a number is in `all` anyway. -/
structure Suits (all past given : List String) (directory own : String) : Prop where
  plain : isAmong directory past = false → own = directory
  numbered : isAmong directory past = true → ∃ number,
    IsLeast {number | 2 ≤ number ∧ isAmong (numbered directory number) all = false ∧
      isAmong (numbered directory number) given = false} number ∧ own = numbered directory number

/-- What is kept of the archives before: the directories they have, and besides those of all
archives the ones they were given. -/
structure Reached (all past given taken assigned : List String) : Prop where
  assigned_iff : ∀ name, isAmong name assigned = true ↔ isAmong name past = true
  taken_iff : ∀ name, isAmong name taken = true ↔ isAmong name all = true ∨
      isAmong name given = true

lemma reached_start (all : List String) : Reached all [] [] all [] :=
  ⟨fun _ => Iff.rfl, fun _ => by simp [isAmong]⟩

lemma isAmong_concat {others : List String} {other : String} :
    isAmong name (others ++ [other]) = true ↔ isAmong name others = true ∨
    Path.same name other = true := by
  simp [isAmong]

lemma isAmong_cons {others : List String} {other : String} :
    isAmong name (other :: others) = true ↔ Path.same name other = true ∨
    isAmong name others = true := by
  simp [isAmong]

lemma isAmong_of_same {others : List String} {other : String} (h : Path.same name other = true)
    (hother : isAmong other others = true) : isAmong name others = true := by
  rw [Path.same, beq_iff_eq] at h
  rw [isAmong_iff] at hother ⊢
  rwa [h]

lemma Reached.suits_plain (h : Reached all past given taken assigned)
    (hassigned : ¬isAmong directory assigned = true) :
    Suits all past given directory directory :=
  ⟨fun _ => rfl, fun hpast => absurd ((h.assigned_iff directory).mpr hpast) hassigned⟩

lemma Reached.suits_numbered (h : Reached all past given taken assigned)
    (hstep : IsStepFrom root directory) (hassigned : isAmong directory assigned = true) :
    Suits all past given directory (firstFree directory taken taken.length 2) := by
  obtain ⟨number, hleast, hfound⟩ := exists_isLeast_firstFree hstep taken
  have hfree :
      {number | 2 ≤ number ∧ isAmong (OutputDirectory.numbered directory number) taken = false} =
      {number | 2 ≤ number ∧ isAmong (OutputDirectory.numbered directory number) all = false ∧
        isAmong (OutputDirectory.numbered directory number) given = false} := by
    ext number
    simp only [Set.mem_ofPred_eq, ← Bool.not_eq_true, h.taken_iff, not_or]
  rw [hfree] at hleast
  refine ⟨fun hpast => ?_, fun _ => ⟨number, hleast, hfound⟩⟩
  rw [(h.assigned_iff directory).mp hassigned] at hpast
  cases hpast

/-- Behind an archive that got its own directory. -/
lemma Reached.concat_plain (h : Reached all past given taken assigned)
    (hdirectory : directory ∈ all) :
    Reached all (past ++ [directory]) (given ++ [directory]) taken (directory :: assigned) := by
  refine ⟨fun name => ?_, fun name => ?_⟩
  · rw [isAmong_cons, isAmong_concat, h.assigned_iff, or_comm]
  · rw [h.taken_iff, isAmong_concat, ← or_assoc]
    refine ⟨.inl, fun hname => hname.elim id fun hsame => .inl ?_⟩
    exact isAmong_of_same hsame (isAmong_of_mem hdirectory)

/-- Behind an archive that got one with a number. -/
lemma Reached.concat_numbered (h : Reached all past given taken assigned)
    (hassigned : isAmong directory assigned = true) (own : String) :
    Reached all (past ++ [directory]) (given ++ [own]) (own :: taken) assigned := by
  refine ⟨fun name => ?_, fun name => ?_⟩
  · rw [h.assigned_iff, isAmong_concat]
    refine ⟨.inl, fun hname => hname.elim id fun hsame => ?_⟩
    exact isAmong_of_same hsame ((h.assigned_iff directory).mp hassigned)
  · rw [isAmong_cons, h.taken_iff, isAmong_concat, or_comm, or_assoc]

/-- Each of the archives that are left gets what suits it. -/
lemma Reached.suits_assign (h : Reached all past given taken assigned) {plain : List String}
    (hplain : ∀ directory ∈ plain, directory ∈ all)
    (hall : ∀ directory ∈ all, IsStepFrom root directory) {index : Nat}
    {directory own : String} (hdirectory : plain[index]? = some directory)
    (hown : (assign taken assigned plain)[index]? = some own) :
    Suits all (past ++ plain.take index) (given ++ (assign taken assigned plain).take index)
      directory own := by
  induction plain generalizing past given taken assigned index with
  | nil => cases hdirectory
  | cons first plain ih =>
      rw [List.forall_mem_cons] at hplain
      obtain ⟨hfirst, hplain⟩ := hplain
      rw [assign] at hown ⊢
      by_cases hassigned : isAmong first assigned = true
      · simp only [if_pos hassigned] at hown ⊢
        cases index with
        | zero =>
            obtain rfl : first = directory := Option.some.inj hdirectory
            obtain rfl := Option.some.inj hown
            rw [List.take_zero, List.take_zero, List.append_nil, List.append_nil]
            exact h.suits_numbered (hall first hfirst) hassigned
        | succ index =>
            have hrest := ih (h.concat_numbered hassigned _) hplain hdirectory hown
            rwa [List.append_assoc, List.append_assoc] at hrest
      · simp only [if_neg hassigned] at hown ⊢
        cases index with
        | zero =>
            obtain rfl : first = directory := Option.some.inj hdirectory
            obtain rfl := Option.some.inj hown
            rw [List.take_zero, List.take_zero, List.append_nil, List.append_nil]
            exact h.suits_plain hassigned
        | succ index =>
            have hrest := ih (h.concat_plain hfirst) hplain hdirectory hown
            rwa [List.append_assoc, List.append_assoc] at hrest

/-- There are as many directories as archives, whatever the archives are called. -/
lemma length_assign (taken assigned plain : List String) :
    (assign taken assigned plain).length = plain.length := by
  induction plain generalizing taken assigned with
  | nil => rfl
  | cons directory plain ih =>
      rw [assign]
      split
      · exact congrArg (· + 1) (ih _ _)
      · exact congrArg (· + 1) (ih _ _)

lemma length_ofJars (root : String) (jars : List String) :
    (ofJars root jars).length = jars.length := by
  rw [ofJars, length_assign, List.length_map]

/-! ## The archives of a run -/

variable {jars : List String}

lemma isStepFrom_jarDirectory (root jar : String) : IsStepFrom root (jarDirectory root jar) := by
  refine ⟨(Path.stem? jar).getD "unnamed", ?_, rfl⟩
  cases hstem : Path.stem? jar with
  | none => exact ⟨by decide, by decide⟩
  | some stem => exact Path.isSegment_of_stem? hstem

/-- Each archive of a run gets what suits it. -/
lemma exists_suits_ofJars (root : String) {index : Nat} {jar : String}
    (hjar : jars[index]? = some jar) :
    ∃ own, (ofJars root jars)[index]? = some own ∧
      Suits (jars.map (jarDirectory root)) ((jars.take index).map (jarDirectory root))
        ((ofJars root jars).take index) (jarDirectory root jar) own := by
  have hindex : index < (ofJars root jars).length := by
    rw [length_ofJars]
    exact (List.getElem?_eq_some_iff.mp hjar).1
  have hplain : (jars.map (jarDirectory root))[index]? = some (jarDirectory root jar) := by
    rw [List.getElem?_map, hjar, Option.map_some]
  have hsteps : ∀ directory ∈ jars.map (jarDirectory root), IsStepFrom root directory := by
    intro directory hmem
    obtain ⟨jar, -, rfl⟩ := List.mem_map.mp hmem
    exact isStepFrom_jarDirectory root jar
  refine ⟨(ofJars root jars)[index], List.getElem?_eq_getElem hindex, ?_⟩
  have hsuits :=
    (reached_start (jars.map (jarDirectory root))).suits_assign (fun _ hmem => hmem) hsteps hplain
    (List.getElem?_eq_getElem hindex)
  rwa [List.nil_append, List.nil_append, ← List.map_take] at hsuits

/-- Of two archives the later one is not given what the earlier one was. -/
lemma Suits.same_eq_false {directory' own own' : String} (h' : Suits all past given directory' own')
    (hpast : directory ∈ past) (hgiven : own ∈ given) (hall : directory' ∈ all)
    (h : own = directory ∨ isAmong own all = false) : Path.same own own' = false := by
  have hsymm : ∀ first second, Path.same first second = Path.same second first := by
    intro first second
    simp [Path.same, Bool.beq_comm]
  cases hrepeats : isAmong directory' past with
  | true =>
      obtain ⟨number, hleast, rfl⟩ := h'.numbered hrepeats
      rw [hsymm]
      exact same_eq_false_of_not_isAmong hleast.1.2.2 hgiven
  | false =>
      obtain rfl := h'.plain hrepeats
      rcases h with rfl | hfree
      · rw [hsymm]
        exact same_eq_false_of_not_isAmong hrepeats hpast
      · exact same_eq_false_of_not_isAmong hfree hall

/-- What suits an archive is its own directory, or one that no archive of the run has. -/
lemma Suits.eq_or_not_isAmong {own : String} (h : Suits all past given directory own) :
    own = directory ∨ isAmong own all = false := by
  cases hrepeats : isAmong directory past with
  | true =>
      obtain ⟨number, hleast, rfl⟩ := h.numbered hrepeats
      exact .inr hleast.1.2.1
  | false => exact .inl (h.plain hrepeats)

lemma pairwise_ofJars (root : String) (jars : List String) :
    (ofJars root jars).Pairwise fun directory other => Path.same directory other = false := by
  rw [List.pairwise_iff_getElem]
  intro index index' hindex hindex' hlt
  rw [length_ofJars] at hindex hindex'
  obtain ⟨own, hown, hsuits⟩ := exists_suits_ofJars root (List.getElem?_eq_getElem hindex)
  obtain ⟨own', hown', hsuits'⟩ := exists_suits_ofJars root (List.getElem?_eq_getElem hindex')
  obtain ⟨hlt₁, rfl⟩ := List.getElem?_eq_some_iff.mp hown
  obtain ⟨hlt₂, rfl⟩ := List.getElem?_eq_some_iff.mp hown'
  have hpast : jarDirectory root jars[index] ∈ (jars.take index').map (jarDirectory root) :=
    List.mem_map_of_mem (List.mem_take_iff_getElem.mpr ⟨index, by omega, rfl⟩)
  have hgiven : (ofJars root jars)[index] ∈ (ofJars root jars).take index' :=
    List.mem_take_iff_getElem.mpr ⟨index, by omega, rfl⟩
  have hall : jarDirectory root jars[index'] ∈ jars.map (jarDirectory root) :=
    List.mem_map_of_mem (List.getElem_mem _)
  exact Suits.same_eq_false hsuits' hpast hgiven hall hsuits.eq_or_not_isAmong

lemma nodup_ofJars (root : String) (jars : List String) : (ofJars root jars).Nodup := by
  refine (pairwise_ofJars root jars).imp fun hsame heq => ?_
  rw [heq, Path.same, beq_self_eq_true] at hsame
  cases hsame

lemma isBelow_jarDirectory {jar : String} (h : ¬Path.IsDotted jar) (root : String) :
    IsBelow root (jarDirectory root jar) := by
  refine ⟨(Path.stem? jar).getD "unnamed", ?_, rfl⟩
  cases hstem : Path.stem? jar with
  | none => exact ⟨by decide, by decide, by decide, by decide⟩
  | some stem => exact Path.isPlain_of_not_isDotted h hstem

/-- Archives that are not called by dots are given neighbours below the root. -/
lemma isBelow_of_mem_ofJars (h : ∀ jar ∈ jars, ¬Path.IsDotted jar)
    (hmem : directory ∈ ofJars root jars) :
    IsBelow root directory := by
  obtain ⟨index, hdirectory⟩ := List.getElem?_of_mem hmem
  have hindex := (List.getElem?_eq_some_iff.mp hdirectory).1
  rw [length_ofJars] at hindex
  obtain ⟨own, hown, hsuits⟩ := exists_suits_ofJars root (List.getElem?_eq_getElem hindex)
  cases hdirectory.symm.trans hown
  cases hrepeats : isAmong (jarDirectory root jars[index])
    ((jars.take index).map (jarDirectory root)) with
  | true =>
      obtain ⟨number, -, rfl⟩ := hsuits.numbered hrepeats
      exact isBelow_numbered (isStepFrom_jarDirectory root _) number
  | false =>
      rw [hsuits.plain hrepeats]
      exact isBelow_jarDirectory (h _ (List.getElem_mem _)) root

/-- **Every archive gets a directory of its own.**  Whatever the archives of a run are called and
however often, there is one directory for each, in order, and no two of them are the same path.  An
archive gets the directory named after it if no earlier archive has the same; and otherwise that
with the smallest number from two on behind it for which the directory is neither that of any
archive of the run nor given to an earlier one. -/
theorem every_archive_has_its_own_directory (root : String) (jars : List String) :
    (ofJars root jars).length = jars.length ∧
    ((ofJars root jars).Pairwise fun directory other => Path.same directory other = false) ∧
    ∀ index jar, jars[index]? = some jar → ∃ own, (ofJars root jars)[index]? = some own ∧
      Suits (jars.map (jarDirectory root)) ((jars.take index).map (jarDirectory root))
        ((ofJars root jars).take index) (jarDirectory root jar) own :=
  ⟨length_ofJars root jars, pairwise_ofJars root jars, fun _ _ => exists_suits_ofJars root⟩

/-- The number two is passed over where an archive is called so itself. -/
theorem repeated_archive_has_its_own_directory :
    ofJars "out" ["a/lib.jar", "b/lib.jar", "c/lib-2.jar", "d/lib.jar"] =
      ["out/lib", "out/lib-3", "out/lib-2", "out/lib-4"] ∧
    ∃ own, (ofJars "out" ["a/lib.jar", "b/lib.jar", "c/lib-2.jar", "d/lib.jar"])[1]? = some own ∧
      Suits ["out/lib", "out/lib", "out/lib-2", "out/lib"] ["out/lib"]
        ["out/lib"] "out/lib" own := by
  have hgiven : ofJars "out" ["a/lib.jar", "b/lib.jar", "c/lib-2.jar", "d/lib.jar"] =
      ["out/lib", "out/lib-3", "out/lib-2", "out/lib-4"] := by decide +kernel
  have hplain : ["a/lib.jar", "b/lib.jar", "c/lib-2.jar", "d/lib.jar"].map (jarDirectory "out") =
      ["out/lib", "out/lib", "out/lib-2", "out/lib"] := by decide +kernel
  have hself :=
    (every_archive_has_its_own_directory "out"
    ["a/lib.jar", "b/lib.jar", "c/lib-2.jar", "d/lib.jar"]).2.2 1
    "b/lib.jar" rfl
  have hown : jarDirectory "out" "b/lib.jar" = "out/lib" := by decide +kernel
  rw [List.map_take, hplain, hgiven, hown, List.take_succ_cons, List.take_zero, List.take_succ_cons,
    List.take_zero] at hself
  rw [hgiven]
  exact ⟨rfl, hself⟩

end OutputDirectory

end JarFacts
