import Mathlib.Data.List.Basic
import Mathlib.Data.List.TakeWhile
import Mathlib.Tactic.Common
import JarFacts.Proofs.Storage.Volume

/-!
# The way to a path's parent

The parent of a path is cut from its text: the last step goes, and what means nothing in front of
it.  As far as places are concerned nothing else is lost (`exists_parent`): the places that a path
leaves are those on the way to its parent, the parent itself included.  So who has gone to the
parent has only one step left.
-/

namespace JarFacts

namespace Path

variable {path : String} {segment : String}

/-! ## Paths and their segments -/

lemma map_toList_segments (path : String) :
    (segments path).map String.toList = Text.separated '/' path.toList := by
  simp [segments, Function.comp_def]

lemma segments_ne_nil (path : String) : segments path ≠ [] := by
  rw [segments, ne_eq, List.map_eq_nil_iff]
  exact Text.separated_ne_nil _ _

lemma intercalate_segments (path : String) : "/".intercalate (segments path) = path := by
  apply String.toList_injective
  rw [String.toList_intercalate, map_toList_segments]
  exact Text.intercalate_separated '/' path.toList

lemma slash_not_mem_of_mem_segments (h : segment ∈ segments path) : '/' ∉ segment.toList := by
  obtain ⟨part, hpart, rfl⟩ := List.mem_map.mp h
  rw [String.toList_ofList]
  exact Text.not_mem_of_mem_separated hpart

lemma segments_intercalate {parts : List String} (hparts : parts ≠ [])
    (h : ∀ part ∈ parts, '/' ∉ part.toList) :
    segments ("/".intercalate parts) = parts := by
  have hmap : parts.map String.toList ≠ [] := by simpa using hparts
  have hsep : ∀ part ∈ parts.map String.toList, '/' ∉ part := by simpa using h
  have hslash : ("/" : String).toList = ['/'] := rfl
  rw [segments, String.toList_intercalate, hslash, Text.separated_intercalate hmap hsep]
  simp [Function.comp_def]

/-- A path is cut in two at any slash. -/
lemma intercalate_append_segments {first second : List String} (hfirst : first ≠ [])
    (hsecond : second ≠ []) :
    "/".intercalate (first ++ second) =
      "/".intercalate first ++ ("/" ++ "/".intercalate second) := by
  apply String.toList_injective
  have hslash : ("/" : String).toList = ['/'] := rfl
  rw [String.toList_intercalate, List.map_append, hslash,
    Text.intercalate_append (by simpa using hfirst) (by simpa using hsecond)]
  simp [String.toList_intercalate]

lemma intercalate_cons_empty {second : List String} (h : second ≠ []) :
    "/".intercalate ("" :: second) = "/" ++ "/".intercalate second := by
  have hcut := intercalate_append_segments (List.cons_ne_nil "" []) h
  rw [List.singleton_append] at hcut
  rw [hcut]
  rfl

lemma segments_eq_cons_of_isAbsolute (h : isAbsolute path = true) :
    ∃ body, body ≠ [] ∧ segments path = "" :: body := by
  rw [isAbsolute, decide_eq_true_eq] at h
  obtain ⟨rest, hrest⟩ : ∃ rest, path.toList = '/' :: rest := List.head?_eq_some_iff.mp h
  refine ⟨(Text.separated '/' rest).map String.ofList, ?_, ?_⟩
  · simpa using Text.separated_ne_nil '/' rest
  · have hsplit := Text.separated_append '/' [] rest
    rw [List.nil_append] at hsplit
    rw [segments, hrest, hsplit]
    rfl

/-- A path that is not absolute starts with a step, if it is a path at all. -/
lemma head_segments_ne_empty (h : isAbsolute path = false) (hpath : path ≠ "") :
    ∀ segment ∈ (segments path).head?, segment ≠ "" := by
  cases hchars : path.toList with
  | nil => exact absurd (String.toList_eq_nil_iff.mp hchars) hpath
  | cons c rest =>
      have hc : c ≠ '/' := by
        rintro rfl
        rw [isAbsolute, hchars] at h
        simp at h
      rw [segments, hchars, Text.separated]
      cases hrest : Text.separated '/' rest with
      | nil => simp
      | cons part parts => simp [hc]

/-! ## Segments that mean nothing -/

/-- The segment means nothing where it stands behind others. -/
def IsIdle (segment : String) : Prop :=
  segment = "" ∨ segment = "."

lemma isNone_component?_iff : (component? segment).isNone = true ↔ IsIdle segment := by
  rw [component?, IsIdle]
  by_cases hidle : segment = "" ∨ segment = "."
  · rw [if_pos hidle]
    exact iff_of_true rfl hidle
  · rw [if_neg hidle]
    refine iff_of_false ?_ hidle
    split <;> simp

/-- The last segment is a step, which a dot is only in front. -/
def EndsInStep (path : String) : Prop :=
  ∃ front last, segments path = front ++ [last] ∧ last ≠ "" ∧ (last = "." → front = [])

/-- What is dropped at the end means nothing, and what is left ends in a step. -/
lemma dropIdle_spec (reversed : List String) :
    ∃ idle, reversed = idle ++ dropIdle reversed ∧ (∀ segment ∈ idle, IsIdle segment) ∧
      ∀ last rest, dropIdle reversed = last :: rest → last ≠ "" ∧ (last = "." → rest = []) := by
  fun_induction dropIdle reversed with
  | case1 => exact ⟨[], rfl, by simp, by simp⟩
  | case2 => exact ⟨[""], rfl, by simp [IsIdle], by simp⟩
  | case3 first hfirst => exact ⟨[], rfl, by simp, by simp [hfirst]⟩
  | case4 last rest _ hidle ih =>
      obtain ⟨idle, hsplit, hall, hends⟩ := ih
      refine ⟨last :: idle, congrArg (last :: ·) hsplit, ?_, hends⟩
      rw [List.forall_mem_cons]
      exact ⟨isNone_component?_iff.mp hidle, hall⟩
  | case5 last rest _ hstep =>
      rw [isNone_component?_iff, IsIdle, not_or] at hstep
      refine ⟨[], rfl, by simp, fun last' rest' heq => ?_⟩
      cases heq
      exact ⟨hstep.1, fun hdot => absurd hdot hstep.2⟩

/-- The same from the front: what is left, and behind it what means nothing. -/
lemma exists_idle_of_dropIdle (front : List String) :
    ∃ idle, front = (dropIdle front.reverse).reverse ++ idle ∧ (∀ segment ∈ idle, IsIdle segment) ∧
      ∀ before last, (dropIdle front.reverse).reverse = before ++ [last] → last ≠ "" ∧
        (last = "." → before = []) := by
  obtain ⟨idle, hsplit, hidle, hends⟩ := dropIdle_spec front.reverse
  refine ⟨idle.reverse, ?_, by simpa using hidle, fun before last heq => ?_⟩
  · rw [← List.reverse_append, ← hsplit, List.reverse_reverse]
  · have hreversed : dropIdle front.reverse = last :: before.reverse := by
      rw [← List.reverse_reverse (dropIdle front.reverse), heq, List.reverse_append]
      rfl
    simpa using hends last before.reverse hreversed

/-- Behind the root everything that means nothing is dropped, also a dot at the very front. -/
lemma exists_idle_of_dropWhile (front : List String) :
    ∃ idle, front =
      (front.reverse.dropWhile fun segment => (component? segment).isNone).reverse ++ idle ∧
      (∀ segment ∈ idle, IsIdle segment) ∧
      ∀ before last, (front.reverse.dropWhile fun segment => (component? segment).isNone).reverse =
        before ++ [last] →
        ¬IsIdle last := by
  refine ⟨(front.reverse.takeWhile fun segment => (component? segment).isNone).reverse, ?_,
    fun segment hmem => ?_, fun before last heq => ?_⟩
  · rw [← List.reverse_append, List.takeWhile_append_dropWhile, List.reverse_reverse]
  · have htaken := List.mem_takeWhile_imp (List.mem_reverse.mp hmem)
    exact isNone_component?_iff.mp htaken
  · have hhead :=
      List.head?_dropWhile_not (fun segment => (component? segment).isNone) front.reverse
    rw [← List.reverse_reverse (front.reverse.dropWhile _), heq, List.reverse_append] at hhead
    rw [← isNone_component?_iff]
    exact Bool.eq_false_iff.mp hhead

lemma dropIdle_ne_nil {reversed : List String} (hreversed : reversed ≠ [])
    (h : ∀ first ∈ reversed.getLast?, first ≠ "") : dropIdle reversed ≠ [] := by
  fun_induction dropIdle reversed with
  | case1 => exact absurd rfl hreversed
  | case2 => exact absurd rfl (h "" rfl)
  | case3 first hfirst => exact List.cons_ne_nil _ _
  | case4 last rest hrest hidle ih =>
      have hne : rest ≠ [] := by
        rintro rfl
        exact hrest rfl
      refine ih hne fun first hfirst => h first ?_
      rw [List.getLast?_cons_of_ne_nil hne]
      exact hfirst
  | case5 last rest _ hstep => exact List.cons_ne_nil _ _

end Path

namespace Volume

variable {volume : Volume} {path : String}

/-! ## The places of a path -/

/-- The places along segments, the last one included. -/
def trail (place : List String) (segments : List String) : List (List String) :=
  walk place segments ++ [segments.foldl step place]

/-- The places of a path: those it leaves, and the one where it ends. -/
def way (volume : Volume) (path : String) : List (List String) :=
  trail (volume.origin path) (Path.segments path)

lemma mem_way {place : List String} :
    place ∈ volume.way path ↔ place ∈ walk (volume.origin path) (Path.segments path) ∨
    place = volume.landing path := by
  rw [way, trail, List.mem_append, List.mem_singleton]
  rfl

lemma landing_mem_way (volume : Volume) (path : String) : volume.landing path ∈ volume.way path :=
  mem_way.mpr (.inr rfl)

lemma walk_append_singleton (place : List String) (front : List String) (last : String) :
    walk place (front ++ [last]) = trail place front := by
  rw [walk_append]
  rfl

lemma step_of_isIdle {segment : String} (h : Path.IsIdle segment) (place : List String) :
    step place segment = place :=
  if_pos h

lemma origin_mem_trail (place : List String) (segments : List String) :
    place ∈ trail place segments := by
  cases segments with
  | nil => exact List.mem_singleton.mpr rfl
  | cons segment rest => exact List.mem_append_left _ List.mem_cons_self

/-- Segments that mean nothing lead nowhere else. -/
lemma mem_trail_idle {idle : List String} (h : ∀ segment ∈ idle, Path.IsIdle segment)
    {place query : List String} :
    query ∈ trail place idle ↔ query = place := by
  induction idle with
  | nil => exact List.mem_singleton
  | cons segment rest ih =>
      rw [List.forall_mem_cons] at h
      have hrest := ih h.2
      have htrail : trail place (segment :: rest) = place :: trail (step place segment) rest := rfl
      rw [htrail, step_of_isIdle h.1, List.mem_cons, hrest, or_self]

lemma mem_trail_append_idle {kept idle : List String} (h : ∀ segment ∈ idle, Path.IsIdle segment)
    {place query : List String} : query ∈ trail place (kept ++ idle) ↔
    query ∈ trail place kept := by
  have htrail : trail place (kept ++ idle) =
      walk place kept ++ trail (kept.foldl step place) idle := by
    rw [trail, walk_append, List.foldl_append, List.append_assoc]
    rfl
  rw [htrail, List.mem_append, mem_trail_idle h, trail, List.mem_append, List.mem_singleton]

end Volume

namespace Path

open Volume (walk trail)

variable {path : String}

/-- `parent` is `path` without its last step: it is a shorter text, and its places are those that
`path` leaves. -/
structure IsParent (parent path : String) : Prop where
  shorter : ∃ more, more ≠ "" ∧ path = parent ++ more
  ends : parent = "" ∨ parent = "/" ∨ EndsInStep parent
  segments : ∀ segment ∈ segments parent, segment = "" ∨ segment ∈ segments path
  origin : ∀ volume : Volume, volume.origin parent = volume.origin path
  walk : ∀ (volume : Volume) (place : List String),
    place ∈ walk (volume.origin path) (Path.segments path) ↔ place ∈ volume.way parent

lemma origin_append {parent : String} (h : parent ≠ "") (more : String) (volume : Volume) :
    volume.origin parent = volume.origin (parent ++ more) := by
  rw [Volume.origin, Volume.origin, Path.isAbsolute_append h]

/-- A path that goes on behind its first segments has them as a parent. -/
lemma isParent_of_segments {kept idle : List String} {last : String}
    (hsegments : segments path = kept ++ (idle ++ [last]))
    (hidle : ∀ segment ∈ idle, IsIdle segment) (hkept : kept ≠ [])
    (hblank : kept ≠ [""]) (hends : ∀ front last, kept = front ++ [last] → last ≠ "" ∧
      (last = "." → front = [])) :
    IsParent ("/".intercalate kept) path := by
  have hslash : ∀ part ∈ kept, '/' ∉ part.toList := by
    intro part hpart
    have hmem : part ∈ segments path := by
      rw [hsegments]
      exact List.mem_append_left _ hpart
    exact slash_not_mem_of_mem_segments hmem
  have hparent : segments ("/".intercalate kept) = kept := segments_intercalate hkept hslash
  have hpath : path = "/".intercalate kept ++ ("/" ++ "/".intercalate (idle ++ [last])) := by
    rw [← intercalate_append_segments hkept (by simp), ← hsegments, intercalate_segments]
  have hne : "/".intercalate kept ≠ "" := by
    intro hempty
    rw [hempty] at hparent
    exact hblank hparent.symm
  have horigin : ∀ volume : Volume, volume.origin ("/".intercalate kept) = volume.origin path := by
    intro volume
    rw [hpath, ← origin_append hne]
  refine ⟨⟨"/" ++ "/".intercalate (idle ++ [last]), by simp, hpath⟩, .inr (.inr ?_),
    fun segment hmem => .inr ?_, horigin, fun volume place => ?_⟩
  · obtain ⟨front, final, hfront⟩ := (List.eq_nil_or_concat' kept).resolve_left hkept
    exact ⟨front, final, hparent.trans hfront, hends front final hfront⟩
  · rw [hparent] at hmem
    rw [hsegments]
    exact List.mem_append_left _ hmem
  · rw [Volume.way, horigin, hparent, hsegments, ← List.append_assoc, Volume.walk_append_singleton,
      Volume.mem_trail_append_idle hidle]

/-- A single step has nothing above it but the place where it starts. -/
lemma isParent_empty (habsolute : isAbsolute path = false) {last : String}
    (hsegments : segments path = [last]) (hlast : last ≠ "") : IsParent "" path := by
  have hpath : path ≠ "" := by
    rintro rfl
    exact hlast (List.cons.inj hsegments).1.symm
  have horigin : ∀ volume : Volume, volume.origin "" = volume.origin path := by
    intro volume
    rw [Volume.origin, Volume.origin, habsolute]
    rfl
  refine ⟨⟨path, hpath, String.empty_append.symm⟩, .inl rfl, ?_, horigin, ?_⟩
  · intro segment hmem
    exact .inl (List.mem_singleton.mp hmem)
  · intro volume place
    have hidle : ∀ segment ∈ [""], IsIdle segment := by simp [IsIdle]
    have hway : volume.way "" = trail (volume.origin path) [""] := by
      rw [← horigin]
      rfl
    rw [hsegments, hway, Volume.mem_trail_idle hidle]
    exact List.mem_singleton

/-- A single step from the root has the root above it. -/
lemma isParent_root (habsolute : isAbsolute path = true) {idle : List String} {last : String}
    (hsegments : segments path = ("" :: idle) ++ [last]) (hidle : ∀ segment ∈ idle, IsIdle segment)
    (hlast : last ≠ "") :
    IsParent "/" path := by
  have hwhole : path = "/" ++ "/".intercalate (idle ++ [last]) := by
    rw [← intercalate_cons_empty (by simp), ← List.cons_append, ← hsegments, intercalate_segments]
  have horigin : ∀ volume : Volume, volume.origin path = [] := by
    intro volume
    rw [Volume.origin, habsolute]
    rfl
  refine ⟨⟨"/".intercalate (idle ++ [last]), ?_, hwhole⟩, .inr (.inl rfl), ?_, fun volume =>
    (horigin volume).symm, ?_⟩
  · intro hempty
    rw [hwhole, hempty] at hsegments
    have hdouble : [""] ++ [""] = ("" :: idle) ++ [last] := hsegments
    obtain ⟨-, hblank⟩ := List.append_inj' hdouble rfl
    exact hlast (List.cons.inj hblank).1.symm
  · intro segment hmem
    have hpair : segment ∈ ["", ""] := hmem
    exact .inl (by simpa using hpair)
  · intro volume place
    have hidle' : ∀ segment ∈ "" :: idle, IsIdle segment := by
      rw [List.forall_mem_cons]
      exact ⟨.inl rfl, hidle⟩
    have hslash : ∀ segment ∈ ["", ""], IsIdle segment := by simp [IsIdle]
    rw [hsegments, Volume.walk_append_singleton, horigin, Volume.mem_trail_idle hidle']
    exact (Volume.mem_trail_idle hslash).symm

lemma parent?_of_relative (habsolute : isAbsolute path = false) {front : List String}
    {last : String} (hsegments : segments path = front ++ [last]) (hlast : last ≠ "")
    (hdot : last = "." → front = []) :
    parent? path = some ("/".intercalate (dropIdle front.reverse).reverse) := by
  have hstrip : dropIdle (last :: front.reverse) = last :: front.reverse := by
    cases hfront : front.reverse with
    | nil => simp [dropIdle, hlast]
    | cons next rest =>
        have hstep : ¬(component? last).isNone = true := by
          rw [isNone_component?_iff, IsIdle, not_or]
          refine ⟨hlast, fun hlast => ?_⟩
          rw [hdot hlast] at hfront
          cases hfront
        simp [dropIdle, hstep]
  simp [parent?, habsolute, hsegments, hstrip]

lemma parent?_of_absolute (habsolute : isAbsolute path = true) {front : List String} {last : String}
    (hsegments : segments path = ("" :: front) ++ [last]) (hlast : ¬IsIdle last) :
    parent? path = some ("/" ++ "/".intercalate
      (front.reverse.dropWhile fun segment => (component? segment).isNone).reverse) := by
  rw [← isNone_component?_iff] at hlast
  simp [parent?, habsolute, hsegments, hlast]

lemma exists_parent_of_relative (habsolute : isAbsolute path = false) (h : EndsInStep path) :
    ∃ parent, parent? path = some parent ∧ IsParent parent path := by
  obtain ⟨front, last, hsegments, hlast, hdot⟩ := h
  have hpath : path ≠ "" := by
    rintro rfl
    have hsingle : [] ++ [""] = front ++ [last] := hsegments
    obtain ⟨-, hblank⟩ := List.append_inj' hsingle rfl
    exact hlast (List.cons.inj hblank).1.symm
  have hhead := head_segments_ne_empty habsolute hpath
  obtain ⟨idle, hfront, hidle, hends⟩ := exists_idle_of_dropIdle front
  refine ⟨_, parent?_of_relative habsolute hsegments hlast hdot, ?_⟩
  by_cases hkept : (dropIdle front.reverse).reverse = []
  · have hempty : front = [] := by
      by_contra hne
      refine dropIdle_ne_nil (by simpa using hne) (fun first hfirst => hhead first ?_)
        (List.reverse_eq_nil_iff.mp hkept)
      rw [hsegments, List.head?_append_of_ne_nil _ hne]
      simpa using hfirst
    rw [hkept]
    rw [hempty] at hsegments
    exact isParent_empty habsolute hsegments hlast
  · have hsegments' : segments path = (dropIdle front.reverse).reverse ++ (idle ++ [last]) := by
      rw [← List.append_assoc, ← hfront, hsegments]
    refine isParent_of_segments hsegments' hidle hkept ?_ hends
    intro hblank
    rw [hsegments', hblank] at hhead
    exact hhead "" rfl rfl

lemma exists_parent_of_absolute (habsolute : isAbsolute path = true) (h : EndsInStep path) :
    ∃ parent, parent? path = some parent ∧ IsParent parent path := by
  obtain ⟨body, hbody, hcons⟩ := segments_eq_cons_of_isAbsolute habsolute
  obtain ⟨front, last, hsegments, hlast, hdot⟩ := h
  obtain ⟨before, final, rfl⟩ := (List.eq_nil_or_concat' body).resolve_left hbody
  have heq : front ++ [last] = ("" :: before) ++ [final] := hsegments.symm.trans hcons
  obtain ⟨rfl, hfinal⟩ := List.append_inj' heq rfl
  obtain rfl : last = final := (List.cons.inj hfinal).1
  have hstep : ¬IsIdle last := not_or.mpr ⟨hlast, fun hlast => List.cons_ne_nil _ _ (hdot hlast)⟩
  obtain ⟨idle, hbefore, hidle, hends⟩ := exists_idle_of_dropWhile before
  refine ⟨_, parent?_of_absolute habsolute hsegments hstep, ?_⟩
  set kept := (before.reverse.dropWhile fun segment => (component? segment).isNone).reverse
  by_cases hkept : kept = []
  · rw [hkept, List.nil_append] at hbefore
    rw [hkept]
    exact isParent_root habsolute hsegments (hbefore ▸ hidle) hlast
  · have hsegments' : segments path = ("" :: kept) ++ (idle ++ [last]) := by
      rw [hsegments, hbefore]
      simp
    rw [← intercalate_cons_empty hkept]
    refine isParent_of_segments hsegments' hidle (by simp) (by simpa using hkept)
      fun before' final hfinal => ?_
    obtain ⟨front, last', hfront⟩ := (List.eq_nil_or_concat' kept).resolve_left hkept
    have hlast' : last' = final := by
      rw [hfront, ← List.cons_append] at hfinal
      exact (List.cons.inj (List.append_inj' hfinal rfl).2).1
    have hnot : ¬IsIdle final := hlast' ▸ hends front last' hfront
    exact ⟨fun hblank => hnot (.inl hblank), fun hdot => absurd (.inr hdot) hnot⟩

/-- A path that ends in a step has a parent. -/
lemma exists_parent (h : EndsInStep path) :
    ∃ parent, parent? path = some parent ∧ IsParent parent path := by
  cases habsolute : isAbsolute path with
  | false => exact exists_parent_of_relative habsolute h
  | true => exact exists_parent_of_absolute habsolute h

end Path

end JarFacts
