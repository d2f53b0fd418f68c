import Mathlib.Tactic.Common
import JarFacts.Proofs.Storage.Parent

/-!
# Making directories

A directory is made with everything above it that is missing.  Whether that succeeds or not, nothing
that was there changes: the volume has more directories at the end, and the same files
(`addsDirectories_makeDirectories`).

What is new stands on the way of the path (`prepares_makeDirectories`).  It succeeds if and only if
nothing is in the way: the path starts from a directory, no file is on it, and its segments can be
names (`makeDirectories_eq_ok_iff`).  So it makes no difference whether some of the directories have
been made before, by whomever.
-/

namespace JarFacts.Volume

variable {volume other third : Volume} {place : List String} {path : String}

/-- The second volume is the first with directories at places where there was nothing. -/
def AddsDirectories (volume other : Volume) : Prop :=
  other.workingDirectory = volume.workingDirectory ∧
    ∀ place, other.node? place = volume.node? place ∨
      volume.node? place = none ∧ other.node? place = some .directory

lemma AddsDirectories.refl (volume : Volume) : AddsDirectories volume volume :=
  ⟨rfl, fun _ => .inl rfl⟩

lemma AddsDirectories.trans (h : AddsDirectories volume other) (h' : AddsDirectories other third) :
    AddsDirectories volume third := by
  refine ⟨h'.1.trans h.1, fun place => ?_⟩
  rcases h.2 place with hsame | ⟨hnone, hmade⟩
  · rcases h'.2 place with hsame' | ⟨hnone', hmade'⟩
    · exact .inl (hsame'.trans hsame)
    · exact .inr ⟨hsame ▸ hnone', hmade'⟩
  · rcases h'.2 place with hsame' | ⟨hnone', -⟩
    · exact .inr ⟨hnone, hsame'.trans hmade⟩
    · rw [hmade] at hnone'
      cases hnone'

lemma AddsDirectories.sparesDirectories (h : AddsDirectories volume other) :
    SparesDirectories volume other := by
  refine ⟨h.1, fun place hplace => ?_⟩
  rcases h.2 place with hsame | ⟨hnone, -⟩
  · rw [hsame, hplace]
  · rw [hplace] at hnone
    cases hnone

/-- Files are not touched. -/
lemma AddsDirectories.fileAt?_eq (h : AddsDirectories volume other) (place : List String) :
    other.fileAt? place = volume.fileAt? place := by
  rcases h.2 place with hsame | ⟨hnone, hmade⟩
  · exact fileAt?_congr hsame
  · rw [fileAt?, fileAt?, hnone, hmade]

lemma addsDirectories_makeDirectory (h : volume.makeDirectory path = .ok other) :
    AddsDirectories volume other := by
  rw [makeDirectory] at h
  split at h
  · cases h
  · obtain ⟨place, -, h⟩ := exists_ok_of_bind h
    split at h
    · cases h
    · rename_i hnone
      cases h
      have hchanges : Changes volume place (some .directory) (volume.put place .directory) :=
        changes_put (ne_nil_of_node?_eq_none hnone) _
      refine ⟨hchanges.1, fun query => ?_⟩
      by_cases hquery : query = place
      · subst hquery
        exact .inr ⟨hnone, hchanges.node?_self⟩
      · exact .inl (hchanges.node?_of_ne hquery)

lemma addsDirectories_makeDirectoriesWithin (fuel : Nat) (path : String) (volume : Volume) :
    AddsDirectories volume (makeDirectoriesWithin fuel path volume).2 := by
  induction fuel generalizing path volume with
  | zero => exact .refl volume
  | succ fuel ih =>
      unfold makeDirectoriesWithin
      split
      · exact .refl volume
      · split
        · rename_i made hmade
          exact addsDirectories_makeDirectory hmade
        · split
          · exact .refl volume
          · rename_i parent _
            have habove := ih parent volume
            split
            · rename_i above hparent
              rwa [hparent] at habove
            · rename_i above hparent
              rw [hparent] at habove
              split
              · rename_i made hmade
                exact habove.trans (addsDirectories_makeDirectory hmade)
              · exact habove
        · exact .refl volume

/-- Making a directory adds directories, and changes nothing else. -/
lemma addsDirectories_makeDirectories (path : String) (volume : Volume) :
    AddsDirectories volume (makeDirectories path volume).2 :=
  addsDirectories_makeDirectoriesWithin _ path volume

/-! ## A single directory -/

lemma isDirectory_eq_true_iff :
    volume.isDirectory path = true ↔ ∃ place, volume.place path = .ok place ∧
      volume.node? place = some .directory := by
  unfold isDirectory find
  cases hplace : volume.place path with
  | error fault => simp [bind, Except.bind]
  | ok place =>
      cases hnode : volume.node? place with
      | none => simp [bind, Except.bind, hnode]
      | some node => cases node <;> simp [bind, Except.bind, hnode]

/-- A path that ends in a step does not end in a slash. -/
lemma getLast?_of_endsInStep (h : Path.EndsInStep path) : path.toList.getLast? ≠ some '/' := by
  obtain ⟨front, last, hsegments, hlast, -⟩ := h
  have hslash : '/' ∉ last.toList := by
    have hmem : last ∈ Path.segments path := by simp [hsegments]
    exact Path.slash_not_mem_of_mem_segments hmem
  have hchars : last.toList ≠ [] := fun hnil => hlast (String.toList_eq_nil_iff.mp hnil)
  have hends : ∃ before, path.toList = before ++ last.toList := by
    rw [← Path.intercalate_segments path, hsegments]
    cases front with
    | nil => exact ⟨[], by simp⟩
    | cons first rest =>
        rw [Path.intercalate_append_segments (List.cons_ne_nil _ _) (List.cons_ne_nil _ _)]
        exact ⟨("/".intercalate (first :: rest)).toList ++
          ['/'], by simp [String.toList_intercalate]⟩
  obtain ⟨before, hbefore⟩ := hends
  intro hgetLast
  rw [hbefore, List.getLast?_append_of_ne_nil _ hchars] at hgetLast
  exact hslash (List.mem_of_getLast? hgetLast)

/-- The text of a directory's path is as it should be: nothing but the root, or a step at the
end. -/
def IsTidy (path : String) : Prop :=
  path = "/" ∨ Path.EndsInStep path

lemma ne_empty_of_isTidy (h : IsTidy path) : path ≠ "" := by
  rintro rfl
  rcases h with h | ⟨front, last, hsegments, hlast, -⟩
  · exact absurd h (by decide)
  · have hsingle : [] ++ [""] = front ++ [last] := hsegments
    obtain ⟨-, hblank⟩ := List.append_inj' hsingle rfl
    exact hlast (List.cons.inj hblank).1.symm

/-- To make a directory at a tidy path is to put one where the path leads. -/
lemma makeDirectory_eq (h : IsTidy path) :
    volume.makeDirectory path = (do
      let place ← volume.place path
      match volume.node? place with
      | some _ => .error .alreadyExists
      | none => .ok (volume.put place .directory)) := by
  have htrimmed : (if String.ofList (path.toList.reverse.dropWhile (· = '/')).reverse = "" then path
      else String.ofList (path.toList.reverse.dropWhile (· = '/')).reverse) = path := by
    rcases h with rfl | hends
    · decide
    · have hlast := getLast?_of_endsInStep hends
      have hkept : path.toList.reverse.dropWhile (· = '/') = path.toList.reverse := by
        rw [← List.head?_reverse] at hlast
        cases hreversed : path.toList.reverse with
        | nil => rfl
        | cons c rest =>
            rw [hreversed] at hlast
            have hc : c ≠ '/' := by simpa using hlast
            simp [hc]
      rw [hkept, List.reverse_reverse, String.ofList_toList, ite_self]
  rw [makeDirectory]
  by_cases hpath : isPath path = true
  · simp only [hpath, htrimmed]
    rfl
  · have hplace : volume.place path = .error .refused := by
      rw [place, if_neg (ne_empty_of_isTidy h), if_pos (by simp [hpath])]
    simp only [hpath, hplace]
    rfl

/-- What may come of making a single directory. -/
lemma makeDirectory_cases (h : IsTidy path) (volume : Volume) :
    (∃ made, volume.makeDirectory path = .ok made ∧ volume.place path = .ok (volume.landing path) ∧
        volume.node? (volume.landing path) = none ∧
        Changes volume (volume.landing path) (some .directory) made) ∨
      (volume.makeDirectory path = .error .alreadyExists ∧
        volume.place path = .ok (volume.landing path) ∧
        volume.node? (volume.landing path) ≠ none) ∨
      ∃ fault, volume.makeDirectory path = .error fault ∧ volume.place path = .error fault := by
  rw [makeDirectory_eq h]
  cases hplace : volume.place path with
  | error fault => exact .inr (.inr ⟨fault, rfl, rfl⟩)
  | ok place =>
      obtain ⟨rfl, -⟩ := place_eq_ok hplace
      cases hnode : volume.node? (volume.landing path) with
      | none =>
          refine .inl ⟨volume.put (volume.landing path) .directory, ?_, rfl, rfl,
            changes_put (ne_nil_of_node?_eq_none hnode) _⟩
          simp [bind, Except.bind, hnode]
      | some node =>
          refine .inr (.inl ⟨?_, rfl, by simp⟩)
          simp [bind, Except.bind, hnode]

/-! ## All the way -/

/-- Nothing is in the way of a path: it can lead somewhere, it starts from a directory, and there is
no file on it. -/
structure Clear (volume : Volume) (path : String) : Prop where
  isPath : isPath path = true
  names : ∀ segment ∈ Path.segments path, isName segment = true
  origin : volume.node? (volume.origin path) = some .directory
  noFile : ∀ place ∈ volume.way path, volume.fileAt? place = none

/-- The way of a path is open, and there is a directory at its end. -/
structure Open (volume : Volume) (path : String) : Prop where
  isPath : isPath path = true
  names : ∀ segment ∈ Path.segments path, isName segment = true
  directory : ∀ place ∈ volume.way path, volume.node? place = some .directory

/-- What has changed are directories that were made on the way of a path. -/
structure MakesWay (volume : Volume) (path : String) (other : Volume) : Prop where
  adds : AddsDirectories volume other
  onWay : ∀ place, other.node? place ≠ volume.node? place →
    place ∈ volume.way path ∧ volume.node? (volume.origin path) = some .directory

lemma way_congr (h : other.workingDirectory = volume.workingDirectory) (path : String) :
    other.way path = volume.way path := by
  rw [way, way, origin, origin, h]

/-- What stands on an open way are directories, as the way is where it was. -/
lemma Open.node?_of_mem (h : Open other path)
    (hwd : other.workingDirectory = volume.workingDirectory)
    {place : List String} (hmem : place ∈ volume.way path) : other.node? place =
      some .directory := by
  rw [← way_congr hwd] at hmem
  exact h.directory place hmem

lemma origin_congr (h : other.workingDirectory = volume.workingDirectory) (path : String) :
    other.origin path = volume.origin path := by
  rw [origin, origin, h]

/-- Off its way nothing is made for a path. -/
lemma MakesWay.node?_of_not_mem (h : MakesWay volume path other) {place : List String}
    (hoff : place ∉ volume.way path) : other.node? place = volume.node? place := by
  by_contra hne
  exact hoff (h.onWay place hne).1

lemma landing_congr (h : other.workingDirectory = volume.workingDirectory) (path : String) :
    other.landing path = volume.landing path := by
  rw [landing, landing, origin_congr h]

lemma origin_mem_way (volume : Volume) (path : String) : volume.origin path ∈ volume.way path :=
  origin_mem_trail _ _

lemma MakesWay.refl (volume : Volume) (path : String) : MakesWay volume path volume :=
  ⟨.refl volume, fun _ h => absurd rfl h⟩

/-- The place where a path starts is never made. -/
lemma MakesWay.node?_origin (h : MakesWay volume path other) :
    other.node? (volume.origin path) = volume.node? (volume.origin path) := by
  by_contra hne
  obtain ⟨-, hdirectory⟩ := h.onWay _ hne
  rw [h.adds.sparesDirectories.2 _ hdirectory, hdirectory] at hne
  exact hne rfl

lemma MakesWay.trans {parent : String} (hparent : Path.IsParent parent path)
    (h : MakesWay volume parent other)
    (h' : MakesWay other path third) : MakesWay volume path third := by
  have hwd := h.adds.1
  refine ⟨h.adds.trans h'.adds, fun place hne => ?_⟩
  by_cases hsame : other.node? place = volume.node? place
  · rw [← hsame] at hne
    obtain ⟨hmem, hdirectory⟩ := h'.onWay place hne
    rw [way_congr hwd] at hmem
    rw [origin_congr hwd, ← hparent.origin, h.node?_origin, hparent.origin] at hdirectory
    exact ⟨hmem, hdirectory⟩
  · obtain ⟨hmem, hdirectory⟩ := h.onWay place hsame
    rw [hparent.origin] at hdirectory
    exact ⟨mem_way.mpr (.inl ((hparent.walk volume place).mpr hmem)), hdirectory⟩

lemma isPath_of_append {more : String} (h : isPath (path ++ more) = true) : isPath path = true := by
  rw [isPath, Bool.and_eq_true, decide_eq_true_eq] at h ⊢
  obtain ⟨hnul, hlength⟩ := h
  rw [String.toList_append] at hnul hlength
  refine ⟨?_, ?_⟩
  · simp only [Bool.not_eq_true', List.contains_eq_mem, decide_eq_false_iff_not, List.mem_append,
      not_or] at hnul ⊢
    exact hnul.1
  · rw [Utf8.byteLength, Utf8.encode, List.flatMap_append, List.length_append] at hlength
    rw [Utf8.byteLength, Utf8.encode]
    omega

lemma Clear.of_parent {parent : String} (hparent : Path.IsParent parent path)
    (h : Clear volume path) :
    Clear volume parent := by
  obtain ⟨more, -, hpath⟩ := hparent.shorter
  refine ⟨?_, ?_, ?_, ?_⟩
  · have hisPath := h.isPath
    rw [hpath] at hisPath
    exact isPath_of_append hisPath
  · intro segment hmem
    rcases hparent.segments segment hmem with rfl | hmem
    · decide
    · exact h.names segment hmem
  · rw [hparent.origin]
    exact h.origin
  · intro place hmem
    exact h.noFile place (mem_way.mpr (.inl ((hparent.walk volume place).mpr hmem)))

/-- A clear way is open, or there is a place on it where nothing is yet. -/
lemma follow_of_clear {segments : List String}
    (hnames : ∀ segment ∈ segments, isName segment = true)
    (hfiles : ∀ left ∈ walk place segments, volume.fileAt? left = none) :
    volume.follow place segments = .ok (segments.foldl step place) ∨
    volume.follow place segments = .error .notFound := by
  induction segments generalizing place with
  | nil => exact .inl rfl
  | cons segment rest ih =>
      rw [follow_cons]
      have hhere : volume.fileAt? place = none := hfiles place List.mem_cons_self
      cases hnode : volume.node? place with
      | none => exact .inr rfl
      | some found =>
          cases found with
          | file bytes =>
              rw [fileAt?_eq_some.mpr hnode] at hhere
              cases hhere
          | directory =>
              have hname : isName segment = true := hnames segment List.mem_cons_self
              simp only [hname, if_true]
              exact ih (fun segment hmem => hnames segment (List.mem_cons_of_mem _ hmem))
                fun left hmem => hfiles left (List.mem_cons_of_mem _ hmem)

lemma Clear.place_cases (h : Clear volume path) (hpath : path ≠ "") :
    volume.place path = .ok (volume.landing path) ∨ volume.place path = .error .notFound := by
  have hfollow := follow_of_clear h.names fun left hmem => h.noFile left (mem_way.mpr (.inl hmem))
  rwa [place, if_neg hpath, if_neg (by simp [h.isPath])]

/-- Where a path ends at something that is no file, it ends at a directory. -/
lemma Clear.isDirectory (h : Clear volume path)
    (hplace : volume.place path = .ok (volume.landing path))
    (hnode : volume.node? (volume.landing path) ≠ none) : volume.isDirectory path = true := by
  refine isDirectory_eq_true_iff.mpr ⟨_, hplace, ?_⟩
  have hfile := h.noFile _ (landing_mem_way volume path)
  cases hlanding : volume.node? (volume.landing path) with
  | none => exact absurd hlanding hnode
  | some node =>
      cases node with
      | directory => rfl
      | file bytes =>
          rw [fileAt?_eq_some.mpr hlanding] at hfile
          cases hfile

lemma Clear.adds (h : Clear volume path) (hadds : AddsDirectories volume other) :
    Clear other path := by
  refine ⟨h.isPath, h.names, ?_, ?_⟩
  · rw [origin_congr hadds.1]
    exact hadds.sparesDirectories.2 _ h.origin
  · intro place hmem
    rw [way_congr hadds.1] at hmem
    rw [hadds.fileAt?_eq, h.noFile place hmem]

lemma open_of_isDirectory (h : volume.isDirectory path = true) : Open volume path := by
  obtain ⟨place, hplace, hnode⟩ := isDirectory_eq_true_iff.mp h
  obtain ⟨rfl, hpath, hleft, hnames⟩ := place_eq_ok hplace
  refine ⟨hpath, hnames, fun place hmem => ?_⟩
  rcases mem_way.mp hmem with hwalk | rfl
  · exact hleft place hwalk
  · exact hnode

lemma open_of_changes (hplace : volume.place path = .ok (volume.landing path))
    (hnode : volume.node? (volume.landing path) = none)
    (h : Changes volume (volume.landing path) (some .directory) other) : Open other path := by
  obtain ⟨-, hpath, hleft, hnames⟩ := place_eq_ok hplace
  refine ⟨hpath, hnames, fun place hmem => ?_⟩
  rw [way_congr h.1] at hmem
  rcases mem_way.mp hmem with hwalk | rfl
  · have hspared := h.sparesDirectories (by rw [hnode]; simp)
    exact hspared.2 place (hleft place hwalk)
  · exact h.node?_self

lemma makesWay_of_changes (hplace : volume.place path = .ok (volume.landing path))
    (hnode : volume.node? (volume.landing path) = none)
    (h : Changes volume (volume.landing path) (some .directory) other) :
      MakesWay volume path other := by
  obtain ⟨-, -, hleft, -⟩ := place_eq_ok hplace
  refine ⟨⟨h.1, fun place => ?_⟩, fun place hne => ?_⟩
  · by_cases hlanding : place = volume.landing path
    · subst hlanding
      exact .inr ⟨hnode, h.node?_self⟩
    · exact .inl (h.node?_of_ne hlanding)
  · have hlanding : place = volume.landing path := by
      by_contra hother
      exact hne (h.node?_of_ne hother)
    subst hlanding
    refine ⟨landing_mem_way volume path, hleft _ ?_⟩
    cases hsegments : Path.segments path with
    | nil => exact absurd hsegments (Path.segments_ne_nil path)
    | cons segment rest => exact List.mem_cons_self

/-- What comes of making a directory: it is made with all that is missing on its way, if nothing is
in the way. -/
structure Prepares (path : String) (volume : Volume) (result : Except StorageFault Unit × Volume) :
    Prop where
  makesWay : MakesWay volume path result.2
  opens : path ≠ "" → result.1 = .ok () → Open result.2 path
  succeeds : Clear volume path → result.1 = .ok ()

lemma prepares_of_isDirectory {fault : StorageFault}
    (hclear : Clear volume path → volume.isDirectory path = true) :
    Prepares path volume (if volume.isDirectory path then .ok () else .error fault, volume) := by
  refine ⟨.refl volume path, fun _ hok => ?_, fun h => by rw [hclear h]; rfl⟩
  cases hdirectory : volume.isDirectory path with
  | true => exact open_of_isDirectory hdirectory
  | false =>
      rw [hdirectory] at hok
      cases hok

/-- A path leads to its end if its parent has been opened, or is the place where the path starts. -/
lemma Clear.place_of_parent {parent : String} (hparent : Path.IsParent parent path)
    (h : Clear volume path)
    (hpath : path ≠ "") (hopen : parent ≠ "" → Open volume parent) : volume.place path =
      .ok (volume.landing path) := by
  have hleft : ∀ left ∈ walk (volume.origin path) (Path.segments path), volume.node? left =
      some .directory := by
    intro left hmem
    have hway := (hparent.walk volume left).mp hmem
    by_cases hempty : parent = ""
    · have hidle : ∀ segment ∈ [""], Path.IsIdle segment := by simp [Path.IsIdle]
      rw [hempty] at hway hparent
      have hstart : left = volume.origin "" := (mem_trail_idle hidle).mp hway
      rw [hstart, hparent.origin, h.origin]
    · exact (hopen hempty).directory left hway
  rw [place, if_neg hpath, if_neg (by simp [h.isPath])]
  exact follow_eq_ok_iff.mpr ⟨rfl, hleft, h.names⟩

/-- The second attempt at a directory, when its parent has been dealt with.  Everything the path
leaves is a directory then. -/
lemma prepares_of_parent {parent : String} (hparent : Path.IsParent parent path)
    (htidy : IsTidy path) {above : Volume} (h : Prepares parent volume (.ok (), above)) :
    Prepares path volume (match above.makeDirectory path with
      | .ok made => (.ok (), made)
      | .error fault => (if above.isDirectory path then .ok () else .error fault, above)) := by
  have hwd : above.workingDirectory = volume.workingDirectory := h.makesWay.adds.1
  have habove : MakesWay volume path above := .trans hparent h.makesWay (.refl above path)
  rcases makeDirectory_cases htidy above with ⟨made, hmake, hplace, hnode, hchanges⟩
    | ⟨hmake, hplace, hnode⟩ |
    ⟨fault, hmake, hplace⟩
  · rw [hmake]
    exact ⟨.trans hparent h.makesWay (makesWay_of_changes hplace hnode hchanges),
      fun _ _ => open_of_changes hplace hnode hchanges, fun _ => rfl⟩
  · rw [hmake]
    have hdone :
        Prepares path above
        (if above.isDirectory path then .ok () else .error .alreadyExists, above) :=
      prepares_of_isDirectory fun hclear => hclear.isDirectory hplace hnode
    exact ⟨habove, hdone.opens, fun hclear => hdone.succeeds (hclear.adds h.makesWay.adds)⟩
  · rw [hmake]
    have hdone :
        Prepares path above (if above.isDirectory path then .ok () else .error fault, above) := by
      refine prepares_of_isDirectory fun hclear => ?_
      have hopen :=
        hclear.place_of_parent hparent (ne_empty_of_isTidy htidy) fun hne => h.opens hne rfl
      rw [hplace] at hopen
      cases hopen
    exact ⟨habove, hdone.opens, fun hclear => hdone.succeeds (hclear.adds h.makesWay.adds)⟩

lemma IsTidy.endsInStep (h : IsTidy path) (hplace : volume.place path = .error .notFound) :
    Path.EndsInStep path := by
  refine h.resolve_left ?_
  rintro rfl
  cases hplace

/-- A parent is a shorter text. -/
lemma length_lt_of_isParent {parent : String} (h : Path.IsParent parent path) :
    parent.length < path.length := by
  obtain ⟨more, hmore, hlonger⟩ := h.shorter
  have hpositive : 0 < more.length := by
    rw [Nat.pos_iff_ne_zero, ne_eq, String.length_eq_zero_iff]
    exact hmore
  rw [hlonger, String.length_append]
  omega

/-- Where a path does not lead anywhere for another reason than that something is missing, something
is in the way. -/
lemma prepares_of_fault (hpath : path ≠ "") {fault : StorageFault}
    (hplace : volume.place path = .error fault) (hfault : fault ≠ .notFound) :
    Prepares path volume (if volume.isDirectory path then .ok () else .error fault, volume) := by
  refine prepares_of_isDirectory fun hclear => ?_
  rcases hclear.place_cases hpath with hopen | hmissing
  · rw [hplace] at hopen
    cases hopen
  · rw [hplace] at hmissing
    exact absurd (Except.error.inj hmissing) hfault

lemma prepares_makeDirectoriesWithin (fuel : Nat) (path : String) (volume : Volume)
    (hfuel : path.length < fuel) (hpath : path = "" ∨ IsTidy path) :
      Prepares path volume (makeDirectoriesWithin fuel path volume) := by
  induction fuel generalizing path volume with
  | zero => exact absurd hfuel (Nat.not_lt_zero _)
  | succ fuel ih =>
      rcases hpath with rfl | htidy
      · exact ⟨.refl volume "", fun h => absurd rfl h, fun _ => rfl⟩
      have hne := ne_empty_of_isTidy htidy
      rw [makeDirectoriesWithin, if_neg hne]
      rcases makeDirectory_cases htidy volume with ⟨made, hmake, hplace, hnode, hchanges⟩
        | ⟨hmake, hplace, hnode⟩ |
        ⟨fault, hmake, hplace⟩ <;> rw [hmake]
      · exact ⟨makesWay_of_changes hplace hnode hchanges, fun _ _ =>
          open_of_changes hplace hnode hchanges, fun _ => rfl⟩
      · exact prepares_of_isDirectory fun h => h.isDirectory hplace hnode
      · cases fault with
        | notFound =>
            obtain ⟨parent, hfound, hparent⟩ := Path.exists_parent (htidy.endsInStep hplace)
            have hlength : parent.length < fuel :=
              Nat.lt_of_lt_of_le (length_lt_of_isParent hparent) (Nat.lt_succ_iff.mp hfuel)
            have habove := ih parent volume hlength hparent.ends
            simp only [hfound]
            rcases hrun : makeDirectoriesWithin fuel parent volume with ⟨fault | _, above⟩ <;>
              rw [hrun] at habove
            · refine ⟨.trans hparent habove.makesWay (.refl above path), fun _ hok => ?_,
                fun hclear => ?_⟩
              · cases hok
              · exact habove.succeeds (hclear.of_parent hparent)
            · exact prepares_of_parent hparent htidy habove
        | alreadyExists => exact prepares_of_fault hne hplace (by simp)
        | notADirectory => exact prepares_of_fault hne hplace (by simp)
        | isADirectory => exact prepares_of_fault hne hplace (by simp)
        | refused => exact prepares_of_fault hne hplace (by simp)

lemma prepares_makeDirectories (h : IsTidy path) (volume : Volume) :
    Prepares path volume (makeDirectories path volume) :=
  prepares_makeDirectoriesWithin _ path volume (Nat.lt_succ_self _) (.inr h)

lemma fileAt?_of_directory (h : volume.node? place = some .directory) :
    volume.fileAt? place = none := by
  rw [fileAt?, h]

/-- A directory can be made if and only if nothing is in the way. -/
lemma makeDirectories_eq_ok_iff (h : IsTidy path) :
    (makeDirectories path volume).1 = .ok () ↔ Clear volume path := by
  have hprepares := prepares_makeDirectories h volume
  refine ⟨fun hok => ?_, hprepares.succeeds⟩
  have hopen := hprepares.opens (ne_empty_of_isTidy h) hok
  have hadds := hprepares.makesWay.adds
  have hdirectory : ∀ place ∈ volume.way path, (makeDirectories path volume).2.node? place =
      some .directory := by
    intro place hmem
    rw [← way_congr hadds.1] at hmem
    exact hopen.directory place hmem
  refine ⟨hopen.isPath, hopen.names, ?_, fun place hmem => ?_⟩
  · rw [← hprepares.makesWay.node?_origin, hdirectory _ (origin_mem_way volume path)]
  · rw [← hadds.fileAt?_eq, fileAt?_of_directory (hdirectory place hmem)]

end JarFacts.Volume
