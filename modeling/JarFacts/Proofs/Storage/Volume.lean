import Mathlib.Tactic.Common
import JarFacts.Proofs.Steps
import JarFacts.Proofs.Text.Split
import JarFacts.Storage.Volume

/-!
# Where paths lead in a volume

A path is followed segment by segment, and it leads somewhere only if there is a directory at every
place it leaves. Which places these are, and where the path ends, is decided by its segments alone
(`Volume.walk`, `Volume.landing`); the volume only says whether the way is open
(`follow_eq_ok_iff`).  So a path that leads somewhere goes on leading there as long as no directory
disappears (`SparesDirectories.place_eq_ok`), and no change of a file makes one disappear
(`Writes.sparesDirectories`).

A file below a directory is at the directory's landing, one name further (`landing_join`).  That is
all the sinks need to know of paths: what they do to one file of a directory leaves the others as
they are.
-/

namespace JarFacts

namespace Volume

variable {volume other : Volume} {place target : List String} {node : Node} {path : String}

/-! ## What stands at a place -/

lemma node?_of_ne_nil (h : place ≠ []) : volume.node? place = volume.entries.lookup place := by
  cases place with
  | nil => exact absurd rfl h
  | cons name rest => rfl

lemma ne_nil_of_node?_eq_none (h : volume.node? place = none) : place ≠ [] := by
  rintro rfl
  cases h

lemma ne_nil_of_node?_eq_file {bytes : Bytes} (h : volume.node? place = some (.file bytes)) :
    place ≠ [] := by
  rintro rfl
  cases h

lemma lookup_map_replace (entries : List (List String × Node)) (place query : List String)
    (node : Node) :
    (entries.map fun entry => if entry.1 = place then (place, node) else entry).lookup query =
      if query = place then (entries.lookup place).map fun _ => node else entries.lookup query := by
  induction entries with
  | nil => simp
  | cons entry rest ih =>
      obtain ⟨here, content⟩ := entry
      by_cases hhere : here = place
      · subst hhere
        by_cases hquery : query = here
        · subst hquery
          simp
        · have hne : (query == here) = false := by simpa using hquery
          simp only [List.map_cons, List.lookup_cons, if_true, hne, ih, hquery, if_false]
      · by_cases hquery : query = here
        · subst hquery
          simp [hhere]
        · by_cases hplace : query = place
          · subst hplace
            have hne : (query == here) = false := by simpa using hquery
            simp only [List.map_cons, hhere, if_false, List.lookup_cons, hne, ih, if_true]
          · have hne : (query == here) = false := by simpa using hquery
            simp only [List.map_cons, hhere, if_false, List.lookup_cons, hne, ih, hplace]

lemma node?_put (hplace : place ≠ []) (query : List String) :
    (volume.put place node).node? query = if query = place then some node
      else volume.node? query := by
  by_cases hquery : query = []
  · subst hquery
    rw [if_neg (Ne.symm hplace)]
    rfl
  · rw [node?_of_ne_nil hquery, node?_of_ne_nil hquery, put]
    split
    · rename_i hsome
      obtain ⟨old, hold⟩ := Option.isSome_iff_exists.mp hsome
      rw [lookup_map_replace, hold]
      rfl
    · rename_i hnone
      have hnone' : volume.entries.lookup place = none := Option.not_isSome_iff_eq_none.mp hnone
      by_cases heq : query = place
      · subst heq
        simp [List.lookup_append, hnone']
      · have hne : (query == place) = false := by simpa using heq
        simp [List.lookup_append, List.lookup_cons, hne, heq]

lemma node?_erase (hplace : place ≠ []) (query : List String) :
    (volume.erase place).node? query = if query = place then none else volume.node? query := by
  by_cases hquery : query = []
  · subst hquery
    rw [if_neg (Ne.symm hplace)]
    rfl
  · rw [node?_of_ne_nil hquery, node?_of_ne_nil hquery, erase]
    induction volume.entries with
    | nil => simp
    | cons entry rest ih =>
        obtain ⟨here, content⟩ := entry
        dsimp only at ih ⊢
        by_cases hhere : here = place
        · subst hhere
          rw [List.filter_cons_of_neg (by simp), ih]
          by_cases heq : query = here
          · simp [heq]
          · have hne : (query == here) = false := by simpa using heq
            simp [heq, List.lookup_cons, hne]
        · rw [List.filter_cons_of_pos (by simpa using hhere), List.lookup_cons,
            List.lookup_cons, ih]
          by_cases heq : query = here
          · subst heq
            simp [hhere]
          · have hne : (query == here) = false := by simpa using heq
            simp [hne]

/-- The content of the file at a place, if there is one. -/
def fileAt? (volume : Volume) (place : List String) : Option Bytes :=
  match volume.node? place with
  | some (.file bytes) => some bytes
  | _ => none

lemma fileAt?_eq_some {bytes : Bytes} :
    volume.fileAt? place = some bytes ↔ volume.node? place = some (.file bytes) := by
  unfold fileAt?
  split
  · rename_i found hfound
    rw [hfound]
    constructor
    · intro h
      cases h
      rfl
    · intro h
      cases h
      rfl
  · rename_i hnone
    exact iff_of_false (by simp) (hnone bytes)

lemma fileAt?_congr (h : other.node? place = volume.node? place) :
    other.fileAt? place = volume.fileAt? place := by
  rw [fileAt?, fileAt?, h]

/-! ## The way of a path -/

/-- The place behind a segment. -/
def step (place : List String) (segment : String) : List String :=
  if segment = "" ∨ segment = "." then place
  else if segment = ".." then place.dropLast
  else place ++ [segment]

/-- The places that are left on the way along segments. -/
def walk (place : List String) : List String → List (List String)
  | [] => []
  | segment :: rest => place :: walk (step place segment) rest

/-- Where a path starts. -/
def origin (volume : Volume) (path : String) : List String :=
  if Path.isAbsolute path then [] else volume.workingDirectory

/-- Where a path ends, if its way is open. -/
def landing (volume : Volume) (path : String) : List String :=
  (Path.segments path).foldl step (volume.origin path)

lemma walk_append (place : List String) (first second : List String) :
    walk place (first ++ second) = walk place first ++ walk (first.foldl step place) second := by
  induction first generalizing place with
  | nil => rfl
  | cons segment rest ih => simp [walk, ih]

lemma isName_of_special {segment : String} (h : segment = "" ∨ segment = "." ∨ segment = "..") :
    isName segment = true := by
  rcases h with rfl | rfl | rfl <;> decide

lemma follow_cons (segment : String) (rest : List String) :
    volume.follow place (segment :: rest) =
      match volume.node? place with
      | none => .error .notFound
      | some (.file _) => .error .notADirectory
      | some .directory =>
        if isName segment then volume.follow (step place segment) rest else .error .refused := by
  rw [follow]
  rcases volume.node? place with _ | _ | bytes
  · rfl
  · dsimp only
    by_cases hidle : segment = "" ∨ segment = "."
    · have hname : isName segment = true := isName_of_special (hidle.imp_right Or.inl)
      simp only [hidle, hname, step, if_true]
    · by_cases hparent : segment = ".."
      · have hname : isName segment = true := isName_of_special (.inr (.inr hparent))
        rw [step, if_neg hidle, if_pos hparent, if_neg hidle, if_pos hparent, if_pos hname]
      · simp only [hidle, hparent, step, if_false]
  · rfl

/-- The way along segments is open if there is a directory at every place it leaves, and every
segment can be a name. -/
lemma follow_eq_ok_iff {segments : List String} :
    volume.follow place segments = .ok target ↔
      target = segments.foldl step place ∧
      (∀ left ∈ walk place segments, volume.node? left = some .directory) ∧
      ∀ segment ∈ segments, isName segment = true := by
  induction segments generalizing place with
  | nil =>
      rw [follow, Except.ok.injEq]
      constructor
      · rintro rfl
        exact ⟨rfl, by simp [walk], by simp⟩
      · rintro ⟨rfl, -, -⟩
        rfl
  | cons segment rest ih =>
      rw [follow_cons]
      cases hnode : volume.node? place with
      | none => simp [walk, hnode]
      | some found =>
          cases found with
          | file bytes => simp [walk, hnode]
          | directory =>
              by_cases hname : isName segment = true
              · simp [walk, hnode, hname, ih]
              · simp [hname]

lemma follow_congr {segments : List String}
    (h : ∀ left ∈ walk place segments, other.node? left = volume.node? left) :
    other.follow place segments = volume.follow place segments := by
  induction segments generalizing place with
  | nil => rfl
  | cons segment rest ih =>
      have hhere : other.node? place = volume.node? place := h place List.mem_cons_self
      have hrest := ih fun left hleft => h left (List.mem_cons_of_mem _ hleft)
      rw [follow_cons, follow_cons, hhere, hrest]

/-- Every directory stays where it is, and paths start where they did. -/
def SparesDirectories (volume other : Volume) : Prop :=
  other.workingDirectory = volume.workingDirectory ∧
    ∀ place, volume.node? place = some .directory → other.node? place = some .directory

lemma SparesDirectories.refl (volume : Volume) : SparesDirectories volume volume :=
  ⟨rfl, fun _ h => h⟩

lemma SparesDirectories.trans {third : Volume} (h : SparesDirectories volume other)
    (h' : SparesDirectories other third) : SparesDirectories volume third :=
  ⟨h'.1.trans h.1, fun place hplace => h'.2 place (h.2 place hplace)⟩

lemma SparesDirectories.landing (h : SparesDirectories volume other) (path : String) :
    other.landing path = volume.landing path := by
  rw [Volume.landing, Volume.landing, origin, origin, h.1]

/-- A path that leads somewhere ends at its landing, and there is a directory at every place it
leaves. -/
lemma place_eq_ok (h : volume.place path = .ok place) :
    place = volume.landing path ∧ isPath path = true ∧
      (∀ left ∈ walk (volume.origin path) (Path.segments path), volume.node? left =
        some .directory) ∧
      ∀ segment ∈ Path.segments path, isName segment = true := by
  unfold Volume.place at h
  split at h
  · cases h
  · split at h
    · cases h
    · rename_i hpath
      obtain ⟨hlanding, hleft, hnames⟩ := follow_eq_ok_iff.mp h
      exact ⟨hlanding, by simpa using hpath, hleft, hnames⟩

lemma SparesDirectories.place_eq_ok (h : SparesDirectories volume other)
    (hplace : volume.place path = .ok place) : other.place path = .ok place := by
  obtain ⟨hlanding, hpath, hleft, hnames⟩ := Volume.place_eq_ok hplace
  have hempty : path ≠ "" := by
    rintro rfl
    cases hplace
  rw [Volume.place, if_neg hempty, if_neg (by simp [hpath]), h.1]
  exact follow_eq_ok_iff.mpr ⟨hlanding, fun left hmem => h.2 left (hleft left hmem), hnames⟩

end Volume

/-! ## The files of a directory -/

namespace Path

/-- The text is the name of something in a directory, and no path of several steps. -/
def IsPlain (name : String) : Prop :=
  name ≠ "" ∧ name ≠ "." ∧ name ≠ ".." ∧ '/' ∉ name.toList

instance (name : String) : Decidable (IsPlain name) :=
  inferInstanceAs (Decidable (_ ∧ _))

/-- The text is a single step of a path, which may be one of dots. -/
def IsSegment (name : String) : Prop :=
  name ≠ "" ∧ '/' ∉ name.toList

variable {name root : String}

lemma IsPlain.isSegment (h : IsPlain name) : IsSegment name :=
  ⟨h.1, h.2.2.2⟩

lemma segments_of_isSegment (h : IsSegment name) : segments name = [name] := by
  rw [segments, Text.separated_of_not_mem h.2]
  simp

lemma not_isAbsolute_of_isSegment (h : IsSegment name) : isAbsolute name = false := by
  rw [isAbsolute, decide_eq_false_iff_not]
  intro hhead
  exact h.2 (List.mem_of_mem_head? hhead)

lemma join_of_isSegment (h : IsSegment name) (root : String) :
    join root name = if root = "" ∨ root.toList.getLast? = some '/' then root ++ name
      else root ++ "/" ++ name := by
  rw [join, if_neg (by simp [not_isAbsolute_of_isSegment h])]

lemma join_of_isPlain (h : IsPlain name) (root : String) :
    join root name = if root = "" ∨ root.toList.getLast? = some '/' then root ++ name
      else root ++ "/" ++ name :=
  join_of_isSegment h.isSegment root

lemma isAbsolute_append (h : root ≠ "") (rest : String) :
    isAbsolute (root ++ rest) = isAbsolute root := by
  rw [isAbsolute, isAbsolute, String.toList_append]
  cases hchars : root.toList with
  | nil => exact absurd (String.toList_eq_nil_iff.mp hchars) h
  | cons c rest => rfl

lemma isAbsolute_join (h : IsSegment name) (hroot : root ≠ "") :
    isAbsolute (join root name) = isAbsolute root := by
  rw [join_of_isSegment h]
  split
  · exact isAbsolute_append hroot _
  · rw [String.append_assoc]
    exact isAbsolute_append hroot _

/-- A step more is a segment more; what means nothing at the end of the root is left out. -/
lemma exists_segments_join (hroot : root ≠ "") :
    ∃ front, front ≠ [] ∧ (segments root = front ∨ segments root = front ++ [""]) ∧
      ∀ name, IsSegment name → segments (join root name) = front ++ [name] := by
  have hne (text : List Char) : (Text.separated '/' text).map String.ofList ≠ [] := by
    simpa using Text.separated_ne_nil '/' text
  by_cases hslash : root.toList.getLast? = some '/'
  · obtain ⟨front, hfront⟩ := List.getLast?_eq_some_iff.mp hslash
    refine ⟨(Text.separated '/' front).map String.ofList, hne front, .inr ?_, fun name h => ?_⟩
    · rw [segments, hfront, Text.separated_append, List.map_append]
      rfl
    · rw [join_of_isSegment h, if_pos (.inr hslash), segments, String.toList_append, hfront,
        List.append_assoc, List.singleton_append, Text.separated_append,
        Text.separated_of_not_mem h.2]
      simp
  · refine ⟨segments root, hne root.toList, .inl rfl, fun name h => ?_⟩
    have hchars : (root ++ "/" ++ name).toList = root.toList ++ '/' :: name.toList := by simp
    rw [join_of_isSegment h, if_neg (by simp [hroot, hslash]), segments, hchars,
      Text.separated_append, Text.separated_of_not_mem h.2, List.map_append]
    simp [segments]

end Path

namespace Volume

variable {volume other : Volume} {place target : List String} {node : Node}
  {path directory name : String}

lemma step_of_isPlain (h : Path.IsPlain name) (place : List String) :
    step place name = place ++ [name] := by
  obtain ⟨hempty, hdot, hdots, -⟩ := h
  rw [step, if_neg (by simp [hempty, hdot]), if_neg hdots]

/-- The way of a path to something in a directory is the way to the directory, and one step more. -/
lemma exists_segments_join (volume : Volume) (directory : String) :
    ∃ segments, segments.foldl step (volume.origin directory) = volume.landing directory ∧
      (∀ left ∈ walk (volume.origin directory) segments,
        left ∈ walk (volume.origin directory) (Path.segments directory)) ∧
      ∀ name, Path.IsPlain name →
        volume.origin (Path.join directory name) = volume.origin directory ∧
        Path.segments (Path.join directory name) = segments ++ [name] := by
  by_cases hempty : directory = ""
  · subst hempty
    refine ⟨[], rfl, fun left hleft => absurd hleft List.not_mem_nil, fun name h => ?_⟩
    rw [Path.join_of_isPlain h, if_pos (.inl rfl), String.empty_append]
    refine ⟨?_, Path.segments_of_isSegment h.isSegment⟩
    rw [origin, origin, Path.not_isAbsolute_of_isSegment h.isSegment]
    rfl
  · obtain ⟨front, -, hfront, hjoin⟩ := Path.exists_segments_join hempty
    refine ⟨front, ?_, fun left hleft => ?_, fun name h => ⟨?_, hjoin name h.isSegment⟩⟩
    · rw [landing]
      rcases hfront with hfront | hfront
      · rw [hfront]
      · rw [hfront, List.foldl_append]
        rfl
    · rcases hfront with hfront | hfront
      · rwa [hfront]
      · rw [hfront, walk_append]
        exact List.mem_append_left _ hleft
    · rw [origin, origin, Path.isAbsolute_join h.isSegment hempty]

/-- Something in a directory is one name below where the path of the directory ends. -/
lemma landing_join (h : Path.IsPlain name) (volume : Volume) (directory : String) :
    volume.landing (Path.join directory name) = volume.landing directory ++ [name] := by
  obtain ⟨segments, hlanding, -, hjoin⟩ := exists_segments_join volume directory
  obtain ⟨horigin, hsegments⟩ := hjoin name h
  rw [landing, horigin, hsegments, List.foldl_append, hlanding, List.foldl_cons, List.foldl_nil,
    step_of_isPlain h]

/-- All paths to something in a directory have the same way but for the last step. -/
lemma walk_join {name other : String} (h : Path.IsPlain name) (h' : Path.IsPlain other)
    (volume : Volume) (directory : String) :
    walk (volume.origin (Path.join directory name)) (Path.segments (Path.join directory name)) =
      walk (volume.origin (Path.join directory other))
        (Path.segments (Path.join directory other)) := by
  obtain ⟨segments, -, -, hjoin⟩ := exists_segments_join volume directory
  obtain ⟨horigin, hsegments⟩ := hjoin name h
  obtain ⟨horigin', hsegments'⟩ := hjoin other h'
  rw [horigin, horigin', hsegments, hsegments', walk_append, walk_append]
  rfl

/-! ## What actions do -/

/-- The second volume is the first with something else, or nothing, at one place. -/
def Changes (volume : Volume) (place : List String) (node : Option Node) (other : Volume) : Prop :=
  other.workingDirectory = volume.workingDirectory ∧
    ∀ query, other.node? query = if query = place then node else volume.node? query

lemma Changes.node?_self {node : Option Node} (h : Changes volume place node other) :
    other.node? place = node := by
  rw [h.2, if_pos rfl]

lemma Changes.node?_of_ne {node : Option Node} (h : Changes volume place node other)
    {query : List String} (hne : query ≠ place) : other.node? query = volume.node? query := by
  rw [h.2, if_neg hne]

lemma Changes.sparesDirectories {node : Option Node} (h : Changes volume place node other)
    (hplace : volume.node? place ≠ some .directory) : SparesDirectories volume other := by
  refine ⟨h.1, fun query hquery => ?_⟩
  have hne : query ≠ place := by
    rintro rfl
    exact hplace hquery
  rw [h.node?_of_ne hne, hquery]

lemma changes_put (hplace : place ≠ []) (node : Node) :
    Changes volume place (some node) (volume.put place node) := by
  refine ⟨?_, node?_put hplace⟩
  unfold put
  split <;> rfl

lemma changes_erase (hplace : place ≠ []) : Changes volume place none (volume.erase place) :=
  ⟨rfl, node?_erase hplace⟩

/-- What a file action that succeeds has done: it has changed one place, which its path leads to,
and where no directory was. -/
structure Writes (volume : Volume) (path : String) (node : Option Node) (other : Volume) :
    Prop where
  place : volume.place path = .ok (volume.landing path)
  notDirectory : volume.node? (volume.landing path) ≠ some .directory
  changes : Changes volume (volume.landing path) node other

lemma Writes.sparesDirectories {node : Option Node} (h : Writes volume path node other) :
    SparesDirectories volume other :=
  h.changes.sparesDirectories h.notDirectory

lemma writes_of_replace {bytes : Bytes} (h : volume.replace path bytes = .ok other) :
    Writes volume path (some (.file bytes)) other := by
  obtain ⟨place, hplace, h⟩ := exists_ok_of_bind h
  obtain ⟨rfl, -⟩ := place_eq_ok hplace
  split at h
  · cases h
  · rename_i old hold
    cases h
    exact ⟨hplace, by simp [hold], changes_put (ne_nil_of_node?_eq_file hold) _⟩
  · rename_i hnone _
    cases h
    exact ⟨hplace, by simp [hnone], changes_put (ne_nil_of_node?_eq_none hnone) _⟩
  · cases h

lemma writes_of_writeAt {offset : Nat} {bytes : Bytes}
    (h : volume.writeAt path offset bytes = .ok other) :
    ∃ content, volume.fileAt? (volume.landing path) = some content ∧
      Writes volume path (some (.file (overlay content offset bytes))) other := by
  obtain ⟨place, hplace, h⟩ := exists_ok_of_bind h
  obtain ⟨rfl, -⟩ := place_eq_ok hplace
  split at h
  · rename_i content hcontent
    cases h
    exact ⟨content, fileAt?_eq_some.mpr hcontent, hplace, by simp [hcontent],
      changes_put (ne_nil_of_node?_eq_file hcontent) _⟩
  · cases h
  · cases h

lemma writes_of_remove (h : volume.remove path = .ok other) : Writes volume path none other := by
  obtain ⟨place, hplace, h⟩ := exists_ok_of_bind h
  obtain ⟨rfl, -⟩ := place_eq_ok hplace
  split at h
  · rename_i content hcontent
    cases h
    exact ⟨hplace, by simp [hcontent], changes_erase (ne_nil_of_node?_eq_file hcontent)⟩
  · cases h
  · cases h

end Volume

end JarFacts
