import Mathlib.Tactic.Common
import JarFacts.Proofs.Fact.RoundTrip
import JarFacts.Proofs.Sink.Output

/-!
# Output read back

Whatever was in the directory before, after facts have been written and a summary has closed the
sink, the file of each family holds one line for each fact of the family and nothing else, and the
facts are read back from it, as the summary is from the marker (`output_read_back`).

Two things carry this.  What the sink has taken goes to the files byte by byte in the order it came
(`writeAll_cases`), through whatever buffers.  And a line is a compact text, which no line break
stands in, so that a file is cut into its lines where the facts were joined (`lines_unlines`).
-/

namespace JarFacts

/-! ## Lines -/

namespace Text

/-- The lines of a text.  A line break ends a line; behind the last one there may be a line that is
not ended. -/
def lines (text : List Char) : List (List Char) :=
  let parts := separated '\n' text
  if parts.getLast? = some [] then parts.dropLast else parts

/-- Texts as lines, each ended by a line break. -/
def unlines (texts : List (List Char)) : List Char :=
  texts.flatMap fun text => text ++ ['\n']

lemma separated_unlines {texts : List (List Char)} (h : ∀ text ∈ texts, '\n' ∉ text) :
    separated '\n' (unlines texts) = texts ++ [[]] := by
  induction texts with
  | nil => rfl
  | cons text texts ih =>
      have hrest := ih fun other hother => h other (List.mem_cons_of_mem _ hother)
      have htext := h text List.mem_cons_self
      have hcons : unlines (text :: texts) = text ++ '\n' :: unlines texts := by simp [unlines]
      rw [hcons, separated_append, separated_of_not_mem htext, hrest]
      rfl

/-- Texts without line breaks are the lines they are written as. -/
lemma lines_unlines {texts : List (List Char)} (h : ∀ text ∈ texts, '\n' ∉ text) :
    lines (unlines texts) = texts := by
  rw [lines, separated_unlines h]
  simp

end Text

namespace Utf8

lemma encode_flatten (texts : List (List Char)) :
    encode texts.flatten = (texts.map encode).flatten := by
  induction texts with
  | nil => rfl
  | cons text texts ih =>
      rw [List.flatten_cons, List.map_cons, List.flatten_cons, ← ih, encode, List.flatMap_append]
      rfl

end Utf8

namespace Fact

/-- A line is the fact in JSON and a line break. -/
lemma line_eq (fact : Fact) : fact.line = Utf8.encode (fact.toJson.print ++ ['\n']) := by
  rw [line, linePieces, ← Utf8.encode_flatten, List.flatten_append, Json.flatten_pieces]
  rfl

lemma flatMap_line (facts : List Fact) :
    facts.flatMap line = Utf8.encode (Text.unlines (facts.map fun fact => fact.toJson.print)) := by
  induction facts with
  | nil => rfl
  | cons fact facts ih =>
      rw [List.flatMap_cons, ih, line_eq, Utf8.encode, Utf8.encode,
        Utf8.encode, ← List.flatMap_append]
      rfl

/-- Reads a fact of a family. -/
def ofJson? (family : Family) (json : Json) : Option Fact :=
  match family with
  | .entities => (EntityFact.ofJson? json).map .entity
  | .relations => (RelationFact.ofJson? json).map .relation
  | .files => (FileFact.ofJson? json).map .file
  | .params => (VariableFact.ofJson? json).map .param

/-- A fact is read back as one of its family. -/
lemma ofJson?_toJson {fact : Fact} (h : fact.InRange) :
    ofJson? fact.family fact.toJson = some fact := by
  cases fact with
  | entity fact =>
      have hread := EntityFact.ofJson?_toJson h
      simp [ofJson?, family, toJson, hread]
  | relation fact =>
      have hread := RelationFact.ofJson?_toJson h
      simp [ofJson?, family, toJson, hread]
  | file fact =>
      have hread := FileFact.ofJson?_toJson h
      simp [ofJson?, family, toJson, hread]
  | param fact =>
      have hread := VariableFact.ofJson?_toJson h
      simp [ofJson?, family, toJson, hread]

/-- Reads the facts of a family from a file: a fact from each line. -/
def readLines? (family : Family) (bytes : Bytes) : Option (List Fact) := do
  let text ← Utf8.decode? bytes
  (Text.lines text).mapM fun line => (Json.parse? (String.ofList line)).bind (ofJson? family)

lemma lines_of_flatMap_line (facts : List Fact) :
    (Utf8.decode? (facts.flatMap line)).map Text.lines =
      some (facts.map fun fact => fact.toJson.print) := by
  rw [flatMap_line, Utf8.decode?_encode, Option.map_some, Text.lines_unlines]
  intro text htext
  obtain ⟨fact, -, rfl⟩ := List.mem_map.mp htext
  exact Json.not_mem_print _ fact.written_toJson

/-- The facts of a family are read back from their lines. -/
lemma readLines?_flatMap_line {family : Family} {facts : List Fact}
    (hfamily : ∀ fact ∈ facts, fact.family = family)
    (hrange : ∀ fact ∈ facts, fact.InRange) : readLines? family (facts.flatMap line) =
      some facts := by
  have hlines := lines_of_flatMap_line facts
  obtain ⟨text, htext, hsplit⟩ := Option.map_eq_some_iff.mp hlines
  rw [readLines?, htext, Option.bind_eq_bind, Option.bind_some, hsplit]
  clear htext hsplit hlines
  induction facts with
  | nil => rfl
  | cons fact facts ih =>
      have hrest := ih (fun other hother => hfamily other (List.mem_cons_of_mem _ hother))
        fun other hother => hrange other (List.mem_cons_of_mem _ hother)
      have hparse : Json.parse? (String.ofList fact.toJson.print) = some fact.toJson :=
        Json.parse?_compact fact.written_toJson
      have hread := ofJson?_toJson (hrange fact List.mem_cons_self)
      rw [hfamily fact List.mem_cons_self] at hread
      rw [List.map_cons, List.mapM_cons, hparse, Option.bind_some, hread, hrest]
      rfl

end Fact

/-- Reads a summary from a marker. -/
def WalkSummary.ofMarker? (bytes : Bytes) : Option WalkSummary := do
  let text ← Utf8.decodeString? bytes
  let json ← Json.parse? text
  WalkSummary.ofJson? json

/-- A summary is read back from its marker. -/
lemma WalkSummary.ofMarker?_marker {summary : WalkSummary} (h : summary.InRange) :
    ofMarker? summary.marker = some summary := by
  have hdecode : Utf8.decodeString? summary.marker = some summary.toJson.pretty := by
    rw [Utf8.decodeString?, marker, Utf8.encodeString, Utf8.decode?_encode, Option.map_some,
      String.ofList_toList]
  simp only [ofMarker?, hdecode, Option.bind_eq_bind, Option.bind_some,
    Json.parse?_pretty summary.written_toJson, ofJson?_toJson h]

/-! ## A whole run -/

namespace LinesOutput

open Watched LinesSink

variable {δ : Type} [Storage δ]

/-- Takes facts, up to the first that is refused. -/
def writeAll : List Fact → LinesOutput δ → Except SinkError Unit × LinesOutput δ
  | [], output => (.ok (), output)
  | fact :: facts, output =>
    match output.write fact with
    | (.ok (), output) => writeAll facts output
    | failed => failed

/-- Opens a sink in a directory, writes facts to it, and closes it with a summary. -/
def complete (directory : String) (config : OutputConfig) (facts : List Fact)
    (summary : WalkSummary) (storage : δ) :
    Except SinkError δ :=
  match (LinesSink.create directory config).run.run storage with
  | (.error error, _) => .error error
  | (.ok sink, storage) =>
    match writeAll facts ⟨sink, storage, #[]⟩ with
    | (.error error, _) => .error error
    | (.ok (), output) =>
      match output.finish summary with
      | (.error error, _) => .error error
      | (.ok (), output) => .ok output.storage

variable [Watched δ] {directory : String} {config : OutputConfig} {output output' : LinesOutput δ}
  {taken : Family → Bytes}

/-- Facts that have all been taken are behind what has been taken before, each in its family. -/
lemma writeAll_cases (hnames : config.NamesApart) (hopen : output.sink.finished = false)
    (hserves : output.sink.Serves directory config)
    (hholds : output.sink.HoldsAll taken (shown output.storage))
    {facts : List Fact} (h : output.writeAll facts = (.ok (), output')) :
    output'.sink.finished = false ∧ output'.sink.Serves directory config ∧
      (shown output.storage).SparesDirectories (shown output'.storage) ∧
      output'.sink.HoldsAll
        (fun family =>
          taken family ++ (facts.filter fun fact => fact.family = family).flatMap Fact.line)
        (shown output'.storage) := by
  induction facts generalizing output taken with
  | nil =>
      cases h
      refine ⟨hopen, hserves, .refl _, ?_⟩
      simpa using hholds
  | cons fact facts ih =>
      obtain ⟨result, sink, storage, hwrite, hserves', hopen', hspares, kept, -, hkept, hholds'⟩ :=
        write_cases hnames hopen hserves hholds fact
      rw [writeAll, hwrite] at h
      cases result with
      | error error => cases h
      | ok _ =>
          rw [hkept rfl] at hholds'
          obtain ⟨hopen'', hserves'', hspares', hholds''⟩ := ih hopen' hserves' hholds' h
          refine ⟨hopen'', hserves'', hspares.1.sparesDirectories.trans hspares', fun family => ?_⟩
          have hfamily := hholds'' family
          by_cases hsame : fact.family = family
          · simp only [hsame, if_true, List.append_assoc] at hfamily
            simpa [hsame] using hfamily
          · simp only [Ne.symm hsame, if_false] at hfamily
            simpa [hsame] using hfamily

end LinesOutput

lemma Volume.read_of_place {volume : Volume} {path : String} {place : List String} {bytes : Bytes}
    (hplace : volume.place path = .ok place) (hfile : volume.fileAt? place = some bytes) :
      volume.read path = .ok bytes := by
  rw [Volume.read, Volume.find, hplace]
  simp only [bind, Except.bind, Volume.fileAt?_eq_some.mp hfile]

/-- What a sink that was opened, filled and closed has left behind. -/
lemma LinesOutput.complete_cases {config : OutputConfig} (hnames : config.NamesApart)
    {directory : String} {volume closed : Volume} {facts : List Fact} {summary : WalkSummary}
    (h : complete directory config facts summary volume = .ok closed) :
    (∀ family, closed.read (Path.join directory (config.fileName family)) =
      .ok ((facts.filter fun fact => fact.family = family).flatMap Fact.line)) ∧
    closed.read (Path.join directory config.markerFile) = .ok summary.marker := by
  unfold complete at h
  split at h
  · cases h
  · rename_i sink opened hcreate
    have hfresh := LinesSink.fresh_of_create hnames hcreate
    split at h
    · cases h
    · rename_i written hwrite
      obtain ⟨hopen, hserves, hspares, hholds⟩ :=
        writeAll_cases hnames hfresh.open' hfresh.serves hfresh.holds hwrite
      obtain ⟨result, output, hfinish, hcases⟩ := finish_cases hnames hopen hserves hholds summary
      rw [hfinish] at h
      obtain ⟨rfl, hclosed, hspares', -⟩ | ⟨hne, -⟩ := hcases
      · cases h
        refine ⟨fun family => ?_, Volume.read_of_place hclosed.reach hclosed.marker⟩
        have hspares := hspares.trans hspares'
        have hplace := hspares.place_eq_ok (hfresh.reach family)
        rw [← hspares.landing] at hplace
        exact Volume.read_of_place hplace (hclosed.files family)
      · cases result with
        | error error => cases h
        | ok _ => exact absurd rfl hne

/-- **Output is read back without loss.**  A sink is opened on a volume, facts are written to it,
and a summary closes it. Then the file of each family holds a line for each fact of the family, in
order, and nothing else; no line break stands in a fact; and the facts are read back from the file,
and the summary from the marker. -/
theorem output_read_back {config : OutputConfig} (hnames : config.NamesApart) {directory : String}
    {volume closed : Volume}
    {facts : List Fact} (hfacts : ∀ fact ∈ facts, fact.InRange) {summary : WalkSummary}
    (hsummary : summary.InRange)
    (h : LinesOutput.complete directory config facts summary volume = .ok closed) :
    (∀ family, ∃ bytes,
      closed.read (Path.join directory (config.fileName family)) = .ok bytes ∧
      bytes = ((facts.filter fun fact => fact.family = family).flatMap fun fact =>
        Utf8.encodeString (fact.toJson.compact ++ "\n")) ∧
      (Utf8.decode? bytes).map (fun text => (Text.lines text).length) =
        some (facts.countP fun fact => fact.family = family) ∧
      Fact.readLines? family bytes = some (facts.filter fun fact => fact.family = family)) ∧
    (∀ fact ∈ facts, '\n' ∉ fact.toJson.compact.toList) ∧
    ∃ bytes, closed.read (Path.join directory config.markerFile) = .ok bytes ∧
      WalkSummary.ofMarker? bytes = some summary := by
  obtain ⟨hfiles, hmarker⟩ := LinesOutput.complete_cases hnames h
  refine ⟨fun family =>
    ⟨(facts.filter fun fact => fact.family = family).flatMap Fact.line, hfiles family, ?_, ?_, ?_⟩,
    fun fact _ => ?_, summary.marker, hmarker, WalkSummary.ofMarker?_marker hsummary⟩
  · congr 1
    funext fact
    rw [Fact.line_eq, Utf8.encodeString, Json.compact, String.toList_append, String.toList_ofList]
    rfl
  · have hlines := Fact.lines_of_flatMap_line (facts.filter fun fact => fact.family = family)
    have hlength := congrArg (Option.map List.length) hlines
    rw [Option.map_map] at hlength
    simpa [List.countP_eq_length_filter] using hlength
  · apply Fact.readLines?_flatMap_line
    · intro fact hfact
      simpa using (List.mem_filter.mp hfact).2
    · intro fact hfact
      exact hfacts fact (List.mem_filter.mp hfact).1
  · rw [Json.compact, String.toList_ofList]
    exact Json.not_mem_print _ fact.written_toJson

/-- A directory with the output of an earlier run. -/
def staleVolume : Volume where
  workingDirectory := ["work"]
  entries := [(["work"], .directory), (["work", "out"], .directory),
    (["work", "out", "extraction.json"], .file [123, 125]),
    (["work", "out", "entities.jsonl"], .file [10, 10, 10])]

/-- Facts of all families, with what has to be escaped in texts and what has not, and with much that
is absent. -/
def mixedFacts : List Fact :=
  [.entity ⟨.classType, "a\"b\\c", some "\n\té😀", 33, none, some "",
    ⟨"p", some "A.java", some 4294967295, none⟩⟩, .file ⟨.jar, "lib.jar", none, .nowhere⟩,
    .relation ⟨.calls, "x", "\x1f", .ofClassFile "p" "q.A"⟩,
    .param ⟨.param, "arg0", 0, "int", .nowhere, "m()", 18446744073709551615, .nowhere⟩,
    .file ⟨.classFile, "A", some "q.A", .ofClassFile "p" "q.A"⟩]

/-- A summary of a walk that ended in a leap second. -/
def leapSummary : WalkSummary :=
  ⟨"lib.jar", none, 1, 1, 0, ⟨1, 1, 2, 1⟩, ⟨19000, 86398, 500⟩, ⟨19000, 86399, 1000000000⟩⟩

lemma mixedFacts_inRange : ∀ fact ∈ mixedFacts, fact.InRange := by
  simp [mixedFacts, Fact.InRange, EntityFact.InRange, RelationFact.InRange, FileFact.InRange,
    Location.InRange, Location.nowhere, Location.ofClassFile]
  exact ⟨by decide, by simp [Location.InRange], by simp [Location.InRange]⟩

lemma leapSummary_inRange : leapSummary.InRange where
  classesSeen := by decide
  classesExtracted := by decide
  classesFailed := by decide
  facts := ⟨by decide, by decide, by decide, by decide⟩
  startedAt := ⟨by decide, by decide, by decide, by decide⟩
  finishedAt := ⟨by decide, by decide, by decide, by decide⟩

/-- Over the output of an earlier run, the facts and the summary of a new one are read back. -/
theorem staleVolume_read_back :
    ∃ closed, LinesOutput.complete "out" .default mixedFacts leapSummary staleVolume = .ok closed ∧
      (∀ family, ∃ bytes, closed.read (Path.join "out" (OutputConfig.default.fileName family)) =
        .ok bytes ∧
        Fact.readLines? family bytes = some (mixedFacts.filter fun fact => fact.family = family)) ∧
      ∃ bytes, closed.read "out/extraction.json" = .ok bytes ∧
        WalkSummary.ofMarker? bytes = some leapSummary := by
  have hok : (LinesOutput.complete "out" .default mixedFacts leapSummary staleVolume).isOk =
      true := by decide +kernel
  cases hrun : LinesOutput.complete "out" .default mixedFacts leapSummary staleVolume with
  | error error =>
      rw [hrun] at hok
      cases hok
  | ok closed =>
      obtain ⟨hfiles, -, hmarker⟩ :=
        output_read_back (by decide) mixedFacts_inRange leapSummary_inRange hrun
      refine ⟨closed, rfl, fun family => ?_, hmarker⟩
      obtain ⟨bytes, hread, -, -, hfacts⟩ := hfiles family
      exact ⟨bytes, hread, hfacts⟩

end JarFacts
