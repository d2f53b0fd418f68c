import Mathlib.Tactic.Common
import JarFacts.Fact.Json
import JarFacts.Proofs.Json.Reading
import JarFacts.Proofs.Time.Instant

/-!
# Facts read back from JSON

Every fact is read back from its written form, whatever its texts are and whatever is absent, as
long as its numbers are in the range of their format (`InRange`).  A record is an object that no
name stands twice in, so that reading a member is looking it up (`record?_object`); a location
differs from the other records in leaving out what is absent.
-/

namespace JarFacts

namespace Json

variable {bits value : Nat} {members : List (String × Json)} {names : List String}

/-! ## Members of a record -/

lemma filter_name_of_nodup (h : (members.map Prod.fst).Nodup) (name : String) :
    (members.filter fun entry => entry.1 = name) =
      ((members.lookup name).map fun value => (name, value)).toList := by
  induction members with
  | nil => rfl
  | cons entry rest ih =>
      obtain ⟨here, value⟩ := entry
      rw [List.map_cons, List.nodup_cons] at h
      obtain ⟨hfirst, hrest⟩ := h
      by_cases hname : here = name
      · subst hname
        have hothers : rest.filter (fun entry => entry.1 = here) = [] := by
          rw [List.filter_eq_nil_iff]
          rintro ⟨other, value⟩ hmem heq
          rw [decide_eq_true_eq] at heq
          have hmem' : other ∈ rest.map Prod.fst := List.mem_map_of_mem hmem
          exact hfirst (heq ▸ hmem')
        simp [hothers]
      · have hne : (name == here) = false := by simpa using Ne.symm hname
        simp [hname, List.lookup_cons, hne, ih hrest]

/-- Of a record that no name stands twice in, a member is what stands at its name. -/
lemma member?_of_nodup (h : (members.map Prod.fst).Nodup) (name : String) :
    member? members name = some (members.lookup name) := by
  rw [member?, filter_name_of_nodup h]
  cases members.lookup name <;> rfl

lemma record?_object (h : (members.map Prod.fst).Nodup) :
    record? names (.object members) = some fun name => members.lookup name := by
  simp [record?, member?_of_nodup h]

@[simp]
lemma text?_string (text : String) : text? (.string text) = some text := rfl

@[simp]
lemma unsigned?_nat (h : value < 2 ^ bits) : unsigned? bits (.nat value) = some value := by
  simp [unsigned?, nat, h]

@[simp]
lemma flags?_nat (flags : UInt16) : flags? (.nat flags.toNat) = some flags := by
  have h : flags.toNat < 2 ^ 16 := flags.toNat_lt
  rw [flags?, unsigned?_nat h, Option.map_some, UInt16.ofNat_toNat]

lemma required_of_eq {α : Type} {members : Members} {name : String} {decode : Json → Option α}
    {json : Json} (h : members name = some json) : required members name decode = decode json := by
  rw [required, h]
  rfl

/-- A member that has to be there is what it is decoded to. -/
lemma required_eq_some {α : Type} {members : Members} {name : String} {decode : Json → Option α}
    {json : Json} {value : α} (h : members name = some json) (hdecode : decode json = some value) :
    required members name decode = some value :=
  (required_of_eq h).trans hdecode

lemma required_text {members : Members} {name text : String}
    (h : members name = some (.string text)) :
    required members name text? = some text :=
  required_eq_some h (text?_string text)

lemma required_unsigned {members : Members} {name : String} (h : members name = some (.nat value))
    (hvalue : value < 2 ^ bits) : required members name (unsigned? bits) = some value :=
  required_eq_some h (unsigned?_nat hvalue)

/-- A text that may be absent. -/
def textOrNull? : Json → Option (Option String)
  | .string text => some (some text)
  | .null => some none
  | _ => none

@[simp]
lemma textOrNull?_optional (text : Option String) : textOrNull? (.optional text) = some text := by
  cases text <;> rfl

lemma maybe_text (members : Members) (name : String) :
    maybe members name text? = (members name).elim (some none) textOrNull? := by
  rw [maybe]
  split
  · rename_i h
    rw [h]
    rfl
  · rename_i h
    rw [h]
    rfl
  · rename_i json hnull h
    rw [h]
    cases json <;> simp_all [textOrNull?, text?]

lemma maybe_optional {members : Members} {name : String} {text : Option String}
    (h : members name = some (.optional text)) : maybe members name text? = some text := by
  rw [maybe_text, h, Option.elim_some, textOrNull?_optional]

@[simp]
lemma word?_string {α : Type} (ofName? : String → Option α) (name : String) :
    word? ofName? (.string name) = ofName? name := rfl

end Json

/-! ## The records -/

namespace Location

/-- The line has a number the format provides for. -/
def InRange (location : Location) : Prop :=
  ∀ line ∈ location.line, line < 2 ^ 32

lemma maybe_known {α : Type} {members : Json.Members} {name : String} {value : Option α}
    {encode : α → Json} {decode : Json → Option α} (h : members name = value.map encode)
    (hdecode : ∀ known ∈ value, decode (encode known) = some known ∧ encode known ≠ .null) :
    Json.maybe members name decode = some value := by
  rw [Json.maybe, h]
  cases value with
  | none => rfl
  | some known =>
      obtain ⟨hvalue, hnull⟩ := hdecode known rfl
      rw [Option.map_some]
      split
      · rename_i heq
        cases heq
      · rename_i heq
        exact absurd (Option.some_inj.mp heq) hnull
      · rename_i heq
        rw [← Option.some_inj.mp heq, hvalue]
        rfl

/-- A location's members by name. -/
lemma exists_members (location : Location) (names : List String) :
    ∃ members, location.toJson.record? names = some members ∧
      members "package" = some (.string location.package) ∧
      members "file" = location.file.map .string ∧ members "line" = location.line.map .nat ∧
      members "class_file" = location.classFile.map .string := by
  obtain ⟨package, file, line, classFile⟩ := location
  have hnames : (("package" :: ((known "file" file .string ++ known "line" line .nat ++
      known "class_file" classFile .string).map Prod.fst))).Nodup := by
    cases file <;> cases line <;> cases classFile <;> simp [known]
  refine ⟨_, Json.record?_object hnames, ?_⟩
  cases file <;> cases line <;> cases classFile <;> simp [known, List.lookup_cons]

/-- A location is read back. -/
lemma ofJson?_toJson {location : Location} (h : location.InRange) :
    ofJson? location.toJson = some location := by
  obtain ⟨members, hmembers, hpackage, hfile, hline, hclassFile⟩ :=
    exists_members location memberNames
  have htext : ∀ text : Option String, ∀ known ∈ text,
      Json.text? (.string known) = some known ∧ Json.string known ≠ .null := by
    simp
  have hnumber : ∀ line ∈ location.line, Json.unsigned? 32 (.nat line) = some line ∧
      Json.nat line ≠ .null := by
    intro line hmem
    exact ⟨Json.unsigned?_nat (h line hmem), by simp [Json.nat]⟩
  rw [ofJson?, hmembers]
  simp [Json.required_of_eq hpackage, maybe_known hfile (htext _), maybe_known hline hnumber,
    maybe_known hclassFile (htext _)]

end Location

namespace EntityFact

/-- The numbers of the fact are in range. -/
def InRange (fact : EntityFact) : Prop :=
  fact.location.InRange

/-- An entity is read back. -/
lemma ofJson?_toJson {fact : EntityFact} (h : fact.InRange) : ofJson? fact.toJson = some fact := by
  rw [ofJson?, toJson, Json.record?_object (by simp), bind_of_eq_some rfl]
  set members : Json.Members := fun name => List.lookup name _
  have hkind : Json.required members "kind" (Json.word? EntityKind.ofName?) = some fact.kind :=
    Json.required_eq_some rfl (EntityKind.ofName?_name fact.kind)
  have hmodifiers : Json.required members "modifiers" Json.flags? = some fact.modifiers :=
    Json.required_eq_some rfl (Json.flags?_nat fact.modifiers)
  have hlocation : Json.required members "location" Location.ofJson? = some fact.location :=
    Json.required_eq_some rfl (Location.ofJson?_toJson h)
  rw [bind_of_eq_some hkind, bind_of_eq_some (Json.required_text rfl),
    bind_of_eq_some (Json.maybe_optional rfl), bind_of_eq_some hmodifiers,
    bind_of_eq_some (Json.maybe_optional rfl), bind_of_eq_some (Json.maybe_optional rfl),
    bind_of_eq_some hlocation]
  rfl

end EntityFact

namespace RelationFact

/-- The numbers of the fact are in range. -/
def InRange (fact : RelationFact) : Prop :=
  fact.location.InRange

/-- A relation is read back. -/
lemma ofJson?_toJson {fact : RelationFact} (h : fact.InRange) :
    ofJson? fact.toJson = some fact := by
  rw [ofJson?, toJson, Json.record?_object (by simp)]
  simp [Json.required, List.lookup_cons, RelationKind.ofName?_name, Location.ofJson?_toJson h]

end RelationFact

namespace FileFact

/-- The numbers of the fact are in range. -/
def InRange (fact : FileFact) : Prop :=
  fact.location.InRange

/-- A file is read back. -/
lemma ofJson?_toJson {fact : FileFact} (h : fact.InRange) : ofJson? fact.toJson = some fact := by
  rw [ofJson?, toJson, Json.record?_object (by simp)]
  simp [Json.required, Json.maybe_text, List.lookup_cons, FileKind.ofName?_name,
    Location.ofJson?_toJson h]

end FileFact

namespace VariableFact

/-- The numbers of the fact are in range. -/
structure InRange (fact : VariableFact) : Prop where
  position : fact.position < 2 ^ 64
  declaredAt : fact.declaredAt.InRange
  usedAt : fact.usedAt.InRange

/-- A parameter is read back. -/
lemma ofJson?_toJson {fact : VariableFact} (h : fact.InRange) :
    ofJson? fact.toJson = some fact := by
  rw [ofJson?, toJson, Json.record?_object (by simp), bind_of_eq_some rfl]
  set members : Json.Members := fun name => List.lookup name _
  have hkind : Json.required members "kind" (Json.word? VariableKind.ofName?) = some fact.kind :=
    Json.required_eq_some rfl (VariableKind.ofName?_name fact.kind)
  have hmodifiers : Json.required members "modifiers" Json.flags? = some fact.modifiers :=
    Json.required_eq_some rfl (Json.flags?_nat fact.modifiers)
  have hdeclared : Json.required members "declared_at" Location.ofJson? = some fact.declaredAt :=
    Json.required_eq_some rfl (Location.ofJson?_toJson h.declaredAt)
  have hused : Json.required members "used_at" Location.ofJson? = some fact.usedAt :=
    Json.required_eq_some rfl (Location.ofJson?_toJson h.usedAt)
  rw [bind_of_eq_some hkind, bind_of_eq_some (Json.required_text rfl), bind_of_eq_some hmodifiers,
    bind_of_eq_some (Json.required_text rfl), bind_of_eq_some hdeclared,
    bind_of_eq_some (Json.required_text rfl),
    bind_of_eq_some (Json.required_unsigned rfl h.position), bind_of_eq_some hused]
  rfl

end VariableFact

namespace FactCounts

/-- The counts are in range. -/
structure InRange (counts : FactCounts) : Prop where
  entities : counts.entities < 2 ^ 64
  relations : counts.relations < 2 ^ 64
  files : counts.files < 2 ^ 64
  params : counts.params < 2 ^ 64

/-- Counts are read back. -/
lemma ofJson?_toJson {counts : FactCounts} (h : counts.InRange) :
    ofJson? counts.toJson = some counts := by
  rw [ofJson?, toJson, Json.record?_object (by simp), bind_of_eq_some rfl,
    bind_of_eq_some (Json.required_unsigned rfl h.entities),
    bind_of_eq_some (Json.required_unsigned rfl h.relations),
    bind_of_eq_some (Json.required_unsigned rfl h.files),
    bind_of_eq_some (Json.required_unsigned rfl h.params)]
  rfl

end FactCounts

namespace Fact

/-- The numbers of the fact are in range. -/
def InRange : Fact → Prop
  | .entity fact => fact.InRange
  | .relation fact => fact.InRange
  | .file fact => fact.InRange
  | .param fact => fact.InRange

lemma written_location (location : Location) : location.toJson.Written := by
  obtain ⟨package, file, line, classFile⟩ := location
  cases file <;> cases line <;> cases classFile <;>
    simp [Location.toJson, Location.known, Json.Written, Json.WrittenMembers, Json.nat]

lemma written_optional (text : Option String) : (Json.optional text).Written := by
  cases text <;> simp [Json.optional, Json.Written]

/-- What is written of a fact can be read. -/
lemma written_toJson (fact : Fact) : fact.toJson.Written := by
  cases fact <;>
    simp [toJson, EntityFact.toJson, RelationFact.toJson, FileFact.toJson, VariableFact.toJson,
      Json.Written, Json.WrittenMembers, written_location, written_optional, Json.nat]

end Fact

namespace WalkSummary

/-- The numbers of the summary are in range, and its times are points in time there are. -/
structure InRange (summary : WalkSummary) : Prop where
  classesSeen : summary.classesSeen < 2 ^ 64
  classesExtracted : summary.classesExtracted < 2 ^ 64
  classesFailed : summary.classesFailed < 2 ^ 64
  facts : summary.facts.InRange
  startedAt : summary.startedAt.Valid
  finishedAt : summary.finishedAt.Valid

/-- A summary is read back. -/
lemma ofJson?_toJson {summary : WalkSummary} (h : summary.InRange) :
    ofJson? summary.toJson = some summary := by
  have htime : ∀ {instant : Instant}, instant.Valid →
      Instant.ofJson? (.string instant.print) = some instant := by
    intro instant hvalid
    rw [Instant.ofJson?, Json.text?_string, Option.bind_some, Instant.parse?_print hvalid]
  rw [ofJson?, toJson, Json.record?_object (by simp), bind_of_eq_some rfl]
  set members : Json.Members := fun name => List.lookup name _
  have hfacts : Json.required members "facts" FactCounts.ofJson? = some summary.facts :=
    Json.required_eq_some rfl (FactCounts.ofJson?_toJson h.facts)
  have hstarted : Json.required members "started_at" Instant.ofJson? = some summary.startedAt :=
    Json.required_eq_some rfl (htime h.startedAt)
  have hfinished : Json.required members "finished_at" Instant.ofJson? = some summary.finishedAt :=
    Json.required_eq_some rfl (htime h.finishedAt)
  rw [bind_of_eq_some (Json.required_text rfl), bind_of_eq_some (Json.maybe_optional rfl),
    bind_of_eq_some (Json.required_unsigned rfl h.classesSeen),
    bind_of_eq_some (Json.required_unsigned rfl h.classesExtracted),
    bind_of_eq_some (Json.required_unsigned rfl h.classesFailed), bind_of_eq_some hfacts,
    bind_of_eq_some hstarted, bind_of_eq_some hfinished]
  rfl

/-- What is written of a summary can be read. -/
lemma written_toJson (summary : WalkSummary) : summary.toJson.Written := by
  simp [toJson, FactCounts.toJson, Json.Written, Json.WrittenMembers,
    Fact.written_optional, Json.nat]

end WalkSummary

end JarFacts
