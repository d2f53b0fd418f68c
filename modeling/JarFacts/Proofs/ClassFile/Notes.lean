import JarFacts.Proofs.ClassFile.Composed
import JarFacts.Proofs.Moves

/-!
# What is noted while a class file is read

Reading a class file may stop anywhere, and what it noted until then is kept.  Of all readers only
the one for method bodies notes anything: that a dynamic call site was passed over.  So the events
of a whole reading, complete or not, are of this one kind (`parseWithLog_events`).
-/

namespace JarFacts.ClassFile

variable {α : Type}

/-- A single change of the input of a reader: bytes are consumed or exchanged, or a call site is
passed over. -/
inductive Input.Move (input : Input) : Input → Prop
  | consumed (bytes : Bytes) : Move input { input with bytes := bytes }
  | noted (offset : Nat) : Move input { input with log := input.log.push (.callSiteSkipped offset) }

/-- A reader changes its input by such moves alone, on every way out. -/
lemma Composed.moves {reader : Reader α} (h : Composed reader) : Moves Input.Move reader := by
  induction h with
  | pure value => exact .pure value
  | throw error => exact .throw error
  | take count =>
      intro input
      rw [Reader.take, run_get_bind]
      dsimp only
      split
      · exact .refl
      · exact .single (.consumed _)
  | callSite offset => exact .modify fun _ => .noted offset
  | bind _ _ ihreader ihnext => exact ihreader.bind ihnext
  | @within _ reader body _ ih =>
      intro input
      have hinner : Moves Input.Move
          (do
            let value ← reader
            modify fun inner => { inner with bytes := input.bytes }
            return value) :=
        ih.bind fun value => (Moves.modify fun _ => .consumed _).bind fun _ => .pure value
      exact .head (.consumed body) (hinner { input with bytes := body })

/-- Complete or not, a reading notes nothing but dynamic call sites. -/
lemma parseWithLog_events (bytes : Bytes) :
    ∀ event ∈ (parseWithLog bytes).2, ∃ offset, event = .callSiteSkipped offset := by
  have hmoves : ∀ {start stop : Input}, Relation.ReflTransGen Input.Move start stop →
      start.log = #[] →
      ∀ event ∈ stop.log, ∃ offset, event = .callSiteSkipped offset := by
    intro start stop hmoves hstart
    induction hmoves with
    | refl => simp [hstart]
    | tail _ hmove ih =>
        cases hmove with
        | consumed bytes => exact ih
        | noted offset =>
            intro event hevent
            rcases Array.mem_push.mp hevent with hold | rfl
            · exact ih event hold
            · exact ⟨offset, rfl⟩
  exact hmoves (Composed.read.moves ⟨bytes, #[]⟩) rfl

end JarFacts.ClassFile
