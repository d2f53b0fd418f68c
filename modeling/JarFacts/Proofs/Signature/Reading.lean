import Mathlib.Data.List.TakeDrop
import Mathlib.Data.List.TakeWhile
import JarFacts.Proofs.Steps
import JarFacts.Signature.Parser

/-!
# What a reader makes of a text, and what it has read

Two relations between a parser and the texts it consumes.  `Reads` goes from the text to the
outcome: in front of anything else the parser consumes exactly this text and has this value, or it
refuses the text for its nesting. `Yields` goes from the outcome back to the text: whenever the
parser has a value, what it has consumed spells that value.  Both move the position by the bytes of
the text, and both compose along `bind`, so that a grammar is proved complete and sound by going
through the text of its parser twice.
-/

namespace JarFacts.Signature.Parser

variable {α β : Type}

lemma run_bind (parser : Parser α) (next : α → Parser β) (cursor : Cursor) :
    (parser >>= next).run cursor =
      match parser.run cursor with
      | .ok (value, cursor') => (next value).run cursor'
      | .error fault => .error fault := by
  rw [StateT.run_bind]
  rcases parser.run cursor with _ | ⟨value, cursor'⟩ <;> rfl

lemma run_get_bind (next : Cursor → Parser β) (cursor : Cursor) :
    (get >>= next).run cursor = (next cursor).run cursor := rfl

lemma byteLength_append (first second : List Char) :
    Utf8.byteLength (first ++ second) = Utf8.byteLength first + Utf8.byteLength second := by
  rw [Utf8.byteLength, Utf8.encode, List.flatMap_append, List.length_append]
  rfl

lemma byteLength_singleton (c : Char) : Utf8.byteLength [c] = (Utf8.encodeChar c).length := by
  rw [Utf8.byteLength, Utf8.encode, List.flatMap_singleton]

lemma run_next (c : Char) (position : Nat) (rest : List Char) :
    next.run ⟨position, c :: rest⟩ = .ok (c, ⟨position + Utf8.byteLength [c], rest⟩) := by
  rw [byteLength_singleton]
  rfl

/-- The characters a name is made of. -/
def inName (stops : List Char) (c : Char) : Bool :=
  !stops.contains c

lemma inName_iff {stops : List Char} {c : Char} : inName stops c = true ↔ c ∉ stops := by
  rw [inName, Bool.not_eq_true', ← Bool.not_eq_true, List.contains_iff_mem]

/-- A name ends in front of a stop. -/
lemma mem_of_dropWhile {stops text tail : List Char} {stop : Char}
    (h : text.dropWhile (inName stops) = stop :: tail) : stop ∈ stops := by
  have hhead := List.dropWhile_get_zero_not (inName stops) text (by rw [h]; exact Nat.succ_pos _)
  simpa [h, inName] using hhead

lemma run_name (stops : List Char) (position : Nat) (text : List Char) :
    (name stops).run ⟨position, text⟩ =
      if (text.dropWhile (inName stops)).isEmpty then .error .truncated
      else .ok (text.takeWhile (inName stops),
        ⟨position + Utf8.byteLength (text.takeWhile (inName stops)),
          text.dropWhile (inName stops)⟩) := by
  have hspan : text.span (fun c => !stops.contains c) =
      (text.takeWhile (inName stops), text.dropWhile (inName stops)) :=
        List.span_eq_takeWhile_dropWhile _ _
  simp only [name, run_get_bind, hspan]
  split_ifs <;> rfl

lemma run_name_of_stop {stops taken : List Char} {stop : Char} (position : Nat) (tail : List Char)
    (htaken : ∀ c ∈ taken, c ∉ stops) (hstop : stop ∈ stops) :
    (name stops).run ⟨position, taken ++ stop :: tail⟩ =
      .ok (taken, ⟨position + Utf8.byteLength taken, stop :: tail⟩) := by
  have hpass : ∀ c ∈ taken, inName stops c = true := fun c hc => inName_iff.mpr (htaken c hc)
  have hhalt : ¬inName stops stop = true := fun h => inName_iff.mp h hstop
  rw [run_name, List.takeWhile_append_of_pos hpass, List.dropWhile_append_of_pos hpass,
    List.takeWhile_cons_of_neg hhalt, List.dropWhile_cons_of_neg hhalt, List.append_nil]
  rfl

/-! ## From a text to its reading -/

/-- In front of anything the parser consumes exactly the text.  It has the value, and where there is
none it refuses the text because argument lists are nested too deep in it. -/
def Reads (parser : Parser α) (text : List Char) (value : Option α) : Prop :=
  ∀ (position : Nat) (rest : List Char),
    match value with
    | some value => parser.run ⟨position, text ++ rest⟩ =
        .ok (value, ⟨position + Utf8.byteLength text, rest⟩)
    | none => ∃ place, parser.run ⟨position, text ++ rest⟩ = .error (.tooDeep place)

namespace Reads

lemma pure (value : α) : Reads (pure value) [] (some value) :=
  fun _ _ => rfl

lemma bind {parser : Parser α} {next : α → Parser β} {text text' : List Char} {value : Option α}
    {value' : α → Option β} (hparser : Reads parser text value)
    (hnext : ∀ found, value = some found → Reads (next found) text' (value' found)) :
    Reads (parser >>= next) (text ++ text') (value.bind value') := by
  intro position rest
  have hrun := hparser position (text' ++ rest)
  rw [← List.append_assoc] at hrun
  cases value with
  | none =>
      obtain ⟨place, heq⟩ := hrun
      exact ⟨place, by rw [run_bind, heq]⟩
  | some found =>
      have hrun' := hnext found rfl (position + Utf8.byteLength text) rest
      simp only [run_bind, hrun, Option.bind_some, byteLength_append, ← Nat.add_assoc]
      exact hrun'

lemma map {parser : Parser α} {text : List Char} {value : Option α} (h : Reads parser text value)
    (f : α → β) :
    Reads (parser >>= fun found => Pure.pure (f found)) text (value.map f) := by
  have hmap : Reads (parser >>= fun found => Pure.pure (f found)) (text ++ [])
      (value.bind fun found => some (f found)) :=
    h.bind fun found _ => .pure (f found)
  rw [List.append_nil] at hmap
  cases value <;> exact hmap

/-- A step that consumes nothing but looks at the cursor comes first. -/
lemma get_bind {next : Cursor → Parser β} {text : List Char} {value : Option β}
    (h : ∀ cursor, Reads (next cursor) text value) : Reads (get >>= next) text value :=
  fun position rest => h ⟨position, text ++ rest⟩ position rest

lemma next_bind (c : Char) {further : Char → Parser β} {text : List Char} {value : Option β}
    (h : Reads (further c) text value) : Reads (next >>= further) (c :: text) value := by
  intro position rest
  have hrun := h (position + Utf8.byteLength [c]) rest
  have hlength : Utf8.byteLength (c :: text) = Utf8.byteLength [c] + Utf8.byteLength text :=
    byteLength_append [c] text
  simp only [List.cons_append, run_bind, run_next, hlength, ← Nat.add_assoc]
  exact hrun

lemma peek_bind {c : Char} {next : Option Char → Parser β} {text : List Char} {value : Option β}
    (h : Reads (next (some c)) (c :: text) value) : Reads (peek >>= next) (c :: text) value :=
  h

lemma expect (c : Char) : Reads (expect c) [c] (some ()) := by
  refine get_bind fun cursor => next_bind c ?_
  rw [if_pos rfl]
  exact .pure ()

/-- A name is read up to the first stop, which stays where it is. -/
lemma name_bind {stops taken text : List Char} {next : List Char → Parser β} {value : Option β}
    (htaken : ∀ c ∈ taken, c ∉ stops) (htext : ∃ stop tail, text = stop :: tail ∧ stop ∈ stops)
    (h : Reads (next taken) text value) : Reads (name stops >>= next) (taken ++ text) value := by
  intro position rest
  have hname : (name stops).run ⟨position, taken ++ text ++ rest⟩ =
      .ok (taken, ⟨position + Utf8.byteLength taken, text ++ rest⟩) := by
    obtain ⟨stop, tail, rfl, hstop⟩ := htext
    rw [List.append_assoc]
    exact run_name_of_stop position (tail ++ rest) htaken hstop
  have hrun := h (position + Utf8.byteLength taken) rest
  simp only [run_bind, hname, byteLength_append, ← Nat.add_assoc]
  exact hrun

/-- A character that is only passed over comes first. -/
lemma discard_next_bind (c : Char) {further : PUnit → Parser β} {text : List Char}
    {value : Option β}
    (h : Reads (further ⟨⟩) text value) : Reads (discard next >>= further) (c :: text) value := by
  rw [discard_eq_bind, bind_assoc]
  exact next_bind c h

end Reads

/-! ## From a reading back to its text -/

/-- Whenever the parser has a value, it has consumed a text that spells the value. -/
def Yields (parser : Parser α) (spells : α → List Char → Prop) : Prop :=
  ∀ (cursor : Cursor) (value : α) (cursor' : Cursor), parser.run cursor = .ok (value, cursor') →
    ∃ text, cursor.rest = text ++ cursor'.rest ∧
      cursor'.position = cursor.position + Utf8.byteLength text ∧ spells value text

namespace Yields

lemma pure {value : α} {spells : α → List Char → Prop} (h : spells value []) :
    Yields (pure value) spells := by
  intro cursor found cursor' hrun
  cases hrun
  exact ⟨[], rfl, rfl, h⟩

lemma throw {fault : Fault} {spells : α → List Char → Prop} : Yields (throw fault) spells := by
  intro cursor found cursor' hrun
  cases hrun

lemma throw_bind {fault : Fault} {next : α → Parser β} {spells : β → List Char → Prop} :
    Yields (MonadExcept.throw fault >>= next) spells := by
  intro cursor found cursor' hrun
  cases hrun

lemma bind {parser : Parser α} {next : α → Parser β} {first : α → List Char → Prop}
    {spells : β → List Char → Prop} (hparser : Yields parser first)
    (hnext : ∀ value text, first value text →
      Yields (next value) fun value' text' => spells value' (text ++ text')) :
    Yields (parser >>= next) spells := by
  intro cursor value' cursor'' hrun
  rw [run_bind] at hrun
  cases hfirst : parser.run cursor with
  | error fault => rw [hfirst] at hrun; cases hrun
  | ok found =>
      obtain ⟨value, cursor'⟩ := found
      rw [hfirst] at hrun
      obtain ⟨text, hrest, hposition, hspells⟩ := hparser cursor value cursor' hfirst
      obtain ⟨text', hrest', hposition', hspells'⟩ :=
        hnext value text hspells cursor' value' cursor'' hrun
      refine ⟨text ++ text', ?_, ?_, hspells'⟩
      · rw [hrest, hrest', List.append_assoc]
      · rw [hposition', hposition, byteLength_append, Nat.add_assoc]

lemma get_bind {next : Cursor → Parser β} {spells : β → List Char → Prop}
    (h : ∀ cursor, Yields (next cursor) spells) : Yields (get >>= next) spells :=
  fun cursor => h cursor cursor

lemma next : Yields next fun c text => text = [c] := by
  intro cursor c cursor' hrun
  obtain ⟨position, _ | ⟨first, rest⟩⟩ := cursor
  · cases hrun
  · rw [run_next] at hrun
    cases hrun
    exact ⟨[c], rfl, rfl, rfl⟩

lemma discard_next : Yields (discard Parser.next) fun _ text => ∃ c, text = [c] := by
  rw [discard_eq_bind]
  refine next.bind fun c text htext => .pure ⟨c, ?_⟩
  rw [htext]
  rfl

/-- What follows a look at the next character spells a text that begins with this character. -/
lemma peek_bind {next : Option Char → Parser β} {spells : β → List Char → Prop}
    (h : ∀ first, Yields (next first) fun value text =>
      (∀ c tail, text = c :: tail → first = some c) → spells value text) :
    Yields (peek >>= next) spells := by
  intro cursor value cursor' hrun
  obtain ⟨text, hrest, hposition, hspells⟩ := h cursor.rest.head? cursor value cursor' hrun
  refine ⟨text, hrest, hposition, hspells fun c tail htext => ?_⟩
  rw [hrest, htext]
  rfl

lemma refuse {c : Char} {position : Nat} {spells : α → List Char → Prop} :
    Yields (refuse c position) spells :=
  throw

lemma expect (c : Char) : Yields (expect c) fun _ text => text = [c] := by
  refine get_bind fun cursor => next.bind fun found text htext => ?_
  split
  · next heq => exact .pure (by rw [htext, heq]; rfl)
  · exact refuse

lemma name (stops : List Char) :
    Yields (name stops) fun taken text => text = taken ∧ ∀ c ∈ taken, c ∉ stops := by
  intro cursor taken cursor' hrun
  rw [run_name] at hrun
  split_ifs at hrun
  cases hrun
  refine ⟨_, List.takeWhile_append_dropWhile.symm, rfl, rfl, fun c hc => ?_⟩
  exact inName_iff.mp (List.mem_takeWhile_imp hc)

end Yields

/-! ## Whole texts -/

lemma runOn_eq (parser : Parser α) (text : String) :
    parser.runOn text =
      match parser.run (.start text.toList) with
      | .ok (value, ⟨_, []⟩) => .ok value
      | .ok (_, ⟨position, _ :: _⟩) => .error (.trailing text position)
      | .error fault => .error (fault.inside text) := by
  have hrun : (parser <* done).run' (.start text.toList) =
      match parser.run (.start text.toList) with
      | .ok (value, ⟨_, []⟩) => .ok value
      | .ok (_, ⟨position, _ :: _⟩) => .error (.trailing position)
      | .error fault => .error fault := by
    rw [seqLeft_eq_bind, StateT.run'_eq, run_bind]
    rcases parser.run (.start text.toList) with _ | ⟨value, _, _ | _⟩ <;> rfl
  rw [runOn, hrun]
  rcases parser.run (.start text.toList) with _ | ⟨value, _, _ | _⟩ <;> rfl

lemma Reads.runOn {parser : Parser α} {text : String} {value : α}
    (h : Reads parser text.toList (some value)) :
    parser.runOn text = .ok value := by
  have hrun := h 0 []
  rw [List.append_nil] at hrun
  rw [runOn_eq, Cursor.start, hrun]

lemma Reads.runOn_tooDeep {parser : Parser α} {text : String} (h : Reads parser text.toList none) :
    ∃ position, parser.runOn text = .error (.tooDeep maxNesting position) := by
  obtain ⟨position, hrun⟩ := h 0 []
  rw [List.append_nil] at hrun
  refine ⟨position, ?_⟩
  rw [runOn_eq, Cursor.start, hrun]
  rfl

lemma Yields.runOn {parser : Parser α} {spells : α → List Char → Prop} (h : Yields parser spells)
    {text : String}
    {value : α} (hvalue : parser.runOn text = .ok value) : spells value text.toList := by
  rw [runOn_eq] at hvalue
  split at hvalue
  · next found position hrun =>
      cases hvalue
      obtain ⟨consumed, hrest, -, hspells⟩ := h _ _ _ hrun
      rw [List.append_nil] at hrest
      rwa [← hrest] at hspells
  · cases hvalue
  · cases hvalue

end JarFacts.Signature.Parser
