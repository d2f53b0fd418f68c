import JarFacts.Proofs.Signature.Places

/-!
# Bytes are enough, and none is missed

Signatures are read by characters, and could be read by bytes: everything the grammar looks for is a
character of a single byte.  So the reader of bytes, which could go wrong in more ways, never does.
Whatever the text, it cuts out names at boundaries of characters and inside of the text, does not go
on at the end, closes no argument list that is not open, and comes to an end with the outcome of the
reader of characters.

The two are compared place by place.  `Agrees` says that what they do from a place on leads to one
outcome, at another place or in a fault that points into the text.  Only right behind the first byte
of a wide character the reader of bytes stands at no place, and there both refuse what they have
passed.
-/

namespace JarFacts

namespace Signature

/-! ## Agreement of the two readers -/

/-- How outcomes compare: the same value, at one place with less than `room` left behind it and
`depth` lists open, or the same fault, which points into the text. -/
inductive Keeps {α : Type} (text : List Char) (room depth : Nat) :
    Except Fault (α × Cursor) → Except Bytewise.Stop (α × Bytewise.Mark) → Prop
  | value (value : α) (place : Place text) (hroom : place.rest.length < room) :
      Keeps text room depth (.ok (value, place.cursor)) (.ok (value, place.mark depth))
  | fault (fault : Fault) (hfault : fault.PointsInto text) :
      Keeps text room depth (.error fault) (.error (.fault fault))

section

variable {α β : Type} {text : List Char}

lemma Keeps.mono {room room' depth : Nat} {outcome : Except Fault (α × Cursor)}
    {outcome' : Except Bytewise.Stop (α × Bytewise.Mark)}
    (h : Keeps text room depth outcome outcome')
    (hroom : room ≤ room') : Keeps text room' depth outcome outcome' := by
  cases h with
  | value value place hplace => exact .value value place (hplace.trans_le hroom)
  | fault fault hfault => exact .fault fault hfault

/-- Starting from a place with so many lists open, the two readers come to the same. -/
def Agrees (place : Place text) (depth : Nat) (reader : Parser α) (bytewise : Bytewise.Reader α)
    (room depth' : Nat) : Prop :=
  Keeps text room depth' (reader.run place.cursor) (bytewise.run (place.mark depth))

/-- Agreement where one character was passed by the one reader, and its first byte by the other. -/
def AgreesBehind (place : Place text) (c : Char) (tail : List Char) (depth : Nat)
    (reader : Parser α) (bytewise : Bytewise.Reader α) (room depth' : Nat) : Prop :=
  Keeps text room depth' (reader.run ⟨place.position + Utf8.byteLength [c], tail⟩)
    (bytewise.run ⟨place.position + 1, depth⟩)

lemma Bytewise.run_get_bind (next : Bytewise.Mark → Bytewise.Reader β) (mark : Bytewise.Mark) :
    (get >>= next).run mark = (next mark).run mark := rfl

lemma Bytewise.run_bind (reader : Bytewise.Reader α) (next : α → Bytewise.Reader β)
    (mark : Bytewise.Mark) :
    (reader >>= next).run mark =
      match reader.run mark with
      | .ok (value, mark') => (next value).run mark'
      | .error stop => .error stop := by
  rw [StateT.run_bind]
  rcases reader.run mark with _ | ⟨value, mark'⟩ <;> rfl

lemma Parser.run_next_bind {place : Place text} {c : Char} {tail : List Char}
    (hrest : place.rest = [c] ++ tail) (further : Char → Parser β) :
    (next >>= further).run place.cursor =
      (further c).run ⟨place.position + Utf8.byteLength [c], tail⟩ := by
  rw [run_bind, Place.cursor, hrest, List.singleton_append, run_next]

/-- At a place the next byte is the first one of the next character. -/
lemma Bytewise.run_peek_bind (place : Place text) (depth : Nat)
    (next : Option UInt8 → Bytewise.Reader β) :
    (peek text >>= next).run (place.mark depth) = (next (place.rest.head?.map Utf8.lead)).run
      (place.mark depth) := by
  rw [← place.getElem?_position]
  rfl

lemma Bytewise.run_advance_bind {place : Place text} {c : Char} {tail : List Char}
    (hrest : place.rest = [c] ++ tail) (depth : Nat) (next : PUnit → Bytewise.Reader β) :
    (advance text >>= next).run (place.mark depth) = (next ⟨⟩).run ⟨place.position + 1, depth⟩ := by
  have hrun : (advance text).run (place.mark depth) = .ok (⟨⟩, ⟨place.position + 1, depth⟩) := by
    change StateT.run (if place.position < Utf8.byteLength text then set _ else throw _) _ = _
    rw [if_pos (place.position_lt hrest)]
    rfl
  rw [run_bind, hrun]

/-- From a place the bytes are cut where the characters are. -/
lemma Bytewise.run_name {stops : List Char}
    (hstops : (stops.all fun stop => stop.toNat < 0x80) = true) (place : Place text) (depth : Nat) :
    (name text (stops.map Char.toUInt8)).run (place.mark depth) =
      if (place.rest.dropWhile (Parser.inName stops)).isEmpty then .error (.fault .truncated)
      else .ok (place.rest.takeWhile (Parser.inName stops),
        ⟨place.position + Utf8.byteLength (place.rest.takeWhile (Parser.inName stops)),
          depth⟩) := by
  have hrest := List.takeWhile_append_dropWhile (p := Parser.inName stops) (l := place.rest)
  generalize htaken : place.rest.takeWhile (Parser.inName stops) = taken at hrest ⊢
  generalize place.rest.dropWhile (Parser.inName stops) = left at hrest ⊢
  have hpassed : (((Utf8.encode text).drop place.position).takeWhile
      fun byte => !(stops.map Char.toUInt8).contains byte) = Utf8.encode taken := by
    rw [place.drop_position, takeWhile_encode hstops, htaken]
  have hslice : slice? text place.position (place.position + Utf8.byteLength taken) = some taken :=
    slice?_eq_some_iff.mpr ⟨place.before, left, by rw [List.append_assoc, hrest, place.spells], rfl,
      Parser.byteLength_append _ _⟩
  have hend := (place.pass taken left hrest.symm).byteLength_le_position_iff
  rw [place.position_pass hrest.symm] at hend
  rw [name, run_get_bind]
  simp only [Place.mark, hpassed]
  rw [← Utf8.byteLength]
  split_ifs with h1 h2 h2
  · rfl
  · exact absurd (hend.mp h1) h2
  · exact absurd (hend.mpr h2) h1
  · simp only [hslice]
    rfl

namespace AgreesBehind

variable {place : Place text} {c : Char} {tail : List Char} {depth room depth' : Nat}

/-- Behind a character of a single byte both readers are at the next place. -/
lemma single (hrest : place.rest = [c] ++ tail) (hc : c.toNat < 0x80) {reader : Parser α}
    {bytewise : Bytewise.Reader α}
    (h : Agrees (place.pass [c] tail hrest) depth reader bytewise room depth') :
    AgreesBehind place c tail depth reader bytewise room depth' := by
  have hlength : Utf8.byteLength [c] = 1 := by
    rw [Parser.byteLength_singleton, Utf8.encodeChar_of_lt hc]
    rfl
  rw [Agrees, Place.cursor, Place.mark, place.position_pass hrest] at h
  rwa [AgreesBehind, ← hlength]

/-- Whatever was passed is refused by its first byte. -/
lemma refuse (hrest : place.rest = [c] ++ tail) :
    AgreesBehind place c tail depth (Parser.refuse c place.position : Parser α)
      (Bytewise.refuse (Utf8.lead c)) room
      depth' := by
  refine .fault (.unexpected (Utf8.lead c) place.position) ?_
  have hbyte := place.getElem?_position
  rw [hrest] at hbyte
  exact List.getElem?_eq_some_iff.mp hbyte

end AgreesBehind

namespace Agrees

variable {place : Place text} {depth room depth' : Nat}

lemma pure (value : α) (hroom : place.rest.length < room) :
    Agrees place depth (pure value) (pure value) room depth :=
  .value value place hroom

lemma truncated :
    Agrees place depth (throw .truncated : Parser α) (throw (.fault .truncated)) room depth' :=
  .fault .truncated trivial

lemma bind {reader : Parser α} {bytewise : Bytewise.Reader α} {next : α → Parser β}
    {next' : α → Bytewise.Reader β}
    {room' depth'' : Nat} (h : Agrees place depth reader bytewise room' depth'')
    (hnext : ∀ value (place' : Place text), place'.rest.length < room' →
      Agrees place' depth'' (next value) (next' value) room depth') :
    Agrees place depth (reader >>= next) (bytewise >>= next') room depth' := by
  rw [Agrees] at h ⊢
  rw [Parser.run_bind, Bytewise.run_bind]
  generalize reader.run place.cursor = outcome at h ⊢
  generalize bytewise.run (place.mark depth) = outcome' at h ⊢
  cases h with
  | value value place' hroom => exact hnext value place' hroom
  | fault fault hfault => exact .fault fault hfault

lemma get_bind {next : Cursor → Parser α} {bytewise : Bytewise.Reader α}
    (h : Agrees place depth (next place.cursor) bytewise room depth') :
    Agrees place depth (get >>= next) bytewise room depth' :=
  h

lemma next_bind {next : Char → Parser α} {next' : UInt8 → Bytewise.Reader α}
    (h : ∀ c tail, place.rest = [c] ++ tail →
      AgreesBehind place c tail depth (next c) (next' (Utf8.lead c)) room depth') :
    Agrees place depth (Parser.next >>= next) (Bytewise.next text >>= next') room depth' := by
  rw [Agrees, Bytewise.next, bind_assoc, Bytewise.run_peek_bind]
  cases hhead : place.rest with
  | nil =>
      rw [Parser.run_bind, Place.cursor, hhead]
      exact .fault .truncated trivial
  | cons c tail =>
      rw [Parser.run_next_bind hhead, List.head?_cons, Option.map_some]
      dsimp only
      rw [bind_assoc, Bytewise.run_advance_bind hhead]
      exact h c tail hhead

lemma peek_bind {next : Option Char → Parser α} {next' : Option UInt8 → Bytewise.Reader α}
    (h : Agrees place depth (next place.rest.head?)
      (next' (place.rest.head?.map Utf8.lead)) room depth') :
    Agrees place depth (Parser.peek >>= next) (Bytewise.peek text >>= next') room depth' := by
  rw [Agrees, Bytewise.run_peek_bind]
  exact h

/-- A character of a single byte is passed by both in the same way. -/
lemma advance_bind {c : Char} {tail : List Char} (hrest : place.rest = [c] ++ tail)
    (hc : c.toNat < 0x80) {next : PUnit → Parser α} {next' : PUnit → Bytewise.Reader α}
    (h : Agrees (place.pass [c] tail hrest) depth (next ⟨⟩) (next' ⟨⟩) room depth') :
    Agrees place depth (discard Parser.next >>= next)
      (Bytewise.advance text >>= next') room depth' := by
  rw [Agrees, discard_eq_bind, bind_assoc, Parser.run_next_bind hrest,
    Bytewise.run_advance_bind hrest, pure_bind]
  exact AgreesBehind.single hrest hc h

/-- A character that is known to stand here needs no look at it. -/
lemma expect_advance_bind {c : Char} {tail : List Char} (hrest : place.rest = [c] ++ tail)
    (hc : c.toNat < 0x80) {next : Unit → Parser α} {next' : PUnit → Bytewise.Reader α}
    (h : Agrees (place.pass [c] tail hrest) depth (next ()) (next' ⟨⟩) room depth') :
    Agrees place depth (Parser.expect c >>= next)
      (Bytewise.advance text >>= next') room depth' := by
  rw [Parser.expect, bind_assoc]
  refine .get_bind ?_
  rw [Agrees, bind_assoc, Parser.run_next_bind hrest, Bytewise.run_advance_bind hrest,
    if_pos rfl, pure_bind]
  exact AgreesBehind.single hrest hc h

lemma expect {c : Char} (hc : c.toNat < 0x80) :
    Agrees place depth (Parser.expect c)
      (Bytewise.expect text c.toUInt8) place.rest.length depth := by
  rw [Parser.expect, Bytewise.expect]
  refine .get_bind (.next_bind fun found tail hrest => ?_)
  by_cases hfound : found = c
  · rw [if_pos hfound, if_pos ((Utf8.lead_eq_iff hc).mpr hfound)]
    exact .single hrest (hfound ▸ hc) (.pure () (place.length_pass_lt hrest))
  · rw [if_neg hfound, if_neg (mt (Utf8.lead_eq_iff hc).mp hfound)]
    exact .refuse hrest

/-- A name ends in front of a stop, if it ends. -/
lemma name_bind {stops : List Char} (hstops : (stops.all fun stop => stop.toNat < 0x80) = true)
    {next : List Char → Parser α} {next' : List Char → Bytewise.Reader α}
    (h : ∀ taken stop tail (place' : Place text), stop ∈ stops → place'.rest = [stop] ++ tail →
      place'.rest.length ≤ place.rest.length →
      Agrees place' depth (next taken) (next' taken) room depth') :
    Agrees place depth (Parser.name stops >>= next)
      (Bytewise.name text (stops.map Char.toUInt8) >>= next') room
      depth' := by
  have hrest := List.takeWhile_append_dropWhile (p := Parser.inName stops) (l := place.rest)
  rw [Agrees, Parser.run_bind, Bytewise.run_bind, Bytewise.run_name hstops, Place.cursor,
    Parser.run_name]
  cases hleft : place.rest.dropWhile (Parser.inName stops) with
  | nil => exact .fault .truncated trivial
  | cons stop tail =>
      rw [hleft] at hrest
      have hfewer : (stop :: tail).length ≤ place.rest.length := by
        rw [← hrest, List.length_append]
        exact Nat.le_add_left _ _
      have hplace :=
        h (place.rest.takeWhile (Parser.inName stops)) stop tail (place.pass _ _ hrest.symm)
        (Parser.mem_of_dropWhile hleft) rfl hfewer
      rw [Agrees, Place.cursor, Place.mark, Place.position_pass] at hplace
      exact hplace

/-- There are never fewer rounds for the bytes than for the characters. -/
lemma rounds_bind {next : Nat → Parser α} {next' : Nat → Bytewise.Reader α}
    (h : ∀ many, 2 * place.rest.length + 2 ≤ many →
      Agrees place depth (next (2 * place.rest.length + 2)) (next' many) room depth') :
    Agrees place depth (Parser.rounds >>= next) (Bytewise.rounds text >>= next') room depth' := by
  refine h (2 * (Utf8.byteLength text - place.position) + 2) ?_
  have hlength := Utf8.length_le_byteLength place.rest
  rw [place.byteLength_text]
  omega

lemma openList_bind (hdepth : ¬depth + 1 > maxNesting) {reader : Parser α}
    {next' : PUnit → Bytewise.Reader α}
    (h : Agrees place (depth + 1) reader (next' ⟨⟩) room depth') :
    Agrees place depth reader (Bytewise.openList >>= next') room depth' := by
  have hrun : Bytewise.openList.run (place.mark depth) = .ok (⟨⟩, place.mark (depth + 1)) := by
    rw [Bytewise.openList, Bytewise.run_get_bind]
    exact congrArg (StateT.run · _) (if_neg hdepth)
  rw [Agrees, Bytewise.run_bind, hrun]
  exact h

lemma openList_tooDeep (hdepth : depth + 1 > maxNesting) {next : α → Parser β}
    {next' : PUnit → Bytewise.Reader β} :
    Agrees place depth (throw (.tooDeep place.position) >>= next)
      (Bytewise.openList >>= next') room depth' := by
  have hrun : Bytewise.openList.run (place.mark depth) =
      .error (.fault (.tooDeep place.position)) := by
    rw [Bytewise.openList, Bytewise.run_get_bind]
    exact congrArg (StateT.run · _) (if_pos hdepth)
  rw [Agrees, Bytewise.run_bind, hrun]
  exact .fault (.tooDeep place.position) place.position_le

lemma closeList_bind {reader : Parser α} {next' : PUnit → Bytewise.Reader α}
    (h : Agrees place depth reader (next' ⟨⟩) room depth') :
    Agrees place (depth + 1) reader (Bytewise.closeList >>= next') room depth' :=
  h

end Agrees

end

/-! ## Types -/

/-- The readers of types agree, in a number of rounds that is enough for what is left. -/
structure TypesAgree (text : List Char) (rounds many : Nat) : Prop where
  type : ∀ (voidAllowed : Bool) (depth : Nat) (place : Place text) (buffer : Buffer),
      2 * place.rest.length + 1 ≤ rounds →
    Agrees place depth (Parser.typeInto voidAllowed depth rounds buffer)
      (Bytewise.typeInto text voidAllowed many buffer) place.rest.length depth
  suffixes : ∀ (depth : Nat) (place : Place text) (buffer : Buffer),
      2 * place.rest.length + 1 ≤ rounds →
    Agrees place depth (Parser.suffixesInto depth rounds buffer)
      (Bytewise.suffixesInto text many buffer)
      place.rest.length depth
  arguments : ∀ (depth : Nat) (place : Place text) (buffer : Buffer),
      2 * place.rest.length + 2 ≤ rounds →
    Agrees place (depth + 1) (Parser.argumentsInto (depth + 1) rounds buffer)
      (Bytewise.argumentsInto text many buffer) place.rest.length depth

section

variable {text : List Char} {rounds many : Nat}

lemma agrees_typeInto_succ (h : TypesAgree text rounds many) (voidAllowed : Bool) (depth : Nat)
    (place : Place text) (buffer : Buffer) (hrounds : 2 * place.rest.length ≤ rounds) :
    Agrees place depth (Parser.typeInto voidAllowed depth (rounds + 1) buffer)
      (Bytewise.typeInto text voidAllowed (many + 1) buffer) place.rest.length depth := by
  rw [Parser.typeInto, Bytewise.typeInto]
  refine .get_bind (.next_bind fun c tail hrest => ?_)
  have hshort := place.length_pass_lt hrest
  simp (disch := decide) only [Utf8.lead_eq_iff, baseTypeName?_lead]
  split_ifs with harray hnamed hvar hvoid
  · exact .single hrest (harray ▸ by decide)
      ((h.type voidAllowed depth _ _ (by omega)).mono hshort.le)
  · refine .single hrest (hnamed ▸ by decide)
      (.name_bind (by decide) fun _ _ _ place' _ _ hplace' => ?_)
    exact (h.suffixes depth place' _ (by omega)).mono (by omega)
  · refine .single hrest (hvar ▸ by decide)
      (.name_bind (by decide) fun _ _ _ place' hstop hrest' hplace' => ?_)
    obtain rfl := List.mem_singleton.mp hstop
    refine .expect_advance_bind hrest' (by decide) (.pure _ ?_)
    have hshort' := place'.length_pass_lt hrest'
    omega
  · exact .single hrest (hvoid.1 ▸ by decide) (.pure _ hshort)
  · cases hbase : baseTypeName? c with
    | none => exact .refuse hrest
    | some name =>
        have hc : c.toNat < 0x80 := by
          by_contra hwide
          rw [baseTypeName?_of_le (Nat.le_of_not_lt hwide)] at hbase
          cases hbase
        exact .single hrest hc (.pure _ hshort)

lemma agrees_suffixesInto_succ (h : TypesAgree text rounds many) (depth : Nat) (place : Place text)
    (buffer : Buffer) (hrounds : 2 * place.rest.length ≤ rounds) :
    Agrees place depth (Parser.suffixesInto depth (rounds + 1) buffer)
      (Bytewise.suffixesInto text (many + 1) buffer)
      place.rest.length depth := by
  rw [Parser.suffixesInto, Bytewise.suffixesInto]
  refine .get_bind (.next_bind fun c tail hrest => ?_)
  have hshort := place.length_pass_lt hrest
  simp (disch := decide) only [Utf8.lead_eq_iff]
  split_ifs with hopen hdeeper hinner hend
  · exact .single hrest (hopen ▸ by decide) (.get_bind (.openList_tooDeep hdeeper))
  · refine .single hrest (hopen ▸ by decide) (.openList_bind hdeeper ?_)
    refine (h.arguments depth _ _ (by omega)).bind fun _ place' hplace' => ?_
    exact (h.suffixes depth place' _ (by omega)).mono (by omega)
  · refine .single hrest (hinner ▸ by decide)
      (.name_bind (by decide) fun _ _ _ place' _ _ hplace' => ?_)
    exact (h.suffixes depth place' _ (by omega)).mono (by omega)
  · exact .single hrest (hend ▸ by decide) (.pure _ hshort)
  · exact .refuse hrest

lemma agrees_argumentsInto_succ (h : TypesAgree text rounds many) (depth : Nat) (place : Place text)
    (buffer : Buffer) (hrounds : 2 * place.rest.length + 1 ≤ rounds) :
    Agrees place (depth + 1) (Parser.argumentsInto (depth + 1) (rounds + 1) buffer)
      (Bytewise.argumentsInto text (many + 1) buffer) place.rest.length depth := by
  rw [Parser.argumentsInto, Bytewise.argumentsInto]
  refine .peek_bind ?_
  cases hhead : place.rest.head? with
  | none => exact .truncated
  | some c =>
      obtain ⟨tail, hrest⟩ := List.head?_eq_some_iff.mp hhead
      have hshort := place.length_pass_lt hrest
      -- A type in front of the arguments that follow, at this place or behind the mark of a bound.
      have htype (own : Buffer) (place' : Place text)
          (hrounds' : 2 * place'.rest.length + 1 ≤ rounds)
          (hplace' : place'.rest.length ≤ place.rest.length) :
          Agrees place' (depth + 1)
            (do
              let type ← Parser.typeInto false (depth + 1) rounds own
              Parser.argumentsInto (depth + 1) rounds (buffer.addArgument type.finish))
            (do
              let type ← Bytewise.typeInto text false many own
              Bytewise.argumentsInto text many (buffer.addArgument type.finish))
            place.rest.length depth := by
        refine (h.type false (depth + 1) place' own hrounds').bind fun _ place'' hplace'' => ?_
        exact (h.arguments depth place'' _ (by omega)).mono (by omega)
      rw [Option.map_some]
      dsimp only
      simp (disch := decide) only [Utf8.lead_eq_iff]
      split_ifs with hclose hany hupper hlower
      · subst hclose
        exact .advance_bind hrest (by decide) (.closeList_bind (.pure _ hshort))
      · subst hany
        exact .advance_bind hrest (by decide) ((h.arguments depth _ _ (by omega)).mono hshort.le)
      · subst hupper
        exact .advance_bind hrest (by decide) (htype _ _ (by omega) hshort.le)
      · subst hlower
        exact .advance_bind hrest (by decide) (htype _ _ (by omega) hshort.le)
      · split
        · next heq => cases heq
        · next heq => exact absurd (Option.some_inj.mp heq) hclose
        · next heq => exact absurd (Option.some_inj.mp heq) hany
        · next heq => exact absurd (Option.some_inj.mp heq) hupper
        · next heq => exact absurd (Option.some_inj.mp heq) hlower
        · exact htype _ place hrounds (Nat.le_refl _)

lemma TypesAgree.succ (h : TypesAgree text rounds many) :
    TypesAgree text (rounds + 1) (many + 1) where
  type voidAllowed depth place buffer hrounds :=
    agrees_typeInto_succ h voidAllowed depth place buffer (by omega)
  suffixes depth place buffer hrounds := agrees_suffixesInto_succ h depth place buffer (by omega)
  arguments depth place buffer hrounds := agrees_argumentsInto_succ h depth place buffer (by omega)

end

/-- The induction is on the rounds of the reader of characters; without any there is nothing that
they would be enough for. -/
lemma typesAgree (text : List Char) (rounds : Nat) :
    ∀ many, rounds ≤ many → TypesAgree text rounds many := by
  induction rounds with
  | zero =>
      intro many _
      exact ⟨fun _ _ _ _ h => absurd h (Nat.not_succ_le_zero _), fun _ _ _ h =>
        absurd h (Nat.not_succ_le_zero _), fun _ _ _ h => absurd h (Nat.not_succ_le_zero _)⟩
  | succ rounds ih =>
      intro many hmany
      obtain ⟨many, rfl⟩ : ∃ fewer, many = fewer + 1 := ⟨many - 1, by omega⟩
      exact (ih many (Nat.le_of_succ_le_succ hmany)).succ

namespace Agrees

variable {text : List Char} {place : Place text}

lemma typeSignature (voidAllowed : Bool) (place : Place text) :
    Agrees place 0 (Parser.typeSignature voidAllowed) (Bytewise.typeSignature text voidAllowed)
      place.rest.length 0 := by
  refine .rounds_bind fun many hmany => ?_
  have hread := (typesAgree text _ _ hmany).type voidAllowed 0 place {} (by omega)
  exact hread.bind fun _ _ hplace' => .pure _ hplace'

/-! ## Declarations -/

/-- Where a character is asked for and stands, there is something behind it. -/
lemma ite_head {α : Type} {c : Char} (hc : c.toNat < 0x80) {depth room depth' : Nat}
    {reader reader' : Parser α} {bytewise bytewise' : Bytewise.Reader α}
    (hthere : ∀ tail, place.rest = [c] ++ tail → Agrees place depth reader bytewise room depth')
    (helse : Agrees place depth reader' bytewise' room depth') :
    Agrees place depth (do if (← Parser.peek) = some c then reader else reader')
      (do if (← Bytewise.peek text) = some c.toUInt8 then bytewise else bytewise') room depth' := by
  refine .peek_bind ?_
  simp only [Utf8.map_lead_eq_some_iff hc]
  split_ifs with hhead
  · obtain ⟨tail, hrest⟩ := List.head?_eq_some_iff.mp hhead
    exact hthere tail hrest
  · exact helse

/-- Loops agree if each round agrees with its like, given that what comes after it does. -/
lemma of_rounds {α : Type} {loop : Nat → Parser α} {loop' : Nat → Bytewise.Reader α}
    (room : Place text → Nat) (hround : ∀ rounds many,
      (∀ place : Place text, place.rest.length < rounds →
        Agrees place 0 (loop rounds) (loop' many) (room place) 0) →
      ∀ place : Place text, place.rest.length ≤ rounds →
        Agrees place 0 (loop (rounds + 1)) (loop' (many + 1)) (room place) 0) (rounds : Nat) :
    ∀ (many : Nat) (place : Place text), rounds ≤ many → place.rest.length < rounds →
      Agrees place 0 (loop rounds) (loop' many) (room place) 0 := by
  induction rounds with
  | zero => exact fun _ _ _ h => nomatch h
  | succ rounds ih =>
      intro many place hmany hrounds
      obtain ⟨many, rfl⟩ : ∃ fewer, many = fewer + 1 := ⟨many - 1, by omega⟩
      have hnext (place : Place text) := ih many place (Nat.le_of_succ_le_succ hmany)
      exact hround rounds many hnext place (Nat.le_of_lt_succ hrounds)

lemma boundNames (rounds : Nat) :
    ∀ (many : Nat) (place : Place text), rounds ≤ many → place.rest.length < rounds →
      Agrees place 0 (Parser.boundNames rounds) (Bytewise.boundNames text many)
        (place.rest.length + 1)
        0 := by
  refine of_rounds (fun place => place.rest.length + 1)
    (fun rounds many ih place hrounds => ?_) rounds
  rw [Parser.boundNames, Bytewise.boundNames]
  refine .ite_head (by decide) (fun tail hrest => ?_) (.pure _ (Nat.lt_succ_self _))
  have hshort := place.length_pass_lt hrest
  refine .advance_bind hrest (by decide) ((typeSignature false _).bind fun _ place' hplace' => ?_)
  exact (ih place' (by omega)).bind fun _ place'' hplace'' => .pure _ (by omega)

lemma formalTypeParameter (place : Place text) :
    Agrees place 0 Parser.formalTypeParameter
      (Bytewise.formalTypeParameter text) place.rest.length 0 := by
  rw [Parser.formalTypeParameter, Bytewise.formalTypeParameter]
  refine .name_bind (by decide) fun name _ tail place' hstop hrest hplace' => ?_
  obtain rfl := List.mem_singleton.mp hstop
  have hshort := place'.length_pass_lt hrest
  refine .expect_advance_bind hrest (by decide) (.peek_bind ?_)
  generalize place'.pass [':'] tail hrest = behind at hshort ⊢
  have hbounds (classBound : Option String) (place'' : Place text)
      (hplace'' : place''.rest.length ≤ behind.rest.length) :
      Agrees place'' 0
        (do
          let interfaceBounds ← Parser.boundNames (← Parser.rounds)
          return FormalTypeParameter.mk (String.ofList name) (classBound.toList ++ interfaceBounds))
        (do
          let interfaceBounds ← Bytewise.boundNames text (← Bytewise.rounds text)
          return FormalTypeParameter.mk (String.ofList name) (classBound.toList ++ interfaceBounds))
        place.rest.length 0 := by
    refine .rounds_bind fun many hmany => (boundNames _ many place'' hmany (by omega)).bind
      fun _ _ hleft => ?_
    exact .pure _ (by omega)
  simp (disch := decide) only [Utf8.map_lead_eq_some_iff]
  split_ifs
  · exact hbounds none behind (Nat.le_refl _)
  · rw [map_eq_pure_bind, map_eq_pure_bind, bind_assoc, bind_assoc]
    exact (typeSignature false behind).bind fun bound place'' hplace'' =>
      hbounds (some bound) place'' hplace''.le

lemma formalTypeParametersTail (rounds : Nat) :
    ∀ (many : Nat) (place : Place text), rounds ≤ many → place.rest.length < rounds →
      Agrees place 0 (Parser.formalTypeParametersTail rounds)
        (Bytewise.formalTypeParametersTail text many) place.rest.length
        0 := by
  refine of_rounds (fun place => place.rest.length) (fun rounds many ih place hrounds => ?_) rounds
  rw [Parser.formalTypeParametersTail, Bytewise.formalTypeParametersTail]
  refine (formalTypeParameter place).bind fun parameter place' hplace' =>
    .ite_head (by decide) (fun tail hrest => ?_) ?_
  · have hshort := place'.length_pass_lt hrest
    exact .advance_bind hrest (by decide) (.pure _ (hshort.trans hplace'))
  · exact (ih place' (by omega)).bind fun _ _ _ => .pure _ (by omega)

lemma formalTypeParameters (place : Place text) :
    Agrees place 0 Parser.formalTypeParameters (Bytewise.formalTypeParameters text)
      (place.rest.length + 1) 0 := by
  rw [Parser.formalTypeParameters, Bytewise.formalTypeParameters]
  refine .ite_head (by decide) (fun tail hrest => ?_) (.pure _ (Nat.lt_succ_self _))
  have hshort := place.length_pass_lt hrest
  refine .advance_bind hrest (by decide) (.rounds_bind fun many hmany => ?_)
  exact (formalTypeParametersTail _ many _ hmany (by omega)).mono (by omega)

lemma namesToEnd (rounds : Nat) :
    ∀ (many : Nat) (place : Place text), rounds ≤ many → place.rest.length < rounds →
      Agrees place 0 (Parser.namesToEnd rounds) (Bytewise.namesToEnd text many)
        (place.rest.length + 1) 0 := by
  refine of_rounds (fun place => place.rest.length + 1)
    (fun rounds many ih place hrounds => ?_) rounds
  rw [Parser.namesToEnd, Bytewise.namesToEnd]
  refine .peek_bind ?_
  rw [Option.isNone_map]
  split_ifs
  · exact .pure _ (Nat.lt_succ_self _)
  · refine (typeSignature false place).bind fun _ place' hplace' => ?_
    exact (ih place' (by omega)).bind fun _ _ _ => .pure _ (by omega)

lemma namesToParenthesis (rounds : Nat) :
    ∀ (many : Nat) (place : Place text), rounds ≤ many → place.rest.length < rounds →
      Agrees place 0 (Parser.namesToParenthesis rounds)
        (Bytewise.namesToParenthesis text many) place.rest.length
        0 := by
  refine of_rounds (fun place => place.rest.length) (fun rounds many ih place hrounds => ?_) rounds
  rw [Parser.namesToParenthesis, Bytewise.namesToParenthesis]
  refine .ite_head (by decide) (fun tail hrest => ?_) ?_
  · exact .advance_bind hrest (by decide) (.pure _ (place.length_pass_lt hrest))
  · refine (typeSignature false place).bind fun _ place' hplace' => ?_
    exact (ih place' (by omega)).bind fun _ _ _ => .pure _ (by omega)

lemma thrownToEnd (rounds : Nat) :
    ∀ (many : Nat) (place : Place text), rounds ≤ many → place.rest.length < rounds →
      Agrees place 0 (Parser.thrownToEnd rounds) (Bytewise.thrownToEnd text many)
        (place.rest.length + 1)
        0 := by
  refine of_rounds (fun place => place.rest.length + 1)
    (fun rounds many ih place hrounds => ?_) rounds
  rw [Parser.thrownToEnd, Bytewise.thrownToEnd]
  refine .peek_bind ?_
  rw [Option.isNone_map]
  split_ifs
  · exact .pure _ (Nat.lt_succ_self _)
  · refine (expect (by decide)).bind fun _ place' hplace' => (typeSignature false place').bind
      fun _ place'' hplace'' => ?_
    exact (ih place'' (by omega)).bind fun _ _ _ => .pure _ (by omega)

lemma classSignature (place : Place text) :
    Agrees place 0 Parser.classSignature (Bytewise.classSignature text)
      (place.rest.length + 1) 0 := by
  refine (formalTypeParameters place).bind fun _ place' hplace' => (typeSignature false place').bind
    fun _ place'' hplace'' => ?_
  refine .rounds_bind fun many hmany =>
    (namesToEnd _ many place'' hmany (by omega)).bind fun _ _ _ => ?_
  exact .pure _ (by omega)

lemma methodSignature (place : Place text) :
    Agrees place 0 Parser.methodSignature (Bytewise.methodSignature text)
      (place.rest.length + 1) 0 := by
  refine (formalTypeParameters place).bind fun _ opened hopened =>
    (expect (by decide)).bind fun _ place' hplace' => ?_
  refine .rounds_bind fun many hmany => ?_
  refine (namesToParenthesis _ many place' hmany (by omega)).bind fun _ closed hclosed => ?_
  refine (typeSignature true closed).bind fun _ place'' hplace'' => ?_
  refine .rounds_bind fun many hmany =>
    (thrownToEnd _ many place'' hmany (by omega)).bind fun _ _ _ => ?_
  exact .pure _ (by omega)

/-! ## Whole texts -/

/-- Both readers are at the end, or one character is in front of both. -/
lemma done {depth : Nat} (place : Place text) :
    Agrees place depth Parser.done (Bytewise.done text) (place.rest.length + 1) depth := by
  have hend : place.position = Utf8.byteLength text ↔ place.rest.isEmpty = true := by
    rw [← place.byteLength_le_position_iff, Nat.le_antisymm_iff, and_iff_right place.position_le]
  rw [Agrees, Parser.done, Bytewise.done, Parser.run_get_bind, Bytewise.run_get_bind]
  change Keeps text _ depth
    (StateT.run
      (if place.rest.isEmpty then Pure.pure () else throw (.trailing place.position)) place.cursor)
    (StateT.run
      (if place.position = Utf8.byteLength text then Pure.pure ()
        else throw (.fault (.trailing place.position)))
      (place.mark depth))
  simp only [hend]
  split_ifs with hrest
  · exact .value () place (Nat.lt_succ_self _)
  · exact .fault (.trailing place.position)
      (Nat.lt_of_not_le (mt place.byteLength_le_position_iff.mp hrest))

end Agrees

/-- Reading a text by its bytes comes to the outcome, and this is what the decoder says of the text;
a fault points into the text. -/
def ReadsWithin {α : Type} (text : String) (bytewise : Except Bytewise.Stop α)
    (decoded : Except SignatureError α) :
    Prop :=
  ∃ outcome : Except Fault α, bytewise = outcome.mapError .fault ∧
    decoded = outcome.mapError (Fault.inside text) ∧
    ∀ fault, outcome = .error fault → fault.PointsInto text.toList

lemma Agrees.runOn {α : Type} {text : String} {room depth : Nat} {reader : Parser α}
    {bytewise : List Char → Bytewise.Reader α}
    (h : Agrees (.start text.toList) 0 reader (bytewise text.toList) room depth) :
    ReadsWithin text (Bytewise.runOn bytewise text) (reader.runOn text) := by
  have hkeeps : Agrees (.start text.toList) 0 (reader <* Parser.done)
      (bytewise text.toList <* Bytewise.done text.toList) room depth := by
    rw [seqLeft_eq_bind, seqLeft_eq_bind]
    exact h.bind fun value place hplace => (done place).bind fun _ place' hplace' =>
      .pure value (by omega)
  rw [Bytewise.runOn, Parser.runOn, StateT.run'_eq, StateT.run'_eq]
  change Keeps text.toList room depth ((reader <* Parser.done).run (.start text.toList))
    ((bytewise text.toList <* Bytewise.done text.toList).run ⟨0, 0⟩) at hkeeps
  generalize (reader <* Parser.done).run (.start text.toList) = outcome at hkeeps ⊢
  generalize (bytewise text.toList <* Bytewise.done text.toList).run ⟨0, 0⟩ = outcome' at hkeeps ⊢
  cases hkeeps with
  | value value place _ => exact ⟨.ok value, rfl, rfl, fun _ h => by cases h⟩
  | fault fault hfault => exact ⟨.error fault, rfl, rfl, fun _ h => by cases h; exact hfault⟩

/-- The three decoders of signatures need no more of a text than its bytes, and reading these never
goes wrong. -/
theorem decoded_within_text (text : String) :
    ReadsWithin text (Bytewise.decodeType text) (decodeType text) ∧
      ReadsWithin text (Bytewise.decodeClass text) (ClassSignature.decode text) ∧
      ReadsWithin text (Bytewise.decodeMethod text) (MethodSignature.decode text) :=
  ⟨(Agrees.typeSignature false _).runOn, (Agrees.classSignature _).runOn,
    (Agrees.methodSignature _).runOn⟩

/-- A wide character is refused by its first byte. -/
example : Bytewise.decodeType "[é" = .error (.fault (.unexpected 0xC3 1)) := by rfl

end Signature

end JarFacts
