import JarFacts.Proofs.Signature.Grammar

/-!
# A type says where it ends

Nothing separates the types of a signature, so the text of each has to show its own end.  `Settles`
compares what is made of a text with what is made of every longer one: a value stays, and what was
left of the text is left together with what was added; a refusal stays as it is; only a text that
ended too early may come to anything.  Readers of types go on in this way
(`Parser.settles_typeTree`), although a longer text gives them more rounds.  So the two readers that
are compared differ in their rounds, and a reader that is out of them counts as one whose text has
ended.

That a text which is cut short lacks only what was cut off needs no reading of its own: a value or a
refusal would have stayed.
-/

namespace JarFacts

lemma Utf8.length_encodeChar (c : Char) : (encodeChar c).length = c.utf8Size := by
  have hsize : c.utf8Size =
      if c.toNat < 0x80 then 1 else if c.toNat < 0x800 then 2
      else if c.toNat < 0x10000 then 3 else 4 := by
    simp only [Char.utf8Size, UInt32.le_iff_toNat_le, UInt32.toNat_ofNatLT, ← Nat.lt_succ_iff]
    rfl
  rw [hsize, encodeChar]
  split_ifs <;> rfl

lemma Utf8.byteLength_toList (text : String) : byteLength text.toList = text.utf8ByteSize := by
  rw [← String.ofList_toList (s := text), String.utf8ByteSize, String.toByteArray_ofList,
    String.toList_ofList, List.utf8Encode, List.size_toByteArray, byteLength, encode,
    List.length_flatMap, List.length_flatMap]
  simp only [length_encodeChar, String.length_utf8EncodeChar]

namespace Signature

namespace Parser

variable {α β : Type}

/-- How the outcome for a text compares with the outcome for this text and more. -/
inductive Stands (more : List Char) : Except Fault (α × Cursor) → Except Fault (α × Cursor) → Prop
  | value (value : α) (position : Nat) (left : List Char) :
      Stands more (.ok (value, ⟨position, left⟩)) (.ok (value, ⟨position, left ++ more⟩))
  | refusal (fault : Fault) : Stands more (.error fault) (.error fault)
  | ended (outcome : Except Fault (α × Cursor)) : Stands more (.error .truncated) outcome

/-- What the first reader makes of a text settles what the second makes of a longer one, unless the
text has ended. -/
def Settles (brief lasting : Parser α) : Prop :=
  ∀ (position : Nat) (text more : List Char),
    Stands more (brief.run ⟨position, text⟩) (lasting.run ⟨position, text ++ more⟩)

namespace Settles

lemma pure (value : α) : Settles (pure value) (pure value) :=
  fun position text _ => .value value position text

lemma throw (fault : Fault) : Settles (throw fault : Parser α) (throw fault) :=
  fun _ _ _ => .refusal fault

lemma throw_bind {fault : Fault} {next next' : α → Parser β} :
    Settles (MonadExcept.throw fault >>= next) (MonadExcept.throw fault >>= next') :=
  fun _ _ _ => .refusal fault

/-- A reader without rounds settles nothing. -/
lemma ended (lasting : Parser α) : Settles (MonadExcept.throw .truncated) lasting :=
  fun _ _ _ => .ended _

lemma refuse (c : Char) (position : Nat) :
    Settles (refuse c position : Parser α) (Parser.refuse c position) :=
  throw _

lemma bind {brief lasting : Parser α} {next next' : α → Parser β} (h : Settles brief lasting)
    (hnext : ∀ value, Settles (next value) (next' value)) :
      Settles (brief >>= next) (lasting >>= next') := by
  intro position text more
  have hstands := h position text more
  rw [run_bind, run_bind]
  generalize brief.run ⟨position, text⟩ = outcome at hstands ⊢
  generalize lasting.run ⟨position, text ++ more⟩ = outcome' at hstands ⊢
  cases hstands with
  | value value position' left => exact hnext value position' left more
  | refusal fault => exact .refusal fault
  | ended outcome' => exact .ended _

/-- Where readers only look at their position, it is the same for both. -/
lemma get_bind {next next' : Cursor → Parser β}
    (h : ∀ position text text', Settles (next ⟨position, text⟩) (next' ⟨position, text'⟩)) :
    Settles (get >>= next) (get >>= next') :=
  fun position text more => h position text (text ++ more) position text more

lemma next : Settles next next := by
  intro position text more
  cases text with
  | nil => exact .ended _
  | cons c rest =>
      rw [List.cons_append, run_next, run_next]
      exact .value c _ rest

/-- A look at the next character needs one. -/
lemma peek_bind {next next' : Option Char → Parser β}
    (hend : next none = MonadExcept.throw .truncated)
    (h : ∀ c, Settles (next (some c)) (next' (some c))) :
      Settles (peek >>= next) (peek >>= next') := by
  intro position text more
  cases text with
  | nil =>
      have hrun : (peek >>= next).run ⟨position, []⟩ = .error .truncated := by
        change (next none).run ⟨position, []⟩ = _
        rw [hend]
        rfl
      rw [hrun]
      exact .ended _
  | cons c rest => exact h c position (c :: rest) more

lemma discard_next : Settles (discard Parser.next) (discard Parser.next) := by
  rw [discard_eq_bind]
  exact next.bind fun _ => .pure _

lemma expect (c : Char) : Settles (expect c) (expect c) := by
  refine get_bind fun position _ _ => next.bind fun found => ?_
  dsimp only
  split
  · exact .pure _
  · exact .refuse found position

/-- A name is complete as soon as its stop has come. -/
lemma name (stops : List Char) : Settles (name stops) (name stops) := by
  intro position text more
  cases hstop : text.dropWhile (inName stops) with
  | nil =>
      rw [run_name, hstop]
      exact .ended _
  | cons stop tail =>
      have htaken : ∀ c ∈ text.takeWhile (inName stops), c ∉ stops :=
        fun c hc => inName_iff.mp (List.mem_takeWhile_imp hc)
      have hfound : stop ∈ stops := mem_of_dropWhile hstop
      have htext : text = text.takeWhile (inName stops) ++ stop :: tail := by
        rw [← hstop, List.takeWhile_append_dropWhile]
      rw [htext, List.append_assoc, List.cons_append, run_name_of_stop position tail htaken hfound,
        run_name_of_stop position (tail ++ more) htaken hfound]
      exact .value _ _ (stop :: tail)

end Settles

lemma settles_typeWith_succ {rounds lasting : Nat}
    (htype : ∀ voidAllowed depth, Settles (typeWith voidAllowed depth rounds)
      (typeWith voidAllowed depth lasting))
    (hsuffixes : ∀ depth, Settles (suffixesWith depth rounds) (suffixesWith depth lasting))
    (voidAllowed : Bool) (depth : Nat) :
    Settles (typeWith voidAllowed depth (rounds + 1))
      (typeWith voidAllowed depth (lasting + 1)) := by
  rw [typeWith, typeWith]
  refine .get_bind fun position _ _ => Settles.next.bind fun c => ?_
  dsimp only
  split_ifs with harray hnamed hvar hvoid
  · exact (htype voidAllowed depth).bind fun _ => .pure _
  · exact (Settles.name _).bind fun _ => (hsuffixes depth).bind fun _ => .pure _
  · exact (Settles.name _).bind fun _ => (Settles.expect ';').bind fun _ => .pure _
  · exact .pure _
  · cases BaseType.ofLetter? c with
    | none => exact .refuse c position
    | some b => exact .pure _

lemma settles_suffixesWith_succ {rounds lasting : Nat}
    (hsuffixes : ∀ depth, Settles (suffixesWith depth rounds) (suffixesWith depth lasting))
    (harguments : ∀ depth, Settles (argumentsWith depth rounds) (argumentsWith depth lasting))
    (depth : Nat) :
    Settles (suffixesWith depth (rounds + 1)) (suffixesWith depth (lasting + 1)) := by
  rw [suffixesWith, suffixesWith]
  refine .get_bind fun position _ _ => Settles.next.bind fun c => ?_
  dsimp only
  split_ifs with hopen hdeeper hinner hend
  · exact .get_bind fun _ _ _ => .throw_bind
  · exact (harguments (depth + 1)).bind fun _ => (hsuffixes depth).bind fun _ => .pure _
  · exact (Settles.name _).bind fun _ => (hsuffixes depth).bind fun _ => .pure _
  · exact .pure _
  · exact .refuse c position

lemma settles_argumentsWith_succ {rounds lasting : Nat}
    (htype : ∀ voidAllowed depth, Settles (typeWith voidAllowed depth rounds)
      (typeWith voidAllowed depth lasting))
    (harguments : ∀ depth, Settles (argumentsWith depth rounds) (argumentsWith depth lasting))
    (depth : Nat) :
    Settles (argumentsWith depth (rounds + 1)) (argumentsWith depth (lasting + 1)) := by
  rw [argumentsWith, argumentsWith]
  refine .peek_bind rfl fun c => ?_
  have hbounded (mark : TypeTree → TypeArgument) :
      Settles
        (do
          discard next
          let bound ← typeWith false depth rounds
          return mark bound :: (← argumentsWith depth rounds))
        (do
          discard next
          let bound ← typeWith false depth lasting
          return mark bound :: (← argumentsWith depth lasting)) :=
    Settles.discard_next.bind fun _ => (htype false depth).bind fun _ =>
      (harguments depth).bind fun _ => .pure _
  split
  · exact .throw _
  · exact Settles.discard_next.bind fun _ => .pure _
  · exact Settles.discard_next.bind fun _ => (harguments depth).bind fun _ => .pure _
  · exact hbounded .upper
  · exact hbounded .lower
  · exact (htype false depth).bind fun _ => (harguments depth).bind fun _ => .pure _

/-- More rounds on a longer text come to the same.  The induction is on the fewer rounds, and over
the three readers at once. -/
lemma settles_of_rounds (rounds : Nat) :
    ∀ lasting, rounds ≤ lasting →
      (∀ voidAllowed depth, Settles (typeWith voidAllowed depth rounds)
        (typeWith voidAllowed depth lasting)) ∧
      (∀ depth, Settles (suffixesWith depth rounds) (suffixesWith depth lasting)) ∧
      ∀ depth, Settles (argumentsWith depth rounds) (argumentsWith depth lasting) := by
  induction rounds with
  | zero =>
      refine fun lasting _ => ⟨fun voidAllowed depth => ?_, fun depth => ?_, fun depth => ?_⟩
      · rw [typeWith]
        exact .ended _
      · rw [suffixesWith]
        exact .ended _
      · rw [argumentsWith]
        exact .ended _
  | succ rounds ih =>
      intro lasting hlasting
      obtain ⟨lasting, rfl⟩ : ∃ fewer, lasting = fewer + 1 := ⟨lasting - 1, by omega⟩
      obtain ⟨htype, hsuffixes, harguments⟩ := ih lasting (Nat.le_of_succ_le_succ hlasting)
      exact ⟨settles_typeWith_succ htype hsuffixes, settles_suffixesWith_succ hsuffixes harguments,
        settles_argumentsWith_succ htype harguments⟩

lemma settles_typeTree (voidAllowed : Bool) :
    Settles (typeTree voidAllowed) (typeTree voidAllowed) := by
  intro position text more
  have hrounds : 2 * text.length + 2 ≤ 2 * (text ++ more).length + 2 := by
    rw [List.length_append]
    omega
  exact (settles_of_rounds _ _ hrounds).1 voidAllowed 0 position text more

end Parser

/-! ## Whole texts -/

/-- A fault and the text that it was found in determine each other's part of the error. -/
lemma Fault.inside_inj {text : String} {fault fault' : Fault}
    (h : fault.inside text = fault'.inside text) :
    fault = fault' := by
  cases fault <;> cases fault' <;> cases h <;> rfl

/-- How a text is decoded, by what is read of it as a type. -/
lemma decodeType_eq (signature : String) :
    decodeType signature =
      match (Parser.typeTree false).run (.start signature.toList) with
      | .ok (tree, ⟨_, []⟩) => .ok (String.ofList tree.render)
      | .ok (_, ⟨position, _ :: _⟩) => .error (.trailing signature position)
      | .error fault => .error (fault.inside signature) := by
  rw [decodeType_eq_map, parseType, Parser.runOn_eq]
  rcases (Parser.typeTree false).run (.start signature.toList) with _ | ⟨tree, _, _ | _⟩ <;> rfl

lemma exists_fault_of_decodeType {signature : String} {error : SignatureError}
    (h : decodeType signature = .error error) : ∃ fault : Fault, error =
      fault.inside signature := by
  rw [decodeType_eq] at h
  split at h
  · cases h
  · next position _ _ _ => cases h; exact ⟨.trailing position, rfl⟩
  · next fault _ => cases h; exact ⟨fault, rfl⟩

/-- What is left over behind a type is more than nothing, and begins where the type ends. -/
lemma decodeType_append_of_ok {signature name : String} (h : decodeType signature = .ok name)
    {more : String} (hmore : more ≠ "") :
    decodeType (signature ++ more) =
      .error (.trailing (signature ++ more) signature.utf8ByteSize) := by
  have hstands := Parser.settles_typeTree false 0 signature.toList more.toList
  have hyields := Parser.yields_typeTree false (.start signature.toList)
  rw [decodeType_eq] at h
  rw [decodeType_eq, String.toList_append, Cursor.start]
  rw [Cursor.start] at h hyields
  generalize (Parser.typeTree false).run ⟨0, signature.toList⟩ = outcome at h hstands hyields
  generalize (Parser.typeTree false).run ⟨0, signature.toList ++ more.toList⟩ =
    outcome' at hstands ⊢
  cases hstands with
  | refusal fault => cases h
  | ended outcome' => cases h
  | value tree position left =>
      cases left with
      | cons c left => cases h
      | nil =>
          obtain ⟨text, htext, hposition, -⟩ := hyields tree _ rfl
          obtain ⟨c, rest, hrest⟩ :=
            List.exists_cons_of_ne_nil (mt String.toList_eq_nil_iff.mp hmore)
          dsimp only at htext hposition
          rw [List.append_nil] at htext
          rw [Nat.zero_add, ← htext, Utf8.byteLength_toList] at hposition
          rw [List.nil_append, hrest, hposition]

/-- A fault is found however the text goes on, unless it is that the text ended. -/
lemma decodeType_append_of_fault {signature : String} {fault : Fault} (hfault : fault ≠ .truncated)
    (h : decodeType signature = .error (fault.inside signature)) (more : String) :
    decodeType (signature ++ more) = .error (fault.inside (signature ++ more)) := by
  have hstands := Parser.settles_typeTree false 0 signature.toList more.toList
  rw [decodeType_eq] at h
  rw [decodeType_eq, String.toList_append, Cursor.start]
  rw [Cursor.start] at h
  generalize (Parser.typeTree false).run ⟨0, signature.toList⟩ = outcome at h hstands
  generalize (Parser.typeTree false).run ⟨0, signature.toList ++ more.toList⟩ =
    outcome' at hstands ⊢
  cases hstands with
  | refusal found =>
      have heq : found = fault := Fault.inside_inj (Except.error.inj h)
      rw [heq]
  | ended outcome' => exact absurd (Fault.inside_inj (Except.error.inj h)).symm hfault
  | value tree position left =>
      cases left with
      | nil => cases h
      | cons c left =>
          have heq : Fault.trailing position = fault := Fault.inside_inj (Except.error.inj h)
          rw [← heq]
          rfl

/-- A text that is cut short has ended too early: had it a name or a fault of its own, so it would
with its rest. -/
lemma decodeType_of_append_ok {front rest name : String} (h : decodeType (front ++ rest) = .ok name)
    (hrest : rest ≠ "") : decodeType front = .error (.truncated front) := by
  cases hfront : decodeType front with
  | ok found =>
      rw [decodeType_append_of_ok hfront hrest] at h
      cases h
  | error error =>
      obtain ⟨fault, rfl⟩ := exists_fault_of_decodeType hfront
      by_cases hfault : fault = .truncated
      · rw [hfault]
        rfl
      · rw [decodeType_append_of_fault hfault hfront] at h
        cases h

/-- **A type says where it ends.**  Short of its end a type signature is truncated and nothing else,
and behind its end any further text is left over.  Every other fault is found where it is, whatever
the text goes on with: its kind, its place and the byte that stands there stay the same. -/
theorem decodeType_delimits_itself (signature : String) :
    (∀ name, decodeType signature = .ok name →
      (∀ front rest, signature = front ++ rest → rest ≠ "" →
        decodeType front = .error (.truncated front)) ∧
      ∀ more, more ≠ "" →
        decodeType (signature ++ more) =
          .error (.trailing (signature ++ more) signature.utf8ByteSize)) ∧
    (∀ error, decodeType signature = .error error →
      ∃ fault : Fault, error = fault.inside signature) ∧
    ∀ fault : Fault, fault ≠ .truncated → decodeType signature = .error (fault.inside signature) →
      ∀ more, decodeType (signature ++ more) = .error (fault.inside (signature ++ more)) := by
  refine ⟨fun name h => ⟨?_, fun more hmore => decodeType_append_of_ok h hmore⟩,
    fun error h => exists_fault_of_decodeType h, fun fault hfault h more =>
    decodeType_append_of_fault hfault h more⟩
  rintro front rest rfl hrest
  exact decodeType_of_append_ok h hrest

/-- Behind `é` a position counts two bytes, and a letter that begins no type is refused before what
follows it. -/
theorem decodeType_accentedList_delimits_itself :
    decodeType "Lé<TT;>;" = .ok "é<<T>>" ∧ decodeType "Lé<TT" = .error (.truncated "Lé<TT") ∧
    decodeType ("Lé<TT;>;" ++ "I") = .error (.trailing ("Lé<TT;>;" ++ "I") 9) ∧
    decodeType "Lé<Q" = .error (.unexpected "Lé<Q" 81 4) ∧
    decodeType ("Lé<Q" ++ ";>;") = .error (.unexpected ("Lé<Q" ++ ";>;") 81 4) := by
  have hname : decodeType "Lé<TT;>;" = .ok "é<<T>>" := by decide +kernel
  have hfault : decodeType "Lé<Q" = .error ((Fault.unexpected 81 4).inside "Lé<Q") := by
    decide +kernel
  have hsize : "Lé<TT;>;".utf8ByteSize = 9 := by decide
  have hcut : "Lé<TT;>;" = "Lé<TT" ++ ";>;" := by decide
  obtain ⟨hfront, hmore⟩ := (decodeType_delimits_itself "Lé<TT;>;").1 _ hname
  rw [hsize] at hmore
  exact ⟨hname, hfront "Lé<TT" ";>;" hcut (by decide), hmore "I" (by decide), hfault,
    (decodeType_delimits_itself "Lé<Q").2.2 _ (by decide) hfault ";>;"⟩

end Signature

end JarFacts
