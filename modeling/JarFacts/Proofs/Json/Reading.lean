import Mathlib.Tactic.Common
import JarFacts.Json.Parser
import JarFacts.Proofs.Bytes.ModifiedUtf8
import JarFacts.Proofs.Text.Digits

/-!
# Reading back what was printed

Both printed forms of a value are read back as the value.  They differ in their blanks only, so one
form with blanks left open (`spell`, over a `Layout`) covers the two, and there is one proof about
it.

Reading goes by rounds, and a value takes no more of them than its text has characters.  The
induction is on the rounds, as the recursion of the reader is: at each round a value relies on the
items and members of the round below, and these on the values there.  What is behind a value must
not continue it (`Ends`): behind a number no digit, point or exponent.
-/

namespace JarFacts.Json

variable {c : Char} {text rest blank : List Char} {rounds : Nat}

/-! ## Blanks -/

/-- A text of blanks. -/
def IsBlank (blank : List Char) : Prop :=
  ∀ c ∈ blank, isSpace c = true

lemma skipSpaces_append (h : IsBlank blank) (text : List Char) :
    skipSpaces (blank ++ text) = skipSpaces text :=
  List.dropWhile_append_of_pos h

lemma skipSpaces_cons (h : isSpace c = false) (rest : List Char) :
    skipSpaces (c :: rest) = c :: rest :=
  List.dropWhile_cons_of_neg (by simp [h])

/-- A blank, or one of the marks that stand behind a value. -/
def isBoundary (c : Char) : Bool :=
  isSpace c || c = ',' || c = ']' || c = '\x7d'

/-- The text does not continue a value in front of it. -/
def Ends (rest : List Char) : Prop :=
  ∀ c ∈ rest.head?, isBoundary c = true

lemma ends_nil : Ends [] := by
  intro c hc
  cases hc

lemma ends_cons (h : isBoundary c = true) (rest : List Char) : Ends (c :: rest) := by
  intro d hd
  cases hd
  exact h

lemma ends_append (hblank : IsBlank blank) (h : Ends rest) : Ends (blank ++ rest) := by
  cases blank with
  | nil => exact h
  | cons c blank =>
      have hc : isSpace c = true := hblank c List.mem_cons_self
      exact ends_cons (by simp [isBoundary, hc]) _

lemma toNat_of_isBoundary (h : isBoundary c = true) :
    c.toNat = 32 ∨ c.toNat = 10 ∨ c.toNat = 9 ∨ c.toNat = 13 ∨ c.toNat = 44 ∨ c.toNat = 93 ∨
    c.toNat = 125 := by
  simp only [isBoundary, isSpace, Bool.or_eq_true, decide_eq_true_eq] at h
  rcases h with (((((rfl | rfl) | rfl) | rfl) | rfl) | rfl) | rfl <;> decide

/-! ## Strings -/

lemma hexUnit?_hexNumber {unit : Nat} (h : unit < 0x20) :
    ∃ a b c d, Bytes.hexNumber 4 unit = [a, b, c, d] ∧ hexUnit? a b c d = some unit := by
  have hall : ∀ unit < 0x20,
      hexUnit? (Bytes.hexDigit (unit / 16 / 16 / 16 % 16)) (Bytes.hexDigit (unit / 16 / 16 % 16))
        (Bytes.hexDigit (unit / 16 % 16)) (Bytes.hexDigit (unit % 16)) = some unit := by
    decide
  exact ⟨_, _, _, _, rfl, hall unit h⟩

/-- A character that is not escaped is read as its code units. -/
lemma stringUnits_cons (hquote : c ≠ '"') (hbackslash : c ≠ '\\') (hcontrol : ¬c.toNat < 0x20)
    (units : List Nat) (rest : List Char) : stringUnits units (c :: rest) =
      stringUnits ((Utf16.encodeChar c).reverse ++ units) rest := by
  rw [stringUnits.eq_def]
  split
  · rename_i h
    cases h
  · rename_i h
    cases h
    exact absurd rfl hquote
  · rename_i h
    cases h
    exact absurd rfl hbackslash
  · rename_i h
    cases h
    exact absurd rfl hbackslash
  · rename_i h
    cases h
    rw [if_neg hcontrol]

/-- One character of a string literal is read as its code units, whichever way it is escaped. -/
lemma stringUnits_escapeChar (c : Char) (units : List Nat) (rest : List Char) :
    stringUnits units (escapeChar c ++ rest) =
      stringUnits ((Utf16.encodeChar c).reverse ++ units) rest := by
  have hbasic : c.toNat < 0x20 ∨ c = '"' ∨ c = '\\' → Utf16.encodeChar c = [c.toNat] := by
    rintro (h | rfl | rfl)
    · rw [Utf16.encodeChar, if_pos (by omega)]
    · rfl
    · rfl
  have hchar : ∀ n, c.toNat = n → c = Char.ofNat n := by
    rintro n rfl
    exact (Char.ofNat_toNat c).symm
  unfold escapeChar
  split_ifs with hquote hbackslash h8 h9 h10 h12 h13 hcontrol
  · rw [hbasic (.inr (.inl hquote)), hquote]
    rfl
  · rw [hbasic (.inr (.inr hbackslash)), hbackslash]
    rfl
  · rw [hbasic (.inl (by omega)), hchar _ h8]
    rfl
  · rw [hbasic (.inl (by omega)), hchar _ h9]
    rfl
  · rw [hbasic (.inl (by omega)), hchar _ h10]
    rfl
  · rw [hbasic (.inl (by omega)), hchar _ h12]
    rfl
  · rw [hbasic (.inl (by omega)), hchar _ h13]
    rfl
  · obtain ⟨a, b, d, e, hdigits, hunit⟩ := hexUnit?_hexNumber hcontrol
    rw [hdigits, hbasic (.inl hcontrol)]
    simp only [List.cons_append, List.nil_append, stringUnits, hunit, List.reverse_singleton]
  · exact stringUnits_cons hquote hbackslash hcontrol units rest

lemma stringUnits_escaped (text : List Char) (units : List Nat) (rest : List Char) :
    stringUnits units (text.flatMap escapeChar ++ '"' :: rest) =
      some ((text.flatMap Utf16.encodeChar).reverse ++ units, rest) := by
  induction text generalizing units with
  | nil => rfl
  | cons c text ih =>
      rw [List.flatMap_cons, List.append_assoc, stringUnits_escapeChar, ih, List.flatMap_cons,
        List.reverse_append, List.append_assoc]

/-- A string literal is read back behind its opening quote. -/
lemma stringBody_escaped (text : String) (rest : List Char) :
    stringBody (text.toList.flatMap escapeChar ++ '"' :: rest) = some (some text, rest) := by
  rw [stringBody, stringUnits_escaped]
  simp [Utf16.decode?_encode]

/-! ## Numbers -/

lemma not_continues_number (h : Ends rest) :
    ∀ c ∈ rest.head?, Text.isDigit c = false ∧ c ≠ '.' ∧ c ≠ 'e' ∧ c ≠ 'E' := by
  intro c hc
  have hcode := toNat_of_isBoundary (h c hc)
  have hne : ∀ d : Char, d.toNat = 46 ∨ d.toNat = 101 ∨ d.toNat = 69 → c ≠ d := by
    rintro d hd rfl
    omega
  refine ⟨?_, hne '.' (.inl rfl), hne 'e' (.inr (.inl rfl)), hne 'E' (.inr (.inr rfl))⟩
  rw [← Bool.not_eq_true, Text.isDigit_iff_toNat]
  omega

lemma wholeDigits_toDigits (value : Nat) (h : Ends rest) :
    wholeDigits (Nat.toDigits 10 value ++ rest) = some (Nat.toDigits 10 value, rest) := by
  by_cases hzero : value = 0
  · subst hzero
    rfl
  · have hdigit : ∀ c ∈ Nat.toDigits 10 value, Text.isDigit c = true :=
      fun _ => Text.isDigit_of_mem_toDigits
    have hspan := Text.span_digits hdigit fun c hc => (not_continues_number h c hc).1
    have hdigits : digits (Nat.toDigits 10 value ++ rest) = some (Nat.toDigits 10 value, rest) := by
      rw [digits, hspan]
      simp [Nat.toDigits_ne_nil]
    have hhead := Text.head?_toDigits hzero
    cases hcons : Nat.toDigits 10 value with
    | nil => exact absurd hcons Nat.toDigits_ne_nil
    | cons c others =>
        rw [hcons] at hdigits hhead
        rw [List.cons_append] at hdigits ⊢
        rw [wholeDigits.eq_def]
        split
        · rename_i heq
          cases heq
          exact absurd rfl hhead
        · exact hdigits

lemma fraction_of_ends (h : Ends rest) : fraction rest = some ([], rest) := by
  cases rest with
  | nil => rfl
  | cons c rest =>
      have hpoint : c ≠ '.' := (not_continues_number h c rfl).2.1
      rw [fraction.eq_def]
      split
      · rename_i heq
        cases heq
        exact absurd rfl hpoint
      · rfl

lemma exponent_of_ends (h : Ends rest) : exponent rest = some ([], rest) := by
  cases rest with
  | nil => rfl
  | cons c rest =>
      obtain ⟨-, -, hlower, hupper⟩ := not_continues_number h c rfl
      simp [exponent, hlower, hupper]

lemma number_toDigits (value : Nat) (h : Ends rest) :
    number (Nat.toDigits 10 value ++ rest) = some (.int value, rest) := by
  have hminus : ∀ tail, Nat.toDigits 10 value ++ rest ≠ '-' :: tail := by
    intro tail heq
    cases hcons : Nat.toDigits 10 value with
    | nil => exact absurd hcons Nat.toDigits_ne_nil
    | cons c others =>
        have hmem : c ∈ Nat.toDigits 10 value := by simp [hcons]
        have hdigit := Text.isDigit_of_mem_toDigits hmem
        rw [hcons] at heq
        cases heq
        exact absurd hdigit (by decide)
  unfold number
  split
  rename_i negative rest' hsign
  split at hsign
  · rename_i tail heq
    exact absurd heq (hminus tail)
  · cases hsign
    simp [wholeDigits_toDigits value h, fraction_of_ends h, exponent_of_ends h,
      Text.digitsValue_toDigits]

lemma number_neg_toDigits {value : Nat} (hvalue : value ≠ 0) (h : Ends rest) :
    number ('-' :: (Nat.toDigits 10 value ++ rest)) = some (.int (-value), rest) := by
  simp [number, wholeDigits_toDigits value h, fraction_of_ends h, exponent_of_ends h,
    Text.digitsValue_toDigits, hvalue]

/-- An integer is read back. -/
lemma number_printInt (value : Int) (h : Ends rest) :
    number (printInt value ++ rest) = some (.int value, rest) := by
  by_cases hsign : value < 0
  · have habs : value.natAbs ≠ 0 := by omega
    have hvalue : -(value.natAbs : Int) = value := by omega
    rw [printInt, if_pos hsign, List.cons_append, number_neg_toDigits habs h, hvalue]
  · have hvalue : (value.toNat : Int) = value := by omega
    rw [printInt, if_neg hsign, number_toDigits _ h, hvalue]

lemma exists_printInt_eq_cons (value : Int) :
    ∃ c others, printInt value = c :: others ∧ (Text.isDigit c = true ∨ c = '-') := by
  unfold printInt
  split
  · exact ⟨'-', _, rfl, .inr rfl⟩
  · cases hcons : Nat.toDigits 10 value.toNat with
    | nil => exact absurd hcons Nat.toDigits_ne_nil
    | cons c others =>
        have hmem : c ∈ Nat.toDigits 10 value.toNat := by simp [hcons]
        exact ⟨c, others, rfl, .inl (Text.isDigit_of_mem_toDigits hmem)⟩

/-! ## Layouts -/

/-- Where blanks stand in a text: in front of what is on a level, and behind a colon. -/
structure Layout where
  lineBreak : Nat → List Char
  gap : List Char
  isBlank_lineBreak : ∀ level, IsBlank (lineBreak level)
  isBlank_gap : IsBlank gap

/-- No blanks at all. -/
def Layout.compact : Layout where
  lineBreak _ := []
  gap := []
  isBlank_lineBreak := by simp [IsBlank]
  isBlank_gap := by simp [IsBlank]

/-- Items and members on lines of their own. -/
def Layout.indented : Layout where
  lineBreak := Json.lineBreak
  gap := [' ']
  isBlank_lineBreak := by
    intro level c hc
    rcases List.mem_cons.mp hc with rfl | hspace
    · rfl
    · rw [List.eq_of_mem_replicate hspace]
      rfl
  isBlank_gap := by simp [IsBlank, isSpace]

@[simp]
lemma Layout.compact_lineBreak (level : Nat) : Layout.compact.lineBreak level = [] := rfl

@[simp]
lemma Layout.compact_gap : Layout.compact.gap = [] := rfl

@[simp]
lemma Layout.indented_lineBreak (level : Nat) :
    Layout.indented.lineBreak level = Json.lineBreak level := rfl

@[simp]
lemma Layout.indented_gap : Layout.indented.gap = [' '] := rfl

variable (layout : Layout) (level : Nat)

mutual

/-- The text of a value with blanks as the layout has them. -/
def spell (level : Nat) : Json → List Char
  | .null => "null".toList
  | .bool true => "true".toList
  | .bool false => "false".toList
  | .int value => printInt value
  | .decimal spelling => spelling.toList
  | .string text => quote text
  | .unreadable => ['"', '"']
  | .array [] => ['[', ']']
  | .array (item :: items) =>
    '[' :: (layout.lineBreak (level + 1) ++ (spell (level + 1) item ++ spellItems level items))
  | .object [] => ['\x7b', '\x7d']
  | .object ((name, value) :: members) =>
    '\x7b' :: (layout.lineBreak (level + 1) ++ (quote name ++ ':' :: (layout.gap ++
      (spell (level + 1) value ++ spellMembers level members))))

/-- The items behind the first one, and the closing bracket. -/
def spellItems (level : Nat) : List Json → List Char
  | [] => layout.lineBreak level ++ [']']
  | item :: items =>
    ',' :: (layout.lineBreak (level + 1) ++ (spell (level + 1) item ++ spellItems level items))

/-- The members behind the first one, and the closing brace. -/
def spellMembers (level : Nat) : List (String × Json) → List Char
  | [] => layout.lineBreak level ++ ['\x7d']
  | (name, value) :: members =>
    ',' :: (layout.lineBreak (level + 1) ++ (quote name ++ ':' :: (layout.gap ++
      (spell (level + 1) value ++ spellMembers level members))))

end

mutual

lemma spell_compact (level : Nat) : (value : Json) → spell .compact level value = print value
  | .null | .bool true | .bool false | .int _ | .decimal _ | .string _ | .unreadable | .array []
      | .object [] => by
    simp [spell, print]
  | .array (item :: items) => by
    simp [spell, print, spell_compact (level + 1) item, spellItems_compact level items]
  | .object ((name, value) :: members) => by
    simp [spell, print, spell_compact (level + 1) value, spellMembers_compact level members]

lemma spellItems_compact (level : Nat) :
    (items : List Json) → spellItems .compact level items = printItems items
  | [] => by simp [spellItems, printItems]
  | item :: items => by
    simp [spellItems, printItems, spell_compact (level + 1) item, spellItems_compact level items]

lemma spellMembers_compact (level : Nat) :
    (members : List (String × Json)) → spellMembers .compact level members = printMembers members
  | [] => by simp [spellMembers, printMembers]
  | (name, value) :: members => by
    simp [spellMembers, printMembers, spell_compact (level + 1) value,
      spellMembers_compact level members]

end

mutual

lemma spell_indented (level : Nat) :
    (value : Json) → spell .indented level value = printIndented level value
  | .null | .bool true | .bool false | .int _ | .decimal _ | .string _ | .unreadable | .array []
      | .object [] => by
    simp [spell, printIndented]
  | .array (item :: items) => by
    simp [spell, printIndented, spell_indented (level + 1) item, spellItems_indented level items]
  | .object ((name, value) :: members) => by
    simp [spell, printIndented, spell_indented (level + 1) value,
      spellMembers_indented level members]

lemma spellItems_indented (level : Nat) :
    (items : List Json) → spellItems .indented level items = printIndentedItems level items
  | [] => by simp [spellItems, printIndentedItems]
  | item :: items => by
    simp [spellItems, printIndentedItems, spell_indented (level + 1) item,
      spellItems_indented level items]

lemma spellMembers_indented (level : Nat) :
    (members : List (String × Json)) →
    spellMembers .indented level members = printIndentedMembers level members
  | [] => by simp [spellMembers, printIndentedMembers]
  | (name, value) :: members => by
    simp [spellMembers, printIndentedMembers, spell_indented (level + 1) value,
      spellMembers_indented level members]

end

/-! ## Values -/

mutual

/-- A value that is read back from its text: all its numbers are integers, and all its strings are
texts. -/
def Written : Json → Prop
  | .decimal _ | .unreadable => False
  | .array items => WrittenItems items
  | .object members => WrittenMembers members
  | .null | .bool _ | .int _ | .string _ => True

/-- Items that are read back. -/
def WrittenItems : List Json → Prop
  | [] => True
  | item :: items => Written item ∧ WrittenItems items

/-- Members that are read back. -/
def WrittenMembers : List (String × Json) → Prop
  | [] => True
  | (_, value) :: members => Written value ∧ WrittenMembers members

end

lemma ends_spellItems (items : List Json) (rest : List Char) :
    Ends (spellItems layout level items ++ rest) := by
  cases items with
  | nil =>
      rw [spellItems, List.append_assoc]
      exact ends_append (layout.isBlank_lineBreak level) (ends_cons (by decide) _)
  | cons item items =>
      rw [spellItems]
      exact ends_cons (by decide) _

lemma ends_spellMembers (members : List (String × Json)) (rest : List Char) :
    Ends (spellMembers layout level members ++ rest) := by
  cases members with
  | nil =>
      rw [spellMembers, List.append_assoc]
      exact ends_append (layout.isBlank_lineBreak level) (ends_cons (by decide) _)
  | cons member members =>
      obtain ⟨name, value⟩ := member
      rw [spellMembers]
      exact ends_cons (by decide) _

lemma value_blank_append (h : IsBlank blank) (text : List Char) :
    value rounds (blank ++ text) = value rounds text := by
  cases rounds with
  | zero => rfl
  | succ rounds => rw [value, value, skipSpaces_append h]

/-- The first character of a text is no blank, and closes no array. -/
lemma exists_spell_eq_cons {json : Json} (h : json.Written) :
    ∃ c others, spell layout level json = c :: others ∧ isSpace c = false ∧ c ≠ ']' := by
  match json with
  | .null => exact ⟨'n', _, rfl, by decide, by decide⟩
  | .bool true => exact ⟨'t', _, rfl, by decide, by decide⟩
  | .bool false => exact ⟨'f', _, rfl, by decide, by decide⟩
  | .string _ => exact ⟨'"', _, rfl, by decide, by decide⟩
  | .array [] => exact ⟨'[', _, rfl, by decide, by decide⟩
  | .array (_ :: _) => exact ⟨'[', _, by rw [spell], by decide, by decide⟩
  | .object [] => exact ⟨'\x7b', _, rfl, by decide, by decide⟩
  | .object ((_, _) :: _) => exact ⟨'\x7b', _, by rw [spell], by decide, by decide⟩
  | .int value =>
      obtain ⟨c, others, hprint, hc⟩ := exists_printInt_eq_cons value
      refine ⟨c, others, by rw [spell, hprint], ?_⟩
      rcases hc with hdigit | rfl
      · have hcode := Text.isDigit_iff_toNat.mp hdigit
        have hne : ∀ d : Char, d.toNat < 48 ∨ 57 < d.toNat → c ≠ d := by
          rintro d hd rfl
          omega
        refine ⟨?_, hne ']' (by decide)⟩
        simp [isSpace, hne ' ' (by decide), hne '\n' (by decide), hne '\t' (by decide),
          hne '\r' (by decide)]
      · exact ⟨by decide, by decide⟩
  | .decimal _ => exact absurd h (by simp [Written])
  | .unreadable => exact absurd h (by simp [Written])

/-- A text that begins with a digit or a sign is read as a number. -/
lemma value_eq_number (hc : Text.isDigit c = true ∨ c = '-') (others : List Char) :
    value (rounds + 1) (c :: others) = number (c :: others) := by
  have hne : ∀ d : Char, d.toNat < 45 ∨ 57 < d.toNat → c ≠ d := by
    rintro d hd rfl
    rcases hc with hdigit | rfl
    · have hcode := Text.isDigit_iff_toNat.mp hdigit
      omega
    · exact absurd hd (by decide)
  have hspace : isSpace c = false := by
    simp [isSpace, hne ' ' (by decide), hne '\n' (by decide), hne '\t' (by decide),
      hne '\r' (by decide)]
  have hkeyword : ∀ d word, d.toNat < 45 ∨ 57 < d.toNat →
      keyword (d :: word) (c :: others) = none := by
    intro d word hd
    simp [keyword, (hne d hd).symm]
  rw [value, skipSpaces_cons hspace]
  split
  · rename_i heq
    cases heq
    exact absurd rfl (hne '"' (by decide))
  · rename_i heq
    cases heq
    exact absurd rfl (hne '[' (by decide))
  · rename_i heq
    cases heq
    exact absurd rfl (hne '\x7b' (by decide))
  · have hnull : keyword "null".toList (c :: others) = none := hkeyword 'n' _ (by decide)
    have htrue : keyword "true".toList (c :: others) = none := hkeyword 't' _ (by decide)
    have hfalse : keyword "false".toList (c :: others) = none := hkeyword 'f' _ (by decide)
    rw [hnull, htrue, hfalse]

/-- With so many rounds, values are read back whose texts have no more characters. -/
def ReadsValues (rounds : Nat) : Prop :=
  ∀ level json rest, Written json → Ends rest → (spell layout level json).length ≤ rounds →
    value rounds (spell layout level json ++ rest) = some (json, rest)

/-- With so many rounds, lists of items are read back whose texts have no more characters. -/
def ReadsItems (rounds : Nat) : Prop :=
  ∀ level item list blank rest, Written item → WrittenItems list → IsBlank blank →
    (spell layout (level + 1) item ++ spellItems layout level list).length ≤ rounds →
    items rounds
      (blank ++ (spell layout (level + 1) item ++ (spellItems layout level list ++ rest))) =
      some (item :: list, rest)

/-- With so many rounds, lists of members are read back whose texts have no more characters. -/
def ReadsMembers (rounds : Nat) : Prop :=
  ∀ level name json list blank rest, Written json → WrittenMembers list → IsBlank blank →
    (spell layout (level + 1) json ++ spellMembers layout level list).length ≤ rounds →
    members rounds (blank ++ (quote name ++ ':' :: (layout.gap ++
      (spell layout (level + 1) json ++ (spellMembers layout level list ++ rest))))) =
        some (some ((name, json) :: list), rest)

variable {layout}

lemma readsItems_succ (hvalues : ReadsValues layout rounds) (hitems : ReadsItems layout rounds) :
    ReadsItems layout (rounds + 1) := by
  intro level item list blank rest hitem hlist hblank hlength
  rw [List.length_append] at hlength
  have hpos : 0 < (spellItems layout level list).length := by
    cases list <;> simp [spellItems]
  have hvalue :=
    hvalues (level + 1) item _ hitem (ends_spellItems layout level list rest) (by omega)
  rw [items, value_blank_append hblank, hvalue]
  cases list with
  | nil =>
      rw [spellItems, List.append_assoc]
      simp only [skipSpaces_append (layout.isBlank_lineBreak level)]
      rfl
  | cons next list =>
      obtain ⟨hnext, hlist⟩ := hlist
      have hothers :=
        hitems level next list _ rest hnext hlist (layout.isBlank_lineBreak (level + 1)) (by
        rw [spellItems] at hlength
        simp only [List.length_cons, List.length_append] at hlength ⊢
        omega)
      simp only [spellItems, List.cons_append, List.append_assoc,
        skipSpaces_cons (c := ',') (by decide), hothers]

lemma readsMembers_succ (hvalues : ReadsValues layout rounds)
    (hmembers : ReadsMembers layout rounds) :
    ReadsMembers layout (rounds + 1) := by
  intro level name json list blank rest hjson hlist hblank hlength
  rw [List.length_append] at hlength
  have hpos : 0 < (spellMembers layout level list).length := by
    cases list <;> simp [spellMembers]
  have hvalue :=
    hvalues (level + 1) json _ hjson (ends_spellMembers layout level list rest) (by omega)
  have hname := stringBody_escaped name (':' :: (layout.gap ++
    (spell layout (level + 1) json ++ (spellMembers layout level list ++ rest))))
  rw [members, skipSpaces_append hblank, quote]
  simp only [List.cons_append, List.append_assoc, List.nil_append,
    skipSpaces_cons (c := '"') (by decide), hname, skipSpaces_cons (c := ':') (by decide),
    value_blank_append layout.isBlank_gap, hvalue]
  cases list with
  | nil =>
      simp only [spellMembers, List.append_assoc,
        skipSpaces_append (layout.isBlank_lineBreak level)]
      rfl
  | cons next list =>
      obtain ⟨other, next⟩ := next
      obtain ⟨hnext, hlist⟩ := hlist
      have hothers :=
        hmembers level other next list _ rest hnext hlist (layout.isBlank_lineBreak (level + 1)) (by
        rw [spellMembers] at hlength
        simp only [List.length_cons, List.length_append] at hlength ⊢
        omega)
      simp only [spellMembers, List.cons_append, List.append_assoc,
        skipSpaces_cons (c := ',') (by decide), hothers]
      rfl

lemma readsValues_succ (hitems : ReadsItems layout rounds) (hmembers : ReadsMembers layout rounds) :
    ReadsValues layout (rounds + 1) := by
  intro level json rest hjson hends hlength
  match json with
  | .null => rfl
  | .bool true => rfl
  | .bool false => rfl
  | .int number =>
      obtain ⟨c, others, hprint, hc⟩ := exists_printInt_eq_cons number
      rw [spell, hprint, List.cons_append, value_eq_number hc, ← List.cons_append, ← hprint,
        number_printInt number hends]
  | .string text =>
      have htext := stringBody_escaped text rest
      rw [value, spell, quote]
      simp only [List.cons_append, List.append_assoc, List.nil_append,
        skipSpaces_cons (c := '"') (by decide), htext]
  | .array [] => rfl
  | .array (item :: list) =>
      obtain ⟨hitem, hlist⟩ := hjson
      rw [spell, List.length_cons, List.length_append] at hlength
      have hlist := hitems level item list [] rest hitem hlist (by simp [IsBlank]) (by omega)
      -- The item begins with something other than the bracket that would close an empty array.
      obtain ⟨c, others, hfirst, hspace, hclose⟩ := exists_spell_eq_cons layout (level + 1) hitem
      rw [value, spell]
      simp only [List.cons_append, List.append_assoc, List.nil_append,
        skipSpaces_cons (c := '[') (by decide),
        skipSpaces_append (layout.isBlank_lineBreak (level + 1)), hfirst,
        skipSpaces_cons hspace] at hlist ⊢
      split
      · rename_i heq
        cases heq
        exact absurd rfl hclose
      · rw [hlist]
  | .object [] => rfl
  | .object ((name, member) :: list) =>
      obtain ⟨hmember, hlist⟩ := hjson
      rw [spell] at hlength
      simp only [List.length_cons, List.length_append] at hlength
      have hlist := hmembers level name member list [] rest hmember hlist (by simp [IsBlank]) (by
        rw [List.length_append]
        omega)
      rw [value, spell]
      simp only [quote, List.cons_append, List.append_assoc, List.nil_append,
        skipSpaces_cons (c := '\x7b') (by decide),
        skipSpaces_append (layout.isBlank_lineBreak (level + 1)), skipSpaces_cons (c := '"')
        (by decide)] at hlist ⊢
      split
      · rename_i heq
        exact absurd (List.cons.inj heq).1 (by decide)
      · rw [hlist]
  | .decimal _ => exact absurd hjson (by simp [Written])
  | .unreadable => exact absurd hjson (by simp [Written])

/-- Whatever the blanks, a text is read back in as many rounds as it has characters. -/
lemma reads_rounds (layout : Layout) (rounds : Nat) :
    ReadsValues layout rounds ∧ ReadsItems layout rounds ∧ ReadsMembers layout rounds := by
  induction rounds with
  | zero =>
      refine ⟨?_, ?_, ?_⟩
      · intro level json rest hjson hends hlength
        obtain ⟨c, others, hfirst, -⟩ := exists_spell_eq_cons layout level hjson
        simp [hfirst] at hlength
      · intro level item list blank rest hitem hlist hblank hlength
        obtain ⟨c, others, hfirst, -⟩ := exists_spell_eq_cons layout (level + 1) hitem
        simp [hfirst] at hlength
      · intro level name json list blank rest hjson hlist hblank hlength
        obtain ⟨c, others, hfirst, -⟩ := exists_spell_eq_cons layout (level + 1) hjson
        simp [hfirst] at hlength
  | succ rounds ih =>
      obtain ⟨hvalues, hitems, hmembers⟩ := ih
      exact ⟨readsValues_succ hitems hmembers, readsItems_succ hvalues hitems,
        readsMembers_succ hvalues hmembers⟩

lemma parse?_spell (layout : Layout) {json : Json} (h : json.Written) :
    parse? (String.ofList (spell layout 0 json)) = some json := by
  have hvalue := (reads_rounds layout (2 * (spell layout 0 json).length + 2)).1 0 json
      [] h ends_nil (by omega)
  rw [List.append_nil] at hvalue
  simp only [parse?, String.toList_ofList, hvalue]
  rfl

/-- The compact text of a value is read back as the value. -/
lemma parse?_compact {json : Json} (h : json.Written) : parse? json.compact = some json := by
  rw [compact, ← spell_compact 0, parse?_spell _ h]

/-- The indented text of a value is read back as the value. -/
lemma parse?_pretty {json : Json} (h : json.Written) : parse? json.pretty = some json := by
  rw [pretty, ← spell_indented, parse?_spell _ h]

/-! ## Compact texts stand on one line -/

lemma not_mem_escapeChar (c : Char) : '\n' ∉ escapeChar c := by
  have hhex : ∀ unit < 0x20, '\n' ∉ Bytes.hexNumber 4 unit := by decide
  unfold escapeChar
  split_ifs with _ _ _ _ hbreak _ _ hcontrol
  all_goals try decide
  · have hdigits := hhex c.toNat hcontrol
    simp [hdigits]
  · rw [List.mem_singleton]
    rintro rfl
    exact hbreak rfl

lemma not_mem_quote (text : String) : '\n' ∉ quote text := by
  simp [quote, not_mem_escapeChar]

lemma not_mem_printInt (value : Int) : '\n' ∉ printInt value := by
  have hdigits : ∀ n, '\n' ∉ Nat.toDigits 10 n := by
    intro n hmem
    exact absurd (Text.isDigit_of_mem_toDigits hmem) (by decide)
  unfold printInt
  split <;> simp [hdigits]

mutual

/-- No line break stands in the compact text of a value. -/
lemma not_mem_print : (json : Json) → json.Written → '\n' ∉ print json
  | .null, _ | .bool true, _ | .bool false, _ | .array [], _ | .object [], _ => by simp [print]
  | .int value, _ => by simp [print, not_mem_printInt]
  | .string text, _ => by simp [print, not_mem_quote]
  | .array (item :: items), h => by
      simp [print, not_mem_print item h.1, not_mem_printItems items h.2]
  | .object ((name, value) :: members), h => by
    simp [print, not_mem_quote, not_mem_print value h.1, not_mem_printMembers members h.2]

lemma not_mem_printItems : (items : List Json) → WrittenItems items → '\n' ∉ printItems items
  | [], _ => by simp [printItems]
  | item :: items, h => by simp [printItems, not_mem_print item h.1, not_mem_printItems items h.2]

lemma not_mem_printMembers :
    (members : List (String × Json)) → WrittenMembers members → '\n' ∉ printMembers members
  | [], _ => by simp [printMembers]
  | (name, value) :: members, h => by
    simp [printMembers, not_mem_quote, not_mem_print value h.1, not_mem_printMembers members h.2]

end

end JarFacts.Json
