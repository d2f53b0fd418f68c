import Mathlib.Tactic.Common
import JarFacts.Proofs.Storage.Trial
import JarFacts.Sink.Lines

/-!
# What channels write

A channel has taken some bytes: those that stand in its file, and behind them those it has collected
(`Holds`).  Every step of a channel, also one that fails, leaves it so, with more bytes taken, and
touches no other file (`Takes`).  A piece is taken as a whole or not at all; pieces are taken up to
the first that is refused.
-/

namespace JarFacts

namespace Volume

variable {within within' : List String → Prop} {volume other third : Volume} {place : List String}
  {path : String}

/-- The second volume is the first with other contents of some files, all of them in certain
places. -/
def Rewrites (within : List String → Prop) (volume other : Volume) : Prop :=
  other.workingDirectory = volume.workingDirectory ∧
    ∀ place, other.node? place = volume.node? place ∨
      within place ∧ (volume.fileAt? place).isSome = true ∧ (other.fileAt? place).isSome = true

lemma Rewrites.refl (volume : Volume) : Rewrites within volume volume :=
  ⟨rfl, fun _ => .inl rfl⟩

lemma Rewrites.trans (h : Rewrites within volume other) (h' : Rewrites within other third) :
    Rewrites within volume third := by
  refine ⟨h'.1.trans h.1, fun place => ?_⟩
  rcases h.2 place with hsame | ⟨hwithin, hbefore, hafter⟩
  · rcases h'.2 place with hsame' | ⟨hwithin, hbefore, hafter⟩
    · exact .inl (hsame'.trans hsame)
    · rw [fileAt?_congr hsame] at hbefore
      exact .inr ⟨hwithin, hbefore, hafter⟩
  · rcases h'.2 place with hsame' | ⟨-, -, hafter'⟩
    · rw [← fileAt?_congr hsame'] at hafter
      exact .inr ⟨hwithin, hbefore, hafter⟩
    · exact .inr ⟨hwithin, hbefore, hafter'⟩

lemma Rewrites.mono (hwithin : ∀ place, within place → within' place)
    (h : Rewrites within volume other) :
    Rewrites within' volume other :=
  ⟨h.1, fun place => (h.2 place).imp_right fun hplace => ⟨hwithin place hplace.1, hplace.2⟩⟩

lemma Rewrites.node?_eq (h : Rewrites within volume other) (hplace : ¬within place) :
    other.node? place = volume.node? place :=
  (h.2 place).resolve_right fun hwithin => hplace hwithin.1

lemma Rewrites.fileAt?_eq (h : Rewrites within volume other) (hplace : ¬within place) :
    other.fileAt? place = volume.fileAt? place :=
  fileAt?_congr (h.node?_eq hplace)

lemma Rewrites.sparesDirectories (h : Rewrites within volume other) :
    SparesDirectories volume other := by
  refine ⟨h.1, fun place hplace => ?_⟩
  rcases h.2 place with hsame | ⟨-, hbefore, -⟩
  · rw [hsame, hplace]
  · rw [fileAt?, hplace] at hbefore
    cases hbefore

lemma Rewrites.landing (h : Rewrites within volume other) (path : String) :
    other.landing path = volume.landing path :=
  h.sparesDirectories.landing path

lemma Writes.rewrites {old new : Bytes} (h : Writes volume path (some (.file new)) other)
    (hold : volume.fileAt? (volume.landing path) = some old) :
      Rewrites (· = volume.landing path) volume other := by
  refine ⟨h.changes.1, fun place => ?_⟩
  by_cases hplace : place = volume.landing path
  · subst hplace
    have hnew : other.fileAt? (volume.landing path) = some new :=
      fileAt?_eq_some.mpr h.changes.node?_self
    exact .inr ⟨rfl, by rw [hold]; rfl, by rw [hnew]; rfl⟩
  · exact .inl (h.changes.node?_of_ne hplace)

lemma overlay_length (content bytes : Bytes) :
    overlay content content.length bytes = content ++ bytes := by
  simp [overlay]

end Volume

namespace LineChannel

open Watched

variable {δ : Type} [Storage δ] [Watched δ] {channel : LineChannel} {storage : δ} {taken : Bytes}
  {volume other : Volume}

/-- The file of the channel has a content, and the channel knows how long it is. -/
structure Stands (channel : LineChannel) (content : Bytes) (volume : Volume) : Prop where
  file : volume.fileAt? (volume.landing channel.path) = some content
  written : channel.written = content.length

/-- The channel has taken the bytes: they stand in its file, and behind that in what it has
collected. -/
def Holds (channel : LineChannel) (taken : Bytes) (volume : Volume) : Prop :=
  ∃ content, channel.Stands content volume ∧ taken = content ++ channel.pending.toList

/-- What other files are rewritten to does not matter to the channel. -/
lemma Holds.of_rewrites {within : List String → Prop} (h : channel.Holds taken volume)
    (hrewrites : volume.Rewrites within other) (hplace : ¬within (volume.landing channel.path)) :
    channel.Holds taken other := by
  obtain ⟨content, ⟨hfile, hwritten⟩, htaken⟩ := h
  refine ⟨content, ⟨?_, hwritten⟩, htaken⟩
  rw [hrewrites.landing, hrewrites.fileAt?_eq hplace, hfile]

/-- From one store to another, at most the file of the channel has been rewritten. -/
abbrev Spares (channel : LineChannel) (storage other : δ) : Prop :=
  Leads (Volume.Rewrites (· = (shown storage).landing channel.path)) storage other

/-- A step of the channel, after which it has taken the bytes, and before which it may have taken
fewer. -/
structure Takes (channel : LineChannel) (storage : δ) (taken : Bytes) (channel' : LineChannel)
    (storage' : δ) :
    Prop where
  path : channel'.path = channel.path
  holds : channel'.Holds taken (shown storage')
  spares : channel.Spares storage storage'

lemma Takes.refl (h : channel.Holds taken (shown storage)) :
    channel.Takes storage taken channel storage :=
  ⟨rfl, h, .refl Volume.Rewrites.refl storage⟩

lemma Takes.trans {channel' channel'' : LineChannel} {storage' storage'' : δ} {taken' : Bytes}
    (h : channel.Takes storage taken channel' storage')
    (h' : channel'.Takes storage' taken' channel'' storage'') :
    channel.Takes storage taken' channel'' storage'' := by
  refine ⟨h'.path.trans h.path, h'.holds, h.spares.trans Volume.Rewrites.trans ?_⟩
  have hspares := h'.spares
  rwa [Spares, h.path, h.spares.1.landing] at hspares

/-- Bytes are written behind those in the file, or nothing happens. -/
lemma writeOut_cases {content : Bytes} (h : channel.Stands content (shown storage))
    (bytes : Bytes) :
    ∃ result channel' storage', channel.writeOut bytes storage = (result, channel', storage') ∧
      channel.Spares storage storage' ∧
      (result = .ok () ∧ channel' = { channel with written := channel.written + bytes.length } ∧
          channel'.Stands (content ++ bytes) (shown storage') ∨
        result ≠ .ok () ∧ channel' = channel ∧ channel.Stands content (shown storage')) := by
  obtain ⟨hfile, hwritten⟩ := h
  generalize hperform :
    Storage.perform (.writeAt channel.path channel.written bytes) storage = outcome
  have hcases := perform_writeAt channel.path channel.written bytes storage
  have hleads : Volume.Rewrites (· = (shown storage).landing channel.path) (shown storage)
      (shown (Storage.perform (.writeAt channel.path channel.written bytes) storage).2) →
        channel.Spares storage
          (Storage.perform (.writeAt channel.path channel.written bytes) storage).2 := leads_perform
  rw [hperform] at hcases hleads
  obtain ⟨result, storage'⟩ := outcome
  rcases hcases with ⟨hok, content', hfile', hwrites⟩ | ⟨fault, hfault, hshown⟩
  · dsimp only at hok hwrites hleads
    subst hok
    rw [hfile] at hfile'
    cases hfile'
    rw [hwritten, Volume.overlay_length] at hwrites
    have hrewrites := hwrites.rewrites hfile
    refine ⟨.ok (), _, storage', by simp only [writeOut, hperform], hleads hrewrites,
      .inl ⟨rfl, rfl, ?_, ?_⟩⟩
    · rw [hrewrites.landing]
      exact Volume.fileAt?_eq_some.mpr hwrites.changes.node?_self
    · simp [hwritten]
  · dsimp only at hfault hshown hleads
    subst hfault
    refine ⟨.error (.io channel.path fault), channel,
      storage', by simp only [writeOut, hperform], hleads ?_, .inr ⟨by simp, rfl, ?_, hwritten⟩⟩
    · rw [hshown]
      exact .refl _
    · rw [hshown, hfile]

/-- Whatever has been taken, a flush writes to the channel's file only. -/
lemma flush_spares (channel : LineChannel) (storage : δ) :
    channel.Spares storage (channel.flush storage).2.2 := by
  have hstorage : (channel.flush storage).2.2 = if channel.pending.isEmpty then storage
      else (Storage.perform (.writeAt channel.path channel.written channel.pending.toList)
        storage).2 := by
    unfold flush writeOut
    split
    · rfl
    · rcases Storage.perform (.writeAt channel.path channel.written channel.pending.toList) storage
        with ⟨_ | _, _⟩ <;> rfl
  rw [hstorage]
  split
  · exact .refl Volume.Rewrites.refl storage
  · refine leads_perform ?_
    rcases perform_writeAt channel.path channel.written channel.pending.toList storage with
      ⟨-, content, hfile, hwrites⟩ | ⟨fault, -, hshown⟩
    · exact hwrites.rewrites hfile
    · rw [hshown]
      exact .refl _

/-- A channel has taken one thing at a time. -/
lemma Holds.unique {taken' : Bytes} (h : channel.Holds taken volume)
    (h' : channel.Holds taken' volume) : taken = taken' := by
  obtain ⟨content, hstands, rfl⟩ := h
  obtain ⟨content', hstands', rfl⟩ := h'
  have hcontent : some content = some content' := hstands.file.symm.trans hstands'.file
  rw [Option.some_inj.mp hcontent]

/-- A flush keeps what has been taken; if it succeeds, everything stands in the file. -/
lemma flush_cases (h : channel.Holds taken (shown storage)) :
    ∃ result channel' storage', channel.flush storage = (result, channel', storage') ∧
      channel.Takes storage taken channel' storage' ∧
      (result = .ok () → channel'.pending = #[] ∧ channel'.Stands taken (shown storage')) := by
  obtain ⟨content, hstands, rfl⟩ := h
  by_cases hempty : channel.pending = #[]
  · have htaken : content ++ channel.pending.toList = content := by simp [hempty]
    refine ⟨.ok (), channel, storage, by simp [flush, hempty], .refl ⟨content, hstands, rfl⟩,
      fun _ => ⟨hempty, ?_⟩⟩
    rwa [htaken]
  · have hpending : channel.pending.isEmpty = false := by simp [hempty]
    obtain ⟨result, channel', storage', hwrite, hspares, hcases⟩ :=
      writeOut_cases hstands channel.pending.toList
    rw [flush, if_neg (by simp [hpending]), hwrite]
    rcases hcases with ⟨rfl, rfl, hstands'⟩ | ⟨hresult, rfl, hstands'⟩
    · refine ⟨.ok (), _, storage', rfl,
        ⟨rfl, ⟨_, ⟨hstands'.file, hstands'.written⟩, by simp⟩, hspares⟩,
        fun _ => ⟨rfl, hstands'.file, hstands'.written⟩⟩
    · cases result with
      | ok _ => exact absurd rfl hresult
      | error error =>
          exact ⟨.error error, channel', storage', rfl,
            ⟨rfl, ⟨content, hstands', rfl⟩, hspares⟩, by simp⟩

/-- Making room keeps what has been taken. -/
lemma makeRoom_cases (h : channel.Holds taken (shown storage)) (count : Nat) :
    ∃ result channel' storage', channel.makeRoom count storage = (result, channel', storage') ∧
      channel.Takes storage taken channel' storage' ∧
      (result = .ok () → channel'.pending.size + count ≤ capacity ∨ channel'.pending = #[]) := by
  by_cases hfits : channel.pending.size + count ≤ capacity
  · exact ⟨.ok (), channel, storage, by rw [makeRoom, if_pos hfits], .refl h, fun _ => .inl hfits⟩
  · obtain ⟨result, channel', storage', hflush, htakes, hok⟩ := flush_cases h
    exact ⟨result, channel', storage', by rw [makeRoom, if_neg hfits, hflush],
      htakes, fun hresult =>
      .inr (hok hresult).1⟩

/-- A piece is taken as a whole or not at all. -/
lemma append_cases (h : channel.Holds taken (shown storage)) (bytes : Bytes) :
    ∃ result channel' storage', channel.append bytes storage = (result, channel', storage') ∧
      channel.Takes storage (if result = .ok () then taken ++ bytes else taken)
        channel' storage' := by
  obtain ⟨result, channel', storage', hroom, htakes, hempty⟩ := makeRoom_cases h bytes.length
  rw [append, hroom]
  cases result with
  | error error => exact ⟨.error error, channel', storage', rfl, by simpa using htakes⟩
  | ok _ =>
      dsimp only
      by_cases hsmall : bytes.length < capacity
      · rw [if_pos hsmall]
        refine ⟨.ok (), _, storage', rfl, htakes.path, ?_, htakes.spares⟩
        obtain ⟨content, hstands, rfl⟩ := htakes.holds
        exact ⟨content, ⟨hstands.file, hstands.written⟩, by simp⟩
      · rw [if_neg hsmall]
        -- A piece as large as all that can be collected goes to the file; what was collected before
        -- stands there already.
        have hpending : channel'.pending = #[] := by
          rcases hempty rfl with hfits | hempty
          · have hsize : channel'.pending.size = 0 := by omega
            exact Array.size_eq_zero_iff.mp hsize
          · exact hempty
        obtain ⟨content, hstands, rfl⟩ := htakes.holds
        rw [hpending, Array.toList_empty, List.append_nil] at htakes ⊢
        obtain ⟨result, channel'', storage'', hwrite, hspares, hcases⟩ :=
          writeOut_cases hstands bytes
        refine ⟨result, channel'', storage'', hwrite, htakes.trans ?_⟩
        rcases hcases with ⟨rfl, rfl, hstands'⟩ | ⟨hresult, rfl, hstands'⟩
        · rw [if_pos rfl]
          exact ⟨rfl, ⟨content ++ bytes, hstands', by simp [hpending]⟩, hspares⟩
        · rw [if_neg hresult]
          exact ⟨rfl, ⟨content, hstands', by simp [hpending]⟩, hspares⟩

/-- Pieces are taken up to the first that is refused. -/
lemma appendAll_cases (h : channel.Holds taken (shown storage)) (pieces : List Bytes) :
    ∃ result channel' storage', channel.appendAll pieces storage = (result, channel', storage') ∧
      ∃ kept, kept <+: pieces.flatten ∧ (result = .ok () → kept = pieces.flatten) ∧
        channel.Takes storage (taken ++ kept) channel' storage' := by
  induction pieces generalizing channel storage taken with
  | nil =>
      refine ⟨.ok (), channel, storage, rfl, [], List.nil_prefix, fun _ => rfl, ?_⟩
      rw [List.append_nil]
      exact .refl h
  | cons piece pieces ih =>
      obtain ⟨result, channel', storage', happend, htakes⟩ := append_cases h piece
      rw [appendAll, happend]
      cases result with
      | error error =>
          refine ⟨.error error, channel', storage', rfl, [], List.nil_prefix, by simp, ?_⟩
          simpa using htakes
      | ok _ =>
          rw [if_pos rfl] at htakes
          obtain ⟨result, channel'', storage'', hall, kept, hprefix, hkept, htakes'⟩ :=
            ih htakes.holds
          refine ⟨result, channel'', storage'', hall, piece ++ kept, ?_, ?_, ?_⟩
          · rw [List.flatten_cons, List.prefix_append_right_inj]
            exact hprefix
          · intro hresult
            rw [List.flatten_cons, hkept hresult]
          · rw [← List.append_assoc]
            exact htakes.trans htakes'

end LineChannel

end JarFacts
