import Mathlib.Data.List.Forall2
import Mathlib.Data.List.ReduceOption
import Mathlib.Data.List.TakeDrop
import ManuscriptReach.Proofs.FirstFault
import ManuscriptReach.Proofs.Pieces
import ManuscriptReach.Registry

/-!
# Which registries are read

`Registry.Reads` states what a line says on its own: nothing, or an entry.  `Registry.Faulty`
states what is wrong with a line that follows entries with given ids.  Both speak of the
characters of the line, not of how they are scanned.

`Registry.Accepts` and `Registry.Blames` say the same of all lines.  A registry is accepted
when every line says something and the ids are pairwise different; otherwise the first
line with a fault is blamed, whatever comes after it (`Registry.read_firstFault`).
-/

namespace ManuscriptReach

namespace Registry

/-! ## Single lines -/

/-- A text is blank, or begins with `#` when it has been trimmed. -/
def Skipped (text : String) : Prop :=
  ∃ core, Trimmed isBlank text.toList core ∧ ∀ c ∈ core.head?, c = '#'

/-- Every character of a text is blank. -/
def Blank (text : String) : Prop := ∀ c ∈ text.toList, isBlank c = true

/-- A text spells an entry. -/
inductive Spells : RegistryFormat → String → Entry → Prop
  /-- The trimmed text is the JSON of the entry. -/
  | jsonLines {text trimmed : String} {e : Entry} :
    Trimmed isBlank text.toList trimmed.toList → Entry.ofLine? trimmed = some e →
    Spells .jsonLines text e
  /-- The trimmed id comes before the first tab, and the tokens are the runs after it. -/
  | tabbed {text : String} {id tokens : List Char} {e : Entry} :
    text.toList = id ++ '\t' :: tokens → '\t' ∉ id → Trimmed isBlank id e.id.toList →
    Runs isSeparator tokens (e.tokens.map String.toList) → Spells .tabbed text e

/-- What a line says on its own: nothing, or an entry whose id is not blank. -/
inductive Reads (format : RegistryFormat) (line : ByteArray) : Option Entry → Prop
  | skipped {text : String} : text.toUTF8 = line → Skipped text → Reads format line none
  | entry {text : String} {e : Entry} : text.toUTF8 = line → ¬ Skipped text →
    Spells format text e → ¬ Blank e.id → Reads format line (some e)

/-- What is wrong with a line, where `seen` are the ids of earlier entries.  A fault counts when
there is none of those above it. -/
inductive Faulty (format : RegistryFormat) (seen : List String) (line : ByteArray) :
    LineFault → Prop
  | undecodable : (∀ text : String, text.toUTF8 ≠ line) → Faulty format seen line .undecodable
  | invalidJson {text : String} : text.toUTF8 = line → ¬ Skipped text → format = .jsonLines →
    (∀ e, ¬ Spells .jsonLines text e) → Faulty format seen line .invalidJson
  | missingTokens {text : String} : text.toUTF8 = line → ¬ Skipped text → format = .tabbed →
    '\t' ∉ text.toList → Faulty format seen line .missingTokens
  | emptyId {text : String} {e : Entry} : text.toUTF8 = line → ¬ Skipped text →
    Spells format text e → Blank e.id → Faulty format seen line .emptyId
  | duplicateId {text : String} {e : Entry} : text.toUTF8 = line → ¬ Skipped text →
    Spells format text e → ¬ Blank e.id → e.id ∈ seen → Faulty format seen line (.duplicateId e.id)

variable {format : RegistryFormat} {text : String} {e : Entry}

theorem isSkipped_iff : isSkipped text = true ↔ Skipped text := by
  have whole := trimWhere_trimmed isBlank text.toList
  have scan : isSkipped text = true ↔ ∀ c ∈ (text.toList.dropWhile isBlank).head?, c = '#' := by
    unfold isSkipped
    split
    next none => simp [none]
    next c _ some => simp [some]
  rw [scan]
  constructor
  · exact fun h ↦ ⟨_, whole, whole.head?_dropWhile_eq ▸ h⟩
  · rintro ⟨core, trimmed, h⟩
    exact trimmed.head?_dropWhile_eq ▸ h

/-- Before the first tab is the id, after it are the tokens. -/
theorem readTabbed_of_tab {id tokens : List Char} (h : text.toList = id ++ '\t' :: tokens)
    (free : '\t' ∉ id) :
    readTabbed text = .ok ⟨String.ofList (trimWhere isBlank id),
      (runsOutside isSeparator tokens).map String.ofList⟩ := by
  have before : ∀ c ∈ id, (c != '\t') = true := by
    intro c hc
    exact bne_iff_ne.2 fun tab ↦ free (tab ▸ hc)
  have cut : (id ++ '\t' :: tokens).span (· != '\t') = (id, '\t' :: tokens) := by
    rw [List.span_eq_takeWhile_dropWhile, List.takeWhile_append_of_pos before,
      List.dropWhile_append_of_pos before]
    simp
  rw [readTabbed, h, cut]
  rfl

theorem readTabbed_of_not_mem (h : '\t' ∉ text.toList) :
    readTabbed text = .error .missingTokens := by
  have all : ∀ c ∈ text.toList, (c != '\t') = true := by
    intro c hc
    exact bne_iff_ne.2 fun tab ↦ h (tab ▸ hc)
  have cut : text.toList.span (· != '\t') = (text.toList, []) := by
    rw [List.span_eq_takeWhile_dropWhile, List.dropWhile_eq_nil_iff.2 all,
      List.takeWhile_eq_self_iff.2 all]
  rw [readTabbed, cut]

theorem map_ofList_eq_iff {runs : List (List Char)} {tokens : List String} :
    runs.map String.ofList = tokens ↔ runs = tokens.map String.toList := by
  constructor
  · rintro rfl
    simp [List.map_map, Function.comp_def]
  · rintro rfl
    simp [List.map_map, Function.comp_def]

theorem readTabbed_eq_ok_iff : readTabbed text = .ok e ↔ Spells .tabbed text e := by
  constructor
  · intro h
    by_cases tab : '\t' ∈ text.toList
    · obtain ⟨id, tokens, parts, free⟩ := List.eq_append_cons_of_mem tab
      rw [readTabbed_of_tab parts free] at h
      cases h
      refine .tabbed parts free ?_ ?_
      · exact String.toList_ofList ▸ trimWhere_trimmed isBlank id
      · rw [← runsOutside_eq_iff]
        exact map_ofList_eq_iff.1 rfl
    · rw [readTabbed_of_not_mem tab] at h
      cases h
  · intro h
    cases h with
    | tabbed parts free id tokens =>
      rw [readTabbed_of_tab parts free, trimWhere_eq_iff.2 id, tokens.runsOutside_eq,
        map_ofList_eq_iff.2 rfl, String.ofList_toList]

/-- An entry is read from a text exactly when the text spells it. -/
theorem readEntry_eq_ok_iff : readEntry format text = .ok e ↔ Spells format text e := by
  cases format with
  | tabbed => exact readTabbed_eq_ok_iff
  | jsonLines =>
    rw [readEntry]
    constructor
    · intro h
      cases hj : Entry.ofLine? (trimBlanks text) with
      | none =>
        rw [hj] at h
        cases h
      | some e' =>
        rw [hj] at h
        cases h
        refine .jsonLines ?_ hj
        exact String.toList_ofList ▸ trimWhere_trimmed isBlank text.toList
    · intro h
      cases h with
      | jsonLines trimmed hj =>
        rw [trimBlanks, trimWhere_eq_iff.2 trimmed, String.ofList_toList, hj]
        rfl

/-- The only fault of an entry's text is its shape. -/
theorem readEntry_eq_error_iff {fault : LineFault} :
    readEntry format text = .error fault ↔
      (format = .jsonLines ∧ (∀ e, ¬ Spells .jsonLines text e) ∧ fault = .invalidJson) ∨
        (format = .tabbed ∧ '\t' ∉ text.toList ∧ fault = .missingTokens) := by
  cases format with
  | tabbed =>
    rw [readEntry]
    by_cases tab : '\t' ∈ text.toList
    · obtain ⟨id, tokens, parts, free⟩ := List.eq_append_cons_of_mem tab
      simp [readTabbed_of_tab parts free, tab]
    · simp [readTabbed_of_not_mem tab, tab, eq_comm]
  | jsonLines =>
    simp only [← @readEntry_eq_ok_iff .jsonLines]
    rw [readEntry]
    cases Entry.ofLine? (trimBlanks text) with
    | none => simp [eq_comm]
    | some e => simp

section

variable {seen : List String} {id : String}

theorem checkId_of_blank (h : Blank id) : checkId seen id = .error .emptyId :=
  if_pos (List.all_eq_true.2 h)

theorem checkId_of_mem (h : ¬ Blank id) (mem : id ∈ seen) :
    checkId seen id = .error (.duplicateId id) := by
  rw [checkId, if_neg (mt List.all_eq_true.1 h), if_pos mem]

theorem checkId_of_not_mem (h : ¬ Blank id) (mem : id ∉ seen) : checkId seen id = .ok () := by
  rw [checkId, if_neg (mt List.all_eq_true.1 h), if_neg mem]

end

/-! ## A line after other lines -/

/-- Reads the entry of a line, if it has one, and checks its id against those of earlier lines. -/
def readLineAfter (format : RegistryFormat) (seen : List String) (line : ByteArray) :
    Except LineFault (Option Entry) := do
  match ← readLine format line with
  | none => return none
  | some e =>
    checkId seen e.id
    return some e

variable {seen : List String} {line : ByteArray}

theorem readLineAfter_of_skipped (h : Skipped text) :
    readLineAfter format seen text.toUTF8 = .ok none := by
  rw [readLineAfter, readLine, fromUTF8?_toUTF8]
  simp only [isSkipped_iff.2 h, if_true]
  rfl

theorem readLineAfter_of_not_skipped (h : ¬ Skipped text) :
    readLineAfter format seen text.toUTF8 = do
      let e ← readEntry format text
      checkId seen e.id
      return some e := by
  rw [readLineAfter, readLine, fromUTF8?_toUTF8]
  simp only [mt isSkipped_iff.1 h]
  cases readEntry format text <;> rfl

/-- When a line spells an entry, the id of the entry is checked. -/
theorem readLineAfter_of_spells (h : ¬ Skipped text) (spells : Spells format text e) :
    readLineAfter format seen text.toUTF8 = (checkId seen e.id).map fun _ ↦ some e := by
  rw [readLineAfter_of_not_skipped h, readEntry_eq_ok_iff.2 spells]
  change (checkId seen e.id >>= fun _ ↦ pure (some e)) = _
  cases checkId seen e.id <;> rfl

/-- A line that says nothing, or an entry with a new id, passes. -/
theorem readLineAfter_of_reads {r : Option Entry} (h : Reads format line r)
    (new : ∀ e ∈ r, e.id ∉ seen) : readLineAfter format seen line = .ok r := by
  cases h with
  | skipped bytes skipped =>
    obtain rfl := bytes
    exact readLineAfter_of_skipped skipped
  | entry bytes skipped spells blank =>
    obtain rfl := bytes
    rw [readLineAfter_of_spells skipped spells, checkId_of_not_mem blank (new _ rfl)]
    rfl

/-- A faulty line fails with its fault. -/
theorem readLineAfter_of_faulty {fault : LineFault} (h : Faulty format seen line fault) :
    readLineAfter format seen line = .error fault := by
  cases h with
  | undecodable none =>
    have hu : String.fromUTF8? line = .none := by
      cases h : String.fromUTF8? line with
      | none => rfl
      | some text => exact absurd (toUTF8_eq_of_fromUTF8? h) (none text)
    rw [readLineAfter, readLine, hu]
    rfl
  | invalidJson bytes skipped hf shape =>
    obtain rfl := bytes
    rw [readLineAfter_of_not_skipped skipped,
      readEntry_eq_error_iff.2 (.inl ⟨hf, shape, rfl⟩)]
    rfl
  | missingTokens bytes skipped hf shape =>
    obtain rfl := bytes
    rw [readLineAfter_of_not_skipped skipped,
      readEntry_eq_error_iff.2 (.inr ⟨hf, shape, rfl⟩)]
    rfl
  | emptyId bytes skipped spells blank =>
    obtain rfl := bytes
    rw [readLineAfter_of_spells skipped spells, checkId_of_blank blank]
    rfl
  | duplicateId bytes skipped spells blank mem =>
    obtain rfl := bytes
    rw [readLineAfter_of_spells skipped spells, checkId_of_mem blank mem]
    rfl

/-- A line says nothing, or an entry whose id is new, or it is faulty. -/
theorem reads_or_faulty (format : RegistryFormat) (seen : List String) (line : ByteArray) :
    (∃ r, Reads format line r ∧ ∀ e ∈ r, e.id ∉ seen) ∨
      ∃ fault, Faulty format seen line fault := by
  by_cases decodable : ∀ text : String, text.toUTF8 ≠ line
  · exact .inr ⟨_, .undecodable decodable⟩
  obtain ⟨text, rfl⟩ := not_forall_not.1 decodable
  by_cases skipped : Skipped text
  · exact .inl ⟨none, .skipped rfl skipped, by simp⟩
  cases he : readEntry format text with
  | error fault =>
    rcases readEntry_eq_error_iff.1 he with ⟨hf, shape, -⟩ | ⟨hf, shape, -⟩
    · exact .inr ⟨_, .invalidJson rfl skipped hf shape⟩
    · exact .inr ⟨_, .missingTokens rfl skipped hf shape⟩
  | ok e =>
    have spells := readEntry_eq_ok_iff.1 he
    by_cases blank : Blank e.id
    · exact .inr ⟨_, .emptyId rfl skipped spells blank⟩
    by_cases mem : e.id ∈ seen
    · exact .inr ⟨_, .duplicateId rfl skipped spells blank mem⟩
    · exact .inl ⟨some e, .entry rfl skipped spells blank, by simpa using mem⟩

theorem readLineAfter_eq_ok_iff {r : Option Entry} :
    readLineAfter format seen line = .ok r ↔ Reads format line r ∧ ∀ e ∈ r, e.id ∉ seen := by
  constructor
  · intro h
    rcases reads_or_faulty format seen line with ⟨r', reads, new⟩ | ⟨fault, faulty⟩
    · rw [readLineAfter_of_reads reads new] at h
      cases h
      exact ⟨reads, new⟩
    · rw [readLineAfter_of_faulty faulty] at h
      cases h
  · exact fun h ↦ readLineAfter_of_reads h.1 h.2

theorem readLineAfter_eq_error_iff {fault : LineFault} :
    readLineAfter format seen line = .error fault ↔ Faulty format seen line fault := by
  constructor
  · intro h
    rcases reads_or_faulty format seen line with ⟨r, reads, new⟩ | ⟨fault', faulty⟩
    · rw [readLineAfter_of_reads reads new] at h
      cases h
    · rw [readLineAfter_of_faulty faulty] at h
      cases h
      exact faulty
  · exact readLineAfter_of_faulty

/-! ## All lines -/

/-- Every line says something, the entries are what the lines say, in their order, and no two have
one id. -/
structure Accepts (format : RegistryFormat) (lines : List ByteArray) (entries : List Entry) :
    Prop where
  readings : ∃ readings, List.Forall₂ (Reads format) lines readings ∧
    readings.reduceOption = entries
  nodup : (entries.map Entry.id).Nodup

/-- The lines up to the one blamed are accepted, and this line is faulty after their entries.  Its
number counts every line. -/
def Blames (format : RegistryFormat) (lines : List ByteArray) (f : RegistryFault) : Prop :=
  ∃ before line after entries, lines = before ++ line :: after ∧ Accepts format before entries ∧
    Faulty format (entries.map Entry.id) line f.fault ∧ f.line = before.length + 1

variable {number : Nat} {lines : List ByteArray} {entries : List Entry}

/-- One line is read, and then the others. -/
theorem readLines_cons (format : RegistryFormat) (seen : List String) (number : Nat)
    (line : ByteArray) (lines : List ByteArray) :
    readLines format seen number (line :: lines) =
      match readLineAfter format seen line with
      | .error fault => .error ⟨number, fault⟩
      | .ok none => readLines format seen (number + 1) lines
      | .ok (some e) => (readLines format (e.id :: seen) (number + 1) lines).map (e :: ·) := by
  rw [readLines, readLineAfter]
  rcases readLine format line with fault | _ | e
  · rfl
  · rfl
  · cases hc : checkId seen e.id <;> simp [hc, bind, Except.bind, pure, Except.pure]

theorem accepts_nil_iff : Accepts format [] entries ↔ entries = [] := by
  constructor
  · rintro ⟨⟨readings, reads, rfl⟩, -⟩
    cases reads
    rfl
  · rintro rfl
    exact ⟨⟨[], .nil, rfl⟩, List.nodup_nil⟩

/-- The first of some accepted lines says nothing, or the first entry. -/
theorem accepts_cons_iff :
    Accepts format (line :: lines) entries ↔
      (Reads format line none ∧ Accepts format lines entries) ∨
        ∃ e es, entries = e :: es ∧ Reads format line (some e) ∧ Accepts format lines es ∧
          ∀ e' ∈ es, e'.id ≠ e.id := by
  constructor
  · rintro ⟨⟨readings, reads, rfl⟩, nodup⟩
    cases reads with
    | @cons _ r _ rs first rest =>
      cases r with
      | none => exact .inl ⟨first, ⟨rs, rest, rfl⟩, nodup⟩
      | some e =>
        rw [List.reduceOption_cons_of_some, List.map_cons, List.nodup_cons] at nodup
        refine .inr ⟨e, rs.reduceOption, rfl, first, ⟨⟨rs, rest, rfl⟩, nodup.2⟩, ?_⟩
        intro e' he' same
        exact nodup.1 (same ▸ List.mem_map_of_mem he')
  · rintro (⟨first, ⟨rs, rest, rfl⟩, nodup⟩ | ⟨e, es, rfl, first, ⟨⟨rs, rest, rfl⟩, nodup⟩, new⟩)
    · exact ⟨⟨none :: rs, .cons first rest, rfl⟩, nodup⟩
    · refine ⟨⟨some e :: rs, .cons first rest, rfl⟩, ?_⟩
      rw [List.map_cons, List.nodup_cons, List.mem_map]
      exact ⟨fun ⟨e', he', same⟩ ↦ new e' he' same, nodup⟩

/-- The first of some accepted lines passes on its own, and the ids of the others are new to it. -/
theorem accepts_cons_after_iff :
    (Accepts format (line :: lines) entries ∧ ∀ e ∈ entries, e.id ∉ seen) ↔
      (readLineAfter format seen line = .ok none ∧
          Accepts format lines entries ∧ ∀ e ∈ entries, e.id ∉ seen) ∨
        ∃ e es, readLineAfter format seen line = .ok (some e) ∧
          (Accepts format lines es ∧ ∀ e' ∈ es, e'.id ∉ e.id :: seen) ∧ e :: es = entries := by
  rw [accepts_cons_iff]
  simp only [readLineAfter_eq_ok_iff, List.mem_cons, not_or]
  constructor
  · rintro ⟨⟨first, rest⟩ | ⟨e, es, rfl, first, rest, new⟩, fresh⟩
    · exact .inl ⟨⟨first, by simp⟩, rest, fresh⟩
    · rw [List.forall_mem_cons] at fresh
      exact .inr ⟨e, es, ⟨first, by simpa using fresh.1⟩,
        ⟨rest, fun e' he' ↦ ⟨new e' he', fresh.2 e' he'⟩⟩, rfl⟩
  · rintro (⟨⟨first, -⟩, rest, fresh⟩ | ⟨e, es, ⟨first, new⟩, ⟨rest, fresh⟩, rfl⟩)
    · exact ⟨.inl ⟨first, rest⟩, fresh⟩
    · refine ⟨.inr ⟨e, es, rfl, first, rest, fun e' he' ↦ (fresh e' he').1⟩, ?_⟩
      rw [List.forall_mem_cons]
      exact ⟨new e rfl, fun e' he' ↦ (fresh e' he').2⟩

/-- Lines are read without fault when they are accepted and no entry has an id seen before. -/
theorem readLines_eq_ok_iff :
    readLines format seen number lines = .ok entries ↔
      Accepts format lines entries ∧ ∀ e ∈ entries, e.id ∉ seen := by
  induction lines generalizing seen number entries with
  | nil =>
    rw [readLines, accepts_nil_iff, Except.ok.injEq]
    constructor
    · rintro rfl
      simp
    · exact fun h ↦ h.1.symm
  | cons line lines ih =>
    rw [readLines_cons, accepts_cons_after_iff]
    rcases readLineAfter format seen line with fault | _ | e
    · simp
    · simp [ih]
    · simp [map_eq_ok_iff, ih]

/-- What follows some lines without fault is read after their entries. -/
theorem readLines_append (h : readLines format seen number lines = .ok entries)
    (after : List ByteArray) :
    readLines format seen number (lines ++ after) =
      (readLines format ((entries.map Entry.id).reverse ++ seen) (number + lines.length)
        after).map (entries ++ ·) := by
  induction lines generalizing seen number entries with
  | nil =>
    cases h
    exact (congrFun Except.map_id _).symm
  | cons line lines ih =>
    have place : number + (line :: lines).length = number + 1 + lines.length := by
      rw [List.length_cons]
      omega
    rw [List.cons_append, readLines_cons, place]
    rw [readLines_cons] at h
    rcases hl : readLineAfter format seen line with fault | _ | e
    · rw [hl] at h
      cases h
    · rw [hl] at h
      exact ih h
    · rw [hl] at h
      obtain ⟨es, hes, rfl⟩ := map_eq_ok_iff.1 h
      simp only
      rw [ih hes, map_map, List.map_cons, List.reverse_cons, List.append_assoc]
      rfl

/-- What makes a line faulty after some ids makes it faulty after the same ids in another order. -/
theorem Faulty.congr {seen' : List String} {fault : LineFault} (h : Faulty format seen line fault)
    (same : ∀ id, id ∈ seen ↔ id ∈ seen') : Faulty format seen' line fault := by
  cases h with
  | undecodable none => exact .undecodable none
  | invalidJson bytes skipped hf shape => exact .invalidJson bytes skipped hf shape
  | missingTokens bytes skipped hf shape => exact .missingTokens bytes skipped hf shape
  | emptyId bytes skipped spells blank => exact .emptyId bytes skipped spells blank
  | duplicateId bytes skipped spells blank mem =>
    exact .duplicateId bytes skipped spells blank ((same _).1 mem)

/-- A faulty line after lines without fault ends the reading. -/
theorem readLines_of_faulty {before after : List ByteArray} {fault : LineFault}
    (h : readLines format seen number before = .ok entries)
    (faulty : Faulty format (entries.map Entry.id ++ seen) line fault) :
    readLines format seen number (before ++ line :: after) =
      .error ⟨number + before.length, fault⟩ := by
  have faulty' : Faulty format ((entries.map Entry.id).reverse ++ seen) line fault :=
    faulty.congr fun id ↦ by simp
  rw [readLines_append h, readLines_cons, readLineAfter_of_faulty faulty']
  rfl

/-- Where a reading ends there is a faulty line after lines without fault. -/
theorem exists_faulty_of_readLines {f : RegistryFault}
    (h : readLines format seen number lines = .error f) :
    ∃ before line after entries, lines = before ++ line :: after ∧
      readLines format seen number before = .ok entries ∧
      Faulty format (entries.map Entry.id ++ seen) line f.fault ∧
      f.line = number + before.length := by
  induction lines generalizing seen number with
  | nil => cases h
  | cons line lines ih =>
    rw [readLines_cons] at h
    rcases hl : readLineAfter format seen line with fault | _ | e
    · rw [hl] at h
      cases h
      exact ⟨[], line, lines, [], rfl, rfl, readLineAfter_eq_error_iff.1 hl, rfl⟩
    · rw [hl] at h
      obtain ⟨before, bad, after, es, rfl, good, faulty, place⟩ := ih h
      refine ⟨line :: before, bad, after, es, rfl, ?_, faulty, ?_⟩
      · rw [readLines_cons, hl]
        exact good
      · rw [place, List.length_cons]
        omega
    · rw [hl] at h
      obtain ⟨before, bad, after, es, rfl, good, faulty, place⟩ := ih (map_eq_error_iff.1 h)
      refine ⟨line :: before, bad, after, e :: es, rfl, ?_, faulty.congr fun id ↦ ?_, ?_⟩
      · rw [readLines_cons, hl]
        exact map_eq_ok_iff.2 ⟨es, good, rfl⟩
      · simp only [List.map_cons, List.mem_append, List.mem_cons]
        exact or_left_comm.trans or_assoc.symm
      · rw [place, List.length_cons]
        omega

/-! ## Whole registries -/

variable {bytes : ByteArray} {f : RegistryFault}

theorem read_eq_ok_iff :
    read format bytes = .ok entries ↔ Accepts format (byteLines bytes) entries := by
  rw [read, readLines_eq_ok_iff]
  simp

theorem read_eq_error_iff : read format bytes = .error f ↔ Blames format (byteLines bytes) f := by
  have accepts {before : List ByteArray} {es : List Entry} :
      readLines format [] 1 before = .ok es ↔ Accepts format before es := by
    rw [readLines_eq_ok_iff]
    simp
  constructor
  · intro h
    obtain ⟨before, line, after, es, lines, good, faulty, place⟩ := exists_faulty_of_readLines h
    rw [List.append_nil] at faulty
    exact ⟨before, line, after, es, lines, accepts.1 good, faulty, by omega⟩
  · rintro ⟨before, line, after, es, lines, good, faulty, place⟩
    obtain ⟨number, fault⟩ := f
    obtain rfl : number = before.length + 1 := place
    rw [read, lines, readLines_of_faulty (accepts.2 good) (by simpa using faulty), Nat.add_comm]

/-- Blame depends on no line after the one blamed. -/
theorem Blames.append {front rest rest' : List ByteArray} (h : Blames format (front ++ rest) f)
    (place : f.line ≤ front.length) : Blames format (front ++ rest') f := by
  obtain ⟨before, line, after, es, lines, good, faulty, number⟩ := h
  have len : before.length < front.length := by omega
  rcases List.append_eq_append_iff.1 lines with ⟨mid, rfl, -⟩ | ⟨mid, rfl, tail⟩
  · rw [List.length_append] at len
    omega
  · cases mid with
    | nil => simp at len
    | cons bad mid =>
      obtain ⟨rfl, -⟩ := List.cons.inj tail
      exact ⟨before, line, mid ++ rest', es, by simp, good, faulty, number⟩

/-- The message names the number of the line, unless the line is no text. -/
theorem message_line (f : RegistryFault) (path : String) :
    (f.fault ≠ .undecodable →
        ∃ what, f.message path = "line " ++ toString f.line ++ ": " ++ what) ∧
      (f.fault = .undecodable → f.message path =
        "cannot read registry " ++ path ++ ": " ++ "stream did not contain valid UTF-8") := by
  obtain ⟨number, fault⟩ := f
  cases fault with
  | undecodable => exact ⟨fun h ↦ absurd rfl h, fun _ ↦ rfl⟩
  | invalidJson => exact ⟨fun _ ↦ ⟨_, rfl⟩, fun h ↦ by cases h⟩
  | missingTokens => exact ⟨fun _ ↦ ⟨_, rfl⟩, fun h ↦ by cases h⟩
  | emptyId => exact ⟨fun _ ↦ ⟨_, rfl⟩, fun h ↦ by cases h⟩
  | duplicateId id =>
    refine ⟨fun _ ↦ ⟨"duplicate entry id '" ++ id ++ "'", ?_⟩, fun h ↦ by cases h⟩
    simp only [RegistryFault.message, String.append_assoc]

/-- **A registry is read exactly when all its lines are accepted, and otherwise the first faulty
line is blamed.**  The lines make up the bytes; the entries are what the lines say; whatever comes
after the line that is blamed, the blame is the same; and the message names the number of the line
unless the line is no text. -/
theorem read_firstFault (format : RegistryFormat) (bytes : ByteArray) :
    Lines 10 13 bytes.data.toList ((byteLines bytes).map fun line ↦ line.data.toList) ∧
      (∀ entries, read format bytes = .ok entries ↔ Accepts format (byteLines bytes) entries) ∧
      (∀ f, read format bytes = .error f ↔ Blames format (byteLines bytes) f) ∧
      (∀ (front rest rest' : ByteArray) f, bytes = front.push 10 ++ rest →
        read format bytes = .error f → f.line ≤ (byteLines (front.push 10)).length →
          read format (front.push 10 ++ rest') = .error f) ∧
      ∀ (f : RegistryFault) path,
        (f.fault ≠ .undecodable →
            ∃ what, f.message path = "line " ++ toString f.line ++ ": " ++ what) ∧
          (f.fault = .undecodable → f.message path =
            "cannot read registry " ++ path ++ ": " ++ "stream did not contain valid UTF-8") := by
  refine ⟨byteLines_lines bytes, fun entries ↦ read_eq_ok_iff, fun f ↦ read_eq_error_iff,
    fun front rest rest' f whole h place ↦ ?_, message_line⟩
  rw [whole, read_eq_error_iff, byteLines_append] at h
  rw [read_eq_error_iff, byteLines_append]
  exact h.append place

end Registry

end ManuscriptReach
