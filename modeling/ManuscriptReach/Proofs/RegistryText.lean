import ManuscriptReach.Proofs.Json.Record
import ManuscriptReach.Proofs.LineEnds
import ManuscriptReach.Proofs.Registry

/-!
# Registries read back

Two ways to write a registry, and the reader gives the entries back from both.

* `Registry.read_tabbed`: an id, a tab and tokens between separators.  A `TabbedRow` holds the
  separators that were chosen, and `Registry.IsTabular` says what a line can hold at all.
* `Registry.read_jsonLines`: a JSON object a line.  Any texts will do, and none is trimmed.

Both rest on one fact about lines: a carriage return at the end of a line, which the line end may
or may not take along, has no influence on what the line says (`Registry.readLine_return`).
-/

namespace ManuscriptReach

namespace Registry

variable {format : RegistryFormat} {e : Entry}

/-! ## Carriage returns at the end of a line -/

theorem isBlank_return : ∀ c ∈ ['\r'], isBlank c = true :=
  List.forall_mem_singleton.2 (by decide)

theorem isSeparator_return : ∀ c ∈ ['\r'], isSeparator c = true :=
  List.forall_mem_singleton.2 (by decide)

theorem isSkipped_return (line : String) : isSkipped (line ++ "\r") = isSkipped line := by
  have same {core : List Char} : Trimmed isBlank (line ++ "\r").toList core ↔
      Trimmed isBlank line.toList core := by
    rw [← trimWhere_eq_iff, ← trimWhere_eq_iff, String.toList_append]
    exact Eq.congr_left (trimWhere_append isBlank_return _)
  rw [Bool.eq_iff_iff, isSkipped_iff, isSkipped_iff, Skipped, Skipped]
  simp only [same]

theorem readEntry_return (format : RegistryFormat) (line : String) :
    readEntry format (line ++ "\r") = readEntry format line := by
  cases format with
  | jsonLines =>
    have trimmed : trimBlanks (line ++ "\r") = trimBlanks line := by
      rw [trimBlanks, String.toList_append]
      exact congrArg String.ofList (trimWhere_append isBlank_return _)
    rw [readEntry, readEntry, trimmed]
  | tabbed =>
    rw [readEntry, readEntry]
    by_cases tab : '\t' ∈ line.toList
    · obtain ⟨id, tokens, parts, free⟩ := List.eq_append_cons_of_mem tab
      have parts' : (line ++ "\r").toList = id ++ '\t' :: (tokens ++ ['\r']) := by
        rw [String.toList_append, parts, List.append_assoc]
        rfl
      rw [readTabbed_of_tab parts free, readTabbed_of_tab parts' free,
        runsOutside_append isSeparator_return]
    · have tab' : '\t' ∉ (line ++ "\r").toList := by simpa using tab
      rw [readTabbed_of_not_mem tab, readTabbed_of_not_mem tab']

/-- A line is read alike with and without a carriage return at its end. -/
theorem readLine_return (format : RegistryFormat) (line : String) :
    readLine format (line ++ "\r").toUTF8 = readLine format line.toUTF8 := by
  rw [readLine, readLine, fromUTF8?_toUTF8, fromUTF8?_toUTF8]
  simp only [isSkipped_return, readEntry_return]

theorem readLine_of_cutAs {line cut : String} (h : CutAs line cut) :
    readLine format cut.toUTF8 = readLine format line.toUTF8 := by
  rcases h with rfl | rfl
  · rfl
  · exact (readLine_return format cut).symm

/-- Lines that are read alike make registries that are read alike. -/
theorem readLines_congr {lines lines' : List ByteArray}
    (h : List.Forall₂ (fun line line' ↦ readLine format line = readLine format line') lines lines')
    (seen : List String) (number : Nat) :
    readLines format seen number lines = readLines format seen number lines' := by
  induction h generalizing seen number with
  | nil => rfl
  | cons first _ ih => simp only [readLines, first, ih]

/-- The entries of a text are those of its lines, whatever their line ends are. -/
theorem read_of_breaks {lines : List String} {text : String} (h : Breaks lines text)
    (free : ∀ line ∈ lines, '\n' ∉ line.toList) :
    read format text.toUTF8 = readLines format [] 1 (lines.map String.toUTF8) := by
  obtain ⟨cuts, bytes, cutAs⟩ := h.byteLines_eq free
  rw [read, bytes]
  refine readLines_congr ?_ [] 1
  rw [List.forall₂_map_left_iff, List.forall₂_map_right_iff]
  exact cutAs.flip.imp fun _ _ ↦ readLine_of_cutAs

/-- Lines of which each says an entry are read as these entries, if no two have one id. -/
theorem readLines_of_reads {lines : List ByteArray} {entries : List Entry}
    (h : List.Forall₂ (fun line e ↦ Reads format line (some e)) lines entries)
    (nodup : (entries.map Entry.id).Nodup) : readLines format [] 1 lines = .ok entries := by
  rw [readLines_eq_ok_iff]
  have said : (entries.map some).reduceOption = entries := by
    simp [List.reduceOption, List.filterMap_map]
  exact ⟨⟨⟨entries.map some, List.forall₂_map_right_iff.2 h, said⟩, nodup⟩, by simp⟩

/-- Entries read back from any text that is made up of their lines. -/
theorem read_of_reads {β : Type} {line : β → String} {entry : β → Entry} {xs : List β}
    {text : String} (reads : ∀ x ∈ xs, Reads format (line x).toUTF8 (some (entry x)))
    (free : ∀ x ∈ xs, '\n' ∉ (line x).toList) (nodup : (xs.map fun x ↦ (entry x).id).Nodup)
    (breaks : Breaks (xs.map line) text) : read format text.toUTF8 = .ok (xs.map entry) := by
  rw [read_of_breaks breaks (List.forall_mem_map.2 free)]
  apply readLines_of_reads
  · rw [List.map_map, List.forall₂_map_left_iff, List.forall₂_map_right_iff]
    exact List.forall₂_same.2 reads
  · rwa [List.map_map]

/-- A line whose first character is neither blank nor `#` says something. -/
theorem not_skipped_of_head? {line : String} {c : Char} (first : line.toList.head? = some c)
    (blank : isBlank c = false) (sign : c ≠ '#') : ¬ Skipped line := by
  rintro ⟨core, trimmed, head⟩
  have whole : line.toList.dropWhile isBlank = line.toList := by
    apply dropWhile_eq_self_of_head?
    rw [first]
    rintro _ ⟨⟩
    exact blank
  have same := trimmed.head?_dropWhile_eq
  rw [whole, first] at same
  exact sign (head c same.symm)

/-! ## Tabbed registries -/

/-- A text between tokens: separators, none of which is a line feed. -/
def IsGap (gap : String) : Prop := ∀ c ∈ gap.toList, isSeparator c = true ∧ c ≠ '\n'

-- Over the characters of a text, and not over all characters.
instance : DecidablePred IsGap := fun gap ↦
  decidable_of_iff (gap.toList.all fun c ↦ isSeparator c && c != '\n') (by simp [IsGap])

/-- How an entry is laid out in a line: after the id and a tab stands a gap, which may be empty, and
then each token with the gap behind it. -/
structure TabbedRow where
  id : String
  front : String
  tokens : List (String × String)

namespace TabbedRow

/-- The entry that is laid out. -/
def entry (r : TabbedRow) : Entry := ⟨r.id, r.tokens.map Prod.fst⟩

/-- The tokens and gaps after the first gap. -/
def field (tokens : List (String × String)) : String :=
  String.join (tokens.map fun t ↦ t.1 ++ t.2)

/-- The line, without a line end. -/
def line (r : TabbedRow) : String := r.id ++ "\t" ++ (r.front ++ field r.tokens)

/-- The gaps are gaps, and no token touches the next. -/
structure IsLaidOut (r : TabbedRow) : Prop where
  front : IsGap r.front
  gaps : ∀ t ∈ r.tokens, IsGap t.2
  between : ∀ t ∈ r.tokens.dropLast, t.2 ≠ ""

instance : DecidablePred IsLaidOut := fun r ↦
  decidable_of_iff
    (IsGap r.front ∧ (∀ t ∈ r.tokens, IsGap t.2) ∧ ∀ t ∈ r.tokens.dropLast, t.2 ≠ "")
    ⟨fun h ↦ ⟨h.1, h.2.1, h.2.2⟩, fun h ↦ ⟨h.front, h.gaps, h.between⟩⟩

end TabbedRow

/-- What a tabbed line can hold of an entry. -/
structure IsTabular (e : Entry) : Prop where
  id_ne : e.id ≠ ""
  id_trimmed : trimBlanks e.id = e.id
  tab_not_mem : '\t' ∉ e.id.toList
  lineFeed_not_mem : '\n' ∉ e.id.toList
  head?_ne : e.id.toList.head? ≠ some '#'
  tokens_ne : ∀ token ∈ e.tokens, token ≠ ""
  tokens_free : ∀ token ∈ e.tokens, ∀ c ∈ token.toList, isSeparator c = false

namespace IsTabular

instance : DecidablePred IsTabular := fun e ↦
  decidable_of_iff
    ((e.id ≠ "" ∧ trimBlanks e.id = e.id) ∧
      ('\t' ∉ e.id.toList ∧ '\n' ∉ e.id.toList ∧ e.id.toList.head? ≠ some '#') ∧
      ∀ token ∈ e.tokens, token ≠ "" ∧ token.toList.all (fun c ↦ !isSeparator c) = true)
    ⟨fun ⟨⟨ne, trimmed⟩, ⟨tab, lineFeed, head⟩, tokens⟩ ↦ ⟨ne, trimmed, tab, lineFeed, head,
        fun token h ↦ (tokens token h).1, fun token h ↦ by simpa using (tokens token h).2⟩,
      fun h ↦ ⟨⟨h.id_ne, h.id_trimmed⟩, ⟨h.tab_not_mem, h.lineFeed_not_mem, h.head?_ne⟩,
        fun token ht ↦ ⟨h.tokens_ne token ht, by simpa using h.tokens_free token ht⟩⟩⟩

theorem trimmed (h : IsTabular e) : Trimmed isBlank e.id.toList e.id.toList := by
  rw [← trimWhere_eq_iff]
  exact String.ofList_injective (h.id_trimmed.trans String.ofList_toList.symm)

/-- An id begins with a character that is neither blank nor `#`. -/
theorem exists_head (h : IsTabular e) :
    ∃ c, e.id.toList.head? = some c ∧ isBlank c = false ∧ c ≠ '#' := by
  cases first : e.id.toList.head? with
  | none => exact absurd (String.toList_injective (List.head?_eq_none_iff.1 first)) h.id_ne
  | some c =>
    refine ⟨c, rfl, h.trimmed.head c first, ?_⟩
    rintro rfl
    exact h.head?_ne first

theorem not_blank (h : IsTabular e) : ¬ Blank e.id := by
  intro blank
  obtain ⟨c, first, notBlank, -⟩ := h.exists_head
  rw [blank c (List.mem_of_mem_head? first)] at notBlank
  cases notBlank

end IsTabular

namespace TabbedRow

variable {r : TabbedRow}

theorem toList_field_cons (token gap : String) (tokens : List (String × String)) :
    (field ((token, gap) :: tokens)).toList =
      token.toList ++ (gap.toList ++ (field tokens).toList) := by
  rw [field, List.map_cons, String.join_cons, String.toList_append, String.toList_append,
    List.append_assoc]
  rfl

/-- The tokens of a row are the runs outside its gaps. -/
theorem runs_field {tokens : List (String × String)} {front : String} (hf : IsGap front)
    (gaps : ∀ t ∈ tokens, IsGap t.2) (between : ∀ t ∈ tokens.dropLast, t.2 ≠ "")
    (ne : ∀ t ∈ tokens, t.1 ≠ "") (free : ∀ t ∈ tokens, ∀ c ∈ t.1.toList, isSeparator c = false) :
    Runs isSeparator (front.toList ++ (field tokens).toList)
      (tokens.map fun t ↦ t.1.toList) := by
  induction tokens generalizing front with
  | nil =>
    rw [field, List.map_nil, String.join_nil, String.toList_empty, List.append_nil]
    exact .nil fun c hc ↦ (hf c hc).1
  | cons t tokens ih =>
    obtain ⟨token, gap⟩ := t
    rw [List.forall_mem_cons] at gaps ne free
    rw [toList_field_cons]
    have next : (gap.toList ++ (field tokens).toList).head? = gap.toList.head? := by
      cases tokens with
      | nil => rw [field, List.map_nil, String.join_nil, String.toList_empty, List.append_nil]
      | cons t tokens =>
        have some : gap ≠ "" := between (token, gap) (List.mem_cons_self ..)
        exact List.head?_append_of_ne_nil _ (mt String.toList_eq_nil_iff.1 some)
    have between' : ∀ t ∈ tokens.dropLast, t.2 ≠ "" := by
      intro t ht
      cases tokens with
      | nil => cases ht
      | cons => exact between t (List.mem_cons_of_mem _ ht)
    refine .cons (fun c hc ↦ (hf c hc).1) (mt String.toList_eq_nil_iff.1 ne.1) free.1 ?_
      (ih gaps.1 gaps.2 between' ne.2 free.2)
    rw [next]
    exact fun c hc ↦ (gaps.1 c (List.mem_of_mem_head? hc)).1

theorem toList_line (r : TabbedRow) :
    r.line.toList = r.id.toList ++ '\t' :: (r.front.toList ++ (field r.tokens).toList) := by
  rw [line, String.toList_append, String.toList_append, String.toList_append, List.append_assoc]
  rfl

theorem spells_line (h : r.IsLaidOut) (tabular : IsTabular r.entry) :
    Spells .tabbed r.line r.entry := by
  refine .tabbed r.toList_line tabular.tab_not_mem tabular.trimmed ?_
  rw [entry, List.map_map]
  exact runs_field h.front h.gaps h.between
    (fun t ht ↦ tabular.tokens_ne t.1 (List.mem_map_of_mem ht))
    fun t ht ↦ tabular.tokens_free t.1 (List.mem_map_of_mem ht)

theorem reads_line (h : r.IsLaidOut) (tabular : IsTabular r.entry) :
    Reads .tabbed r.line.toUTF8 (some r.entry) := by
  obtain ⟨c, first, blank, sign⟩ := tabular.exists_head
  have first' : r.line.toList.head? = some c := by
    change r.id.toList.head? = some c at first
    rw [toList_line, List.head?_append, first]
    rfl
  exact .entry rfl (not_skipped_of_head? first' blank sign) (spells_line h tabular)
    tabular.not_blank

theorem lineFeed_not_mem_field {tokens : List (String × String)} (gaps : ∀ t ∈ tokens, IsGap t.2)
    (free : ∀ t ∈ tokens, ∀ c ∈ t.1.toList, isSeparator c = false) :
    '\n' ∉ (field tokens).toList := by
  induction tokens with
  | nil => simp [field]
  | cons t tokens ih =>
    rw [List.forall_mem_cons] at gaps free
    have token : '\n' ∉ t.1.toList := fun mem ↦ absurd (free.1 _ mem) (by decide)
    have gap : '\n' ∉ t.2.toList := fun mem ↦ (gaps.1 _ mem).2 rfl
    rw [toList_field_cons, List.mem_append, List.mem_append, not_or, not_or]
    exact ⟨token, gap, ih gaps.2 free.2⟩

theorem lineFeed_not_mem_line (h : r.IsLaidOut) (tabular : IsTabular r.entry) :
    '\n' ∉ r.line.toList := by
  have front : '\n' ∉ r.front.toList := fun mem ↦ (h.front _ mem).2 rfl
  have field : '\n' ∉ (field r.tokens).toList :=
    lineFeed_not_mem_field h.gaps fun t ht ↦ tabular.tokens_free t.1 (List.mem_map_of_mem ht)
  rw [toList_line, List.mem_append, List.mem_cons, List.mem_append, not_or, not_or, not_or]
  exact ⟨tabular.lineFeed_not_mem, by decide, front, field⟩

end TabbedRow

/-- **Rows read back as the entries that are laid out in them.**  The gaps around the tokens may be
any separators, and the line ends any; entries without tokens are read as well as others. -/
theorem read_tabbed {rows : List TabbedRow} {text : String} (laidOut : ∀ r ∈ rows, r.IsLaidOut)
    (tabular : ∀ r ∈ rows, IsTabular r.entry) (nodup : (rows.map fun r ↦ r.entry.id).Nodup)
    (breaks : Breaks (rows.map TabbedRow.line) text) :
    read .tabbed text.toUTF8 = .ok (rows.map TabbedRow.entry) :=
  read_of_reads (fun r hr ↦ TabbedRow.reads_line (laidOut r hr) (tabular r hr))
    (fun r hr ↦ TabbedRow.lineFeed_not_mem_line (laidOut r hr) (tabular r hr)) nodup breaks

/-- Three rows, whose gaps hold tabs, carriage returns and blanks beyond ASCII. -/
def sampleRows : List TabbedRow :=
  [⟨"f1r.1", " ..", [("fachys", "."), ("ykal", "\t\u00a0"), ("ar", "\r")]⟩,
    ⟨"f\r1 #", "", []⟩, ⟨"ü", "\u2003\r\r", []⟩]

/-- The rows in a text, with different line ends. -/
def sampleRowsText : String :=
  "f1r.1\t ..fachys.ykal\t\u00a0ar\r\nf\r1 #\t\r\nü\t\u2003\r\r"

theorem read_tabbed_sample :
    (∀ r ∈ sampleRows, r.IsLaidOut) ∧ (∀ r ∈ sampleRows, IsTabular r.entry) ∧
      (sampleRows.map fun r ↦ r.entry.id).Nodup ∧
      Breaks (sampleRows.map TabbedRow.line) sampleRowsText ∧
      read .tabbed sampleRowsText.toUTF8 =
        .ok [⟨"f1r.1", ["fachys", "ykal", "ar"]⟩, ⟨"f\r1 #", []⟩, ⟨"ü", []⟩] := by
  have laidOut : ∀ r ∈ sampleRows, r.IsLaidOut := by decide
  have tabular : ∀ r ∈ sampleRows, IsTabular r.entry := by decide
  have nodup : (sampleRows.map fun r ↦ r.entry.id).Nodup := by decide
  have breaks : Breaks (sampleRows.map TabbedRow.line) sampleRowsText :=
    .lineFeed (.returnLineFeed (.last (by decide)))
  exact ⟨laidOut, tabular, nodup, breaks, read_tabbed laidOut tabular nodup breaks⟩

/-! ## Registries of JSON lines -/

end Registry

namespace Entry

@[simp] theorem read?_toJson (e : Entry) : read? e.toJson = some e := by
  rw [Entry.read?, Entry.toJson, Json.fields?_record (by simp)]
  simp [Node.required, SortedMap.lookup_cons_ite]

theorem isPlain_toJson (e : Entry) : Json.IsPlain e.toJson :=
  .record (by simp [Json.IsPlain.ofString, Json.isPlain_ofStrings])

/-- An entry reads back from its line. -/
theorem ofLine?_line (e : Entry) : ofLine? e.line = some e := by
  rw [ofLine?, Json.readAs?, line, Json.read?_compact e.isPlain_toJson, Option.bind_some,
    read?_toJson]

/-- The line of an entry holds no line end. -/
theorem lineFeed_not_mem_line (e : Entry) : '\n' ∉ e.line.toList :=
  e.isPlain_toJson.lineFeed_not_mem_compact

/-- The line of an entry is enclosed in braces. -/
theorem exists_braces (e : Entry) : ∃ body, e.line.toList = '\x7b' :: (body ++ ['\x7d']) := by
  rw [line, Json.compact, String.toList_ofList]
  exact ⟨_, rfl⟩

theorem trimmed_line (e : Entry) : Trimmed isBlank e.line.toList e.line.toList := by
  obtain ⟨body, braces⟩ := e.exists_braces
  rw [braces]
  refine ⟨⟨[], [], (List.append_nil _).symm, by simp, by simp⟩, ?_, ?_⟩
  · rintro _ ⟨⟩
    decide
  · rw [← List.cons_append, List.getLast?_concat]
    rintro _ ⟨⟩
    decide

end Entry

namespace Registry

theorem reads_line (h : ¬ Blank e.id) : Reads .jsonLines e.line.toUTF8 (some e) := by
  obtain ⟨body, braces⟩ := e.exists_braces
  have first : e.line.toList.head? = some '\x7b' := by
    rw [braces]
    rfl
  exact .entry rfl (not_skipped_of_head? first (by decide) (by decide))
    (.jsonLines e.trimmed_line e.ofLine?_line) h

/-- **Entries read back from their lines of JSON**, whatever their texts hold and however the lines
end. -/
theorem read_jsonLines {entries : List Entry} {text : String} (named : ∀ e ∈ entries, ¬ Blank e.id)
    (nodup : (entries.map Entry.id).Nodup) (breaks : Breaks (entries.map Entry.line) text) :
    read .jsonLines text.toUTF8 = .ok entries := by
  have whole : read .jsonLines text.toUTF8 = .ok (entries.map id) :=
    read_of_reads (fun e he ↦ reads_line (named e he)) (fun e _ ↦ e.lineFeed_not_mem_line) nodup
      breaks
  rwa [List.map_id] at whole

/-- Entries with empty texts, quotes, control characters and line ends. -/
def sampleEntries : List Entry :=
  [⟨"# 1", ["", " a\t", "\"\\"]⟩, ⟨" b\r\n", ["ü.\x01", "\u2028"]⟩, ⟨"\x7b", []⟩]

theorem read_jsonLines_sample :
    (∀ e ∈ sampleEntries, ¬ Blank e.id) ∧ (sampleEntries.map Entry.id).Nodup ∧
      ∃ text, Breaks (sampleEntries.map Entry.line) text ∧
        read .jsonLines text.toUTF8 = .ok sampleEntries := by
  have named : ∀ e ∈ sampleEntries, ¬ Blank e.id := by
    simp only [Blank, ← List.all_eq_true]
    decide
  have nodup : (sampleEntries.map Entry.id).Nodup := by decide
  have breaks : Breaks (sampleEntries.map Entry.line) _ :=
    .returnLineFeed (.lineFeed (.last (by decide)))
  exact ⟨named, nodup, _, breaks, read_jsonLines named nodup breaks⟩

end Registry

end ManuscriptReach
