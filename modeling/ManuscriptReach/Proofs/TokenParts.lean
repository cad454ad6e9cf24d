import ManuscriptReach.Morphology.Markers

/-!
# The parts of a token

Markers and suffixes are tried in an order that counts bytes, and the first that fits is
taken.  `Markers.Splits` says what the parts of a token are without an order: the marker
is the longest that begins the token, the suffix is the longest that ends the rest, and the
middle is what lies between them.

Two markers that begin one token are nested, so more bytes mean more text, whatever the
characters are, and no two of them tie (`Markers.decompose_exact`).

`Markers.decomposeBytes?` cuts a token at offsets counted in bytes, which need not be
boundaries of characters.  Those of markers and suffixes are.
-/

namespace ManuscriptReach

/-! ## Nested texts -/

/-- A text has a property, and none that has it is longer. -/
structure Longest (p : String → Prop) (s : String) : Prop where
  holds : p s
  longest : ∀ s', p s' → s'.length ≤ s.length

section

variable {s t : String}

/-- What comes behind a text takes bytes unless it is empty. -/
theorem eq_nil_of_utf8ByteSize_le {xs : List Char}
    (size : (String.ofList xs).utf8ByteSize ≤ 0) : xs = [] := by
  have none := String.utf8ByteSize_eq_zero_iff.1 (Nat.le_zero.1 size)
  rw [← String.toList_ofList (l := xs), none]
  rfl

/-- Of two texts that begin a third, the one with fewer bytes begins the other. -/
theorem prefix_of_utf8ByteSize_le {whole : List Char} (hs : s.toList <+: whole)
    (ht : t.toList <+: whole) (size : s.utf8ByteSize ≤ t.utf8ByteSize) : s.toList <+: t.toList := by
  rcases List.prefix_or_prefix_of_prefix hs ht with h | ⟨more, h⟩
  · exact h
  · have parts : s = t ++ String.ofList more := String.toList_injective (by simp [h])
    rw [parts, String.utf8ByteSize_append] at size
    have none : more = [] := eq_nil_of_utf8ByteSize_le (by omega)
    have same : s.toList = t.toList := by rw [← h, none, List.append_nil]
    exact same ▸ List.prefix_rfl

/-- Of two texts that end a third, the one with fewer bytes ends the other. -/
theorem suffix_of_utf8ByteSize_le {whole : List Char} (hs : s.toList <:+ whole)
    (ht : t.toList <:+ whole) (size : s.utf8ByteSize ≤ t.utf8ByteSize) : s.toList <:+ t.toList := by
  rcases List.suffix_or_suffix_of_suffix hs ht with h | ⟨more, h⟩
  · exact h
  · have parts : s = String.ofList more ++ t := String.toList_injective (by simp [h])
    rw [parts, String.utf8ByteSize_append] at size
    have none : more = [] := eq_nil_of_utf8ByteSize_le (by omega)
    have same : s.toList = t.toList := by rw [← h, none, List.nil_append]
    exact same ▸ List.suffix_rfl

theorem eq_of_prefix_of_length_eq {whole : List Char} (hs : s.toList <+: whole)
    (ht : t.toList <+: whole) (same : s.length = t.length) : s = t :=
  String.toList_injective <|
    (List.prefix_of_prefix_length_le hs ht (Nat.le_of_eq same)).eq_of_length same

theorem eq_of_suffix_of_length_eq {whole : List Char} (hs : s.toList <:+ whole)
    (ht : t.toList <:+ whole) (same : s.length = t.length) : s = t :=
  String.toList_injective <|
    (List.suffix_of_suffix_length_le hs ht (Nat.le_of_eq same)).eq_of_length same

end

/-! ## The order in which candidates are tried -/

theorem isTriedBefore_iff {s t : String} :
    isTriedBefore s t = true ↔
      t.utf8ByteSize < s.utf8ByteSize ∨ s.utf8ByteSize = t.utf8ByteSize ∧ s ≤ t := by
  simp [isTriedBefore]

theorem isTriedBefore_trans (s t u : String) (hst : isTriedBefore s t = true)
    (htu : isTriedBefore t u = true) : isTriedBefore s u = true := by
  rw [isTriedBefore_iff] at *
  rcases hst with hst | ⟨hst, le⟩
  · exact .inl (by omega)
  · rcases htu with htu | ⟨htu, le'⟩
    · exact .inl (by omega)
    · exact .inr ⟨by omega, String.le_trans le le'⟩

theorem isTriedBefore_total (s t : String) : (isTriedBefore s t || isTriedBefore t s) = true := by
  rw [Bool.or_eq_true, isTriedBefore_iff, isTriedBefore_iff]
  rcases Nat.lt_trichotomy s.utf8ByteSize t.utf8ByteSize with less | same | more
  · exact .inr (.inl less)
  · rcases String.le_total s t with le | le
    · exact .inl (.inr ⟨same, le⟩)
    · exact .inr (.inr ⟨same.symm, le⟩)
  · exact .inl (.inl more)

/-- What is tried earlier has at least as many bytes. -/
theorem utf8ByteSize_le_of_isTriedBefore {s t : String} (h : isTriedBefore s t = true) :
    t.utf8ByteSize ≤ s.utf8ByteSize := by
  rcases isTriedBefore_iff.1 h with less | ⟨same, -⟩ <;> omega

/-- The first match in a list stands in front of all others. -/
theorem rel_of_find? {α : Type} {r : α → α → Prop} {p : α → Bool} {xs : List α} {x : α}
    (sorted : xs.Pairwise r) (refl : r x x) (h : xs.find? p = some x) :
    ∀ y ∈ xs, p y = true → r x y := by
  intro y hy py
  obtain ⟨-, before, after, rfl, fails⟩ := List.find?_eq_some_iff_append.1 h
  rcases List.mem_append.1 hy with hy | hy
  · exact absurd py (by simpa using fails y hy)
  · rcases List.mem_cons.1 hy with rfl | hy
    · exact refl
    · exact (List.pairwise_cons.1 (List.pairwise_append.1 sorted).2.1).1 y hy

/-- The text after the marker. -/
def Morphology.rest (p : Morphology) : String := p.middle ++ p.suffix.getD ""

namespace Markers

variable {t : Markers} {token m f : String} {p q : Morphology}

/-- A marker stands for a family: for itself, when it is one, or for that to which it is mapped. -/
def StandsFor (t : Markers) (m f : String) : Prop :=
  (m ∈ t.families ∧ f = m) ∨ t.extended.get? m = some f

/-- A text is a family or an extended variant of one. -/
def IsMarker (t : Markers) (m : String) : Prop := m ∈ t.families ∨ m ∈ t.extended.keys

theorem mem_candidates : (m, f) ∈ t.candidates ↔ t.StandsFor m f := by
  rw [t.candidates_eq, markerCandidates, List.mem_mergeSort, List.mem_append, StandsFor,
    SortedMap.get?_eq_some_iff]
  have family : (m, f) ∈ t.families.toList.map (fun f ↦ (f, f)) ↔ m ∈ t.families ∧ f = m := by
    rw [List.mem_map]
    constructor
    · rintro ⟨_, mem, same⟩
      cases same
      exact ⟨mem, rfl⟩
    · rintro ⟨mem, rfl⟩
      exact ⟨f, mem, rfl⟩
  rw [family]

theorem mem_endings {s : String} : s ∈ t.endings ↔ s ∈ t.suffixes := by
  rw [t.endings_eq, suffixCandidates, List.mem_mergeSort]
  rfl

theorem candidates_sorted (t : Markers) :
    t.candidates.Pairwise fun p q ↦ q.1.utf8ByteSize ≤ p.1.utf8ByteSize := by
  rw [t.candidates_eq, markerCandidates]
  exact (List.pairwise_mergeSort (fun p q r ↦ isTriedBefore_trans p.1 q.1 r.1)
    (fun p q ↦ isTriedBefore_total p.1 q.1) _).imp utf8ByteSize_le_of_isTriedBefore

theorem endings_sorted (t : Markers) :
    t.endings.Pairwise fun s s' ↦ s'.utf8ByteSize ≤ s.utf8ByteSize := by
  rw [t.endings_eq, suffixCandidates]
  exact (List.pairwise_mergeSort isTriedBefore_trans isTriedBefore_total _).imp
    utf8ByteSize_le_of_isTriedBefore

/-! ## Families -/

theorem StandsFor.isMarker (h : t.StandsFor m f) : t.IsMarker m := by
  rcases h with ⟨mem, -⟩ | value
  · exact .inl mem
  · exact .inr (List.mem_map_of_mem (SortedMap.get?_eq_some_iff.1 value))

theorem IsMarker.exists_family (h : t.IsMarker m) : ∃ f, t.StandsFor m f := by
  rcases h with mem | mem
  · exact ⟨m, .inl ⟨mem, rfl⟩⟩
  · obtain ⟨⟨_, f⟩, hp, rfl⟩ := List.mem_map.1 mem
    exact ⟨f, .inr (SortedMap.get?_eq_some_iff.2 hp)⟩

/-- A variant is no family, and stands for one. -/
theorem not_mem_families (h : t.extended.get? m = some f) : m ∉ t.families ∧ f ∈ t.families :=
  t.extended_family (m, f) (SortedMap.get?_eq_some_iff.1 h)

theorem StandsFor.family_mem (h : t.StandsFor m f) : f ∈ t.families := by
  rcases h with ⟨mem, rfl⟩ | value
  · exact mem
  · exact (not_mem_families value).2

/-- No marker stands for two families. -/
theorem StandsFor.unique {f' : String} (h : t.StandsFor m f) (h' : t.StandsFor m f') : f = f' := by
  rcases h with ⟨mem, rfl⟩ | value
  · rcases h' with ⟨-, rfl⟩ | value'
    · rfl
    · exact absurd mem (not_mem_families value').1
  · rcases h' with ⟨mem', -⟩ | value'
    · exact absurd mem' (not_mem_families value).1
    · exact Option.some.inj (value.symm.trans value')

/-- A marker differs from its family exactly when it is a variant. -/
theorem StandsFor.ne_iff (h : t.StandsFor m f) : m ≠ f ↔ m ∈ t.extended.keys := by
  rcases h with ⟨mem, rfl⟩ | value
  · refine iff_of_false (fun ne ↦ ne rfl) fun key ↦ ?_
    obtain ⟨⟨_, f⟩, hp, rfl⟩ := List.mem_map.1 key
    exact (t.extended_family _ hp).1 mem
  · obtain ⟨variant, family⟩ := not_mem_families value
    exact iff_of_true (fun same ↦ variant (same ▸ family))
      (List.mem_map_of_mem (SortedMap.get?_eq_some_iff.1 value))

theorem IsMarker.ne_empty (h : t.IsMarker m) : m ≠ "" := by
  rintro rfl
  have mem : "" ∈ t.families.toList ++ t.extended.keys := List.mem_append.2 h
  rcases t.length_marker "" mem with length | length <;> simp at length

/-! ## What is matched -/

theorem matchMarker_eq_none_iff :
    t.matchMarker token = none ↔ ∀ m, t.IsMarker m → ¬ m.toList <+: token.toList := by
  rw [matchMarker, List.find?_eq_none]
  constructor
  · intro h m hm begins
    obtain ⟨f, stands⟩ := hm.exists_family
    exact h (m, f) (mem_candidates.2 stands) (List.isPrefixOf_iff_prefix.2 begins)
  · intro h p hp begins
    exact h p.1 (mem_candidates.1 hp).isMarker (List.isPrefixOf_iff_prefix.1 begins)

/-- The marker that is matched is the longest, and comes with its family. -/
theorem longest_of_matchMarker (h : t.matchMarker token = some (m, f)) :
    t.StandsFor m f ∧ Longest (fun m ↦ t.IsMarker m ∧ m.toList <+: token.toList) m := by
  have stands : t.StandsFor m f := mem_candidates.1 (List.mem_of_find?_eq_some h)
  have begins : m.toList <+: token.toList := List.isPrefixOf_iff_prefix.1 (List.find?_some h :)
  refine ⟨stands, ⟨stands.isMarker, begins⟩, fun m' ⟨marker, begins'⟩ ↦ ?_⟩
  obtain ⟨f', stands'⟩ := marker.exists_family
  have size := rel_of_find? t.candidates_sorted (Nat.le_refl _) h (m', f')
    (mem_candidates.2 stands') (List.isPrefixOf_iff_prefix.2 begins')
  exact (prefix_of_utf8ByteSize_le begins' begins size).length_le

/-- The suffix that is matched is the longest, and none is when there is none. -/
theorem matchSuffix_spec (t : Markers) (rest : String) :
    (∀ s, t.matchSuffix rest = some s →
        Longest (fun s ↦ s ∈ t.suffixes ∧ s.toList <:+ rest.toList) s) ∧
      (t.matchSuffix rest = none → ∀ s ∈ t.suffixes, ¬ s.toList <:+ rest.toList) := by
  constructor
  · intro s h
    have mem : s ∈ t.suffixes := mem_endings.1 (List.mem_of_find?_eq_some h)
    have ends : s.toList <:+ rest.toList := List.isSuffixOf_iff_suffix.1 (List.find?_some h :)
    refine ⟨⟨mem, ends⟩, fun s' ⟨mem', ends'⟩ ↦ ?_⟩
    have size := rel_of_find? t.endings_sorted (Nat.le_refl _) h s' (mem_endings.2 mem')
      (List.isSuffixOf_iff_suffix.2 ends')
    exact (suffix_of_utf8ByteSize_le ends' ends size).length_le
  · intro h s mem ends
    exact List.find?_eq_none.1 h s (mem_endings.2 mem) (List.isSuffixOf_iff_suffix.2 ends)

/-! ## What the parts of a token are -/

/-- A token has the given parts. -/
structure Splits (t : Markers) (token : String) (p : Morphology) : Prop where
  /-- The parts make up the token. -/
  whole : p.marker ++ p.rest = token
  /-- The marker is the longest that begins the token. -/
  marker : Longest (fun m ↦ t.IsMarker m ∧ m.toList <+: token.toList) p.marker
  /-- A family stands for itself, -/
  family : p.marker ∈ t.families → p.family = p.marker
  /-- and a variant for the family to which it is mapped. -/
  variant : ∀ f, t.extended.get? p.marker = some f → p.family = f
  family_mem : p.family ∈ t.families
  isExtended_iff : p.isExtended = true ↔ p.marker ∈ t.extended.keys
  /-- The suffix is the longest that ends the rest, -/
  suffix : ∀ s, p.suffix = some s →
    Longest (fun s ↦ s ∈ t.suffixes ∧ s.toList <:+ p.rest.toList) s
  /-- and there is none when none does. -/
  no_suffix : p.suffix = none → ∀ s ∈ t.suffixes, ¬ s.toList <:+ p.rest.toList

theorem Splits.standsFor (h : t.Splits token p) : t.StandsFor p.marker p.family := by
  rcases h.marker.holds.1 with mem | mem
  · exact .inl ⟨mem, h.family mem⟩
  · obtain ⟨⟨m, f⟩, hp, same⟩ := List.mem_map.1 mem
    have value : t.extended.get? p.marker = some f :=
      SortedMap.get?_eq_some_iff.2 (same ▸ hp)
    exact .inr (h.variant f value ▸ value)

/-- A token has its parts in one way only. -/
theorem Splits.unique (h : t.Splits token p) (h' : t.Splits token q) : p = q := by
  have marker : p.marker = q.marker :=
    eq_of_prefix_of_length_eq h.marker.holds.2 h'.marker.holds.2 <|
      Nat.le_antisymm (h'.marker.longest _ h.marker.holds) (h.marker.longest _ h'.marker.holds)
  have rest : p.rest = q.rest := by
    have whole := h.whole.trans h'.whole.symm
    rw [marker] at whole
    exact String.append_right_inj _ |>.1 whole
  have suffix : p.suffix = q.suffix := by
    cases hp : p.suffix with
    | none =>
      cases hq : q.suffix with
      | none => rfl
      | some s =>
        obtain ⟨mem, ends⟩ := (h'.suffix s hq).holds
        exact absurd (rest ▸ ends) (h.no_suffix hp s mem)
    | some s =>
      obtain ⟨mem, ends⟩ := (h.suffix s hp).holds
      cases hq : q.suffix with
      | none => exact absurd (rest ▸ ends) (h'.no_suffix hq s mem)
      | some s' =>
        obtain ⟨mem', ends'⟩ := (h'.suffix s' hq).holds
        rw [← rest] at ends'
        have least := (h.suffix s hp).longest s' ⟨mem', ends'⟩
        have greatest := (h'.suffix s' hq).longest s ⟨mem, rest ▸ ends⟩
        rw [eq_of_suffix_of_length_eq ends ends' (Nat.le_antisymm greatest least)]
  have middle : p.middle = q.middle := by
    rw [Morphology.rest, Morphology.rest, suffix] at rest
    exact String.append_left_inj _ |>.1 rest
  have family : p.family = q.family := (marker ▸ h.standsFor).unique h'.standsFor
  obtain ⟨_, _, _, _⟩ := p
  obtain ⟨_, _, _, _⟩ := q
  simp_all

theorem dropEnd_append (middle ending : String) :
    dropEnd (middle ++ ending) ending.length = middle := by
  have count : (middle ++ ending).length - ending.length = middle.toList.length := by
    rw [String.length_append, Nat.add_sub_cancel, String.length_toList]
  rw [dropEnd, count, String.toList_append, List.take_left, String.ofList_toList]

/-- What follows the marker is a middle and the suffix that is matched. -/
theorem exists_rest (begins : m.toList <+: token.toList) :
    ∃ rest middle, token = m ++ rest ∧ rest = middle ++ (t.matchSuffix rest).getD "" := by
  obtain ⟨rest, whole⟩ := begins
  refine ⟨String.ofList rest, ?_⟩
  have whole' : token = m ++ String.ofList rest := String.toList_injective (by simp [whole])
  cases h : t.matchSuffix (String.ofList rest) with
  | none => exact ⟨String.ofList rest, whole', by simp⟩
  | some s =>
    obtain ⟨middle, parts⟩ := ((t.matchSuffix_spec _).1 s h).holds.2
    refine ⟨String.ofList middle, whole', String.toList_injective ?_⟩
    rw [← parts]
    simp

/-- A token that a marker begins is cut behind the marker and in front of the suffix. -/
theorem decompose_of_matchMarker {rest middle : String} (regular : token ∉ t.infrastructure)
    (h : t.matchMarker token = some (m, f)) (whole : token = m ++ rest)
    (parts : rest = middle ++ (t.matchSuffix rest).getD "") :
    t.decompose token = .parsed ⟨f, m, middle, t.matchSuffix rest⟩ := by
  have cut : String.ofList (token.toList.drop m.length) = rest := by
    rw [whole, String.toList_append, ← String.length_toList, List.drop_left, String.ofList_toList]
  have kept : dropEnd rest ((t.matchSuffix rest).elim 0 String.length) = middle := by
    have count : (t.matchSuffix rest).elim 0 String.length =
        ((t.matchSuffix rest).getD "").length := by
      cases t.matchSuffix rest <;> rfl
    rw [count]
    conv => lhs; arg 1; rw [parts]
    exact dropEnd_append _ _
  rw [decompose, if_neg regular, h]
  simp only [cut, kept]

/-- A token that a marker begins has the parts into which it is split. -/
theorem exists_splits (regular : token ∉ t.infrastructure)
    (h : t.matchMarker token = some (m, f)) :
    ∃ p, t.decompose token = .parsed p ∧ t.Splits token p := by
  obtain ⟨stands, longest⟩ := longest_of_matchMarker h
  obtain ⟨rest, middle, whole, parts⟩ := exists_rest (t := t) longest.holds.2
  refine ⟨_, decompose_of_matchMarker regular h whole parts, ?_⟩
  obtain ⟨suffix, no_suffix⟩ := t.matchSuffix_spec rest
  refine {
    whole := ?_
    marker := longest
    family := fun mem ↦ stands.unique (.inl ⟨mem, rfl⟩)
    variant := fun f' value ↦ stands.unique (.inr value)
    family_mem := stands.family_mem
    isExtended_iff := bne_iff_ne.trans stands.ne_iff
    suffix := ?_
    no_suffix := ?_ }
  · rw [Morphology.rest, ← parts, whole]
  · rw [Morphology.rest, ← parts]
    exact suffix
  · rw [Morphology.rest, ← parts]
    exact no_suffix

/-- A token is structural, or no marker begins it, or it has parts. -/
theorem decompose_cases (t : Markers) (token : String) :
    (token ∈ t.infrastructure ∧ t.decompose token = .infrastructure) ∨
      (token ∉ t.infrastructure ∧ (∀ m, t.IsMarker m → ¬ m.toList <+: token.toList) ∧
        t.decompose token = .invalid) ∨
      (token ∉ t.infrastructure ∧ ∃ p, t.decompose token = .parsed p ∧ t.Splits token p) := by
  by_cases structural : token ∈ t.infrastructure
  · exact .inl ⟨structural, if_pos structural⟩
  · cases h : t.matchMarker token with
    | none =>
      refine .inr (.inl ⟨structural, matchMarker_eq_none_iff.1 h, ?_⟩)
      rw [decompose, if_neg structural, h]
    | some p => exact .inr (.inr ⟨structural, exists_splits structural h⟩)

end Markers

/-! ## Cutting by bytes -/

/-- The text between two offsets in bytes.  There is none unless both are boundaries of characters
and in order. -/
def byteSlice? (s : String) (first last : Nat) : Option String :=
  if first ≤ last ∧ String.Pos.Raw.IsValid s ⟨first⟩ ∧ String.Pos.Raw.IsValid s ⟨last⟩ then
    String.fromUTF8? (s.toUTF8.extract first last)
  else none

/-- A text cut out of another by the numbers of bytes in front of it and behind it. -/
theorem byteSlice?_append (front s back : String) :
    byteSlice? (front ++ s ++ back) front.utf8ByteSize (front ++ s).utf8ByteSize = some s := by
  have order : front.utf8ByteSize ≤ (front ++ s).utf8ByteSize := by
    rw [String.utf8ByteSize_append]
    omega
  have first : String.Pos.Raw.IsValid (front ++ s ++ back) ⟨front.utf8ByteSize⟩ :=
    String.Pos.Raw.isValid_iff_exists_append.2 ⟨front, s ++ back, String.append_assoc, rfl⟩
  have last : String.Pos.Raw.IsValid (front ++ s ++ back) ⟨(front ++ s).utf8ByteSize⟩ :=
    String.Pos.Raw.isValid_iff_exists_append.2 ⟨front ++ s, back, rfl, rfl⟩
  have bytes : (front ++ s ++ back).toUTF8.extract front.utf8ByteSize (front ++ s).utf8ByteSize =
      s.toUTF8 := by
    have size : (front ++ s).utf8ByteSize = front.toByteArray.size + s.toByteArray.size :=
      String.utf8ByteSize_append
    simp only [String.toUTF8_eq_toByteArray, String.toByteArray_append, size]
    calc (front.toByteArray ++ s.toByteArray ++ back.toByteArray).extract front.toByteArray.size
          (front.toByteArray.size + s.toByteArray.size)
        = (front.toByteArray ++ (s.toByteArray ++ back.toByteArray)).extract
            (front.toByteArray.size + 0) (front.toByteArray.size + s.toByteArray.size) := by
          rw [ByteArray.append_assoc, Nat.add_zero]
      _ = (s.toByteArray ++ back.toByteArray).extract 0 s.toByteArray.size :=
          ByteArray.extract_append_size_add
      _ = s.toByteArray := ByteArray.extract_append_eq_left rfl
  rw [byteSlice?, if_pos ⟨order, first, last⟩, bytes]
  exact dif_pos s.isValidUTF8

namespace Markers

/-- Splits a token at offsets in bytes.  There is no result when an offset lies outside the text or
within a character. -/
def decomposeBytes? (t : Markers) (token : String) : Option Decomposition :=
  if token ∈ t.infrastructure then some .infrastructure
  else
    match t.matchMarker token with
    | none => some .invalid
    | some (marker, family) => do
      let rest ← byteSlice? token marker.utf8ByteSize token.utf8ByteSize
      let suffix := t.matchSuffix rest
      let taken := suffix.elim 0 String.utf8ByteSize
      if taken ≤ rest.utf8ByteSize then
        let middle ← byteSlice? rest 0 (rest.utf8ByteSize - taken)
        return .parsed ⟨family, marker, middle, suffix⟩
      else none

/-- All offsets at which a token is split are boundaries of characters, and the parts are those
that counting characters gives. -/
theorem decomposeBytes?_eq (t : Markers) (token : String) :
    t.decomposeBytes? token = some (t.decompose token) := by
  unfold decomposeBytes?
  split
  next structural => rw [decompose, if_pos structural]
  next regular =>
    split
    next h => rw [decompose, if_neg regular, h]
    next m f h =>
      obtain ⟨rest, middle, whole, parts⟩ :=
        exists_rest (t := t) (longest_of_matchMarker h).2.holds.2
      have first : byteSlice? token m.utf8ByteSize token.utf8ByteSize = some rest := by
        have slice := byteSlice?_append m rest ""
        rwa [String.append_empty, ← whole] at slice
      have taken : (t.matchSuffix rest).elim 0 String.utf8ByteSize =
          ((t.matchSuffix rest).getD "").utf8ByteSize := by
        cases t.matchSuffix rest <;> rfl
      have size : rest.utf8ByteSize =
          middle.utf8ByteSize + ((t.matchSuffix rest).getD "").utf8ByteSize := by
        rw [← String.utf8ByteSize_append, ← parts]
      have second : byteSlice? rest 0 middle.utf8ByteSize = some middle := by
        have slice := byteSlice?_append "" middle ((t.matchSuffix rest).getD "")
        rwa [String.empty_append, ← parts] at slice
      have left : rest.utf8ByteSize - ((t.matchSuffix rest).getD "").utf8ByteSize =
          middle.utf8ByteSize := by
        omega
      rw [decompose_of_matchMarker regular h whole parts]
      simp only [first, Option.bind_eq_bind, Option.bind_some, taken]
      rw [if_pos (by omega), left, second]
      rfl

/-! ## The decomposition of every token -/

/-- **A token is split exactly as its texts say.**  It is structural exactly when it is listed.
Otherwise it is invalid exactly when no marker begins it, as none begins the empty one; and else it
has the parts that `Splits` states, and no other.  Splitting at offsets in bytes never fails and
gives the same. -/
theorem decompose_exact (t : Markers) (token : String) :
    (t.decompose token = .infrastructure ↔ token ∈ t.infrastructure) ∧
      (token ∉ t.infrastructure →
        (t.decompose token = .invalid ↔ ∀ m, t.IsMarker m → ¬ m.toList <+: token.toList)) ∧
      (∀ p, t.decompose token = .parsed p ↔ token ∉ t.infrastructure ∧ t.Splits token p) ∧
      t.decompose "" = .invalid ∧
      t.decomposeBytes? token = some (t.decompose token) := by
  refine ⟨?infrastructure, fun regular ↦ ?invalid, fun p ↦ ?parsed, ?empty,
    decomposeBytes?_eq t token⟩
  case infrastructure =>
    rcases t.decompose_cases token with ⟨mem, value⟩ | ⟨regular, -, value⟩ | ⟨regular, p, value, -⟩
    · exact iff_of_true value mem
    · exact iff_of_false (by simp [value]) regular
    · exact iff_of_false (by simp [value]) regular
  case invalid =>
    rcases t.decompose_cases token with ⟨mem, -⟩ | ⟨-, none, value⟩ | ⟨-, p, value, splits⟩
    · exact absurd mem regular
    · exact iff_of_true value none
    · refine iff_of_false (by simp [value]) fun none ↦ ?_
      exact none p.marker splits.marker.holds.1 splits.marker.holds.2
  case parsed =>
    rcases t.decompose_cases token with
      ⟨mem, value⟩ | ⟨-, none, value⟩ | ⟨regular, q, value, splits⟩
    · exact iff_of_false (by simp [value]) fun h ↦ h.1 mem
    · refine iff_of_false (by simp [value]) fun ⟨_, splits⟩ ↦ ?_
      exact none p.marker splits.marker.holds.1 splits.marker.holds.2
    · rw [value, Decomposition.parsed.injEq]
      constructor
      · rintro rfl
        exact ⟨regular, splits⟩
      · exact fun h ↦ splits.unique h.2
  case empty =>
    rcases t.decompose_cases "" with ⟨mem, -⟩ | ⟨-, -, value⟩ | ⟨-, p, -, splits⟩
    · exact absurd mem t.infrastructure_ne
    · exact value
    · have marker := splits.marker.holds
      exact absurd (String.toList_injective (List.prefix_nil.1 marker.2)) marker.1.ne_empty

end Markers

end ManuscriptReach
