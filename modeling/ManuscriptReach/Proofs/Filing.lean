import ManuscriptReach.Command.Plan
import ManuscriptReach.Proofs.Accounting
import ManuscriptReach.Proofs.Gathering
import ManuscriptReach.Proofs.RaisingBound

/-!
# Filing middles

A partition is built up by filing one middle after the other.  The parts alone do not keep a middle
from being filed twice, and looking up its class would hide that, since the first part that holds
the middle answers.  What keeps the parts apart is that a function gives the classes
(`Partition.Files`): each middle is filed under its class and nowhere else, at every step.

The command that shows single tokens never sees a partition.  It looks up the spread of a middle on
its own, and still shows the class under which the entry files the middle (`Tables.Shows`).
-/

namespace ManuscriptReach

namespace MiddleClass

/-- The classes in their order. -/
def all : List MiddleClass := [restricted, universal, unknown]

theorem mem_all (c : MiddleClass) : c ∈ all := by cases c <;> decide

theorem nodup_all : all.Nodup := by decide

end MiddleClass

namespace Partition

variable {p q : Partition} {classOf : String → MiddleClass} {s : StringSet} {m x : String}
variable {c d : MiddleClass}

/-! ## Parts -/

theorem ext_part (h : ∀ c m, m ∈ p.part c ↔ m ∈ q.part c) : p = q := by
  cases p
  cases q
  congr
  · exact SortedSet.ext_mem (h .restricted)
  · exact SortedSet.ext_mem (h .universal)
  · exact SortedSet.ext_mem (h .unknown)

theorem not_mem_part_empty (c : MiddleClass) (m : String) : m ∉ (∅ : Partition).part c := by
  cases c <;> exact SortedSet.not_mem_empty m

/-- Filing a middle changes one part. -/
theorem mem_part_insert : x ∈ (p.insert m c).part d ↔ (x = m ∧ c = d) ∨ x ∈ p.part d := by
  cases c <;> cases d <;> simp [insert, part]

theorem mem_all_iff : m ∈ p.all ↔ ∃ c, m ∈ p.part c := by
  rw [all, SortedSet.mem_union, SortedSet.mem_union, or_assoc]
  constructor
  · rintro (h | h | h)
    · exact ⟨.restricted, h⟩
    · exact ⟨.universal, h⟩
    · exact ⟨.unknown, h⟩
  · rintro ⟨c, h⟩
    cases c with
    | restricted => exact .inl h
    | universal => exact .inr (.inl h)
    | unknown => exact .inr (.inr h)

/-- No middle is filed under two classes. -/
theorem isDisjoint_iff :
    p.isDisjoint = true ↔ ∀ m c d, m ∈ p.part c → m ∈ p.part d → c = d := by
  simp only [isDisjoint, Bool.and_eq_true, decide_eq_true_eq, SortedSet.disjoint_def]
  constructor
  · rintro ⟨⟨ru, rn⟩, un⟩ m c d hc hd
    cases c <;> cases d <;> grind [part]
  · intro once
    refine ⟨⟨fun m hc hd ↦ ?_, fun m hc hd ↦ ?_⟩, fun m hc hd ↦ ?_⟩
    · cases once m .restricted .universal hc hd
    · cases once m .restricted .unknown hc hd
    · cases once m .universal .unknown hc hd

/-- The class of a middle is the first one under which it is filed. -/
theorem classOf?_eq_find? (p : Partition) (m : String) :
    p.classOf? m = MiddleClass.all.find? fun c ↦ decide (m ∈ p.part c) := by
  by_cases hr : m ∈ p.restricted
  · simp [classOf?, MiddleClass.all, part, hr]
  by_cases hu : m ∈ p.universal
  · simp [classOf?, MiddleClass.all, part, hr, hu]
  by_cases hn : m ∈ p.unknown
  · simp [classOf?, MiddleClass.all, part, hr, hu, hn]
  · simp [classOf?, MiddleClass.all, part, hr, hu, hn]

/-- Where no middle is filed twice, the class of a middle is that under which it is filed. -/
theorem classOf?_eq_some_iff (h : p.isDisjoint = true) :
    p.classOf? m = some c ↔ m ∈ p.part c := by
  rw [classOf?_eq_find?]
  constructor
  · intro found
    have passes := List.find?_some found
    exact of_decide_eq_true passes
  · intro hc
    cases found : MiddleClass.all.find? fun c ↦ decide (m ∈ p.part c) with
    | none =>
      have absent := List.find?_eq_none.1 found c c.mem_all
      exact absurd (decide_eq_true hc) absent
    | some d =>
      have passes := List.find?_some found
      exact congrArg some (isDisjoint_iff.1 h m d c (of_decide_eq_true passes) hc)

theorem classOf?_eq_none_iff : p.classOf? m = none ↔ m ∉ p.all := by
  rw [classOf?_eq_find?, List.find?_eq_none, mem_all_iff, not_exists]
  simp only [decide_eq_true_eq, MiddleClass.mem_all, true_implies]

theorem size_eq_sum (p : Partition) :
    p.size = (MiddleClass.all.map fun c ↦ (p.part c).size).sum := by
  simp [size, MiddleClass.all, part, Nat.add_assoc]

/-! ## Filing by a function -/

/-- A partition files the members of a set under the classes that a function gives them, and files
nothing else. -/
def Files (p : Partition) (classOf : String → MiddleClass) (s : StringSet) : Prop :=
  ∀ c m, m ∈ p.part c ↔ m ∈ s ∧ classOf m = c

theorem files_empty (classOf : String → MiddleClass) : (∅ : Partition).Files classOf ∅ :=
  fun c m ↦ iff_of_false (not_mem_part_empty c m) fun h ↦ SortedSet.not_mem_empty m h.1

/-- Filing one more middle under its class keeps this. -/
theorem Files.insert (h : p.Files classOf s) (m : String) :
    (p.insert m (classOf m)).Files classOf (s.insert m) := by
  intro c x
  rw [mem_part_insert, SortedSet.mem_insert, h c x, or_and_right]
  exact or_congr_left (and_congr_right fun same ↦ by rw [same])

/-- So does filing any number of middles. -/
theorem Files.foldl (h : p.Files classOf s) (ms : List String) :
    (ms.foldl (fun p m ↦ p.insert m (classOf m)) p).Files classOf
      (ms.foldl (fun s m ↦ s.insert m) s) := by
  induction ms generalizing p s with
  | nil => exact h
  | cons m ms ih => exact ih (h.insert m)

theorem files_ofSet (classOf : String → MiddleClass) (s : StringSet) :
    (ofSet classOf s).Files classOf s := fun _ _ ↦ mem_part_ofSet

/-- There is one way to file a set. -/
theorem Files.unique (h : p.Files classOf s) (h' : q.Files classOf s) : p = q :=
  ext_part fun c m ↦ (h c m).trans (h' c m).symm

/-- Going through the members of a set in their order files the set. -/
theorem ofSet_eq_foldl (classOf : String → MiddleClass) (s : StringSet) :
    ofSet classOf s = s.toList.foldl (fun p m ↦ p.insert m (classOf m)) ∅ := by
  have run := (files_empty classOf).foldl s.toList
  rw [← SortedSet.ofList, SortedSet.ofList_toList] at run
  exact (files_ofSet classOf s).unique run

/-- A partition of a set, under which each member has the class that a function gives it. -/
structure IsPartition (p : Partition) (classOf : String → MiddleClass) (s : StringSet) : Prop where
  /-- No middle is filed twice, -/
  disjoint : p.isDisjoint = true
  /-- every member is filed and nothing else, -/
  all : p.all = s
  /-- so that as many are filed as the set has members. -/
  size : p.size = s.size
  /-- A member is found under its class. -/
  classOf? : ∀ m, p.classOf? m = if m ∈ s then some (classOf m) else none

theorem Files.isDisjoint (h : p.Files classOf s) : p.isDisjoint = true := by
  rw [isDisjoint_iff]
  intro m c d hc hd
  exact ((h c m).1 hc).2.symm.trans ((h d m).1 hd).2

theorem Files.all_eq (h : p.Files classOf s) : p.all = s := by
  apply SortedSet.ext_mem
  intro m
  rw [mem_all_iff]
  constructor
  · rintro ⟨c, hc⟩
    exact ((h c m).1 hc).1
  · exact fun hm ↦ ⟨classOf m, (h _ m).2 ⟨hm, rfl⟩⟩

theorem size_part_ofSet (classOf : String → MiddleClass) (s : StringSet) (c : MiddleClass) :
    ((ofSet classOf s).part c).size = s.toList.countP fun m ↦ classOf m == c := by
  rw [List.countP_eq_length_filter]
  cases c <;> rfl

/-- Every member is counted in one part. -/
theorem Files.size_eq (h : p.Files classOf s) : p.size = s.size := by
  rw [h.unique (files_ofSet classOf s), size_eq_sum]
  simp only [size_part_ofSet]
  exact sum_countP_key MiddleClass.nodup_all fun m _ ↦ (classOf m).mem_all

theorem Files.classOf?_eq (h : p.Files classOf s) (m : String) :
    p.classOf? m = if m ∈ s then some (classOf m) else none := by
  split
  next hm => exact (classOf?_eq_some_iff h.isDisjoint).2 ((h _ m).2 ⟨hm, rfl⟩)
  next hm => exact classOf?_eq_none_iff.2 (h.all_eq ▸ hm)

theorem Files.isPartition (h : p.Files classOf s) : p.IsPartition classOf s :=
  ⟨h.isDisjoint, h.all_eq, h.size_eq, h.classOf?_eq⟩

end Partition

namespace Tables

variable {t : Tables} {e : Entry} {w m : String} {c : MiddleClass}

/-! ## Entries -/

theorem files_sorting (t : Tables) (e : Entry) :
    (t.sorting e).partition.Files t.middleClass (t.sorting e).aggregate.bundle.middles :=
  fun _ _ ↦ mem_part_sorting

/-- An entry files the middles of its regular tokens, but not the empty one. -/
theorem mem_part_tokens : m ∈ (t.sorting e).partition.part c ↔
    t.middleClass m = c ∧ m ≠ "" ∧
      ∃ w ∈ e.tokens, ∃ p, t.markers.decompose w = .parsed p ∧ p.middle = m := by
  rw [mem_part_sorting, and_comm]
  exact and_congr_right fun _ ↦ Markers.mem_middles_iff

/-- Tokens without a middle leave the partition as it is. -/
theorem partition_filter (t : Tables) (e : Entry) :
    (t.sorting ⟨e.id, e.tokens.filter fun w ↦
      (t.markers.decompose w).parts?.any Morphology.hasMiddle⟩).partition =
        (t.sorting e).partition := by
  apply Partition.ext_part
  intro c m
  rw [mem_part_tokens, mem_part_tokens]
  refine and_congr_right fun _ ↦ and_congr_right fun some ↦ exists_congr fun w ↦ ?_
  rw [List.mem_filter, and_assoc]
  refine and_congr_right fun _ ↦ and_iff_right_of_imp ?_
  rintro ⟨p, hp, rfl⟩
  rw [hp]
  exact bne_iff_ne.2 some

end Tables

/-! ## Single tokens -/

/-- What is shown of a marker, with its family if it is not one itself. -/
def Morphology.shownMarker (p : Morphology) : String :=
  p.marker ++ if p.isExtended then " (" ++ p.family ++ ")" else ""

namespace Tables

/-- The line and the row that show a token of an entry.  A middle is shown with the class under
which the entry files it. -/
inductive Shows (t : Tables) (e : Entry) (w : String) : String × Json → Prop
  | infrastructure : t.markers.decompose w = .infrastructure →
    Shows t e w (padEnd 12 w ++ " " ++ "infrastructure",
      .record [("token", .ofString w), ("decomposition", Decomposition.infrastructure.toJson)])
  | invalid : t.markers.decompose w = .invalid →
    Shows t e w (padEnd 12 w ++ " " ++ "invalid",
      .record [("token", .ofString w), ("decomposition", Decomposition.invalid.toJson)])
  /-- Without a middle neither a class nor a spread is shown. -/
  | bare {p : Morphology} : t.markers.decompose w = .parsed p → p.middle = "" →
    Shows t e w
      (padEnd 12 w ++ " " ++ (p.shownMarker ++ " | " ++ "-" ++ " | " ++ p.suffix.getD "-"),
        .record [("token", .ofString w), ("decomposition", (Decomposition.parsed p).toJson)])
  | filed {p : Morphology} {c : MiddleClass} : t.markers.decompose w = .parsed p → p.middle ≠ "" →
    (t.sorting e).partition.classOf? p.middle = some c →
    Shows t e w
      (padEnd 12 w ++ " " ++ (p.shownMarker ++ " | " ++ p.middle ++ " | " ++ p.suffix.getD "-" ++
          ("  [" ++ c.name ++ " spread " ++ toString (t.spreads.spread p.middle) ++ "]")),
        .record [("token", .ofString w), ("decomposition", (Decomposition.parsed p).toJson),
          ("spread", .ofNat (t.spreads.spread p.middle))])

variable {t : Tables} {e : Entry} {w : String} {p : Morphology}

theorem middleSpread?_of_bare (h : p.middle = "") : t.middleSpread? (.parsed p) = none := by
  have bare : p.hasMiddle = false := bne_eq_false_iff_eq.2 h
  rw [middleSpread?, Decomposition.parts?, Option.filter_some, bare]
  rfl

theorem middleSpread?_of_ne (h : p.middle ≠ "") :
    t.middleSpread? (.parsed p) = some (t.spreads.spread p.middle) := by
  have some : p.hasMiddle = true := bne_iff_ne.2 h
  rw [middleSpread?, Decomposition.parts?, Option.filter_some, some]
  rfl

theorem classOf?_sorting (t : Tables) (e : Entry) (m : String) :
    (t.sorting e).partition.classOf? m =
      if m ∈ (t.sorting e).aggregate.bundle.middles then some (t.middleClass m) else none :=
  (t.files_sorting e).classOf?_eq m

/-- The class and the spread of a middle are looked up as the entry looks them up. -/
theorem shows_token (hw : w ∈ e.tokens) : t.Shows e w (t.tokenLine w, t.tokenToJson w) := by
  cases parts : t.markers.decompose w with
  | infrastructure =>
    rw [tokenLine, tokenToJson, parts]
    exact .infrastructure parts
  | invalid =>
    rw [tokenLine, tokenToJson, parts]
    exact .invalid parts
  | parsed p =>
    by_cases none : p.middle = ""
    · have bare : p.hasMiddle = false := bne_eq_false_iff_eq.2 none
      rw [tokenLine, tokenToJson, parts, showDecomposition, middleSpread?_of_bare none, bare,
        Option.map_none, Option.getD_none, String.append_empty]
      exact .bare parts none
    · have some : p.hasMiddle = true := bne_iff_ne.2 none
      have mem : p.middle ∈ (t.sorting e).aggregate.bundle.middles :=
        Markers.mem_middles_iff.2 ⟨none, w, hw, p, parts, rfl⟩
      have filed : (t.sorting e).partition.classOf? p.middle =
          Option.some (t.middleClass p.middle) := by
        rw [classOf?_sorting, if_pos mem]
      rw [tokenLine, tokenToJson, parts, showDecomposition, middleSpread?_of_ne none, some]
      exact .filed parts none filed

/-- Going through tokens shows each as its entry files it. -/
theorem forall₂_shows (t : Tables) (e : Entry) (tokens : List String) :
    List.Forall₂ (fun w r ↦ w ∈ e.tokens → t.Shows e w r) tokens
      (tokens.map fun w ↦ (t.tokenLine w, t.tokenToJson w)) := by
  rw [List.forall₂_map_right_iff, List.forall₂_same]
  exact fun w _ hw ↦ shows_token hw

/-- **Middles are filed once each, and shown as they are filed.**  Filing any set by any spreads and
bound gives a partition of the set, in which a middle has the class of its spread; going through the
set middle by middle gives the same.  So the command on tokens shows every token of an entry with
the class under which the entry files its middle.  An entry files the middles of its regular tokens,
and tokens without a middle leave the partition as it is. -/
theorem filing_shown :
    (∀ (spreads : SpreadTable) (bound : ℕ) (middles : StringSet),
      (Partition.ofSet (spreads.classOf bound) middles).IsPartition
          (fun m ↦ .ofSpread bound (spreads.spread m)) middles ∧
        Partition.ofSet (spreads.classOf bound) middles =
          middles.toList.foldl (fun p m ↦ p.insert m (.ofSpread bound (spreads.spread m))) ∅) ∧
    ∀ (t : Tables) (e : Entry),
      (∀ tokens, ∃ shown : List (String × Json),
        (t.planDecompose .pretty tokens).shown = unlines (shown.map Prod.fst) ∧
          (t.planDecompose .json tokens).shown =
            (Json.array (shown.map Prod.snd)).indented ++ "\n" ∧
          List.Forall₂ (fun w r ↦ w ∈ e.tokens → t.Shows e w r) tokens shown) ∧
      (∀ c m, m ∈ (t.sorting e).partition.part c ↔
        t.middleClass m = c ∧ m ≠ "" ∧
          ∃ w ∈ e.tokens, ∃ p, t.markers.decompose w = .parsed p ∧ p.middle = m) ∧
      (t.sorting ⟨e.id, e.tokens.filter fun w ↦
        (t.markers.decompose w).parts?.any Morphology.hasMiddle⟩).partition =
          (t.sorting e).partition := by
  refine ⟨fun spreads bound middles ↦ ?_, fun t e ↦ ⟨fun tokens ↦ ?_, ?_, ?_⟩⟩
  · exact ⟨(Partition.files_ofSet _ middles).isPartition, Partition.ofSet_eq_foldl _ middles⟩
  · refine ⟨_, ?_, ?_, t.forall₂_shows e tokens⟩
    · rw [planDecompose, List.map_map]
      rfl
    · rw [planDecompose, List.map_map]
      rfl
  · exact fun c m ↦ mem_part_tokens
  · exact t.partition_filter e

end Tables

/-- An entry with three tokens, of which the second has no parts. -/
def filedEntry : Entry := ⟨"e", ["qoa", "xx", "qob"]⟩

/-- The tokens are shown with the classes under which the entry files their middles, and the entry
files the same without the second. -/
theorem filing_shown_sample :
    (∃ shown : List (String × Json),
      unlines (shown.map Prod.fst) = unlines ["qoa          qo | a | -  [RESTRICTED spread 1]",
          "xx           invalid", "qob          qo | b | -  [UNIVERSAL spread 2]"] ∧
        List.Forall₂ (statedTables.Shows filedEntry) filedEntry.tokens shown) ∧
      (statedTables.sorting filedEntry).partition = ⟨.ofList ["a"], .ofList ["b"], ∅⟩ ∧
      (statedTables.sorting ⟨"e", ["qoa", "qob"]⟩).partition =
        (statedTables.sorting filedEntry).partition := by
  obtain ⟨shows, -, filtered⟩ := Tables.filing_shown.2 statedTables filedEntry
  obtain ⟨shown, pretty, -, each⟩ := shows filedEntry.tokens
  have lines : (statedTables.planDecompose .pretty filedEntry.tokens).shown =
      unlines ["qoa          qo | a | -  [RESTRICTED spread 1]", "xx           invalid",
        "qob          qo | b | -  [UNIVERSAL spread 2]"] := by
    decide +kernel
  have kept : filedEntry.tokens.filter (fun w ↦
      (statedTables.markers.decompose w).parts?.any Morphology.hasMiddle) = ["qoa", "qob"] := by
    decide +kernel
  refine ⟨⟨shown, pretty.symm.trans lines, ?_⟩, by decide +kernel, kept ▸ filtered⟩
  exact List.forall₂_iff_get.2 ⟨each.length_eq, fun i h h' ↦
    (List.forall₂_iff_get.1 each).2 i h h' (List.get_mem ..)⟩

end ManuscriptReach
