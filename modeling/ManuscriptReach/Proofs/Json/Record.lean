import ManuscriptReach.Json.Node
import ManuscriptReach.Proofs.Json.Text

/-!
# Records in writing

What is read from a written tree, part by part: the fields of a record are found under
their names, and texts, numbers, lists and sets read back.  Each record type then reads
back by citing the lemmas of its parts.
-/

namespace ManuscriptReach

/-- Digits need no escape. -/
theorem Literal.encode_toString (n : Nat) : Literal.encode (toString n) = Nat.toDigits 10 n := by
  have plain : ∀ c ∈ Nat.toDigits 10 n, encodeChar c = [c] := by
    intro c hc
    have digit := Numeral.isDigit_of_mem_toDigits hc
    obtain ⟨e, -, he, -, -⟩ | ⟨small, -⟩ | ⟨-, -, -, plain⟩ := encodeChar_cases c
    · unfold escaped? at he
      split at he <;> cases he <;> cases digit
    · rw [Char.isDigit, Bool.and_eq_true, decide_eq_true_eq, ge_iff_le, UInt32.le_iff_toNat_le]
        at digit
      exact absurd small (Nat.not_lt.2 (le_trans (by decide) digit.1))
    · exact plain
  rw [encode, Nat.toString_eq_ofList_toDigits, String.toList_ofList, List.flatMap_congr plain]
  exact List.flatMap_singleton' _

namespace Json

/-! ## Plain parts -/

theorem isPlain_ofNat (n : Nat) : IsPlain (ofNat n) := .numeral (Numeral.isGrammatical_ofNat n)

theorem isPlain_ofFloat (x : Float) : IsPlain (ofFloat x) := by
  unfold ofFloat
  cases h : Numeral.ofFloat? x with
  | none => exact .null
  | some n => exact .numeral (Numeral.isGrammatical_of_ofFloat? h)

theorem isPlain_array_map {α : Type} {f : α → Json} (h : ∀ a, IsPlain (f a)) (xs : List α) :
    IsPlain (array (xs.map f)) := by
  refine .array fun x hx ↦ ?_
  obtain ⟨a, -, rfl⟩ := List.mem_map.1 hx
  exact h a

theorem isPlain_ofStrings (ss : List String) : IsPlain (ofStrings ss) :=
  isPlain_array_map .ofString ss

theorem isPlain_ofStringSet (s : StringSet) : IsPlain (ofStringSet s) := isPlain_ofStrings s.toList

theorem isPlain_ofStringMap {β : Type} {f : β → Json} (h : ∀ b, IsPlain (f b)) (m : StringMap β) :
    IsPlain (ofStringMap f m) := by
  refine .record fun p hp ↦ ?_
  obtain ⟨q, -, rfl⟩ := List.mem_map.1 hp
  exact h q.2

theorem isPlain_nullable {α : Type} {f : α → Json} (h : ∀ a, IsPlain (f a)) (a : Option α) :
    IsPlain (nullable f a) := by
  cases a with
  | none => exact .null
  | some a => exact h a

/-! ## Views of the parts -/

@[simp] theorem text?_ofString (s : String) : Node.text? (ofString s) = some s :=
  Literal.decode?_encode s

@[simp] theorem word?_ofString (s : String) : Node.word? (ofString s) = some s :=
  Literal.decode?_encode s

theorem natural?_ofNat {n : Nat} (h : n < wordLimit) : Node.natural? (ofNat n) = some n :=
  Numeral.natural?_ofNat h

/-- A list is read item by item. -/
theorem mapM_map_eq_some {α β γ : Type} {f : α → β} {read : β → Option γ} {g : α → γ} {xs : List α}
    (h : ∀ a ∈ xs, read (f a) = some (g a)) : (xs.map f).mapM read = some (xs.map g) := by
  induction xs with
  | nil => rfl
  | cons x xs ih =>
    obtain ⟨hx, hxs⟩ := List.forall_mem_cons.1 h
    rw [List.map_cons, List.mapM_cons, hx, ih hxs]
    rfl

/-- A list reads back when its items do. -/
theorem list?_array {α : Type} {f : α → Json} {read : Json → Option α} {xs : List α}
    (h : ∀ a ∈ xs, read (f a) = some a) : Node.list? read (array (xs.map f)) = some xs :=
  (mapM_map_eq_some h).trans (congrArg some (List.map_id xs))

/-- What is read after something that reads back exactly under a condition. -/
theorem bind_ite_some {α β : Type} {P : Prop} [Decidable P] (a : α) (read : α → Option β) :
    (if P then some a else none).bind read = if P then read a else none := by
  split
  · rfl
  · rfl

/-- Where an item reads back exactly when it has a property, a list does when all its items have
it. -/
theorem list?_array_ite {α : Type} {f : α → Json} {read : Json → Option α} {P : α → Prop}
    [DecidablePred P] (xs : List α) (h : ∀ a ∈ xs, read (f a) = if P a then some a else none) :
    Node.list? read (array (xs.map f)) = if ∀ a ∈ xs, P a then some xs else none := by
  change (xs.map f).mapM read = _
  induction xs with
  | nil => rfl
  | cons x xs ih =>
    obtain ⟨hx, hxs⟩ := List.forall_mem_cons.1 h
    rw [List.map_cons, List.mapM_cons, hx, ih hxs]
    simp only [Option.bind_eq_bind, bind_ite_some, ← ite_and]
    exact if_congr List.forall_mem_cons.symm rfl rfl

@[simp] theorem texts?_ofStrings (ss : List String) : Node.texts? (ofStrings ss) = some ss :=
  list?_array fun s _ ↦ text?_ofString s

@[simp] theorem textSet?_ofStringSet (s : StringSet) : Node.textSet? (ofStringSet s) = some s := by
  rw [Node.textSet?, ofStringSet, texts?_ofStrings, Option.map_some, SortedSet.ofList_toList]

/-- The members of a written record, with their names as texts. -/
theorem members?_record (ms : List (String × Json)) :
    Node.members? (record ms) = some (ms.map fun m ↦ (some m.1, m.2)) := by
  change some ((ms.map fun m ↦ (Literal.encode m.1, m.2)).map fun m ↦
    (Literal.decode? m.1, m.2)) = _
  rw [List.map_map]
  simp only [Function.comp_def, Literal.decode?_encode]

/-- The members of a written record whose names are numbers. -/
theorem numbered?_record {α : Type} {f : α → Json} {ps : List (Nat × α)}
    (h : ∀ p ∈ ps, p.1 < wordLimit) :
    Node.numbered? (record (ps.map fun p ↦ (toString p.1, f p.2))) =
      some (ps.map fun p ↦ (p.1, f p.2)) := by
  change ((ps.map fun p ↦ (toString p.1, f p.2)).map fun p ↦ (Literal.encode p.1, p.2)).mapM
    (fun m ↦ (Numeral.readNatural? m.1).map (·, m.2)) = _
  rw [List.map_map]
  refine mapM_map_eq_some fun p hp ↦ ?_
  change (Numeral.readNatural? (Literal.encode (toString p.1))).map _ = _
  rw [Literal.encode_toString, Numeral.readNatural?_toDigits (h p hp)]
  rfl

/-- Where no name occurs twice, the one value under a name is what a look-up finds. -/
theorem atKey?_members {ms : List (String × Json)} (h : (ms.map Prod.fst).Nodup) (name : String) :
    Node.atKey? (ms.map fun m ↦ (some m.1, m.2)) name = some (ms.lookup name) := by
  induction ms with
  | nil => rfl
  | cons m ms ih =>
    obtain ⟨key, value⟩ := m
    obtain ⟨hm, hms⟩ := List.nodup_cons.1 h
    rw [SortedMap.lookup_cons_ite]
    split
    next e =>
      subst e
      have others : (ms.map fun m ↦ (some m.1, m.2)).filter (fun n ↦ n.1 == some name) = [] := by
        refine List.filter_eq_nil_iff.2 fun p hp same ↦ ?_
        obtain ⟨n, hn, rfl⟩ := List.mem_map.1 hp
        have : n.1 = name := by simpa using same
        exact hm (List.mem_map.2 ⟨n, hn, this⟩)
      simp [Node.atKey?, others]
    next e =>
      have keep : Node.atKey? (((key, value) :: ms).map fun m ↦ (some m.1, m.2)) name =
          Node.atKey? (ms.map fun m ↦ (some m.1, m.2)) name := by
        simp [Node.atKey?, Ne.symm e]
      rw [keep, ih hms]

/-- The fields of a written record are the values of its members under their names. -/
theorem fields?_record {ms : List (String × Json)} (h : (ms.map Prod.fst).Nodup)
    (names : List String) :
    Node.fields? names (record ms) = some (names.map fun name ↦ ms.lookup name) := by
  have named : (ms.map fun m ↦ (some m.1, m.2)).any (fun m ↦ m.1.isNone) = false := by
    simp
  have unlisted : Node.unnamed? (record ms) = none := rfl
  have found : Node.atKey? (ms.map fun m ↦ (some m.1, m.2)) = fun name ↦ some (ms.lookup name) :=
    funext (atKey?_members h)
  simp only [Node.fields?, unlisted, members?_record, Option.bind_eq_bind, Option.bind_some, named,
    found]
  exact List.mapM_pure

/-! ## What is written determines the parts -/

theorem ofString_injective : Function.Injective ofString := fun _ _ h ↦
  Literal.encode_injective (literal.inj h)

@[simp] theorem ofString_inj {s t : String} : ofString s = ofString t ↔ s = t :=
  ofString_injective.eq_iff

theorem ofNat_injective : Function.Injective ofNat := fun _ _ h ↦
  Numeral.ofNat_injective (numeral.inj h)

@[simp] theorem ofNat_inj {m n : Nat} : ofNat m = ofNat n ↔ m = n := ofNat_injective.eq_iff

theorem array_map_injective {α : Type} {f : α → Json} (hf : Function.Injective f) :
    Function.Injective fun xs : List α ↦ array (xs.map f) := fun _ _ h ↦
  hf.list_map (array.inj h)

@[simp] theorem ofStringSet_inj {s t : StringSet} : ofStringSet s = ofStringSet t ↔ s = t := by
  constructor
  · exact fun h ↦ SortedSet.ext (array_map_injective ofString_injective h)
  · rintro rfl
    rfl

@[simp] theorem record_inj {ms ns : List (String × Json)} : record ms = record ns ↔ ms = ns := by
  constructor
  · refine fun h ↦ Function.Injective.list_map ?_ (object.inj h)
    intro p q hpq
    obtain ⟨name, value⟩ := Prod.mk.inj hpq
    exact Prod.ext (Literal.encode_injective name) value
  · rintro rfl
    rfl

theorem ofStringMap_injective {β : Type} {f : β → Json} (hf : Function.Injective f) :
    Function.Injective (ofStringMap f) := by
  intro m n h
  refine SortedMap.ext (Function.Injective.list_map ?_ (record_inj.1 h))
  intro p q hpq
  obtain ⟨name, value⟩ := Prod.mk.inj hpq
  exact Prod.ext name (hf value)

end Json

end ManuscriptReach
