import ManuscriptReach.Host.Workspace
import ManuscriptReach.Proofs.FirstFault
import ManuscriptReach.Proofs.Pieces

/-!
# Writing files in a workspace

A file can be written only in a directory that is there, so a write neither makes nor removes a
directory, and every path leads where it led before (`Workspace.SameDirectories`).  Hence it is
known at the start whether some files can all be written (`Workspace.writeFiles_eq_none_iff`), and
each of them is read afterwards unless a later one has taken its place
(`Workspace.read_writeFiles`).

Files lie under paths, and paths are cut at slashes.  That two places have different paths rests on
names without slashes, which is part of what is known of a place when it has been reached
(`Workspace.Place.IsHeld`).
-/

namespace ManuscriptReach

/-! ## Names on the way to a place -/

/-- Names without slashes are the parts of the path that they make up. -/
theorem Path.parts_ofParts {names : List (List Char)} (ne : names ≠ [])
    (free : ∀ name ∈ names, '/' ∉ name) : Path.parts (Path.ofParts names) = names := by
  rw [parts, ofParts, String.toList_ofList, List.splitOn_intercalate '/' free ne]

namespace Workspace

variable {w w' : Workspace} {names names' : List (List Char)} {place place' : Place}

/-! ## Places that can be reached -/

theorem hasDirectory_of_isPrefix (h : w.hasDirectory names = true) (front : names' <+: names) :
    w.hasDirectory names' = true := by
  unfold hasDirectory at h ⊢
  rw [Bool.or_eq_true, List.isEmpty_iff, List.any_eq_true] at h ⊢
  rcases h with rfl | ⟨k, hk, below⟩
  · exact .inl (List.prefix_nil.1 front)
  · refine .inr ⟨k, hk, ?_⟩
    exact List.isPrefixOf_iff_prefix.2 (front.trans (List.isPrefixOf_iff_prefix.1 below))

/-- What a place is when it has been reached: its names hold no slash, and all but the last lead to
a directory. -/
def Place.IsHeld (w : Workspace) : Place → Prop
  | .above => True
  | .within names => w.hasDirectory names.dropLast = true ∧ ∀ name ∈ names, '/' ∉ name

/-- A place from which a path can go on. -/
def Place.IsDirectory (w : Workspace) : Place → Prop
  | .above => True
  | .within names => w.hasDirectory names = true

theorem directoryFault?_eq_none_iff : w.directoryFault? place = none ↔ place.IsDirectory w := by
  cases place with
  | above => exact iff_of_true rfl trivial
  | within names =>
    rw [directoryFault?, Place.IsDirectory]
    by_cases h : w.hasDirectory names = true
    · simp [h]
    · rw [if_neg h]
      split <;> simp [h]

/-- A path goes on only from a directory. -/
theorem follow_cons_eq_ok_iff {part : List Char} {parts : List (List Char)} :
    w.follow place (part :: parts) = .ok place' ↔
      place.IsDirectory w ∧
        (if !Path.isNaming part then w.follow place parts
          else if part = ['.', '.'] then w.follow place.leave parts
          else (place.enter part).bind fun next ↦ w.follow next parts) = .ok place' := by
  rw [follow, ← directoryFault?_eq_none_iff]
  cases w.directoryFault? place with
  | none => simp
  | some fault => simp

theorem Place.IsHeld.leave (h : place.IsHeld w) (directory : place.IsDirectory w) :
    place.leave.IsHeld w := by
  cases place with
  | above => trivial
  | within names =>
    rw [Place.leave]
    split
    · trivial
    · refine ⟨hasDirectory_of_isPrefix h.1 (List.dropLast_prefix _), fun name hn ↦ ?_⟩
      exact h.2 name (List.dropLast_subset _ hn)

theorem Place.IsHeld.enter {part : List Char} (h : place.IsHeld w)
    (directory : place.IsDirectory w) (free : '/' ∉ part)
    (entered : place.enter part = .ok place') : place'.IsHeld w := by
  unfold Place.enter at entered
  split at entered
  · cases entered
  · cases place with
    | above => cases entered
    | within names =>
      cases entered
      refine ⟨by rwa [List.dropLast_concat], ?_⟩
      exact List.forall_mem_append.2 ⟨h.2, List.forall_mem_singleton.2 free⟩

theorem Place.IsHeld.follow {parts : List (List Char)} (h : place.IsHeld w)
    (free : ∀ part ∈ parts, '/' ∉ part) (reached : w.follow place parts = .ok place') :
    place'.IsHeld w := by
  induction parts generalizing place with
  | nil =>
    cases reached
    exact h
  | cons part parts ih =>
    rw [List.forall_mem_cons] at free
    obtain ⟨directory, reached⟩ := follow_cons_eq_ok_iff.1 reached
    split at reached
    · exact ih h free.2 reached
    split at reached
    · exact ih (h.leave directory) free.2 reached
    · cases entered : place.enter part with
      | error fault =>
        rw [entered] at reached
        cases reached
      | ok next =>
        rw [entered] at reached
        exact ih (h.enter directory free.1 entered) free.2 reached

theorem resolve_held {path : String} (h : w.resolve path = .ok place) : place.IsHeld w := by
  have free : ∀ part ∈ Path.parts path, '/' ∉ part := fun _ hp ↦ not_mem_of_mem_splitOn hp
  have start : (Place.within []).IsHeld w := ⟨rfl, by simp⟩
  rw [resolve] at h
  split at h
  · cases h
  split at h
  · cases h
  · cases h
  next parts _ hp =>
    have above : Place.above.IsHeld w := trivial
    rw [hp, List.forall_mem_cons] at free
    exact above.follow free.2 h
  next => exact start.follow free h

/-! ## Workspaces with the same directories -/

/-- The same directories are there. -/
def SameDirectories (w w' : Workspace) : Prop :=
  ∀ names, w'.hasDirectory names = w.hasDirectory names

namespace SameDirectories

variable (h : SameDirectories w w')
include h

theorem isDirectory_iff : place.IsDirectory w' ↔ place.IsDirectory w := by
  cases place with
  | above => exact Iff.rfl
  | within names => rw [Place.IsDirectory, Place.IsDirectory, h names]

/-- The same parts lead to the same place. -/
theorem follow_eq_ok_iff {parts : List (List Char)} :
    w'.follow place parts = .ok place' ↔ w.follow place parts = .ok place' := by
  induction parts generalizing place with
  | nil => rw [follow, follow]
  | cons part parts ih =>
    rw [follow_cons_eq_ok_iff, follow_cons_eq_ok_iff, h.isDirectory_iff]
    refine and_congr_right fun _ ↦ ?_
    split
    · exact ih
    split
    · exact ih
    · cases place.enter part with
      | error fault => exact Iff.rfl
      | ok next => exact ih

theorem resolve_eq_ok_iff {path : String} :
    w'.resolve path = .ok place ↔ w.resolve path = .ok place := by
  unfold resolve
  split
  · simp
  split
  · simp
  · simp
  · exact h.follow_eq_ok_iff
  · exact h.follow_eq_ok_iff

end SameDirectories

/-! ## Writing -/

/-- A path under which a file can be written: it leads to a place within, where no directory is, and
does not end in a slash. -/
def IsWritable (w : Workspace) (path : String) : Prop :=
  Path.withoutSlashes path = path ∧
    ∃ names, w.resolve path = .ok (.within names) ∧ w.hasDirectory names = false

/-- The workspace with a text as the file at a place. -/
def put (w : Workspace) (names : List (List Char)) (text : String) : Workspace :=
  { w with files := w.files.insert (Path.ofParts names) text.toUTF8 }

variable {path path' text : String} {bytes : ByteArray}

theorem write_eq_ok_iff :
    w.write path text = .ok w' ↔ Path.withoutSlashes path = path ∧
      ∃ names, w.resolve path = .ok (.within names) ∧ w.hasDirectory names = false ∧
        w.put names text = w' := by
  unfold write
  rw [bind_eq_ok_iff]
  constructor
  · rintro ⟨_ | names, resolved, written⟩
    · cases written
    · dsimp only at written
      split at written
      next => cases written
      next allowed =>
        obtain ⟨bare, free⟩ := not_or.1 allowed
        rw [not_not.1 bare] at resolved
        cases written
        exact ⟨not_not.1 bare, names, resolved, Bool.eq_false_iff.2 free, rfl⟩
  · rintro ⟨bare, names, resolved, free, rfl⟩
    rw [bare]
    refine ⟨_, resolved, if_neg ?_⟩
    exact not_or.2 ⟨not_not.2 rfl, Bool.eq_false_iff.1 free⟩

theorem read_eq_ok_iff :
    w.read path = .ok bytes ↔
      ∃ names, w.resolve path = .ok (.within names) ∧ w.hasDirectory names = false ∧
        w.file? names = some bytes := by
  unfold read
  rw [bind_eq_ok_iff]
  constructor
  · rintro ⟨_ | names, resolved, found⟩
    · cases found
    · dsimp only at found
      split at found
      next => cases found
      next free =>
        refine ⟨names, resolved, Bool.eq_false_iff.2 free, ?_⟩
        cases file : w.file? names with
        | none =>
          rw [file] at found
          cases found
        | some bytes =>
          rw [file] at found
          cases found
          rfl
  · rintro ⟨names, resolved, free, file⟩
    refine ⟨_, resolved, ?_⟩
    dsimp only
    rw [if_neg (Bool.eq_false_iff.1 free), file]
    rfl

theorem isWritable_of_write (h : w.write path text = .ok w') : w.IsWritable path := by
  obtain ⟨bare, names, resolved, free, -⟩ := write_eq_ok_iff.1 h
  exact ⟨bare, names, resolved, free⟩

/-- Whether a file can be written does not depend on its text. -/
theorem IsWritable.exists_write (h : w.IsWritable path) (text : String) :
    ∃ w', w.write path text = .ok w' := by
  obtain ⟨bare, names, resolved, free⟩ := h
  exact ⟨_, write_eq_ok_iff.2 ⟨bare, names, resolved, free, rfl⟩⟩

theorem file?_put_self : (w.put names text).file? names = some text.toUTF8 := by
  rw [file?, put, SortedMap.get?_insert, if_pos rfl]

/-- A write leaves the files at other places as they are. -/
theorem file?_put_of_ne (held : (Place.within names).IsHeld w)
    (held' : (Place.within names').IsHeld w) (ne : names ≠ []) (ne' : names' ≠ [])
    (other : names' ≠ names) : (w.put names text).file? names' = w.file? names' := by
  have path : Path.ofParts names' ≠ Path.ofParts names := by
    intro same
    have parts := congrArg Path.parts same
    rw [Path.parts_ofParts ne held.2, Path.parts_ofParts ne' held'.2] at parts
    exact other parts
  rw [file?, put, SortedMap.get?_insert, if_neg path]
  rfl

/-- A new file lies in a directory that was there before. -/
theorem sameDirectories_put (held : (Place.within names).IsHeld w) (ne : names ≠ []) :
    SameDirectories w (w.put names text) := by
  intro names'
  have keys {k : String} : k ∈ (w.put names text).files.keys ↔
      k = Path.ofParts names ∨ k ∈ w.files.keys := SortedMap.mem_keys_alter
  rw [Bool.eq_iff_iff]
  constructor
  · intro h
    unfold hasDirectory at h
    rw [Bool.or_eq_true, List.any_eq_true] at h
    rcases h with none | ⟨k, hk, below⟩
    · rw [hasDirectory, none]
      rfl
    · rcases keys.1 hk with rfl | hk
      · rw [Path.parts_ofParts ne held.2] at below
        exact hasDirectory_of_isPrefix held.1 (List.isPrefixOf_iff_prefix.1 below)
      · rw [hasDirectory, Bool.or_eq_true, List.any_eq_true]
        exact .inr ⟨k, hk, below⟩
  · intro h
    unfold hasDirectory at h ⊢
    rw [Bool.or_eq_true, List.any_eq_true] at h ⊢
    exact h.imp id fun ⟨k, hk, below⟩ ↦ ⟨k, keys.2 (.inr hk), below⟩

theorem ne_nil_of_hasDirectory (h : w.hasDirectory names = false) : names ≠ [] := by
  rintro rfl
  cases h

theorem sameDirectories_write (h : w.write path text = .ok w') : SameDirectories w w' := by
  obtain ⟨-, names, resolved, free, rfl⟩ := write_eq_ok_iff.1 h
  exact sameDirectories_put (resolve_held resolved) (ne_nil_of_hasDirectory free)

/-- What has been written is read. -/
theorem read_write_self (h : w.write path text = .ok w') : w'.read path = .ok text.toUTF8 := by
  have same := sameDirectories_write h
  obtain ⟨-, names, resolved, free, rfl⟩ := write_eq_ok_iff.1 h
  exact read_eq_ok_iff.2 ⟨names, same.resolve_eq_ok_iff.2 resolved, (same names).trans free,
    file?_put_self⟩

/-- A write leaves alone what is read at a path that leads elsewhere. -/
theorem read_write_of_ne (h : w.write path text = .ok w') (found : w.read path' = .ok bytes)
    (elsewhere : w.resolve path' ≠ w.resolve path) : w'.read path' = .ok bytes := by
  have same := sameDirectories_write h
  obtain ⟨-, names, resolved, free, rfl⟩ := write_eq_ok_iff.1 h
  obtain ⟨names', resolved', free', file⟩ := read_eq_ok_iff.1 found
  have other : names' ≠ names := by
    rintro rfl
    exact elsewhere (resolved'.trans resolved.symm)
  have target' := same.resolve_eq_ok_iff.2 resolved'
  refine read_eq_ok_iff.2 ⟨names', target', (same names').trans free', ?_⟩
  rw [file?_put_of_ne (resolve_held resolved) (resolve_held resolved') (ne_nil_of_hasDirectory free)
    (ne_nil_of_hasDirectory free') other, file]

/-! ## Writing several files -/

variable {files before after : List (String × String)}

theorem SameDirectories.isWritable_iff (h : SameDirectories w w') :
    w'.IsWritable path ↔ w.IsWritable path := by
  simp only [IsWritable, h.resolve_eq_ok_iff, h _]

/-- Where a path leads, another leads as it did before. -/
theorem SameDirectories.resolve_ne (h : SameDirectories w w')
    (resolved : w.resolve path = .ok place) (elsewhere : w.resolve path' ≠ w.resolve path) :
    w'.resolve path' ≠ w'.resolve path := by
  rw [h.resolve_eq_ok_iff.2 resolved, ne_eq, h.resolve_eq_ok_iff, ← resolved]
  exact elsewhere

theorem run_writeFile (w : Workspace) (path text : String) :
    (Host.writeFile path text : StateM Workspace _).run w =
      match w.write path text with
      | .ok w' => (.ok (), w')
      | .error fault => (.error fault, w) := by
  cases h : w.write path text <;> simp [Host.writeFile, h] <;> rfl

theorem run_writeFiles_of_ok (h : w.write path text = .ok w') :
    (Host.writeFiles ((path, text) :: files) : StateM Workspace _).run w =
      (Host.writeFiles files : StateM Workspace _).run w' := by
  rw [Host.writeFiles, StateT.run_bind, run_writeFile, h]
  rfl

theorem run_writeFiles_of_error {fault : FileFault} (h : w.write path text = .error fault) :
    (Host.writeFiles ((path, text) :: files) : StateM Workspace _).run w =
      (some (path, fault), w) := by
  rw [Host.writeFiles, StateT.run_bind, run_writeFile, h]
  rfl

/-- When several files have been written, so have the first and then the others. -/
theorem exists_write_of_run
    (run : (Host.writeFiles ((path, text) :: files) : StateM Workspace _).run w = (none, w')) :
    ∃ u, w.write path text = .ok u ∧
      (Host.writeFiles files : StateM Workspace _).run u = (none, w') := by
  cases h : w.write path text with
  | error fault =>
    rw [run_writeFiles_of_error h] at run
    cases run
  | ok u =>
    rw [run_writeFiles_of_ok h] at run
    exact ⟨u, rfl, run⟩

/-- Files are written without a fault exactly when each of them can be written at the start. -/
theorem writeFiles_eq_none_iff :
    ((Host.writeFiles files : StateM Workspace _).run w).1 = none ↔
      ∀ f ∈ files, w.IsWritable f.1 := by
  induction files generalizing w with
  | nil => exact iff_of_true rfl (List.forall_mem_nil _)
  | cons f files ih =>
    obtain ⟨path, text⟩ := f
    rw [List.forall_mem_cons]
    cases h : w.write path text with
    | error fault =>
      rw [run_writeFiles_of_error h]
      refine iff_of_false (Option.some_ne_none _) fun ⟨writable, _⟩ ↦ ?_
      obtain ⟨w', written⟩ := writable.exists_write text
      rw [h] at written
      cases written
    | ok w' =>
      rw [run_writeFiles_of_ok h, ih]
      simp only [(sameDirectories_write h).isWritable_iff]
      exact (and_iff_right (isWritable_of_write h)).symm

/-- Writing files leaves alone what is read at a path that leads elsewhere. -/
theorem read_writeFiles_of_ne
    (run : (Host.writeFiles files : StateM Workspace _).run w = (none, w'))
    (found : w.read path = .ok bytes) (elsewhere : ∀ f ∈ files, w.resolve f.1 ≠ w.resolve path) :
    w'.read path = .ok bytes := by
  induction files generalizing w with
  | nil =>
    cases run
    exact found
  | cons f files ih =>
    obtain ⟨path', text⟩ := f
    rw [List.forall_mem_cons] at elsewhere
    obtain ⟨u, h, run⟩ := exists_write_of_run run
    obtain ⟨names, resolved, -, -⟩ := read_eq_ok_iff.1 found
    refine ih run (read_write_of_ne h found elsewhere.1.symm) fun f hf ↦ ?_
    exact (sameDirectories_write h).resolve_ne resolved (elsewhere.2 f hf)

/-- A file that has been written is read when no later one was written in its place. -/
theorem read_writeFiles (run : (Host.writeFiles (before ++ (path, text) :: after) :
      StateM Workspace _).run w = (none, w'))
    (elsewhere : ∀ f ∈ after, w.resolve f.1 ≠ w.resolve path) :
    w'.read path = .ok text.toUTF8 := by
  induction before generalizing w with
  | nil =>
    obtain ⟨u, h, run⟩ := exists_write_of_run run
    obtain ⟨-, names, resolved, -, -⟩ := write_eq_ok_iff.1 h
    refine read_writeFiles_of_ne run (read_write_self h) fun f hf ↦ ?_
    exact (sameDirectories_write h).resolve_ne resolved (elsewhere f hf)
  | cons f before ih =>
    obtain ⟨path', text'⟩ := f
    obtain ⟨-, names, resolved, -⟩ :=
      writeFiles_eq_none_iff.1 (congrArg Prod.fst run) (path, text) (by simp)
    obtain ⟨u, h, run⟩ := exists_write_of_run run
    refine ih run fun f hf ↦ ?_
    exact (sameDirectories_write h).resolve_ne resolved (elsewhere f hf)

end Workspace
end ManuscriptReach
