import ManuscriptReach.Host.EnvironmentFile
import ManuscriptReach.Host.Workspace
import ManuscriptReach.Proofs.FirstFault
import ManuscriptReach.Tables.Directory

/-!
# Reading leaves everything in place

A computation over a state is quiet when it leaves the state as it was.  On a host whose
reading services are quiet (`Host.ReadsOnly`), a program that calls nothing else is quiet,
whatever it reads and however it goes on.

A quiet computation that may fail is described by the list of all faults at a state
(`ChecksAt`).  As for `Checks`, it reports the first.
-/

namespace ManuscriptReach

variable {σ α β ε : Type}

/-! ## Quiet computations -/

/-- A computation leaves the state as it was. -/
def Quiet (x : StateM σ α) : Prop := ∀ s, (x.run s).2 = s

/-- What a computation yields at a state. -/
def valueAt (s : σ) (x : StateM σ α) : α := (x.run s).1

namespace Quiet

variable {x : StateM σ α} {k : α → StateM σ β}

theorem run_eq (h : Quiet x) (s : σ) : x.run s = (valueAt s x, s) := Prod.ext rfl (h s)

theorem pure (a : α) : Quiet (Pure.pure a : StateM σ α) := fun _ ↦ rfl

/-- Quiet computations one after the other. -/
theorem bind (h : Quiet x) (hk : ∀ a, Quiet (k a)) : Quiet (x >>= k) := by
  intro s
  rw [StateT.run_bind, h.run_eq]
  exact hk _ s

/-- After a quiet computation the next one runs at the same state. -/
theorem run_bind (h : Quiet x) (s : σ) : (x >>= k).run s = (k (valueAt s x)).run s := by
  rw [StateT.run_bind, h.run_eq]
  rfl

end Quiet

/-! ## Hosts -/

/-- Reading from a host is quiet. -/
class Host.ReadsOnly (σ : Type) [Host (StateM σ)] : Prop where
  environment? : ∀ name, Quiet (Host.environment? name : StateM σ (Option String))
  isThere : ∀ path, Quiet (Host.isThere path : StateM σ Bool)
  readFile : ∀ path, Quiet (Host.readFile path : StateM σ (Except FileFault ByteArray))

instance : Host.ReadsOnly Workspace where
  environment? := fun _ _ ↦ rfl
  isThere := fun _ _ ↦ rfl
  readFile := fun _ _ ↦ rfl

section Programs

variable [Host (StateM σ)] [Host.ReadsOnly σ]

theorem Host.readText_quiet (path : String) :
    Quiet (Host.readText path : StateM σ (Except FileFault String)) :=
  (ReadsOnly.readFile path).bind fun _ ↦ .pure _

namespace EnvironmentFile

theorem valueAmong?_quiet (pairs : List (String × String)) (name : String) :
    Quiet (valueAmong? pairs name : StateM σ (Option String)) :=
  (Host.ReadsOnly.environment? name).bind fun _ ↦ .pure _

theorem expand_quiet (pairs : List (String × String)) (value : List Piece) :
    Quiet (expand pairs value : StateM σ String) := by
  induction value with
  | nil => exact .pure _
  | cons piece value ih =>
    cases piece with
    | char c => exact ih.bind fun _ ↦ .pure _
    | reference name => exact (valueAmong?_quiet pairs name).bind fun _ ↦ ih.bind fun _ ↦ .pure _

theorem carryOut_quiet (pairs : List (String × String)) (assignments : List Assignment) :
    Quiet (carryOut pairs assignments : StateM σ (List (String × String))) := by
  induction assignments generalizing pairs with
  | nil => exact .pure _
  | cons a as ih => exact (expand_quiet pairs a.value).bind fun _ ↦ ih _

theorem load_quiet : Quiet (load : StateM σ (List (String × String))) := by
  refine (Host.readText_quiet path).bind fun text ↦ ?_
  cases text with
  | ok text => exact carryOut_quiet [] _
  | error fault => exact .pure _

end EnvironmentFile

theorem isTableDirectory_quiet (directory : String) :
    Quiet (isTableDirectory directory : StateM σ Bool) := Host.ReadsOnly.isThere _

theorem searchUpwards_quiet (levels : Nat) (place : String) :
    Quiet (searchUpwards levels place : StateM σ (Option String)) := by
  induction levels generalizing place with
  | zero => exact .pure _
  | succ levels ih =>
    refine (isTableDirectory_quiet _).bind fun found ↦ ?_
    cases found with
    | true => exact .pure _
    | false =>
      cases Path.parent? place with
      | some above => exact ih above
      | none => exact .pure _

theorem tableDirectory_quiet {environment? : String → StateM σ (Option String)}
    (h : ∀ name, Quiet (environment? name)) : Quiet (tableDirectory environment?) := by
  refine (h directoryVariable).bind fun named ↦ ?_
  cases named with
  | some directory => exact .pure _
  | none =>
    refine (isTableDirectory_quiet _).bind fun found ↦ ?_
    cases found with
    | true => exact .pure _
    | false =>
      refine (h searchVariable).bind fun place ↦ ?_
      cases place with
      | some place => exact (searchUpwards_quiet _ place).bind fun _ ↦ .pure _
      | none => exact .pure _

end Programs

/-! ## Quiet checks -/

section Bind

variable {s : σ} {x : ExceptT ε (StateM σ) α} (k : α → ExceptT ε (StateM σ) β)

/-- What follows a computation that passes runs where it has ended. -/
theorem run_bind_of_ok {a : α} (run : x.run.run s = (.ok a, s)) :
    (x >>= k).run.run s = (k a).run.run s := by
  rw [ExceptT.run_bind, StateT.run_bind, run]
  rfl

/-- What follows a computation that fails is not reached. -/
theorem run_bind_of_error {f : ε} (run : x.run.run s = (.error f, s)) :
    (x >>= k).run.run s = (.error f, s) := by
  rw [ExceptT.run_bind, StateT.run_bind, run]
  rfl

end Bind

/-- At a state, a computation fails with the first of all faults and passes without one.  It leaves
the state as it was. -/
def ChecksAt (s : σ) (fs : List ε) (x : ExceptT ε (StateM σ) α) : Prop :=
  ∃ r, Checks fs r ∧ x.run.run s = (r, s)

namespace ChecksAt

variable {s : σ} {fs gs : List ε} {x : ExceptT ε (StateM σ) α}

theorem pure (s : σ) (a : α) : ChecksAt s [] (Pure.pure a : ExceptT ε (StateM σ) α) :=
  ⟨.ok a, .passed a, rfl⟩

theorem of_checks (s : σ) {r : Except ε α} (h : Checks fs r) :
    ChecksAt s fs (ExceptT.mk (Pure.pure r)) := ⟨r, h, rfl⟩

theorem run_of_head? (h : ChecksAt s fs x) {f : ε} (hf : fs.head? = some f) :
    x.run.run s = (.error f, s) := by
  obtain ⟨r, checks, run⟩ := h
  rw [run, checks.eq_error_iff.2 hf]

theorem exists_run_of_nil (h : ChecksAt s fs x) (hf : fs = []) :
    ∃ a, x.run.run s = (.ok a, s) := by
  obtain ⟨r, checks, run⟩ := h
  obtain ⟨a, rfl⟩ := checks.exists_eq_ok_iff.2 hf
  exact ⟨a, run⟩

/-- After a check that passes the next one runs at the same state. -/
theorem bind {k : α → ExceptT ε (StateM σ) β} (h : ChecksAt s fs x)
    (hk : ∀ a, x.run.run s = (.ok a, s) → ChecksAt s gs (k a)) :
    ChecksAt s (fs ++ gs) (x >>= k) := by
  obtain ⟨r, checks, run⟩ := h
  cases checks with
  | passed a =>
    obtain ⟨r, checks, next⟩ := hk a run
    exact ⟨r, checks, (run_bind_of_ok k run).trans next⟩
  | failed f fs => exact ⟨.error f, .failed f (fs ++ gs), run_bind_of_error k run⟩

/-- What is done with the value of a quiet computation is done with its value at the state. -/
theorem mk_bind {y : StateM σ β} (h : Quiet y) {k : β → StateM σ (Except ε α)}
    (hk : ChecksAt s fs (ExceptT.mk (k (valueAt s y)))) : ChecksAt s fs (ExceptT.mk (y >>= k)) := by
  obtain ⟨r, checks, run⟩ := hk
  exact ⟨r, checks, (h.run_bind s).trans run⟩

theorem lift_bind {y : StateM σ β} (h : Quiet y) {k : β → ExceptT ε (StateM σ) α}
    (hk : ChecksAt s fs (k (valueAt s y))) : ChecksAt s fs (liftM y >>= k) := by
  obtain ⟨r, checks, run⟩ := hk
  refine ⟨r, checks, ?_⟩
  change (ExceptT.lift y >>= k).run.run s = (r, s)
  rw [ExceptT.run_bind_lift, h.run_bind]
  exact run

theorem adapt {δ : Type} (h : ChecksAt s fs x) (g : ε → δ) :
    ChecksAt s (fs.map g) (x.adapt g) := by
  obtain ⟨r, checks, run⟩ := h
  refine ⟨r.mapError g, checks.mapError g, ?_⟩
  rw [ExceptT.run_adapt, StateT.run_map, run]
  rfl

/-- A check passes at a state when there is no fault. -/
theorem exists_valueAt_iff (h : ChecksAt s fs x) : (∃ a, valueAt s x.run = .ok a) ↔ fs = [] := by
  obtain ⟨r, checks, run⟩ := h
  rw [valueAt, run, checks.exists_eq_ok_iff]

end ChecksAt

end ManuscriptReach
