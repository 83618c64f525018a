import Mathlib.Data.List.Basic
import Mathlib.Logic.Basic

/-! A client configuration is replaced (`mcp/install.rs`, on Unix), while other programs put
files at its path. -/
namespace Satelle.Mcp

/-- A file, with what `UnixSource` compares of it. -/
structure File where
  identity : Nat
  security : Nat
  contents : String
deriving DecidableEq

/-- The steps of a write that see the path. -/
inductive WriteStep where
  | opening | comparing | replacing | checking | restoring | returning

inductive AtomicWriteOutcome where
  | notCommitted | committed | unknown

/-- The path, with the files that the other programs have put there. -/
structure ConfigPath where
  file : Option File
  others : List File

/-- What comes between the steps: the files that arrive before each of them, and whether it
fails. -/
structure Surroundings where
  arrive : WriteStep → List File
  fails : WriteStep → Bool

variable (around : Surroundings)

def ConfigPath.before (path : ConfigPath) (step : WriteStep) : ConfigPath where
  file := (around.arrive step).getLast?.or path.file
  others := path.others ++ around.arrive step

/-- A write that has ended, with its outcome if it has failed. -/
abbrev Written := Option AtomicWriteOutcome × ConfigPath

def returns (path : ConfigPath) (failure : Option AtomicWriteOutcome) : Written :=
  (failure, path.before around .returning)

/-- The displaced file is removed and the parent directory synced. -/
def committed (path : ConfigPath) : Written :=
  returns around path (if around.fails .returning then some .committed else none)

def rollbackUnixExchange (displaced : File) (path : ConfigPath) : Written :=
  let path := path.before around .restoring
  if around.fails .restoring then returns around path (some .unknown)
  else returns around { path with file := some displaced } (some .notCommitted)

def persistUnixCompareAndReplace (prepared : File) (path : ConfigPath)
    (expectedContents : Option String) (expectedSource : Option File) : Written :=
  let path := path.before around .replacing
  if around.fails .replacing then returns around path (some .notCommitted)
  else match expectedSource, expectedContents, path.file with
    | none, _, none => committed around { path with file := some prepared }
    | some source, some contents, some displaced =>
      let path := { path with file := some prepared }.before around .checking
      if around.fails .checking = false ∧ displaced.contents = contents ∧
          displaced.identity = source.identity ∧ displaced.security = source.security
      then committed around path
      else rollbackUnixExchange around displaced path
    | _, _, _ => returns around path (some .notCommitted)

def writeAtomic (prepared : File) (expectedSource : Option String) (file : Option File) : Written :=
  let path := ConfigPath.before around ⟨file, []⟩ .opening
  let existingSource := path.file
  let compared := path.before around .comparing
  if around.fails .opening then returns around path (some .notCommitted)
  else if around.fails .comparing ∨ compared.file.map (·.contents) ≠ expectedSource then
    returns around compared (some .notCommitted)
  else persistUnixCompareAndReplace around prepared compared expectedSource existingSource

/-- The file that would be there without the write. -/
def ConfigPath.undisturbed (path : ConfigPath) (file : Option File) : Option File :=
  path.others.getLast?.or file

/-- No file of the other programs is lost, except the one that the plan was made from. -/
def ConfigPath.Keeps (path : ConfigPath) (prepared : File) (expectedSource : Option String)
    (file : Option File) : Prop :=
  path.file = path.undisturbed file ∨
    path.file = some prepared ∧ (path.undisturbed file).map (·.contents) = expectedSource

/-- Only a write that has been committed may take the place of what its plan was made from. One
that has not leaves another file than its own. -/
def Safe (prepared : File) (expectedSource : Option String) (file : Option File) : Written → Prop
  | (none, path) | (some .committed, path) => path.Keeps prepared expectedSource file
  | (some .notCommitted, path) => path.file = path.undisturbed file ∧ path.file ≠ some prepared
  | (some .unknown, path) => path.file = path.undisturbed file

variable {around} {path : ConfigPath}

theorem before_undisturbed : (path.before around step).undisturbed file =
    (around.arrive step).getLast?.or (path.undisturbed file) := by
  simp [ConfigPath.before, ConfigPath.undisturbed, List.getLast?_append, Option.or_assoc]

theorem before_same (same : path.file = path.undisturbed file) :
    (path.before around step).file = (path.before around step).undisturbed file := by
  rw [before_undisturbed, ← same]
  rfl

theorem before_keeps (keeps : path.Keeps prepared expectedSource file) :
    (path.before around step).Keeps prepared expectedSource file := by
  rcases keeps with same | ⟨own, planned⟩
  · exact .inl (before_same same)
  · rw [ConfigPath.Keeps, before_undisturbed, ConfigPath.before, own]
    cases (around.arrive step).getLast? with
    | none => exact .inr ⟨rfl, planned⟩
    | some found => exact .inl rfl

theorem before_other (fresh : ∀ step, prepared ∉ around.arrive step)
    (other : path.file ≠ some prepared) : (path.before around step).file ≠ some prepared := by
  unfold ConfigPath.before
  cases last : (around.arrive step).getLast? with
  | none => exact other
  | some found =>
    rintro ⟨⟩
    exact fresh step (List.mem_of_getLast? last)

theorem committed_safe (keeps : path.Keeps prepared expectedSource file) :
    Safe prepared expectedSource file (committed around path) := by
  unfold committed
  split
  · exact before_keeps keeps
  · exact before_keeps keeps

/-- Nothing arrives between the two exchanges of a write that is rolled back, and the second one
does not fail. -/
def Calm (around : Surroundings) : Option AtomicWriteOutcome → Prop
  | none | some .committed => True
  | some .notCommitted | some .unknown => around.arrive .checking = [] ∧
      around.arrive .restoring = [] ∧ around.fails .restoring = false

section
variable (fresh : ∀ step, prepared ∉ around.arrive step) (same : path.file = path.undisturbed file)
  (other : path.file ≠ some prepared)
include fresh same other

theorem refused_safe :
    Safe prepared expectedSource file (returns around path (some .notCommitted)) :=
  ⟨before_same same, before_other fresh other⟩

theorem persist_safe (absent : path.file = none → expectedSource = none)
    (calm : Calm around
      (persistUnixCompareAndReplace around prepared path expectedSource source).1) :
    Safe prepared expectedSource file
      (persistUnixCompareAndReplace around prepared path expectedSource source) := by
  have same : (path.before around .replacing).file = _ := before_same same
  have other : (path.before around .replacing).file ≠ _ := before_other fresh other
  unfold persistUnixCompareAndReplace at calm ⊢
  dsimp only at calm ⊢
  split
  · exact refused_safe fresh same other
  rw [if_neg ‹_›] at calm
  split
  · rename_i gone
    refine committed_safe (.inr ⟨rfl, ?_⟩)
    change ((path.before around .replacing).undisturbed file).map _ = _
    rw [← same, gone, absent (Option.or_eq_none_iff.mp gone).2]
    rfl
  · rename_i source contents displaced found
    split
    · rename_i matched
      refine committed_safe (before_keeps (.inr ⟨rfl, ?_⟩))
      change ((path.before around .replacing).undisturbed file).map _ = _
      rw [← same, found, Option.map_some, matched.2.1]
    · rename_i differs
      simp only [found, if_neg differs, rollbackUnixExchange] at calm ⊢
      have quiet : around.arrive .checking = [] ∧ around.arrive .restoring = [] ∧
          around.fails .restoring = false := by
        split at calm <;> exact calm
      obtain ⟨noneChecking, noneRestoring, restores⟩ := quiet
      rw [restores]
      refine refused_safe fresh ?_ ?_
      · change some displaced = _
        rw [← found, same]
        simp [ConfigPath.undisturbed, ConfigPath.before, noneChecking, noneRestoring]
      · exact found ▸ other
  · exact refused_safe fresh same other
end

/-- Another program replaces the file before the first exchange, and once more after it. -/
def sampleSurroundings (again : List File) : Surroundings where
  arrive
    | .replacing => [⟨1, 0, "edited"⟩]
    | .restoring => again
    | _ => []
  fails _ := false

end Satelle.Mcp
