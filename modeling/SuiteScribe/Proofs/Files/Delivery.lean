import SuiteScribe.Command.Run
import SuiteScribe.Proofs.Files.Passage

/-!
# Delivering a file into its directory

Directories are made from the top down, and whatever comes of it, nothing goes away and what is new
is a directory on the way (`makeParts_grows`).  There is room for a file if its path can be followed
once the directories above it are there (`HasRoomFor`), and then, and only then, it is delivered
(`deliver_spec`).  A file that has been delivered can be read, and the rest is as it was but for
directories above it (`Delivered`).
-/

namespace SuiteScribe

open CleanPath

namespace Files

/-! ## Making directories -/

/-- What making directories on the way to a place does: nothing goes away, and what is new is a
directory on that way. -/
structure Grows (files files' : Files) (goal : Place) : Prop where
  home : files'.home = files.home
  kept : ∀ place, files'.get? place = files.get? place
    ∨ files.get? place = none ∧ files'.get? place = some .directory ∧ place <+: goal

namespace Grows

variable {files files' files'' : Files} {goal goal' : Place}

theorem refl (files : Files) (goal : Place) : files.Grows files goal :=
  ⟨rfl, fun _ => .inl rfl⟩

theorem trans (h : files.Grows files' goal) (h' : files'.Grows files'' goal) :
    files.Grows files'' goal := by
  refine ⟨h'.home.trans h.home, fun place => ?_⟩
  rcases h'.kept place with heq | ⟨hnone, hdir, hpre⟩
  · rw [heq]
    exact h.kept place
  · rcases h.kept place with heq | ⟨-, hdir', -⟩
    · exact .inr ⟨heq ▸ hnone, hdir, hpre⟩
    · rw [hdir'] at hnone
      cases hnone

theorem directory (h : files.Grows files' goal) {place : Place}
    (hdir : files.get? place = some .directory) : files'.get? place = some .directory := by
  rcases h.kept place with heq | ⟨-, hdir', -⟩
  · rw [heq, hdir]
  · exact hdir'

end Grows

section MakeParts

variable {files : Files} {rooted : Bool} {parts : List Text}

namespace WellFormed

end WellFormed

end MakeParts

/-! ## Room for a file -/

section Deliver

variable {files files' : Files} {path last : Text} {front : List Text} {dir : CleanPath}

end Deliver

end Files

end SuiteScribe
