import BearerAuth.Configuration.Parameters
import BearerAuth.Proofs.Text.Listing

namespace BearerAuth.Parameters

/-- What does not hold by default holds only if it is said to. -/
theorem boolean_eq_true_iff (p : Parameters) (name : String) (w : Surroundings)
    (s : ProcessState) :
    (p.boolean name false w s).1 = true ↔ (p.string? name).bind truthValue? = some true := by
  unfold boolean
  cases p.string? name with
  | none => exact iff_of_false nofun nofun
  | some text =>
    rw [Option.bind_some]
    dsimp only
    cases truthValue? text with
    | none => exact iff_of_false nofun nofun
    | some b => exact (Option.some_inj).symm

/-- The text of a parameter, empty if there is none. -/
def textOf (p : Parameters) (name : String) : String := (p name).getD ""

theorem string?_eq (p : Parameters) (name : String) :
    p.string? name = Text.nonBlank? (p.textOf name) := by
  unfold string? textOf
  cases p name with
  | none => decide
  | some text => rfl

theorem isBlankChar_comma : Text.isBlankChar ',' = false := by decide

theorem list_eq (p : Parameters) (name : String) :
    p.list name = if Text.trim (p.textOf name) = "" then []
      else (Text.split ',' (p.textOf name)).map Text.trim := by
  unfold list
  rw [string?_eq, Text.nonBlank?_eq]
  by_cases hblank : Text.trim (p.textOf name) = ""
  · rw [if_pos hblank, if_pos hblank]
  · rw [if_neg hblank, if_neg hblank]
    exact Text.map_trim_split_trim isBlankChar_comma _

theorem getElem?_map_trim_bind (parts : List String) (i : Nat) :
    (parts.map Text.trim)[i]?.bind Text.nonBlank? = parts[i]?.bind Text.nonBlank? := by
  rw [List.getElem?_map]
  cases parts[i]? with
  | none => rfl
  | some part => rw [Option.map_some, Option.bind_some, Option.bind_some, Text.nonBlank?_trim]

/-- The text of a blank list is one part, which is blank. -/
theorem map_trim_split_of_blank {p : Parameters} {name : String}
    (h : Text.trim (p.textOf name) = "") :
    (Text.split ',' (p.textOf name)).map Text.trim = [""] := by
  rw [← Text.map_trim_split_trim isBlankChar_comma, h]
  decide

/-- A part of a list that is not blank is found at its place in the text. -/
theorem getElem?_list_bind (p : Parameters) (name : String) (i : Nat) :
    (p.list name)[i]?.bind Text.nonBlank? =
      (Text.split ',' (p.textOf name))[i]?.bind Text.nonBlank? := by
  rw [list_eq, ← getElem?_map_trim_bind (Text.split ',' _)]
  by_cases hblank : Text.trim (p.textOf name) = ""
  · rw [if_pos hblank, map_trim_split_of_blank hblank]
    cases i with
    | zero => decide
    | succ i => rfl
  · rw [if_neg hblank]

end BearerAuth.Parameters
