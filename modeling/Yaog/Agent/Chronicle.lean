import Yaog.Agent.SelfUpdate

/-!
# The history of updates

What may follow what when versions are armed, finalised and abandoned, and what such a history says about the floor and
about abandoned versions.
-/

namespace Yaog.Agent

open Std List

def Mark.isTerminal : Mark → Bool
  | .armed _ => false
  | .finalised _ | .abandoned _ => true

def finalisedVersions (marks : List Mark) : List String :=
  marks.filterMap fun
    | .finalised version => some version
    | _ => none

def abandonedVersion (marks : List Mark) : String :=
  match marks.find? Mark.isTerminal with
  | some (.abandoned version) => version
  | _ => ""

/-- An update is armed above the floor and not for the version that was abandoned last; only an armed
update is resolved. -/
inductive Chronicle : List Mark → Prop
  | nil : Chronicle []
  | armed {marks : List Mark} {version : String} (earlier : Chronicle marks) (nonempty : version ≠ "")
      (above : ∀ floor ∈ (finalisedVersions marks).head?, (compareVersions floor version).isLE)
      (fresh : abandonedVersion marks ≠ "" → compareVersions version (abandonedVersion marks) ≠ .eq) :
      Chronicle (.armed version :: marks)
  | finalised {marks : List Mark} {version : String} (earlier : Chronicle (.armed version :: marks)) :
      Chronicle (.finalised version :: .armed version :: marks)
  | abandoned {marks : List Mark} {version : String} (earlier : Chronicle (.armed version :: marks)) :
      Chronicle (.abandoned version :: .armed version :: marks)

namespace Chronicle

variable {marks : List Mark} {mark : Mark} {version : String}

theorem tail (chronicle : Chronicle (mark :: marks)) : Chronicle marks := by
  cases chronicle with
  | armed earlier => exact earlier
  | finalised earlier => exact earlier
  | abandoned earlier => exact earlier

theorem suffix {later : List Mark} (chronicle : Chronicle (later ++ marks)) : Chronicle marks := by
  induction later with
  | nil => exact chronicle
  | cons mark rest ih => exact ih chronicle.tail

theorem nonempty (chronicle : Chronicle marks) (member : .armed version ∈ marks) : version ≠ "" := by
  obtain ⟨later, earlier, rfl⟩ := append_of_mem member
  cases chronicle.suffix with
  | armed _ nonempty => exact nonempty

theorem fresh (chronicle : Chronicle (.armed version :: marks))
    (abandoned : abandonedVersion marks ≠ "") : compareVersions version (abandonedVersion marks) ≠ .eq := by
  cases chronicle with
  | armed _ _ _ fresh => exact fresh abandoned

theorem ascending (chronicle : Chronicle marks) :
    (finalisedVersions marks).Pairwise fun newer older => (compareVersions older newer).isLE := by
  induction chronicle with
  | nil => exact .nil
  | armed earlier _ _ _ ih => exact ih
  | abandoned earlier ih => exact ih
  | @finalised marks version earlier ih =>
    refine pairwise_cons.mpr ⟨?_, ih⟩
    cases earlier with
    | armed _ _ above =>
      intro older member
      change older ∈ finalisedVersions marks at member
      change (finalisedVersions marks).Pairwise _ at ih
      cases found : finalisedVersions marks with
      | nil =>
        rw [found] at member
        cases member
      | cons newest rest =>
        rw [found] at member above ih
        have top := above newest rfl
        rcases mem_cons.mp member with rfl | inner
        · exact top
        · exact TransCmp.isLE_trans ((pairwise_cons.mp ih).1 older inner) top

end Chronicle

end Yaog.Agent
