/-!
Ports are named by their component and their own name, joined by a dot. A component may have dots
in its name, so the last dot of a qualified name is the one that divides it.
-/
namespace Archflow

/-- Which way values pass through a port, seen from its component. -/
inductive Direction where
  | input
  | output
  | both
deriving DecidableEq, Repr

namespace Direction

def canSend : Direction → Bool
  | .input => false
  | .output | .both => true

def canReceive : Direction → Bool
  | .output => false
  | .input | .both => true

def text : Direction → String
  | .input => "in"
  | .output => "out"
  | .both => "inout"

end Direction

/-- A reference to a port of a component; neither has to exist. -/
structure PortRef where
  component : String
  port : String
deriving DecidableEq, Repr

namespace PortRef

def text (ref : PortRef) : String := ref.component ++ "." ++ ref.port

/-- Divide a text at its last dot, which neither part keeps. -/
def splitAtLastDot : List Char → Option (List Char × List Char)
  | [] => none
  | c :: rest =>
      match splitAtLastDot rest with
      | some (before, after) => some (c :: before, after)
      | none => if c = '.' then some ([], rest) else none

theorem splitAtLastDot_eq_none {chars : List Char} (h : '.' ∉ chars) : splitAtLastDot chars = none := by
  induction chars with
  | nil => rfl
  | cons c rest ih =>
    rw [List.mem_cons, not_or] at h
    simp [splitAtLastDot, ih h.2, Ne.symm h.1]

theorem splitAtLastDot_append (before : List Char) {after : List Char} (h : '.' ∉ after) :
    splitAtLastDot (before ++ '.' :: after) = some (before, after) := by
  induction before with
  | nil => simp [splitAtLastDot, splitAtLastDot_eq_none h]
  | cons c rest ih => simp [splitAtLastDot, ih]

theorem dot_not_mem_of_splitAtLastDot {chars : List Char} (h : splitAtLastDot chars = none) :
    '.' ∉ chars := by
  induction chars with
  | nil => exact List.not_mem_nil
  | cons c rest ih =>
    rw [splitAtLastDot] at h
    cases hrest : splitAtLastDot rest with
    | some parts => simp [hrest] at h
    | none =>
      have hdot : c ≠ '.' := by simpa [hrest] using h
      rw [List.mem_cons, not_or]
      exact ⟨Ne.symm hdot, ih hrest⟩

/-- The parts that are found make up the text, and the second one has no dot. -/
theorem of_splitAtLastDot {chars before after : List Char}
    (h : splitAtLastDot chars = some (before, after)) :
    chars = before ++ '.' :: after ∧ '.' ∉ after := by
  induction chars generalizing before with
  | nil => cases h
  | cons c rest ih =>
    rw [splitAtLastDot] at h
    cases hrest : splitAtLastDot rest with
    | some parts =>
      obtain ⟨earlier, later⟩ := parts
      simp only [hrest, Option.some.injEq, Prod.mk.injEq] at h
      obtain ⟨rfl, rfl⟩ := h
      obtain ⟨hparts, hdot⟩ := ih hrest
      exact ⟨by rw [hparts, List.cons_append], hdot⟩
    | none =>
      simp only [hrest] at h
      split at h
      · next hdot =>
        cases h
        exact ⟨by rw [hdot, List.nil_append], dot_not_mem_of_splitAtLastDot hrest⟩
      · cases h

/-- A qualified name is divided between the component and the port whose name has no dot. -/
theorem splitAtLastDot_text {ref : PortRef} (h : '.' ∉ ref.port.toList) :
    splitAtLastDot ref.text.toList = some (ref.component.toList, ref.port.toList) := by
  have hchars : ref.text.toList = ref.component.toList ++ '.' :: ref.port.toList := by simp [text]
  rw [hchars, splitAtLastDot_append _ h]

/-- Read a qualified name. Both parts must be non-empty. -/
def parse? (qualified : String) : Option PortRef :=
  match splitAtLastDot qualified.toList with
  | some (component, port) =>
      if component.isEmpty || port.isEmpty then none
      else some ⟨String.ofList component, String.ofList port⟩
  | none => none

end PortRef
end Archflow
