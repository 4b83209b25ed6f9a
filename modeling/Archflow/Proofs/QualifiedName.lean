import Archflow.Fault

/-!
Qualified names. A text is read by its last dot, so it is the qualified name of whatever it is read
as. The other way round, a port is read back from its qualified name if its own name has no dot, as
the last dot is then the one that was written; a component may have dots in its name.
-/
namespace Archflow

namespace PortRef

variable {qualified : String} {ref : PortRef}

/-- A text without a dot, or with nothing before or behind the last one. -/
def Unqualified (qualified : String) : Prop :=
  '.' ∉ qualified.toList ∨
    ∃ before after : String, qualified = before ++ "." ++ after ∧ '.' ∉ after.toList ∧
      (before = "" ∨ after = "")

theorem exists_of_dot_mem (h : '.' ∈ qualified.toList) :
    ∃ ref : PortRef, ref.text = qualified ∧ '.' ∉ ref.port.toList := by
  cases hsplit : splitAtLastDot qualified.toList with
  | none => exact absurd h (dot_not_mem_of_splitAtLastDot hsplit)
  | some parts =>
    obtain ⟨before, after⟩ := parts
    obtain ⟨hchars, hdot⟩ := of_splitAtLastDot hsplit
    refine ⟨⟨.ofList before, .ofList after⟩, ?_, by simpa using hdot⟩
    rw [← String.toList_inj, hchars]
    simp [text]

theorem parse?_of_dot_not_mem (h : '.' ∉ qualified.toList) : parse? qualified = none := by
  rw [parse?, splitAtLastDot_eq_none h]

/-- If the last dot is the one between component and port, these are read back unless one of them
is empty. -/
theorem parse?_text (h : '.' ∉ ref.port.toList) :
    parse? ref.text = if ref.component = "" ∨ ref.port = "" then none else some ref := by
  rw [parse?, splitAtLastDot_text h]
  simp

theorem parse?_eq_some_iff : parse? qualified = some ref ↔
    ref.text = qualified ∧ ref.component ≠ "" ∧ ref.port ≠ "" ∧ '.' ∉ ref.port.toList := by
  constructor
  · intro hread
    by_cases hdot : '.' ∈ qualified.toList
    · obtain ⟨found, rfl, hport⟩ := exists_of_dot_mem hdot
      rw [parse?_text hport] at hread
      split at hread
      · cases hread
      · next hparts =>
        cases hread
        rw [not_or] at hparts
        exact ⟨rfl, hparts.1, hparts.2, hport⟩
    · rw [parse?_of_dot_not_mem hdot] at hread
      cases hread
  · rintro ⟨rfl, hcomponent, hname, hport⟩
    rw [parse?_text hport, if_neg (not_or.2 ⟨hcomponent, hname⟩)]

theorem parse?_eq_none_iff : parse? qualified = none ↔ Unqualified qualified := by
  constructor
  · intro hread
    by_cases hdot : '.' ∈ qualified.toList
    · obtain ⟨found, rfl, hport⟩ := exists_of_dot_mem hdot
      rw [parse?_text hport] at hread
      split at hread
      · next hempty => exact .inr ⟨found.component, found.port, rfl, hport, hempty⟩
      · cases hread
    · exact .inl hdot
  · rintro (hdot | ⟨before, after, rfl, hport, hempty⟩)
    · exact parse?_of_dot_not_mem hdot
    · exact (@parse?_text ⟨before, after⟩ hport).trans (if_pos hempty)

theorem parse_eq_ok_iff : parse qualified = .ok ref ↔ parse? qualified = some ref := by
  unfold parse
  cases parse? qualified <;> simp

theorem parse_eq_error_iff {fault : Fault} : parse qualified = .error fault ↔
    parse? qualified = none ∧ fault = .unresolved (.unqualified qualified) := by
  unfold parse
  cases parse? qualified <;> simp [eq_comm]

/-- A text that can be read is the qualified name of what it is read as, all texts but the
unqualified ones can be read, and a port is read back from its qualified name exactly if neither
name is empty and that of the port has no dot. -/
theorem qualified_names_exact :
    (∀ qualified ref, parse qualified = .ok ref → ref.text = qualified) ∧
    (∀ qualified fault, parse qualified = .error fault ↔
      Unqualified qualified ∧ fault = .unresolved (.unqualified qualified)) ∧
    ∀ component port, parse (text ⟨component, port⟩) = .ok ⟨component, port⟩ ↔
      component ≠ "" ∧ port ≠ "" ∧ '.' ∉ port.toList := by
  refine ⟨fun qualified ref hread => ?_, fun qualified fault => ?_, fun component port => ?_⟩
  · exact (parse?_eq_some_iff.1 (parse_eq_ok_iff.1 hread)).1
  · rw [parse_eq_error_iff, parse?_eq_none_iff]
  · rw [parse_eq_ok_iff, parse?_eq_some_iff]
    exact and_iff_right rfl

/-- The name of a nested component has a dot of its own. -/
theorem qualified_names_exact_nested :
    parse "Room.sensor.temp" = .ok ⟨"Room.sensor", "temp"⟩ ∧
      text ⟨"Room.sensor", "temp"⟩ = "Room.sensor.temp" ∧
      parse (text ⟨"Room", "sensor.temp"⟩) ≠ .ok ⟨"Room", "sensor.temp"⟩ := by
  have hread : parse "Room.sensor.temp" = .ok ⟨"Room.sensor", "temp"⟩ :=
    parse_eq_ok_iff.2 (by decide +kernel)
  refine ⟨hread, qualified_names_exact.1 _ _ hread, fun hback => ?_⟩
  exact ((qualified_names_exact.2.2 _ _).1 hback).2.2 (by decide)

end PortRef
end Archflow
