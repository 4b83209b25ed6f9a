import Archflow.Proofs.Conformance
import Archflow.Proofs.Construction
import Archflow.Proofs.Typing

/-!
The values that ports start with. A port of a finished model holds the value of the last initial
declaration for it that was accepted, and the value fitted the types as they were declared by then
(`given_ofDeclarations`). Conformance depends on nothing but what the names mean that a type leads to
(`conforms_congr`), so the value still fits in the end unless one of these names has got another
meaning in the meantime.
-/
namespace Archflow

namespace SymbolTable

/-- The names that a type leads to: the type itself, and what the bases of aliases and the fields of
datatypes lead to. -/
inductive Mentions (symbols : SymbolTable) : TypeRef → String → Prop
  | itself (name : String) : Mentions symbols (.named name) name
  | base {name other : String} {base : TypeRef} (stands : symbols.meaning name = .valueType base)
      (mentions : Mentions symbols base other) : Mentions symbols (.named name) other
  | field {name other : String} {fields : List (String × TypeRef)} {field : String × TypeRef}
      (stands : symbols.meaning name = .datatype fields) (listed : field ∈ fields)
      (mentions : Mentions symbols field.2 other) : Mentions symbols (.named name) other

/-- Conformance to a type is decided by the meanings of the names that the type leads to. -/
theorem conformsWithin_congr {symbols later : SymbolTable} {type : TypeRef}
    (h : ∀ name, symbols.Mentions type name → later.meaning name = symbols.meaning name)
    (budget : Nat) (value : Value) :
    later.conformsWithin budget value type = symbols.conformsWithin budget value type := by
  induction budget generalizing type value with
  | zero => rfl
  | succ budget ih =>
    cases type with
    | named name =>
      by_cases hknown : value = .unknown
      · rw [hknown]
        rfl
      rw [conformsWithin_named later budget hknown, conformsWithin_named symbols budget hknown,
        h name (.itself name)]
      cases hmeaning : symbols.meaning name with
      | valueType base => exact ih (fun other hother => h other (.base hmeaning hother)) value
      | enumeration literals => rfl
      | datatype fields =>
        cases value with
        | record items =>
          have hfield (field : String × TypeRef) (hmem : field ∈ fields) (item : Value) :
              later.conformsWithin budget item field.2 = symbols.conformsWithin budget item field.2 :=
            ih (fun other hother => h other (.field hmeaning hmem hother)) item
          rw [Bool.eq_iff_iff, List.all_eq_true, List.all_eq_true]
          refine forall₂_congr fun field hmem => ?_
          cases Entries.lookup field.1 items with
          | none => rfl
          | some item => simp only [hfield field hmem item]
        | _ => rfl
      | undeclared => rfl
    | _ => cases value <;> rfl

theorem conforms_congr {symbols later : SymbolTable} {type : TypeRef}
    (h : ∀ name, symbols.Mentions type name → later.meaning name = symbols.meaning name)
    (value : Value) : later.conforms value type = symbols.conforms value type :=
  conformsWithin_congr h _ value

end SymbolTable

namespace Model

section
variable {model next : Model} {key : String} {component revised : Component}
  {declaration : Declaration} {port : Port} {value : Value}

theorem port?_putComponent (model : Model) (key : String) (component : Component) (ref : PortRef) :
    (model.putComponent key component).port? ref =
      if ref.component = key then component.port? ref.port else model.port? ref := by
  simp only [port?, putComponent, Table.get?_insert]
  split <;> rfl

/-- A revision fills the port that it is about, and leaves all other ports with values as they
are. -/
theorem Revision.filled (revision : Revision model key component declaration revised) {name : String}
    (hport : revised.port? name = some port) (hvalue : port.value = some value) :
    (declaration = .initial ⟨key, name⟩ value ∧ model.symbols.conforms value port.type = true) ∨
      (∀ other, declaration ≠ .initial ⟨key, name⟩ other) ∧ component.port? name = some port := by
  cases revision with
  | @port new direction type fresh =>
    refine .inr ⟨by simp, ?_⟩
    simp only [Component.port?, List.find?_append] at hport
    rcases Option.or_eq_some_iff.1 hport with hold | ⟨_, hnew⟩
    · exact hold
    · -- a port that has just been declared holds nothing
      rw [List.mem_singleton.1 (List.mem_of_find?_eq_some hnew)] at hvalue
      cases hvalue
  | @initial other given slot found fits =>
    rw [Component.port?_setPort] at hport
    split at hport
    · next hname =>
      rw [found] at hport
      cases hport
      cases hvalue
      exact .inl ⟨by rw [hname], conforms_of_checkPayload fits⟩
    · next hname =>
      refine .inr ⟨fun value heq => ?_, hport⟩
      cases heq
      exact hname rfl
  | _ => exact .inr ⟨by simp, hport⟩

/-- A port that holds a value after a declaration has got it from the declaration, and then the value
is of its type as things are declared, or it is as it was before. -/
theorem filled_of_declare (hdeclared : model.declare declaration = (.ok (), next)) {ref : PortRef}
    (hport : next.port? ref = some port) (hvalue : port.value = some value) :
    (declaration = .initial ref value ∧ model.symbols.conforms value port.type = true) ∨
      (∀ other, declaration ≠ .initial ref other) ∧ model.port? ref = some port := by
  cases howner : declaration.owner? with
  | some key =>
    obtain ⟨component, revised, hfound, hrevision, rfl⟩ := revision_of_declare howner hdeclared
    rw [port?_putComponent] at hport
    split at hport
    · next hkey =>
      subst hkey
      have hfilled := hrevision.filled hport hvalue
      simpa only [port?, hfound, Option.bind_some] using hfilled
    · next hkey =>
      refine .inr ⟨fun other heq => ?_, hport⟩
      rw [heq] at howner
      exact hkey (Option.some.inj howner)
  | none =>
    refine .inr ⟨fun other heq => (by rw [heq] at howner; cases howner), ?_⟩
    rcases components_of_declare howner hdeclared with hsame | ⟨name, hnew⟩
    · rw [port?, hsame] at hport
      exact hport
    · -- the new component has no ports
      rw [port?, hnew, Table.get?_insert] at hport
      split at hport
      · cases hport
      · exact hport

end

/-- Among declarations, the one that a port has its value from: it was accepted, and all later ones
for the port were refused. -/
structure Given (name : String) (declarations : List Declaration) (ref : PortRef) (value : Value)
    (before after : List Declaration) : Prop where
  split : declarations = before ++ .initial ref value :: after
  accepted : ((ofDeclarations name before).declare (.initial ref value)).1 = .ok ()
  last : ∀ between other rest, after = between ++ .initial ref other :: rest →
    ∃ fault, ((ofDeclarations name (before ++ .initial ref value :: between)).declare
      (.initial ref other)).1 = .error fault

section
variable {name : String} {declarations before after : List Declaration} {declaration : Declaration}
  {ref : PortRef} {value : Value}

theorem Given.concat (h : Given name declarations ref value before after)
    (hrefused : ∀ other, declaration = .initial ref other →
      ∃ fault, ((ofDeclarations name declarations).declare (.initial ref other)).1 = .error fault) :
    Given name (declarations ++ [declaration]) ref value before (after ++ [declaration]) := by
  refine ⟨by simp [h.split], h.accepted, fun between other rest hsplit => ?_⟩
  rcases List.eq_nil_or_concat rest with rfl | ⟨rest, last, rfl⟩
  · obtain ⟨rfl, hlast⟩ := List.append_inj' hsplit rfl
    rw [← h.split]
    exact hrefused other (List.singleton_inj.1 hlast)
  · have hinit : after = between ++ .initial ref other :: rest := by
      have hconcat : after ++ [declaration] = (between ++ .initial ref other :: rest) ++ [last] := by
        simpa using hsplit
      exact (List.append_inj' hconcat rfl).1
    exact h.last between other rest hinit

/-- Whatever has been declared, a port that holds a value has been given it by the last initial
declaration that was accepted for it, when the value fitted the port. -/
theorem given_ofDeclarations {port : Port}
    (hport : (ofDeclarations name declarations).port? ref = some port)
    (hvalue : port.value = some value) :
    ∃ before after, Given name declarations ref value before after ∧
      (ofDeclarations name before).symbols.conforms value port.type = true := by
  induction declarations using List.reverseRecOn with
  | nil => cases hport
  | append_singleton declarations declaration ih =>
    rw [ofDeclarations_concat] at hport
    cases houtcome : ((ofDeclarations name declarations).declare declaration).1 with
    | ok =>
      have hdeclared : (ofDeclarations name declarations).declare declaration = (.ok (), _) :=
        Prod.ext houtcome rfl
      rcases filled_of_declare hdeclared hport hvalue with ⟨rfl, hconforms⟩ | ⟨hother, hold⟩
      · exact ⟨declarations, [], ⟨rfl, houtcome, by simp⟩, hconforms⟩
      · obtain ⟨before, after, hgiven, hconforms⟩ := ih hold
        exact ⟨before, _, hgiven.concat fun other heq => absurd heq (hother other), hconforms⟩
    | error fault =>
      rw [declare_error houtcome] at hport
      obtain ⟨before, after, hgiven, hconforms⟩ := ih hport
      refine ⟨before, _, hgiven.concat fun other heq => ⟨fault, ?_⟩, hconforms⟩
      rw [← heq]
      exact houtcome

end

/-- A port of a finished model that holds a value has it from the last initial declaration that was
accepted for it. The value is of the type of the port as things were declared then. It is so in the
end if no name that the type leads to has got another meaning since. -/
theorem initial_values_conform {name : String} {declarations : List Declaration} {model : Model}
    (hbuilt : (ofDeclarations name declarations).build = .ok model) {key : String}
    {component : Component} (hfound : model.components.get? key = some component) {port : Port}
    (hmem : port ∈ component.ports) {value : Value} (hvalue : port.value = some value) :
    ∃ before after, Given name declarations ⟨key, port.name⟩ value before after ∧
      (ofDeclarations name before).symbols.conforms value port.type = true ∧
      ((∀ type, (ofDeclarations name before).symbols.Mentions port.type type →
          model.symbols.meaning type = (ofDeclarations name before).symbols.meaning type) →
        model.symbols.conforms value port.type = true) := by
  obtain ⟨_, rfl⟩ := build_eq_ok_iff.1 hbuilt
  have hfits := (coherent_ofDeclarations name declarations).components key component hfound
  have hport : (ofDeclarations name declarations).port? ⟨key, port.name⟩ = some port := by
    simpa only [port?, hfound, Option.bind_some] using Component.port?_of_mem hfits.distinct hmem
  obtain ⟨before, after, hgiven, hconforms⟩ := given_ofDeclarations hport hvalue
  refine ⟨before, after, hgiven, hconforms, fun hsame => ?_⟩
  rw [SymbolTable.conforms_congr hsame]
  exact hconforms

/-- A port gets a value while the name of its type means nothing yet. -/
def lateLevel : List Declaration :=
  [.component "gauge", .port "gauge" "level" .output (.named "Level"),
    .initial ⟨"gauge", "level"⟩ (.int 1), .enumeration "Level" ["low", "high"]]

/-- The finished model holds a number where it declares one of two literals. -/
theorem lateLevel_mistyped : ∃ model, (ofDeclarations "gauges" lateLevel).build = .ok model ∧
    ¬ model.WellTyped := by
  refine ⟨_, rfl, fun htyped => ?_⟩
  have hconforms := htyped "gauge" _ rfl _ (List.mem_singleton.2 rfl) (.int 1) rfl
  cases hconforms

/-- Where the name is an alias from the start, the enumeration that is declared later does not change
what it means. -/
theorem lateLevel_alias : ∃ model component port,
    (ofDeclarations "gauges" (.valueType "Level" .integer :: lateLevel)).build = .ok model ∧
    model.components.get? "gauge" = some component ∧ port ∈ component.ports ∧
    port.value = some (.int 1) ∧ model.symbols.enumerations.contains "Level" = true ∧
    model.symbols.conforms (.int 1) port.type = true := by
  refine ⟨_, _, _, rfl, rfl, List.mem_singleton.2 rfl, rfl, rfl, ?_⟩
  obtain ⟨before, after, hgiven, -, hconforms⟩ := @initial_values_conform "gauges"
    (.valueType "Level" .integer :: lateLevel) _ rfl "gauge" _ rfl _ (List.mem_singleton.2 rfl) _ rfl
  have hbefore : before = [.valueType "Level" .integer, .component "gauge",
      .port "gauge" "level" .output (.named "Level")] := by
    have hsplit := hgiven.split
    rcases before with _ | ⟨_, _ | ⟨_, _ | ⟨_, _ | ⟨_, _ | ⟨_, _ | ⟨_, _⟩⟩⟩⟩⟩⟩ <;>
      simp_all [lateLevel]
  subst hbefore
  apply hconforms
  rintro type (_ | ⟨hmeaning, hmentions⟩ | ⟨hmeaning, _, _⟩)
  · rfl
  · cases hmeaning
    cases hmentions
  · cases hmeaning

end Model
end Archflow
