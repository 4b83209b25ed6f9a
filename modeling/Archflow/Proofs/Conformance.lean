import Archflow.SymbolTable
import Mathlib.Logic.IsEmpty.Basic
import Mathlib.Logic.Relation

/-!
Conformance as a relation between values and types that knows no bound: a value belongs to a type if
there is a derivation of it (`Conformance`). Derivations go through aliases and fields, and so far as
they are nested the bounded check follows them: it accepts a value exactly if there is a derivation
with at most 16 steps one inside the other (`conforms_iff_derivation`). Aliases that lead into a
circle have no derivations at all.
-/
namespace Archflow.SymbolTable

inductive Meaning where
  | valueType (base : TypeRef)
  | enumeration (literals : List String)
  | datatype (fields : List (String × TypeRef))
  | undeclared

/-- What a name stands for. A name that is declared in several ways is an alias in the first place
and an enumeration in the second. -/
def meaning (symbols : SymbolTable) (name : String) : Meaning :=
  match symbols.valueTypes.get? name with
  | some base => .valueType base
  | none =>
    match symbols.enumerations.get? name with
    | some literals => .enumeration literals
    | none =>
      match symbols.datatypes.get? name with
      | some fields => .datatype fields
      | none => .undeclared

mutual

/-- A derivation that a value belongs to a type. Everything belongs to the type of all values; the
unknown value belongs to no other type. -/
inductive Conformance (symbols : SymbolTable) : Value → TypeRef → Type
  | any (value : Value) : Conformance symbols value .any
  | integer (i : Int64) : Conformance symbols (.int i) .integer
  | whole (i : Int64) : Conformance symbols (.int i) .real
  | real (r : Float) : Conformance symbols (.real r) .real
  | boolean (b : Bool) : Conformance symbols (.bool b) .boolean
  | text (s : String) : Conformance symbols (.text s) .text
  /-- An alias has the known values of its base. -/
  | valueType {name : String} {base : TypeRef} {value : Value}
      (stands : symbols.meaning name = .valueType base) (known : value ≠ .unknown)
      (based : Conformance symbols value base) : Conformance symbols value (.named name)
  /-- A literal of an enumeration may leave out the name of the enumeration. -/
  | enumeration {name enumeration literal : String} {literals : List String}
      (stands : symbols.meaning name = .enumeration literals)
      (owned : enumeration = "" ∨ enumeration = name) (listed : literal ∈ literals) :
      Conformance symbols (.literal enumeration literal) (.named name)
  /-- A record of a datatype has all declared fields; others do not matter. -/
  | datatype {name : String} {fields : List (String × TypeRef)} {items : List (String × Value)}
      (stands : symbols.meaning name = .datatype fields)
      (each : FieldConformance symbols items fields) :
      Conformance symbols (.record items) (.named name)
  /-- A name that is not declared stands for all known values. -/
  | undeclared {name : String} {value : Value} (stands : symbols.meaning name = .undeclared)
      (known : value ≠ .unknown) : Conformance symbols value (.named name)

inductive FieldConformance (symbols : SymbolTable) :
    List (String × Value) → List (String × TypeRef) → Type
  | nil (items : List (String × Value)) : FieldConformance symbols items []
  | cons {items : List (String × Value)} {field : String × TypeRef} {item : Value}
      {rest : List (String × TypeRef)} (found : Entries.lookup field.1 items = some item)
      (head : Conformance symbols item field.2) (tail : FieldConformance symbols items rest) :
      FieldConformance symbols items (field :: rest)

end

mutual

/-- How many aliases and fields are followed one inside the other. -/
def Conformance.nesting {symbols : SymbolTable} {value : Value} {type : TypeRef} :
    Conformance symbols value type → Nat
  | .valueType _ _ based => based.nesting + 1
  | .datatype _ each => each.nesting
  | .any _ | .integer _ | .whole _ | .real _ | .boolean _ | .text _ | .enumeration .. | .undeclared .. => 0

def FieldConformance.nesting {symbols : SymbolTable} {items : List (String × Value)}
    {fields : List (String × TypeRef)} : FieldConformance symbols items fields → Nat
  | .nil _ => 0
  | .cons _ head tail => max (head.nesting + 1) tail.nesting

end

section
variable {symbols : SymbolTable} {name : String} {value : Value} {budget : Nat}

theorem conformsWithin_named (symbols : SymbolTable) (budget : Nat) {value : Value}
    (hknown : value ≠ .unknown) (name : String) :
    symbols.conformsWithin (budget + 1) value (.named name) =
      match symbols.meaning name with
      | .valueType base => symbols.conformsWithin budget value base
      | .enumeration literals =>
        match value with
        | .literal enumeration literal =>
            (enumeration.isEmpty || enumeration == name) && literals.contains literal
        | _ => false
      | .datatype fields =>
        match value with
        | .record items => fields.all fun field =>
            match Entries.lookup field.1 items with
            | some item => symbols.conformsWithin budget item field.2
            | none => false
        | _ => false
      | .undeclared => true := by
  unfold meaning
  cases value with
  | unknown => exact absurd rfl hknown
  | _ =>
    simp only [conformsWithin]
    cases symbols.valueTypes.get? name with
    | some base => rfl
    | none =>
      cases symbols.enumerations.get? name with
      | some literals => rfl
      | none => cases symbols.datatypes.get? name <;> rfl

/-- There is a derivation with fewer than so many steps one inside the other. -/
def DerivableWithin (symbols : SymbolTable) (budget : Nat) (value : Value) (type : TypeRef) : Prop :=
  ∃ derivation : Conformance symbols value type, derivation.nesting < budget

theorem not_derivableWithin_unknown : ¬ symbols.DerivableWithin budget .unknown (.named name) := by
  rintro ⟨derivation, -⟩
  cases derivation with
  | valueType _ known => exact known rfl
  | undeclared _ known => exact known rfl

theorem derivableWithin_valueType {base : TypeRef} (hstands : symbols.meaning name = .valueType base)
    (hknown : value ≠ .unknown) :
    symbols.DerivableWithin (budget + 1) value (.named name) ↔
      symbols.DerivableWithin budget value base := by
  constructor
  · rintro ⟨derivation, hnesting⟩
    cases derivation with
    | valueType stands _ based =>
      cases hstands.symm.trans stands
      exact ⟨based, Nat.lt_of_succ_lt_succ hnesting⟩
    | enumeration stands | datatype stands | undeclared stands => cases hstands.symm.trans stands
  · rintro ⟨based, hnesting⟩
    exact ⟨.valueType hstands hknown based, Nat.succ_lt_succ hnesting⟩

theorem derivableWithin_enumeration {literals : List String}
    (hstands : symbols.meaning name = .enumeration literals) :
    symbols.DerivableWithin (budget + 1) value (.named name) ↔
      ∃ enumeration literal, value = .literal enumeration literal ∧
        (enumeration = "" ∨ enumeration = name) ∧ literal ∈ literals := by
  constructor
  · rintro ⟨derivation, -⟩
    cases derivation with
    | enumeration stands owned listed =>
      cases hstands.symm.trans stands
      exact ⟨_, _, rfl, owned, listed⟩
    | valueType stands | datatype stands | undeclared stands => cases hstands.symm.trans stands
  · rintro ⟨enumeration, literal, rfl, howned, hlisted⟩
    exact ⟨.enumeration hstands howned hlisted, Nat.succ_pos _⟩

theorem fieldsDerivable_iff {items : List (String × Value)} {fields : List (String × TypeRef)} :
    (∃ each : FieldConformance symbols items fields, each.nesting < budget + 1) ↔
      ∀ field ∈ fields, ∃ item, Entries.lookup field.1 items = some item ∧
        symbols.DerivableWithin budget item field.2 := by
  induction fields with
  | nil => exact ⟨fun _ => by simp, fun _ => ⟨.nil items, Nat.succ_pos _⟩⟩
  | cons field rest ih =>
    rw [List.forall_mem_cons, ← ih]
    constructor
    · rintro ⟨each, hnesting⟩
      cases each with
      | cons found head tail =>
        obtain ⟨hhead, htail⟩ := Nat.max_lt.1 hnesting
        exact ⟨⟨_, found, head, Nat.lt_of_succ_lt_succ hhead⟩, tail, htail⟩
    · rintro ⟨⟨item, hfound, head, hhead⟩, tail, htail⟩
      exact ⟨.cons hfound head tail, Nat.max_lt.2 ⟨Nat.succ_lt_succ hhead, htail⟩⟩

theorem derivableWithin_datatype {fields : List (String × TypeRef)}
    (hstands : symbols.meaning name = .datatype fields) :
    symbols.DerivableWithin (budget + 1) value (.named name) ↔
      ∃ items, value = .record items ∧ ∀ field ∈ fields, ∃ item,
        Entries.lookup field.1 items = some item ∧ symbols.DerivableWithin budget item field.2 := by
  constructor
  · rintro ⟨derivation, hnesting⟩
    cases derivation with
    | datatype stands each =>
      cases hstands.symm.trans stands
      exact ⟨_, rfl, fieldsDerivable_iff.1 ⟨each, hnesting⟩⟩
    | valueType stands | enumeration stands | undeclared stands => cases hstands.symm.trans stands
  · rintro ⟨items, rfl, hfields⟩
    obtain ⟨each, hnesting⟩ := fieldsDerivable_iff.2 hfields
    exact ⟨.datatype hstands each, hnesting⟩

/-- With a bound on the types looked at in a row, exactly the derivations that keep below it are
found. -/
theorem conformsWithin_iff (symbols : SymbolTable) (budget : Nat) (value : Value) (type : TypeRef) :
    symbols.conformsWithin budget value type = true ↔ symbols.DerivableWithin budget value type := by
  induction budget generalizing value type with
  | zero => exact ⟨nofun, fun ⟨_, hnesting⟩ => absurd hnesting (Nat.not_lt_zero _)⟩
  | succ budget ih =>
    cases type with
    | named name =>
      by_cases hknown : value = .unknown
      · subst hknown
        exact ⟨nofun, fun h => absurd h not_derivableWithin_unknown⟩
      rw [conformsWithin_named symbols budget hknown]
      cases hstands : symbols.meaning name with
      | valueType base => rw [derivableWithin_valueType hstands hknown, ih]
      | enumeration literals =>
        rw [derivableWithin_enumeration hstands]
        cases value <;> simp [and_assoc]
      | datatype fields =>
        rw [derivableWithin_datatype hstands]
        cases value with
        | record items =>
          simp only [List.all_eq_true, Value.record.injEq, exists_eq_left']
          refine forall₂_congr fun field _ => ?_
          cases Entries.lookup field.1 items with
          | none => simp
          | some item => simp [ih]
        | _ => simp
      | undeclared => exact iff_of_true rfl ⟨.undeclared hstands hknown, Nat.succ_pos _⟩
    | any => exact iff_of_true (by cases value <;> rfl) ⟨.any value, Nat.succ_pos _⟩
    | integer =>
      cases value with
      | int i => exact iff_of_true rfl ⟨.integer i, Nat.succ_pos _⟩
      | _ => exact iff_of_false nofun fun ⟨derivation, _⟩ => nomatch derivation
    | real =>
      cases value with
      | int i => exact iff_of_true rfl ⟨.whole i, Nat.succ_pos _⟩
      | real r => exact iff_of_true rfl ⟨.real r, Nat.succ_pos _⟩
      | _ => exact iff_of_false nofun fun ⟨derivation, _⟩ => nomatch derivation
    | boolean =>
      cases value with
      | bool b => exact iff_of_true rfl ⟨.boolean b, Nat.succ_pos _⟩
      | _ => exact iff_of_false nofun fun ⟨derivation, _⟩ => nomatch derivation
    | text =>
      cases value with
      | text s => exact iff_of_true rfl ⟨.text s, Nat.succ_pos _⟩
      | _ => exact iff_of_false nofun fun ⟨derivation, _⟩ => nomatch derivation

def AliasOf (symbols : SymbolTable) (name other : String) : Prop :=
  symbols.valueTypes.get? name = some (.named other)

/-- From one alias to the next, the name leads into a circle. -/
def Circular (symbols : SymbolTable) (name : String) : Prop :=
  ∃ other, Relation.ReflTransGen symbols.AliasOf name other ∧
    Relation.TransGen symbols.AliasOf other other

theorem Circular.next (h : symbols.Circular name) :
    ∃ next, symbols.AliasOf name next ∧ symbols.Circular next := by
  obtain ⟨other, hpath, hcircle⟩ := h
  rcases Relation.ReflTransGen.cases_head hpath with rfl | ⟨next, halias, hrest⟩
  · obtain ⟨next, halias, hback⟩ := Relation.TransGen.head'_iff.1 hcircle
    exact ⟨next, halias, name, hback, hcircle⟩
  · exact ⟨next, halias, other, hrest, hcircle⟩

theorem Circular.not_derivableWithin (h : symbols.Circular name) (budget : Nat) (value : Value) :
    ¬ symbols.DerivableWithin budget value (.named name) := by
  induction budget generalizing name with
  | zero => exact fun ⟨_, hnesting⟩ => absurd hnesting (Nat.not_lt_zero _)
  | succ budget ih =>
    by_cases hknown : value = .unknown
    · subst hknown
      exact not_derivableWithin_unknown
    · obtain ⟨next, halias, hnext⟩ := h.next
      have hstands : symbols.meaning name = .valueType (.named next) := by rw [meaning, halias]
      rw [derivableWithin_valueType hstands hknown]
      exact ih hnext

end

/-- A value belongs to a type exactly if there is a derivation of it with at most 16 aliases and
fields one inside the other. There is none, of whatever size, if the type is an alias that leads into
a circle. -/
theorem conforms_iff_derivation (symbols : SymbolTable) (value : Value) (type : TypeRef) :
    (symbols.conforms value type = true ↔
      ∃ derivation : Conformance symbols value type, derivation.nesting ≤ 16) ∧
    ∀ name, symbols.Circular name → type = .named name →
      IsEmpty (Conformance symbols value type) ∧ symbols.conforms value type = false := by
  have hiff : symbols.conforms value type = true ↔ symbols.DerivableWithin 17 value type :=
    symbols.conformsWithin_iff 17 value type
  refine ⟨hiff.trans (exists_congr fun derivation => Nat.lt_succ_iff), ?_⟩
  rintro name hcircular rfl
  refine ⟨⟨fun derivation => ?_⟩, ?_⟩
  · exact hcircular.not_derivableWithin _ value ⟨derivation, Nat.lt_succ_self _⟩
  · rw [← Bool.not_eq_true, hiff]
    exact hcircular.not_derivableWithin 17 value

/-- A type of numbers, an alias of it, a datatype with a field of the alias, an alias of the datatype,
and so on: each name stands one step above the one before it. -/
def tower : Nat → SymbolTable
  | 0 => ({} : SymbolTable).addValueType "0" .integer
  | level + 1 =>
    let type := TypeRef.named (toString level)
    if level % 2 = 0 then (tower level).addDatatype (toString (level + 1)) [("part", type)]
    else (tower level).addValueType (toString (level + 1)) type

def packed : Nat → Value
  | 0 => .int 7
  | depth + 1 => .record [("part", packed depth)]

def carousel : SymbolTable where
  valueTypes := .ofList [("horse", .named "swan"), ("swan", .named "horse"), ("rider", .named "horse")]

/-- Sixteen steps are followed and seventeen are not, although the value belongs to the type. A third
alias of two that go in a circle has no values. -/
theorem conforms_iff_derivation_tower :
    (∃ derivation : Conformance (tower 16) (packed 8) (.named "15"), derivation.nesting ≤ 16) ∧
    Nonempty (Conformance (tower 16) (packed 8) (.named "16")) ∧
    (¬ ∃ derivation : Conformance (tower 16) (packed 8) (.named "16"), derivation.nesting ≤ 16) ∧
    carousel.Circular "rider" ∧ carousel.conforms (.int 7) (.named "rider") = false := by
  have hwithin := (conforms_iff_derivation (tower 16) (packed 8) (.named "15")).1.1 (by decide +kernel)
  have hbeyond := (conforms_iff_derivation (tower 16) (packed 8) (.named "16")).1.not.1
    (by decide +kernel)
  have hcircular : carousel.Circular "rider" :=
    ⟨"horse", .single rfl, .head (b := "swan") rfl (.single rfl)⟩
  obtain ⟨derivation, hnesting⟩ := hwithin
  have hstands : (tower 16).meaning "16" = .valueType (.named "15") := rfl
  exact ⟨⟨derivation, hnesting⟩, ⟨.valueType hstands nofun derivation⟩, hbeyond, hcircular,
    ((conforms_iff_derivation carousel (.int 7) (.named "rider")).2 "rider" hcircular rfl).2⟩

end Archflow.SymbolTable
