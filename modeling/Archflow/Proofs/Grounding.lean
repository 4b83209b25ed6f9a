import Archflow.Proofs.Conformance
import Archflow.Proofs.Scoping

/-!
The values that types start from. The default of a type need not belong to the type: it does exactly
if the type is the type of all values or is grounded, that is, aliases and fields lead to built-in
types and to enumerations with literals in the end, within the steps that are followed in a row
(`default_usable_iff`). So a variable can be declared without a value, and an argument can be left
out, for exactly those types.
-/
namespace Archflow

namespace SymbolTable

mutual

/-- A derivation that a type is grounded. There is none for the type of all values, for its aliases
and for names that are not declared. -/
inductive Grounding (symbols : SymbolTable) : TypeRef → Type
  | integer : Grounding symbols .integer
  | real : Grounding symbols .real
  | boolean : Grounding symbols .boolean
  | text : Grounding symbols .text
  | valueType {name : String} {base : TypeRef} (stands : symbols.meaning name = .valueType base)
      (based : Grounding symbols base) : Grounding symbols (.named name)
  | enumeration {name first : String} {rest : List String}
      (stands : symbols.meaning name = .enumeration (first :: rest)) :
      Grounding symbols (.named name)
  | datatype {name : String} {fields : List (String × TypeRef)}
      (stands : symbols.meaning name = .datatype fields) (each : FieldGrounding symbols fields) :
      Grounding symbols (.named name)

inductive FieldGrounding (symbols : SymbolTable) : List (String × TypeRef) → Type
  | nil : FieldGrounding symbols []
  | any {name : String} {rest : List (String × TypeRef)} (tail : FieldGrounding symbols rest) :
      FieldGrounding symbols ((name, .any) :: rest)
  | grounded {name : String} {type : TypeRef} {rest : List (String × TypeRef)}
      (head : Grounding symbols type) (tail : FieldGrounding symbols rest) :
      FieldGrounding symbols ((name, type) :: rest)

end

mutual

def Grounding.nesting {symbols : SymbolTable} {type : TypeRef} : Grounding symbols type → Nat
  | .valueType _ based => based.nesting + 1
  | .datatype _ each => each.nesting
  | .integer | .real | .boolean | .text | .enumeration _ => 0

def FieldGrounding.nesting {symbols : SymbolTable} {fields : List (String × TypeRef)} :
    FieldGrounding symbols fields → Nat
  | .nil => 0
  | .any tail => max 1 tail.nesting
  | .grounded head tail => max (head.nesting + 1) tail.nesting

end

/-- The type of all values, or a type that is grounded within the steps that are followed in a
row. -/
def Usable (symbols : SymbolTable) (type : TypeRef) : Prop :=
  type = .any ∨ ∃ grounding : Grounding symbols type, grounding.nesting ≤ 16

def FieldsDistinct (symbols : SymbolTable) : Prop :=
  ∀ name fields, symbols.datatypes.get? name = some fields → (fields.map Prod.fst).Nodup

def GroundedWithin (symbols : SymbolTable) (budget : Nat) (type : TypeRef) : Prop :=
  ∃ grounding : Grounding symbols type, grounding.nesting < budget

/-- The type is the type of all values or grounded, and there is a step left to look at it. -/
def UsableWithin (symbols : SymbolTable) (budget : Nat) (type : TypeRef) : Prop :=
  (0 < budget ∧ type = .any) ∨ symbols.GroundedWithin budget type

section
variable {symbols : SymbolTable} {name : String} {budget : Nat}

theorem not_groundedWithin_any : ¬ symbols.GroundedWithin budget .any :=
  fun ⟨grounding, _⟩ => nomatch grounding

theorem groundedWithin_valueType {base : TypeRef} (hstands : symbols.meaning name = .valueType base) :
    symbols.GroundedWithin (budget + 1) (.named name) ↔ symbols.GroundedWithin budget base := by
  constructor
  · rintro ⟨grounding, hnesting⟩
    cases grounding with
    | valueType stands based =>
      cases hstands.symm.trans stands
      exact ⟨based, Nat.lt_of_succ_lt_succ hnesting⟩
    | enumeration stands | datatype stands => cases hstands.symm.trans stands
  · rintro ⟨based, hnesting⟩
    exact ⟨.valueType hstands based, Nat.succ_lt_succ hnesting⟩

theorem groundedWithin_enumeration {literals : List String}
    (hstands : symbols.meaning name = .enumeration literals) :
    symbols.GroundedWithin (budget + 1) (.named name) ↔ literals ≠ [] := by
  constructor
  · rintro ⟨grounding, -⟩
    cases grounding with
    | enumeration stands =>
      cases hstands.symm.trans stands
      simp
    | valueType stands | datatype stands => cases hstands.symm.trans stands
  · intro hne
    obtain ⟨first, rest, rfl⟩ := List.exists_cons_of_ne_nil hne
    exact ⟨.enumeration hstands, Nat.succ_pos _⟩

theorem fieldsGrounded_iff {fields : List (String × TypeRef)} :
    (∃ each : FieldGrounding symbols fields, each.nesting < budget + 1) ↔
      ∀ field ∈ fields, symbols.UsableWithin budget field.2 := by
  induction fields with
  | nil => exact ⟨fun _ => by simp, fun _ => ⟨.nil, Nat.succ_pos _⟩⟩
  | cons field rest ih =>
    rw [List.forall_mem_cons, ← ih]
    constructor
    · rintro ⟨each, hnesting⟩
      cases each with
      | any tail =>
        obtain ⟨hhead, htail⟩ := Nat.max_lt.1 hnesting
        exact ⟨.inl ⟨Nat.lt_of_succ_lt_succ hhead, rfl⟩, tail, htail⟩
      | grounded head tail =>
        obtain ⟨hhead, htail⟩ := Nat.max_lt.1 hnesting
        exact ⟨.inr ⟨head, Nat.lt_of_succ_lt_succ hhead⟩, tail, htail⟩
    · obtain ⟨name, type⟩ := field
      rintro ⟨⟨hleft, rfl⟩ | ⟨head, hhead⟩, tail, htail⟩
      · exact ⟨.any tail, Nat.max_lt.2 ⟨Nat.succ_lt_succ hleft, htail⟩⟩
      · exact ⟨.grounded head tail, Nat.max_lt.2 ⟨Nat.succ_lt_succ hhead, htail⟩⟩

theorem groundedWithin_datatype {fields : List (String × TypeRef)}
    (hstands : symbols.meaning name = .datatype fields) :
    symbols.GroundedWithin (budget + 1) (.named name) ↔
      ∀ field ∈ fields, symbols.UsableWithin budget field.2 := by
  rw [← fieldsGrounded_iff]
  constructor
  · rintro ⟨grounding, hnesting⟩
    cases grounding with
    | datatype stands each =>
      cases hstands.symm.trans stands
      exact ⟨each, hnesting⟩
    | valueType stands | enumeration stands => cases hstands.symm.trans stands
  · rintro ⟨each, hnesting⟩
    exact ⟨.datatype hstands each, hnesting⟩

theorem not_groundedWithin_undeclared (hstands : symbols.meaning name = .undeclared) :
    ¬ symbols.GroundedWithin budget (.named name) := by
  rintro ⟨grounding, -⟩
  cases grounding with
  | valueType stands | enumeration stands | datatype stands => cases hstands.symm.trans stands

end

/-! Defaults. -/

def defaultRecord (symbols : SymbolTable) (budget : Nat) (fields : List (String × TypeRef)) : Value :=
  .ofFields (fields.map fun field => (field.1, symbols.defaultWithin budget field.2))

/-- An enumeration without literals starts from what its name would stand for without it. -/
theorem defaultWithin_named (symbols : SymbolTable) (budget : Nat) (name : String) :
    symbols.defaultWithin (budget + 1) (.named name) =
      match symbols.meaning name with
      | .valueType base => symbols.defaultWithin budget base
      | .enumeration (first :: _) => .literal name first
      | .enumeration [] =>
        match symbols.datatypes.get? name with
        | some fields => symbols.defaultRecord budget fields
        | none => .unknown
      | .datatype fields => symbols.defaultRecord budget fields
      | .undeclared => .unknown := by
  rw [defaultWithin, meaning]
  cases symbols.valueTypes.get? name with
  | some base => rfl
  | none =>
    cases symbols.enumerations.get? name with
    | some literals => cases literals <;> rfl
    | none => cases symbols.datatypes.get? name <;> rfl

section
variable {symbols : SymbolTable} {name : String} {budget : Nat}

theorem conformsWithin_unknown {type : TypeRef}
    (h : symbols.conformsWithin budget .unknown type = true) : type = .any := by
  cases budget with
  | zero => cases h
  | succ budget =>
    cases type with
    | any => rfl
    | _ => cases h

theorem datatypes_of_meaning {fields : List (String × TypeRef)}
    (hstands : symbols.meaning name = .datatype fields) :
    symbols.datatypes.get? name = some fields := by
  unfold meaning at hstands
  split at hstands
  · cases hstands
  · split at hstands
    · cases hstands
    · split at hstands
      · next hdeclared =>
        cases hstands
        exact hdeclared
      · cases hstands

theorem lookup_defaultRecord {fields : List (String × TypeRef)}
    (hdistinct : (fields.map Prod.fst).Nodup) {field : String × TypeRef} (hmem : field ∈ fields) :
    Entries.lookup field.1
        (Entries.ofList (fields.map fun field => (field.1, symbols.defaultWithin budget field.2))) =
      some (symbols.defaultWithin budget field.2) := by
  have hdistinct' : ((fields.map fun field =>
      (field.1, symbols.defaultWithin budget field.2)).map Prod.fst).Nodup := by
    simpa [Function.comp_def] using hdistinct
  exact (Table.get?_ofList_eq_some_iff hdistinct').2 (List.mem_map.2 ⟨field, hmem, rfl⟩)

/-! Whether the default of a name belongs to it, for each of the meanings the name can have. -/

theorem default_valueType_iff {base : TypeRef} (hstands : symbols.meaning name = .valueType base)
    (hbase : symbols.conformsWithin budget (symbols.defaultWithin budget base) base = true ↔
      symbols.UsableWithin budget base) :
    symbols.conformsWithin (budget + 1) (symbols.defaultWithin (budget + 1) (.named name))
        (.named name) = true ↔
      symbols.GroundedWithin (budget + 1) (.named name) := by
  rw [groundedWithin_valueType hstands, defaultWithin_named, hstands]
  dsimp only
  by_cases hknown : symbols.defaultWithin budget base = .unknown
  · -- the unknown value belongs to the base only if the base is the type of all values
    rw [hknown] at hbase ⊢
    refine iff_of_false nofun fun hgrounded => ?_
    rw [conformsWithin_unknown (hbase.2 (.inr hgrounded))] at hgrounded
    exact not_groundedWithin_any hgrounded
  · rw [conformsWithin_named symbols budget hknown, hstands]
    dsimp only
    rw [hbase]
    refine or_iff_right fun ⟨_, hany⟩ => hknown ?_
    subst hany
    cases budget <;> rfl

theorem default_enumeration_iff {literals : List String}
    (hstands : symbols.meaning name = .enumeration literals) :
    symbols.conformsWithin (budget + 1) (symbols.defaultWithin (budget + 1) (.named name))
        (.named name) = true ↔
      symbols.GroundedWithin (budget + 1) (.named name) := by
  rw [groundedWithin_enumeration hstands, defaultWithin_named, hstands]
  cases literals with
  | cons first rest =>
    have hknown : Value.literal name first ≠ .unknown := nofun
    rw [conformsWithin_named symbols budget hknown, hstands]
    simp
  | nil =>
    refine iff_of_false ?_ (by simp)
    dsimp only
    cases symbols.datatypes.get? name with
    | none => nofun
    | some fields =>
      have hknown : symbols.defaultRecord budget fields ≠ .unknown := nofun
      rw [conformsWithin_named symbols budget hknown, hstands]
      nofun

theorem default_datatype_iff {fields : List (String × TypeRef)}
    (hstands : symbols.meaning name = .datatype fields) (hdistinct : (fields.map Prod.fst).Nodup)
    (hfields : ∀ field ∈ fields,
      (symbols.conformsWithin budget (symbols.defaultWithin budget field.2) field.2 = true ↔
        symbols.UsableWithin budget field.2)) :
    symbols.conformsWithin (budget + 1) (symbols.defaultWithin (budget + 1) (.named name))
        (.named name) = true ↔
      symbols.GroundedWithin (budget + 1) (.named name) := by
  have hknown : symbols.defaultRecord budget fields ≠ .unknown := nofun
  rw [groundedWithin_datatype hstands, defaultWithin_named, hstands,
    conformsWithin_named symbols budget hknown, hstands]
  simp only [defaultRecord, Value.ofFields, List.all_eq_true]
  refine forall₂_congr fun field hmem => ?_
  rw [lookup_defaultRecord hdistinct hmem]
  exact hfields field hmem

/-- With the same bound on both, the default of a type belongs to it exactly if the type is usable. -/
theorem conformsWithin_default_iff (hdistinct : symbols.FieldsDistinct) (budget : Nat)
    (type : TypeRef) :
    symbols.conformsWithin budget (symbols.defaultWithin budget type) type = true ↔
      symbols.UsableWithin budget type := by
  induction budget generalizing type with
  | zero => exact iff_of_false nofun fun h => by obtain ⟨h, _⟩ | ⟨_, h⟩ := h <;> cases h
  | succ budget ih =>
    cases type with
    | any => exact iff_of_true rfl (.inl ⟨Nat.succ_pos _, rfl⟩)
    | integer => exact iff_of_true rfl (.inr ⟨.integer, Nat.succ_pos _⟩)
    | real => exact iff_of_true rfl (.inr ⟨.real, Nat.succ_pos _⟩)
    | boolean => exact iff_of_true rfl (.inr ⟨.boolean, Nat.succ_pos _⟩)
    | text => exact iff_of_true rfl (.inr ⟨.text, Nat.succ_pos _⟩)
    | named name =>
      have hgrounded : symbols.UsableWithin (budget + 1) (.named name) ↔
          symbols.GroundedWithin (budget + 1) (.named name) := by simp [UsableWithin]
      rw [hgrounded]
      cases hstands : symbols.meaning name with
      | valueType base => exact default_valueType_iff hstands (ih base)
      | enumeration literals => exact default_enumeration_iff hstands
      | datatype fields =>
        exact default_datatype_iff hstands (hdistinct name fields (datatypes_of_meaning hstands))
          fun field _ => ih field.2
      | undeclared =>
        rw [defaultWithin_named, hstands]
        exact iff_of_false nofun (not_groundedWithin_undeclared hstands)

theorem conforms_default_iff (hdistinct : symbols.FieldsDistinct) (type : TypeRef) :
    symbols.conforms (symbols.defaultFor type) type = true ↔ symbols.Usable type := by
  refine (conformsWithin_default_iff hdistinct 17 type).trans (or_congr (by simp) ?_)
  exact exists_congr fun grounding => Nat.lt_succ_iff

theorem check_default (hdistinct : symbols.FieldsDistinct) (type : TypeRef) (slot : Slot) :
    (symbols.Usable type → symbols.check (symbols.defaultFor type) type slot = .ok ()) ∧
    (¬ symbols.Usable type → symbols.check (symbols.defaultFor type) type slot =
      .error (.typeMismatch (.nonconforming slot type (symbols.defaultFor type)))) := by
  rw [← conforms_default_iff hdistinct, check]
  exact ⟨fun h => if_pos h, fun h => if_neg h⟩

end

end SymbolTable

/-- A variable that is declared without a value starts from the default of its type, if that passes
its check. -/
theorem Stmt.initial_missing (env : Env) (name : String) (type : TypeRef) :
    Stmt.initial env name (some type) none =
      (env.symbols.check (env.symbols.defaultFor type) type (.variable name)).map
        fun () => env.symbols.defaultFor type := by
  unfold Stmt.initial
  simp only [Option.getD_some, bind, Except.bind]
  cases env.symbols.check (env.symbols.defaultFor type) type (.variable name) <;> rfl

namespace Executable

theorem bindEach_append (exe : Executable) (before after : List Param) (args : List Value) (env : Env) :
    exe.bindEach (before ++ after) args env =
      (exe.bindEach before args env >>= fun inner =>
        exe.bindEach after (args.drop before.length) inner) := by
  induction before generalizing args env with
  | nil => rfl
  | cons param rest ih =>
    rw [List.cons_append, bindEach, bindEach]
    simp only [ih, bind_assoc, List.length_cons, List.drop_tail]

/-- A call that leaves a parameter out goes on, once those before it are bound, with the value that the
parameter starts from, if that value passes its check. -/
theorem bindParams_missing {exe : Executable} {before after : List Param} {param : Param}
    {args : List Value} {env inner : Env} (hparams : exe.params = before ++ param :: after)
    (hmissing : args.length ≤ before.length) (hbefore : exe.bindEach before args env = .ok inner) :
    exe.bindParams args env = (do
      env.symbols.check (param.initial env.symbols) param.type (.parameter param.name exe.name)
      exe.bindEach after [] (inner.bind param.name (param.initial env.symbols))) := by
  have hsymbols : inner.symbols = env.symbols := (@outerKept_bindEach [] _ _ _ _ _ hbefore).symbols
  have hfew : ¬ exe.params.length < args.length := by
    rw [hparams, List.length_append, List.length_cons]
    omega
  rw [bindParams, if_neg hfew, hparams, bindEach_append, hbefore, List.drop_eq_nil_of_le hmissing]
  change exe.bindEach (param :: after) [] inner = _
  rw [bindEach, hsymbols]
  rfl

end Executable

/-- The default of a type belongs to the type if and only if the type is usable. So a variable of the
type can be declared without a value, and an argument can be left out for a parameter of the type that
declares no default, if and only if it is; otherwise the default is refused. -/
theorem default_usable_iff {symbols : SymbolTable} (hdistinct : symbols.FieldsDistinct)
    (type : TypeRef) :
    (symbols.conforms (symbols.defaultFor type) type = true ↔ symbols.Usable type) ∧
    (∀ (env : Env) (name : String), env.symbols = symbols →
      (symbols.Usable type → Stmt.exec env (.declare name (some type) none) =
        (.ok none, env.bind name (symbols.defaultFor type))) ∧
      (¬ symbols.Usable type → Stmt.exec env (.declare name (some type) none) =
        (.error (.typeMismatch (.nonconforming (.variable name) type (symbols.defaultFor type))), env))) ∧
    ∀ (exe : Executable) (before after : List Param) (param : Param) (args : List Value)
      (env inner : Env), env.symbols = symbols → exe.params = before ++ param :: after →
      param.type = type → param.default = none → args.length ≤ before.length →
      exe.bindEach before args env = .ok inner →
      (symbols.Usable type → exe.bindParams args env =
        exe.bindEach after [] (inner.bind param.name (symbols.defaultFor type))) ∧
      (¬ symbols.Usable type → exe.bindParams args env =
        .error (.typeMismatch (.nonconforming (.parameter param.name exe.name) type
          (symbols.defaultFor type)))) := by
  have hcheck := SymbolTable.check_default hdistinct type
  refine ⟨SymbolTable.conforms_default_iff hdistinct type, ?_, ?_⟩
  · rintro env name rfl
    rw [Stmt.exec, Stmt.initial_missing]
    constructor
    · intro husable
      rw [(hcheck _).1 husable]
      rfl
    · intro hnot
      rw [(hcheck _).2 hnot]
      rfl
  · rintro exe before after param args env inner rfl hparams rfl hdefault hmissing hbefore
    have hinitial : param.initial env.symbols = env.symbols.defaultFor param.type := by
      rw [Param.initial, hdefault, Option.getD_none]
    rw [Executable.bindParams_missing hparams hmissing hbefore, hinitial]
    constructor
    · intro husable
      rw [(hcheck _).1 husable]
      rfl
    · intro hnot
      rw [(hcheck _).2 hnot]
      rfl

/-- Readings have a note of any kind, a mode and a level. There is an enumeration without literals,
which hides a datatype of the same name, and an alias of the type of all values. -/
def instruments : SymbolTable where
  enumerations := .ofList [("Mode", ["on", "off"]), ("Never", [])]
  datatypes := .ofList [
    ("Reading", [("note", .any), ("mode", .named "Mode"), ("level", .named "Level")]), ("Never", [])]
  valueTypes := .ofList [("Level", .real), ("Blank", .any)]

def probe : Executable where
  name := "probe"
  params := [{ name := "reading", type := .named "Reading" }, { name := "extra", type := .named "Blank" }]
  returns := .any
  body := []

theorem fieldsDistinct_instruments : instruments.FieldsDistinct := by
  have hdatatypes : ∀ entry ∈ instruments.datatypes.toList, (entry.2.map Prod.fst).Nodup := by
    decide +kernel
  exact fun name fields hdeclared => hdatatypes _ (Entries.mem_of_lookup hdeclared)

/-- A reading can be left out, and what comes after it cannot. -/
theorem default_usable_iff_instruments :
    instruments.FieldsDistinct ∧ instruments.Usable (.named "Reading") ∧
    (Stmt.exec (.new instruments) (.declare "last" (some (.named "Reading")) none)).1 = .ok none ∧
    ¬ instruments.Usable (.named "Blank") ∧ ¬ instruments.Usable (.named "Never") ∧
    probe.bindParams [] (.new instruments) =
      .error (.typeMismatch (.nonconforming (.parameter "extra" "probe") (.named "Blank") .unknown)) := by
  have hdistinct := fieldsDistinct_instruments
  have hreading := default_usable_iff hdistinct (.named "Reading")
  have hblank := default_usable_iff hdistinct (.named "Blank")
  have husable := hreading.1.1 (by decide +kernel)
  have hnot := mt hblank.1.2 (by decide +kernel)
  have hnever := mt (default_usable_iff hdistinct (.named "Never")).1.2 (by decide +kernel)
  have hbefore : probe.bindEach [{ name := "reading", type := .named "Reading" }] [] (.new instruments) =
      .ok ((Env.new instruments).bind "reading" (instruments.defaultFor (.named "Reading"))) := rfl
  refine ⟨hdistinct, husable, ?_, hnot, hnever, ?_⟩
  · rw [(hreading.2.1 (.new instruments) "last" rfl).1 husable]
  · exact (hblank.2.2 probe _ [] _ [] (.new instruments) _ rfl rfl rfl rfl (Nat.zero_le _) hbefore).2 hnot

end Archflow
