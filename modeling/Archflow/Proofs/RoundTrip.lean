import Archflow.Json.Reader
import Archflow.Json.Value
import Archflow.Table
import Mathlib

/-!
Values that survive being written as JSON and read back. Kinds are not marked in JSON, so a record
can be taken for an enumeration literal: one that has texts under both names of a literal. This is
the only way for a value without reals to be lost, and it is lost wherever such a record stands in it
(`toValueUnchecked?_toJson_iff`).
-/
namespace Archflow

namespace Entries

variable {α : Type}

theorem Ordered.of_keys {β : Type} {entries : Entries α} {others : Entries β} (h : Ordered entries)
    (hkeys : others.map Prod.fst = entries.map Prod.fst) : Ordered others := by
  refine List.pairwise_map.1 (?_ : (others.map Prod.fst).Pairwise (· < ·))
  rw [hkeys]
  exact List.pairwise_map.2 h

theorem Ordered.ofList_eq {entries : Entries α} (h : Ordered entries) :
    Entries.ofList entries = entries := by
  refine (Ordered.ofList entries).eq_of_lookup_eq h fun name => Option.ext fun item => ?_
  have hlisted : (Entries.ofList entries).lookup name = some item ↔ (name, item) ∈ entries :=
    Table.get?_ofList_eq_some_iff h.nodup_keys
  exact hlisted.trans ⟨lookup_of_mem h.nodup_keys, mem_of_lookup⟩

theorem mem_of_mem_ofList {pairs : List (String × α)} {entry : String × α}
    (h : entry ∈ ofList pairs) : entry ∈ pairs := by
  have hfound : (ofList pairs).lookup entry.1 = some entry.2 :=
    lookup_of_mem (Ordered.ofList pairs).nodup_keys h
  rw [lookup_ofList] at hfound
  exact List.mem_reverse.1 (mem_of_lookup hfound)

end Entries

theorem int64?_toInt (i : Int64) : int64? i.toInt = some i := by
  unfold int64?
  rw [if_pos ⟨Int64.minValue_le_toInt i, Int64.toInt_le i⟩, Int64.ofInt_toInt]

theorem Numeral.value?_ofInt (i : Int64) : (Numeral.ofInt i.toInt).value? = some (.int i) := by
  have hwhole : (Numeral.ofInt i.toInt).int? = int64? i.toInt := by
    by_cases hneg : i.toInt < 0
    · have hne : i.toInt ≠ 0 := by omega
      have habs : -(i.toInt.natAbs : Int) = i.toInt := by omega
      simp only [int?, ofInt, hneg, habs]
      simp [hne]
    · have habs : (i.toInt.natAbs : Int) = i.toInt := by omega
      simp only [int?, ofInt, hneg, habs]
      simp
  rw [value?, hwhole, int64?_toInt]

namespace Value

/-- A value is found somewhere in another one, which may be that value itself. -/
inductive Contains : Value → Value → Prop
  | itself (value : Value) : Contains value value
  | field {fields : List (String × Value)} {entry : String × Value} {inner : Value}
      (listed : entry ∈ fields) (inside : Contains entry.2 inner) : Contains (.record fields) inner

/-- Everywhere in the value, records list their fields in increasing order of names, each once. All
records are built in this way (`ordered_ofFields`). -/
def Ordered (value : Value) : Prop :=
  ∀ fields, value.Contains (.record fields) → Entries.Ordered fields

def RealFree (value : Value) : Prop := ∀ r, ¬ value.Contains (.real r)

def LiteralLike (fields : List (String × Value)) : Prop :=
  ∃ enumeration name, Entries.lookup "enum" fields = some (.text enumeration) ∧
    Entries.lookup "literal" fields = some (.text name)

/-- Values are made of records down to values that are none. -/
theorem recordInduction {motive : Value → Prop}
    (plain : ∀ value, (∀ fields, value ≠ .record fields) → motive value)
    (record : ∀ fields, (∀ entry ∈ fields, motive entry.2) → motive (.record fields)) :
    ∀ value, motive value
  | .record fields => record fields fun entry hmem => recordInduction plain record entry.2
  | .bool _ | .int _ | .real _ | .text _ | .literal .. | .unknown => plain _ (by simp)
termination_by value => value
decreasing_by
  have hlt := List.sizeOf_lt_of_mem hmem
  have hentry : sizeOf entry.2 < sizeOf entry := by
    rw [Prod.mk.sizeOf_spec]
    omega
  rw [Value.record.sizeOf_spec]
  omega

section
variable {value : Value} {fields : List (String × Value)}

theorem contains_plain_iff {inner : Value} (hplain : ∀ fields, value ≠ .record fields) :
    value.Contains inner ↔ inner = value := by
  constructor
  · rintro (_ | ⟨_, _⟩)
    · rfl
    · exact absurd rfl (hplain _)
  · rintro rfl
    exact .itself _

theorem not_contains_record (hplain : ∀ fields, value ≠ .record fields)
    (inner : List (String × Value)) : ¬ value.Contains (.record inner) := by
  rw [contains_plain_iff hplain]
  exact Ne.symm (hplain inner)

theorem contains_record_iff {inner : Value} :
    (Value.record fields).Contains inner ↔
      inner = .record fields ∨ ∃ entry ∈ fields, entry.2.Contains inner := by
  constructor
  · rintro (_ | ⟨hlisted, hinside⟩)
    · exact .inl rfl
    · exact .inr ⟨_, hlisted, hinside⟩
  · rintro (rfl | ⟨entry, hlisted, hinside⟩)
    · exact .itself _
    · exact .field hlisted hinside

theorem Ordered.field (h : (Value.record fields).Ordered) {entry : String × Value}
    (hmem : entry ∈ fields) : entry.2.Ordered :=
  fun inner hinner => h inner (.field hmem hinner)

theorem ordered_record_iff : (Value.record fields).Ordered ↔
    Entries.Ordered fields ∧ ∀ entry ∈ fields, entry.2.Ordered := by
  constructor
  · intro h
    exact ⟨h fields (.itself _), fun entry hmem => h.field hmem⟩
  · rintro ⟨hfields, hentries⟩ inner hcontains
    rcases contains_record_iff.1 hcontains with heq | ⟨entry, hmem, hinside⟩
    · cases heq
      exact hfields
    · exact hentries entry hmem inner hinside

/-- Whatever order its fields are given in, a record of ordered values is ordered. -/
theorem ordered_ofFields (h : ∀ entry ∈ fields, entry.2.Ordered) : (ofFields fields).Ordered :=
  ordered_record_iff.2 ⟨.ofList fields, fun entry hmem => h entry (Entries.mem_of_mem_ofList hmem)⟩

theorem ordered_of_plain (hplain : ∀ fields, value ≠ .record fields) : value.Ordered :=
  fun inner hcontains => absurd hcontains (not_contains_record hplain inner)

theorem RealFree.field (h : (Value.record fields).RealFree) {entry : String × Value}
    (hmem : entry ∈ fields) : entry.2.RealFree :=
  fun r hreal => h r (.field hmem hreal)

/-! Fields. -/

theorem fieldsToJson_eq_map (fields : List (String × Value)) :
    fieldsToJson fields = fields.map fun entry => (entry.1, entry.2.toJson) := by
  induction fields with
  | nil => rfl
  | cons entry rest ih => rw [fieldsToJson, ih, List.map_cons]

theorem keys_fieldsToJson (fields : List (String × Value)) :
    (fieldsToJson fields).map Prod.fst = fields.map Prod.fst := by
  simp [fieldsToJson_eq_map]

theorem toJson_eq_text_iff {s : String} : value.toJson = .text s ↔ value = .text s := by
  cases value with
  | real r => cases hreal : Numeral.ofReal? r <;> simp [toJson, hreal, Json.ofOption]
  | _ => simp [toJson]

/-- Of members with distinct names each is found. -/
theorem onlyMember?_eq_lookup {members : List (String × Json)}
    (hdistinct : (members.map Prod.fst).Nodup) (name : String) :
    Json.onlyMember? members name = Entries.lookup name members := by
  unfold Json.onlyMember?
  induction members with
  | nil => rfl
  | cons member rest ih =>
    rw [List.map_cons, List.nodup_cons] at hdistinct
    by_cases hname : member.1 = name
    · have hnone : rest.filter (fun entry => entry.1 == name) = [] := by
        refine List.filter_eq_nil_iff.2 fun entry hmem heq => hdistinct.1 ?_
        rw [hname, ← eq_of_beq heq]
        exact List.mem_map_of_mem hmem
      rw [List.filter_cons_of_pos (by simpa using hname), hnone, Entries.lookup, if_pos hname.symm]
    · rw [List.filter_cons_of_neg (by simpa using hname), Entries.lookup, if_neg (Ne.symm hname)]
      exact ih hdistinct.2

theorem onlyMember?_fieldsToJson (hordered : Entries.Ordered fields) (name : String) :
    Json.onlyMember? (fieldsToJson fields) name = (Entries.lookup name fields).map toJson := by
  have hdistinct : ((fieldsToJson fields).map Prod.fst).Nodup := by
    rw [keys_fieldsToJson]
    exact hordered.nodup_keys
  rw [onlyMember?_eq_lookup hdistinct, fieldsToJson_eq_map]
  exact Entries.lookup_map (fun _ => toJson) name fields

/-- The fields of a record are taken for a literal if they are like one, and not otherwise. -/
theorem enumeral?_eq_some_iff (hordered : Entries.Ordered fields) {decoded : Value} :
    Json.enumeral? (fieldsToJson fields) = some decoded ↔
      ∃ enumeration name, Entries.lookup "enum" fields = some (.text enumeration) ∧
        Entries.lookup "literal" fields = some (.text name) ∧ decoded = .literal enumeration name := by
  unfold Json.enumeral?
  rw [onlyMember?_fieldsToJson hordered, onlyMember?_fieldsToJson hordered]
  constructor
  · intro h
    split at h
    · next enumeration name henum hname =>
      cases h
      obtain ⟨first, hfirst, htext⟩ := Option.map_eq_some_iff.1 henum
      obtain ⟨second, hsecond, hother⟩ := Option.map_eq_some_iff.1 hname
      rw [toJson_eq_text_iff] at htext hother
      exact ⟨enumeration, name, htext ▸ hfirst, hother ▸ hsecond, rfl⟩
    · cases h
  · rintro ⟨enumeration, name, henum, hname, rfl⟩
    rw [henum, hname]
    rfl

theorem keys_of_toFields? {members : List (String × Json)} {decoded : List (String × Value)}
    (h : Json.toFields? members = some decoded) : decoded.map Prod.fst = members.map Prod.fst := by
  induction members generalizing decoded with
  | nil =>
    cases h
    rfl
  | cons member rest ih =>
    rw [Json.toFields?] at h
    split at h
    · next value others _ hrest =>
      cases h
      rw [List.map_cons, List.map_cons, ih hrest]
    · cases h

/-- Fields read back if the value of each of them does. -/
theorem toFields?_fieldsToJson_iff :
    Json.toFields? (fieldsToJson fields) = some fields ↔
      ∀ entry ∈ fields, entry.2.toJson.toValueUnchecked? = some entry.2 := by
  induction fields with
  | nil => simp [fieldsToJson, Json.toFields?]
  | cons entry rest ih =>
    obtain ⟨name, item⟩ := entry
    rw [List.forall_mem_cons, ← ih, fieldsToJson, Json.toFields?]
    constructor
    · intro h
      split at h
      · next value others hvalue hrest =>
        cases h
        exact ⟨hvalue, hrest⟩
      · cases h
    · rintro ⟨hvalue, hrest⟩
      rw [hvalue, hrest]

theorem record_reads_back_iff (hordered : Entries.Ordered fields) (hunlike : ¬ LiteralLike fields) :
    (Value.record fields).toJson.toValueUnchecked? = some (.record fields) ↔
      ∀ entry ∈ fields, entry.2.toJson.toValueUnchecked? = some entry.2 := by
  have hnone : Json.enumeral? (fieldsToJson fields) = none := by
    refine Option.eq_none_iff_forall_ne_some.2 fun decoded hdecoded => hunlike ?_
    obtain ⟨enumeration, name, henum, hname, -⟩ := (enumeral?_eq_some_iff hordered).1 hdecoded
    exact ⟨enumeration, name, henum, hname⟩
  rw [← toFields?_fieldsToJson_iff, toJson, Json.toValueUnchecked?, hnone]
  constructor
  · intro h
    obtain ⟨decoded, hdecoded, hrecord⟩ := Option.map_eq_some_iff.1 h
    have hkeys := (keys_of_toFields? hdecoded).trans (keys_fieldsToJson fields)
    rw [ofFields, (hordered.of_keys hkeys).ofList_eq] at hrecord
    cases hrecord
    exact hdecoded
  · intro h
    rw [h, Option.map_some, ofFields, hordered.ofList_eq]

theorem literalLike_lost (hordered : Entries.Ordered fields) (hlike : LiteralLike fields) :
    (Value.record fields).toJson.toValueUnchecked? ≠ some (.record fields) := by
  obtain ⟨enumeration, name, henum, hname⟩ := hlike
  rw [toJson, Json.toValueUnchecked?,
    (enumeral?_eq_some_iff hordered).2 ⟨enumeration, name, henum, hname, rfl⟩]
  simp

/-! Whole values. -/

theorem plain_reads_back (hplain : ∀ fields, value ≠ .record fields) (hreals : value.RealFree) :
    value.toJson.toValueUnchecked? = some value := by
  cases value with
  | int i => exact Numeral.value?_ofInt i
  | real r => exact absurd (.itself _) (hreals r)
  | record fields => exact absurd rfl (hplain fields)
  | _ => rfl

/-- A value without reals reads back as itself unless a record in it is like a literal. -/
theorem toValueUnchecked?_toJson_iff (hordered : value.Ordered) (hreals : value.RealFree) :
    value.toJson.toValueUnchecked? = some value ↔
      ∀ fields, value.Contains (.record fields) → ¬ LiteralLike fields := by
  induction value using recordInduction with
  | plain value hplain =>
    refine iff_of_true (plain_reads_back hplain hreals) fun fields hcontains => ?_
    exact absurd hcontains (not_contains_record hplain fields)
  | record fields ih =>
    have hfields := hordered fields (.itself _)
    by_cases hlike : LiteralLike fields
    · refine iff_of_false (literalLike_lost hfields hlike) fun hnone => ?_
      exact hnone fields (.itself _) hlike
    rw [record_reads_back_iff hfields hlike]
    constructor
    · intro hback inner hcontains
      rcases contains_record_iff.1 hcontains with heq | ⟨entry, hmem, hinside⟩
      · cases heq
        exact hlike
      · have hfield := ih entry hmem (hordered.field hmem) (hreals.field hmem)
        exact hfield.1 (hback entry hmem) inner hinside
    · intro hnone entry hmem
      refine (ih entry hmem (hordered.field hmem) (hreals.field hmem)).2 fun inner hinside => ?_
      exact hnone inner (.field hmem hinside)

theorem membersReadable_fieldsToJson
    (h : ∀ entry ∈ fields, entry.2.toJson.isReadable = true) :
    Json.membersReadable (fieldsToJson fields) = true := by
  induction fields with
  | nil => rfl
  | cons entry rest ih =>
    rw [List.forall_mem_cons] at h
    rw [fieldsToJson, Json.membersReadable, h.1, ih h.2]
    rfl

theorem isReadable_toJson (hreals : value.RealFree) : value.toJson.isReadable = true := by
  induction value using recordInduction with
  | plain value hplain =>
    cases value with
    | int i => simp [toJson, Json.isReadable, Numeral.value?_ofInt]
    | real r => exact absurd (.itself _) (hreals r)
    | record fields => exact absurd rfl (hplain fields)
    | _ => rfl
  | record fields ih =>
    exact membersReadable_fieldsToJson fun entry hmem => ih entry hmem (hreals.field hmem)

end

/-- A value without reals reads back from its tree exactly if no record in it has texts under both
names of a literal. It reads back from its text under the same condition, provided that the text is
read as the tree that it was written from. -/
theorem reads_back_iff {value : Value} (hordered : value.Ordered) (hreals : value.RealFree) :
    (value.toJson.toValue? = some value ↔
      ∀ fields, value.Contains (.record fields) → ¬ LiteralLike fields) ∧
    (Json.parse? value.toJson.render = some value.toJson →
      ((Json.parse? value.toJson.render).bind Json.toValue? = some value ↔
        ∀ fields, value.Contains (.record fields) → ¬ LiteralLike fields)) := by
  have htree : value.toJson.toValue? = some value ↔
      ∀ fields, value.Contains (.record fields) → ¬ LiteralLike fields := by
    rw [Json.toValue?, isReadable_toJson hreals, if_pos rfl]
    exact toValueUnchecked?_toJson_iff hordered hreals
  refine ⟨htree, fun hread => ?_⟩
  rw [hread]
  exact htree

/-- A record with another one in it, which has both names of a literal. -/
def signal (kind : Value) : Value :=
  .ofFields [("mode", .ofFields [("literal", .text "on"), ("enum", kind)])]

theorem signal_eq (kind : Value) :
    signal kind = .record [("mode", .record [("enum", kind), ("literal", .text "on")])] := by
  have hlt : "enum" < "literal" := by decide
  simp only [signal, ofFields, Entries.ofList, List.foldl_cons, List.foldl_nil, Entries.insert, hlt,
    if_true]

theorem contains_signal_iff {kind inner : Value} (hplain : ∀ fields, kind ≠ .record fields) :
    (signal kind).Contains inner ↔ inner = signal kind ∨
      inner = .record [("enum", kind), ("literal", .text "on")] ∨ inner = kind ∨ inner = .text "on" := by
  simp [signal_eq, contains_record_iff, contains_plain_iff, hplain]

theorem ordered_signal {kind : Value} (hplain : ∀ fields, kind ≠ .record fields) :
    (signal kind).Ordered := by
  refine ordered_ofFields (List.forall_mem_singleton.2 (ordered_ofFields ?_))
  refine List.forall_mem_cons.2 ⟨ordered_of_plain (by simp), List.forall_mem_singleton.2 ?_⟩
  exact ordered_of_plain hplain

theorem realFree_signal {kind : Value} (hplain : ∀ fields, kind ≠ .record fields)
    (hexact : ∀ r, kind ≠ .real r) : (signal kind).RealFree := by
  intro r hcontains
  rcases (contains_signal_iff hplain).1 hcontains with h | h | h | h
  · cases h
  · cases h
  · exact hexact r h.symm
  · cases h

set_option maxRecDepth 20000 in
/-- With a number under the first name the record reads back, from its text too. With a text it does
not. -/
theorem signal_reads_back :
    ((signal (.int 4)).Ordered ∧ (signal (.int 4)).RealFree ∧
      (Json.parse? (signal (.int 4)).toJson.render).bind Json.toValue? = some (signal (.int 4))) ∧
    ((signal (.text "Mode")).Ordered ∧ (signal (.text "Mode")).RealFree ∧
      (signal (.text "Mode")).toJson.toValue? ≠ some (signal (.text "Mode"))) := by
  have hread : Json.parse? (signal (.int 4)).toJson.render = some (signal (.int 4)).toJson := by cbv
  have hnumber := reads_back_iff (@ordered_signal (.int 4) (by simp))
    (realFree_signal (by simp) (by simp))
  have htext := reads_back_iff (@ordered_signal (.text "Mode") (by simp))
    (realFree_signal (by simp) (by simp))
  refine ⟨⟨ordered_signal (by simp), realFree_signal (by simp) (by simp), (hnumber.2 hread).2 ?_⟩,
    ordered_signal (by simp), realFree_signal (by simp) (by simp), fun hback => ?_⟩
  · rintro fields hcontains ⟨enumeration, name, henum, hname⟩
    rcases (contains_signal_iff (by simp)).1 hcontains with h | h | h | h
    · cases h
      cases henum
    · cases h
      cases henum
    · cases h
    · cases h
  · have hinside := (@contains_signal_iff (.text "Mode") _ (by simp)).2 (.inr (.inl rfl))
    exact htext.1.1 hback _ hinside ⟨"Mode", "on", rfl, rfl⟩

end Value
end Archflow
