import Archflow.Proofs.Comparison
import Archflow.Proofs.RoundTrip

/-!
Laws of the equality that expressions see. It is symmetric, and a value is equal to itself unless it
has a real in it that is not a number (`looselyEquals_laws`). Records are equal if they have equally
many fields and each field of the first is found in the second with an equal value; that none of the
second is left over then is a matter of counting. So values whose records list their fields in order
may as well be compared by size and one-sided look-ups at every depth
(`looselyEquals_eq_equalsByLookup`).
-/
namespace Archflow

/-! Reals. -/

namespace Binary64

open Float.Model Float.Model.UnpackedFloat

theorem compare_swap (x y : UnpackedFloat) : y.compare x = (x.compare y).map Ordering.swap := by
  cases x with
  | notANumber => cases y <;> rfl
  | infinity s =>
    cases y with
    | infinity t => cases s <;> cases t <;> rfl
    | _ => cases s <;> rfl
  | zero s =>
    cases y with
    | infinity t => cases t <;> rfl
    | finite t n q hn => cases t <;> rfl
    | _ => rfl
  | finite s m p hm =>
    cases y with
    | infinity t => cases t <;> rfl
    | zero t => cases s <;> rfl
    | notANumber => rfl
    | finite t n q hn =>
      have hmagnitudes : (compare q p).then (compare n m) =
          ((compare p q).then (compare m n)).swap := by
        rw [Ordering.swap_then, Std.OrientedOrd.eq_swap (a := q), Std.OrientedOrd.eq_swap (a := n)]
      match s, t with
      | .negative, .negative => simp only [UnpackedFloat.compare, hmagnitudes, Option.map_some]
      | .negative, .positive | .positive, .negative => rfl
      | .positive, .positive => simp only [UnpackedFloat.compare, hmagnitudes, Option.map_some]

theorem compare_self (x : UnpackedFloat) : x.compare x = if x.isNaN then none else some .eq := by
  cases x with
  | notANumber => rfl
  | infinity s => cases s <;> rfl
  | zero s => rfl
  | finite s m p hm =>
    have hmagnitude : (compare p p).then (compare m m) = .eq := by simp
    cases s with
    | negative => simp only [UnpackedFloat.compare, hmagnitude]; rfl
    | positive => simp only [UnpackedFloat.compare, hmagnitude]; rfl

theorem beq_comm (x y : Float) : (x == y) = (y == x) := by
  change (x.toModel.unpack.compare y.toModel.unpack == some .eq) =
    (y.toModel.unpack.compare x.toModel.unpack == some .eq)
  rw [compare_swap x.toModel.unpack]
  cases x.toModel.unpack.compare y.toModel.unpack with
  | none => rfl
  | some ordering => cases ordering <;> rfl

theorem beq_self (x : Float) : (x == x) = !x.isNaN := by
  change (x.toModel.unpack.compare x.toModel.unpack == some .eq) = !x.toModel.unpack.isNaN
  rw [compare_self]
  cases x.toModel.unpack.isNaN <;> rfl

end Binary64

namespace Value

def NaNFree (value : Value) : Prop := ∀ r : Float, value.Contains (.real r) → r.isNaN = false

/-- Records of one size, each field of the first found in the second with an equal value. -/
def Matched (a b : List (String × Value)) : Prop :=
  a.length = b.length ∧ ∀ name item, Entries.lookup name a = some item →
    ∃ other, Entries.lookup name b = some other ∧ item.looselyEquals other = true

mutual

/-- The equality that compares the sizes of records, and then looks up each field of the first in the
second. -/
def equalsByLookup : Value → Value → Bool
  | .record a, .record b => a.length == b.length && fieldsFoundIn b a
  | v, w => v.looselyEquals w
termination_by structural value => value

def fieldsFoundIn (others : List (String × Value)) : List (String × Value) → Bool
  | [] => true
  | (name, item) :: rest =>
      (match Entries.lookup name others with
      | some other => item.equalsByLookup other
      | none => false) && fieldsFoundIn others rest
termination_by structural fields => fields

end

/-! Both ways. -/

theorem looselyEqualFields_comm {a : List (String × Value)}
    (h : ∀ entry ∈ a, ∀ w, entry.2.looselyEquals w = w.looselyEquals entry.2)
    (b : List (String × Value)) : looselyEqualFields a b = looselyEqualFields b a := by
  induction a generalizing b with
  | nil => cases b <;> rfl
  | cons entry rest ih =>
    obtain ⟨hfirst, hrest⟩ := List.forall_mem_cons.1 h
    cases b with
    | nil => rfl
    | cons other rest' =>
      simp only [looselyEqualFields, hfirst, ih hrest, Bool.beq_comm (a := entry.1)]

theorem looselyEquals_comm (v w : Value) : v.looselyEquals w = w.looselyEquals v := by
  induction v using recordInduction generalizing w with
  | plain v hplain =>
    cases v with
    | record fields => exact absurd rfl (hplain fields)
    | literal e a =>
      cases w with
      | literal f b =>
        simp only [looselyEquals, Bool.beq_comm (a := a), Bool.beq_comm (a := e)]
        rw [Bool.or_comm e.isEmpty]
      | _ => simp [looselyEquals, number?]
    | _ => cases w <;> simp [looselyEquals, number?, Binary64.beq_comm, Bool.beq_comm]
  | record fields ih =>
    cases w with
    | record other => exact looselyEqualFields_comm (fun entry hmem w => ih entry hmem w) other
    | _ => rfl

/-! Of a value with itself. -/

theorem looselyEqualFields_self (fields : List (String × Value)) :
    looselyEqualFields fields fields = true ↔
      ∀ entry ∈ fields, entry.2.looselyEquals entry.2 = true := by
  induction fields with
  | nil => simp [looselyEqualFields]
  | cons entry rest ih => simp [looselyEqualFields, ih]

theorem looselyEquals_self_iff (v : Value) : v.looselyEquals v = true ↔ v.NaNFree := by
  induction v using recordInduction with
  | plain v hplain =>
    have hfree : v.NaNFree ↔ ∀ r, v = .real r → r.isNaN = false := by
      simp only [NaNFree, contains_plain_iff hplain, eq_comm]
    rw [hfree]
    cases v with
    | record fields => exact absurd rfl (hplain fields)
    | int a => simp [looselyEquals_int]
    | real r => simp [looselyEquals, number?, Binary64.beq_self]
    | _ => simp [looselyEquals]
  | record fields ih =>
    have hfree : (Value.record fields).NaNFree ↔ ∀ entry ∈ fields, entry.2.NaNFree := by
      constructor
      · intro h entry hmem r hinside
        exact h r (.field hmem hinside)
      · intro h r hcontains
        rcases contains_record_iff.1 hcontains with heq | ⟨entry, hmem, hinside⟩
        · cases heq
        · exact h entry hmem r hinside
    rw [hfree, looselyEquals, looselyEqualFields_self]
    exact forall₂_congr ih

/-! Field by field. -/

theorem keys_of_looselyEqualFields {a b : List (String × Value)}
    (h : looselyEqualFields a b = true) : a.map Prod.fst = b.map Prod.fst := by
  induction a generalizing b with
  | nil => cases b with
    | nil => rfl
    | cons => cases h
  | cons entry rest ih =>
    cases b with
    | nil => cases h
    | cons other rest' =>
      simp only [looselyEqualFields, Bool.and_eq_true, beq_iff_eq] at h
      rw [List.map_cons, List.map_cons, h.1.1, ih h.2]

/-- Among the same names, the fields may be compared in order or by look-ups. -/
theorem looselyEqualFields_of_keys {a b : List (String × Value)}
    (hkeys : a.map Prod.fst = b.map Prod.fst) (hdistinct : (a.map Prod.fst).Nodup) :
    looselyEqualFields a b = true ↔ ∀ name item, Entries.lookup name a = some item →
      ∃ other, Entries.lookup name b = some other ∧ item.looselyEquals other = true := by
  induction a generalizing b with
  | nil =>
    cases b with
    | nil => simp [looselyEqualFields, Entries.lookup]
    | cons => cases hkeys
  | cons entry rest ih =>
    cases b with
    | nil => cases hkeys
    | cons entry' rest' =>
      obtain ⟨key, first⟩ := entry
      obtain ⟨key', first'⟩ := entry'
      obtain ⟨rfl, hrest⟩ : key = key' ∧ rest.map Prod.fst = rest'.map Prod.fst :=
        List.cons_eq_cons.1 hkeys
      obtain ⟨hfresh, hdistinct⟩ := List.nodup_cons.1 hdistinct
      simp only [looselyEqualFields, beq_self_eq_true, Bool.true_and, Bool.and_eq_true,
        ih hrest hdistinct, Entries.lookup]
      constructor
      · rintro ⟨hfirst, hothers⟩ name item hfound
        by_cases hname : name = key
        · rw [if_pos hname] at hfound ⊢
          cases hfound
          exact ⟨first', rfl, hfirst⟩
        · rw [if_neg hname] at hfound ⊢
          exact hothers name item hfound
      · intro h
        refine ⟨?_, fun name item hfound => ?_⟩
        · obtain ⟨other, hother, hequal⟩ := h key first (if_pos rfl)
          rw [if_pos rfl] at hother
          cases hother
          exact hequal
        · have hname : name ≠ key := by
            rintro rfl
            exact hfresh (List.mem_map.2 ⟨_, Entries.mem_of_lookup hfound, rfl⟩)
          have hothers := h name item ((if_neg hname).trans hfound)
          rwa [if_neg hname] at hothers

/-- The first record cannot have a name less, as the second one has no more fields. -/
theorem Matched.keys_eq {a b : List (String × Value)} (h : Matched a b) (ha : Entries.Ordered a)
    (hb : Entries.Ordered b) : a.map Prod.fst = b.map Prod.fst := by
  obtain ⟨hlength, hmatched⟩ := h
  have hsubset : a.map Prod.fst ⊆ b.map Prod.fst := by
    intro name hmem
    obtain ⟨entry, hentry, rfl⟩ := List.mem_map.1 hmem
    obtain ⟨other, hother, _⟩ :=
      hmatched entry.1 entry.2 (Entries.lookup_of_mem ha.nodup_keys hentry)
    exact List.mem_map.2 ⟨_, Entries.mem_of_lookup hother, rfl⟩
  have hperm : (a.map Prod.fst).Perm (b.map Prod.fst) := by
    refine (List.subperm_of_subset ha.nodup_keys hsubset).perm_of_length_le ?_
    simp [hlength]
  have hordered {fields : List (String × Value)} (h : Entries.Ordered fields) :
      (fields.map Prod.fst).Pairwise (· < ·) := List.pairwise_map.2 h
  exact hperm.eq_of_pairwise (fun _ _ _ _ hless hmore => absurd hmore (String.lt_asymm hless))
    (hordered ha) (hordered hb)

/-- Records that list their fields in order are equal if one is matched in the other. -/
theorem looselyEquals_record_iff {a b : List (String × Value)} (ha : Entries.Ordered a)
    (hb : Entries.Ordered b) :
    (Value.record a).looselyEquals (.record b) = true ↔ Matched a b := by
  rw [looselyEquals]
  constructor
  · intro h
    have hkeys := keys_of_looselyEqualFields h
    refine ⟨?_, (looselyEqualFields_of_keys hkeys ha.nodup_keys).1 h⟩
    simpa using congrArg List.length hkeys
  · intro h
    exact (looselyEqualFields_of_keys (h.keys_eq ha hb) ha.nodup_keys).2 h.2

/-! At every depth. -/

theorem fieldsFoundIn_iff {fields others : List (String × Value)} :
    fieldsFoundIn others fields = true ↔ ∀ entry ∈ fields, ∃ other,
      Entries.lookup entry.1 others = some other ∧ entry.2.equalsByLookup other = true := by
  induction fields with
  | nil => simp [fieldsFoundIn]
  | cons entry rest ih =>
    simp only [fieldsFoundIn, Bool.and_eq_true, ih, List.forall_mem_cons]
    cases Entries.lookup entry.1 others with
    | none => simp
    | some other => simp

/-- On values whose records list their fields in order, the comparison field by field is the one by
look-ups. -/
theorem looselyEquals_eq_equalsByLookup {v w : Value} (hv : v.Ordered) (hw : w.Ordered) :
    v.looselyEquals w = v.equalsByLookup w := by
  induction v using recordInduction generalizing w with
  | plain v hplain =>
    cases v with
    | record fields => exact absurd rfl (hplain fields)
    | _ => rfl
  | record a ih =>
    cases w with
    | record b =>
      have ha := hv a (.itself _)
      have hb := hw b (.itself _)
      rw [Bool.eq_iff_iff, looselyEquals_record_iff ha hb]
      simp only [Matched, equalsByLookup, Bool.and_eq_true, beq_iff_eq, fieldsFoundIn_iff]
      refine and_congr_right fun _ => ⟨fun h entry hmem => ?_, fun h name item hfound => ?_⟩
      · obtain ⟨other, hother, hequal⟩ :=
          h entry.1 entry.2 (Entries.lookup_of_mem ha.nodup_keys hmem)
        refine ⟨other, hother, ?_⟩
        rw [← ih entry hmem (hv.field hmem) (hw.field (Entries.mem_of_lookup hother))]
        exact hequal
      · have hmem := Entries.mem_of_lookup hfound
        obtain ⟨other, hother, hequal⟩ := h _ hmem
        refine ⟨other, hother, ?_⟩
        rw [← ih _ hmem (hv.field hmem) (hw.field (Entries.mem_of_lookup hother))] at hequal
        exact hequal
    | _ => rfl

end Value

def BinaryOp.TestsEquality (op : BinaryOp) : Prop := op = .equal ∨ op = .unequal

theorem BinaryOp.apply_comm {op : BinaryOp} (h : op.TestsEquality) (v w : Value) :
    op.apply v w = op.apply w v := by
  rcases h with rfl | rfl <;> simp only [apply, v.looselyEquals_comm w]

namespace Expr

variable {env : Env} {left right : Expr} {v w : Value} {token : String} {op : BinaryOp}

theorem eval_equality (h : op.TestsEquality) (htoken : BinaryOp.ofToken? token = some op)
    (hleft : left.eval env = .ok v) (hright : right.eval env = .ok w) :
    (Expr.binary token left right).eval env = op.apply v w := by
  have hparse : BinaryOp.parse token = .ok op := by rw [BinaryOp.parse, htoken]
  rcases h with rfl | rfl <;> simp only [eval, hparse, hleft, hright, bind, Except.bind]

end Expr

namespace Value

/-- Laws of loose equality: symmetry, the values that are equal to themselves, the fields of records,
by look-ups at every depth, and the operators, for which it does not matter which operand is written
first. -/
theorem looselyEquals_laws (v w : Value) :
    v.looselyEquals w = w.looselyEquals v ∧
      (v.looselyEquals v = true ↔ v.NaNFree) ∧
      (∀ a b, v = .record a → w = .record b → Entries.Ordered a → Entries.Ordered b →
        (v.looselyEquals w = true ↔ Matched a b)) ∧
      (v.Ordered → w.Ordered → v.looselyEquals w = v.equalsByLookup w) ∧
      ∀ op : BinaryOp, op.TestsEquality → op.apply v w = op.apply w v ∧
        ∀ (env : Env) (left right : Expr) (token : String), BinaryOp.ofToken? token = some op →
          left.eval env = .ok v → right.eval env = .ok w →
            (Expr.binary token left right).eval env = (Expr.binary token right left).eval env := by
  refine ⟨v.looselyEquals_comm w, v.looselyEquals_self_iff, ?_, looselyEquals_eq_equalsByLookup,
    fun op hop => ⟨?_, ?_⟩⟩
  · rintro a b rfl rfl ha hb
    exact looselyEquals_record_iff ha hb
  · exact BinaryOp.apply_comm hop v w
  · intro env left right token htoken hleft hright
    rw [Expr.eval_equality hop htoken hleft hright, Expr.eval_equality hop htoken hright hleft]
    exact BinaryOp.apply_comm hop v w

/-- An expected record without the name of the enumeration, and with an integer for a real. -/
def expected : List (String × Value) :=
  [("mode", .literal "" "Auto"), ("reading", .record [("level", .int 3)])]

def measured : List (String × Value) :=
  [("mode", .literal "Mode" "Auto"), ("reading", .record [("level", .real 3.0)])]

theorem looselyEquals_laws_reading :
    let env := ((Env.new {}).bind "expected" (.record expected)).bind "measured" (.record measured)
    (Value.record expected).looselyEquals (.record measured) = true ∧
      (Value.record measured).looselyEquals (.record expected) = true ∧
      Matched expected measured ∧ (Value.record measured).NaNFree ∧
      (Value.record expected).equalsByLookup (.record measured) = true ∧
      (Expr.binary "!=" (.variable "expected") (.variable "measured")).eval env =
        (Expr.binary "!=" (.variable "measured") (.variable "expected")).eval env := by
  intro env
  obtain ⟨hsymmetric, _, hrecord, hlookup, hoperators⟩ :=
    looselyEquals_laws (.record expected) (.record measured)
  have hequal : (Value.record expected).looselyEquals (.record measured) = true := by decide +kernel
  have hself : (Value.record measured).looselyEquals (.record measured) = true := by decide +kernel
  have hordered (mode level : Value) (hmode : ∀ fields, mode ≠ .record fields)
      (hlevel : ∀ fields, level ≠ .record fields) :
      (Value.record [("mode", mode), ("reading", .record [("level", level)])]).Ordered := by
    have hnames : "mode" < "reading" := by decide
    refine ordered_record_iff.2 ⟨List.pairwise_pair.2 hnames, ?_⟩
    simp [ordered_record_iff, ordered_of_plain hmode, ordered_of_plain hlevel, Entries.Ordered]
  have hexpected : (Value.record expected).Ordered := hordered _ _ nofun nofun
  have hmeasured : (Value.record measured).Ordered := hordered _ _ nofun nofun
  refine ⟨hequal, hsymmetric.symm.trans hequal,
    (hrecord _ _ rfl rfl (hexpected _ (.itself _)) (hmeasured _ (.itself _))).1 hequal,
    (looselyEquals_laws (.record measured) (.record expected)).2.1.1 hself,
    (hlookup hexpected hmeasured).symm.trans hequal, ?_⟩
  exact (hoperators .unequal (.inr rfl)).2 env (.variable "expected") (.variable "measured") "!=" rfl
    rfl rfl

end Value
end Archflow
