import Archflow.Proofs.Reading

/-!
The parentheses in the text of an operation. No text with fewer parentheses is read as the same
operation (`parens_render_le`), and a pair of parentheses can be taken out of any text that can be
read (`read_without_pair`). So the text has exactly the parentheses that it needs
(`parentheses_needed`).
-/
namespace Archflow
namespace Reading

open State

/-! No text with fewer parentheses is read as the same expression. -/

/-- How many parentheses are opened in the text of an expression in some place. -/
def price (strength : Nat) (expr : Expr) : Nat := (expr.charsAt strength).count '('

theorem price_operation {token : String} (h : '(' ∉ token.toList) (strength : Nat)
    (left right : Expr) :
    price strength (.binary token left right) =
      (if Expr.tokenPrecedence token < strength then 1 else 0) +
        (price (Expr.tokenPrecedence token) left + price (Expr.tokenPrecedence token + 1) right) := by
  have hbare : (Expr.bareChars token left right).count '(' =
      price (Expr.tokenPrecedence token) left + price (Expr.tokenPrecedence token + 1) right := by
    simp [Expr.bareChars, price, List.count_eq_zero.2 h]
  rw [price, Expr.charsAt_binary, ← hbare]
  split
  · simp only [List.count_cons_self, List.count_append]
    simp
    omega
  · simp

/-- Only operators look at the place they stand in, and one pair of parentheses satisfies all
places. -/
theorem price_place (strength strength' : Nat) (expr : Expr) :
    price strength expr ≤ price strength' expr + 1 ∧
      (strength ≤ strength' → price strength expr ≤ price strength' expr) := by
  unfold price
  match expr with
  | .binary token left right =>
    rw [Expr.charsAt_binary, Expr.charsAt_binary]
    split <;> split <;> simp <;> omega
  | .enumeral none literal | .enumeral (some _) literal | .const _ | .object _ _ | .variable _
  | .field _ _ | .unary _ _ =>
    exact ⟨Nat.le_succ _, fun _ => Nat.le_refl _⟩

/-- How many parentheses the pending part needs in the end, or has opened. -/
def debt : List Pending → Nat
  | [] => 0
  | .operation left token :: rest => price (Expr.tokenPrecedence token) left + debt rest
  | .group :: rest => debt rest + 1

/-- Within a group, operators that wait for a later operand bind more strongly. -/
def Rising : List Pending → Prop
  | [] => True
  | .operation _ token :: rest =>
      '(' ∉ token.toList ∧ Loose (Expr.tokenPrecedence token) rest ∧ Rising rest
  | .group :: rest => Rising rest

theorem settle_paid {level strength count : Nat} {expr : Expr} {pending : List Pending}
    (hlevel : level ≤ strength) (hloose : Loose strength pending) (hrising : Rising pending)
    (hpaid : ∀ place ≤ strength, debt pending + price place expr ≤ count) :
    Loose level (settle level expr pending).2 ∧ Rising (settle level expr pending).2 ∧
      ∀ place ≤ level, debt (settle level expr pending).2 +
        price place (settle level expr pending).1 ≤ count := by
  fun_induction settle level expr pending generalizing strength with
  | case1 expr left token rest hstrong ih =>
    obtain ⟨htoken, hbelow, hrest⟩ := hrising
    refine ih hstrong hbelow hrest ?_
    intro place hplace
    have hstronger := hloose left token rfl
    have hright := hpaid (Expr.tokenPrecedence token + 1) hstronger
    rw [price_operation htoken, if_neg (by omega)]
    simp only [debt] at hright
    omega
  | case2 expr left token rest hweak =>
    refine ⟨?_, hrising, fun place hplace => hpaid place (Nat.le_trans hplace hlevel)⟩
    rintro _ _ ⟨⟩
    omega
  | case3 expr pending hother =>
    refine ⟨?_, hrising, fun place hplace => hpaid place (Nat.le_trans hplace hlevel)⟩
    intro left token hhead
    obtain ⟨rest, rfl⟩ := List.head?_eq_some_iff.1 hhead
    exact absurd rfl (hother left token rest)

/-- The operand before the place that has been reached. -/
def State.current (state : State) : Expr :=
  match state.phase with
  | .operand => .variable (String.ofList state.word)
  | .closed expr => expr
  | .operator left => left

theorem current_of_complete? {state : State} {expr : Expr} (h : state.complete? = some expr) :
    state.current = expr := by
  obtain ⟨pending, phase, word⟩ := state
  cases phase <;> simp_all [complete?, State.current]

/-- Enough parentheses have been opened for all that has been read. -/
structure Paid (count : Nat) (state : State) : Prop where
  rising : Rising state.pending
  word : '(' ∉ state.word
  paid : ∀ place, debt state.pending + price place state.current ≤ count

theorem loose_max (pending : List Pending) : Loose UnaryOp.precedence pending := by
  intro _ token _
  exact Expr.tokenPrecedence_lt token

namespace Paid

variable {count : Nat} {state next : State}

theorem settle {level : Nat} (h : Paid count state) (hlevel : level ≤ UnaryOp.precedence) :
    Loose level (settle level state.current state.pending).2 ∧
      Rising (settle level state.current state.pending).2 ∧
      ∀ place ≤ level, debt (Reading.settle level state.current state.pending).2 +
        price place (Reading.settle level state.current state.pending).1 ≤ count :=
  settle_paid hlevel (loose_max _) h.rising fun place _ => h.paid place

theorem start : Paid 0 start := ⟨trivial, by simp [Reading.start], fun _ => Nat.le_refl 0⟩

theorem openGroup (h : Paid count state) (hstep : state.openGroup = some next) :
    Paid (count + 1) next := by
  obtain ⟨hphase, hword, rfl⟩ := openGroup_eq_some hstep
  refine ⟨h.rising, by simp, fun place => ?_⟩
  have hpaid := h.paid place
  simp only [State.current, hphase, hword] at hpaid
  simp only [State.current, debt]
  omega

/-- A pair of parentheses pays for any place. -/
theorem closeGroup (h : Paid count state) (hstep : state.closeGroup = some next) :
    Paid count next := by
  obtain ⟨last, hlast, hclose⟩ := Option.bind_eq_some_iff.1 hstep
  obtain ⟨-, hrising, hpaid⟩ := h.settle (Nat.zero_le _)
  rw [current_of_complete? hlast] at hrising hpaid
  split at hclose
  · next expr rest hsettle =>
    cases hclose
    rw [hsettle] at hrising hpaid
    refine ⟨hrising, by simp, fun place => ?_⟩
    have hinner := hpaid 0 (Nat.le_refl 0)
    have hplace := (price_place place 0 expr).1
    simp only [debt] at hinner
    simp only [State.current]
    omega
  · cases hclose

theorem space (h : Paid count state) (hstep : state.space = some next) : Paid count next := by
  rcases space_eq_some hstep with ⟨left, op, hphase, hop, rfl⟩ | ⟨last, hlast, rfl⟩
  · have hcurrent : state.current = left := by simp [State.current, hphase]
    have hown : Expr.tokenPrecedence (String.ofList state.word) = op.precedence := by
      simp [Expr.tokenPrecedence, hop]
    obtain ⟨hloose, hrising, hpaid⟩ := h.settle (Nat.le_of_lt op.precedence_lt)
    rw [hcurrent, ← hown] at hloose hrising hpaid
    have hword : '(' ∉ (String.ofList state.word).toList := by simpa using h.word
    rw [← hown]
    refine ⟨⟨hword, hloose, hrising⟩, by simp, fun place => ?_⟩
    have hleft := hpaid _ (Nat.le_refl _)
    have hempty : price place (.variable (String.ofList [])) = 0 := rfl
    simp only [State.current, debt, hempty]
    omega
  · refine ⟨h.rising, by simp, fun place => ?_⟩
    have hpaid := h.paid place
    rwa [current_of_complete? hlast] at hpaid

theorem letter {c : Char} (h : Paid count state) (hc : c ≠ '(')
    (hstep : state.letter c = some next) : Paid count next := by
  obtain ⟨hphase, rfl⟩ := letter_eq_some hstep
  obtain ⟨pending, phase, word⟩ := state
  have hword : '(' ∉ word ++ [c] := by
    simp only [List.mem_append, List.mem_singleton, not_or]
    exact ⟨h.word, hc.symm⟩
  cases phase with
  | closed expr => exact absurd rfl (hphase expr)
  | operator left => exact ⟨h.rising, hword, h.paid⟩
  | operand =>
    refine ⟨h.rising, hword, fun place => ?_⟩
    have hpaid := Nat.le_of_add_right_le (h.paid place)
    have hfree : price place (.variable (String.ofList (word ++ [c]))) = 0 := by
      simp only [price, Expr.charsAt_variable, String.toList_ofList]
      exact List.count_eq_zero.2 hword
    show debt pending + price place (.variable (String.ofList (word ++ [c]))) ≤ count
    rw [hfree]
    exact hpaid

theorem step {c : Char} (h : Paid count state) (hstep : state.step c = some next) :
    Paid (count + [c].count '(') next := by
  rcases wordlike_or c with rfl | rfl | rfl | hc
  · exact h.openGroup hstep
  · exact h.closeGroup hstep
  · exact h.space hstep
  · have hcount : [c].count '(' = 0 := List.count_eq_zero.2 (by simpa using hc.2.1.symm)
    rw [step_letter _ hc] at hstep
    rw [hcount]
    exact h.letter hc.2.1 hstep

theorem run {text : List Char} (h : Paid count state) (hrun : state.run text = some next) :
    Paid (count + text.count '(') next := by
  induction text generalizing count state with
  | nil =>
    cases hrun
    exact h
  | cons c text ih =>
    rw [run_cons] at hrun
    obtain ⟨middle, hstep, hrest⟩ := Option.bind_eq_some_iff.1 hrun
    have hnext := ih (h.step hstep) hrest
    rwa [Nat.add_assoc, ← List.count_append] at hnext

end Paid

/-- The text of an expression has the fewest parentheses of all texts that are read as it. -/
theorem parens_render_le {text : String} {expr : Expr} (h : read text = some expr) :
    expr.render.toList.count '(' ≤ text.toList.count '(' := by
  obtain ⟨state, hrun, hfinish⟩ := Option.bind_eq_some_iff.1 h
  obtain ⟨last, hlast, hend⟩ := Option.bind_eq_some_iff.1 hfinish
  obtain ⟨-, -, hpaid⟩ := (Paid.start.run hrun).settle (Nat.zero_le _)
  rw [current_of_complete? hlast] at hpaid
  split at hend
  · next expr hsettle =>
    cases hend
    have hprice := hpaid 0 (Nat.le_refl 0)
    rw [hsettle] at hprice
    simpa [debt, price, Expr.toList_render] using hprice
  · cases hend

/-! A pair of parentheses can be taken out of a text. -/

/-- How many parentheses are open behind a character. There is no answer if it closes one and none
is open. -/
def deepen (depth : Nat) (c : Char) : Option Nat :=
  if c = '(' then some (depth + 1)
  else if c = ')' then
    match depth with
    | 0 => none
    | depth + 1 => some depth
  else some depth

/-- How many parentheses are open behind a text, given how many are open before it. -/
def nesting (depth : Nat) (text : List Char) : Option Nat := text.foldlM deepen depth

theorem nesting_cons (depth : Nat) (c : Char) (text : List Char) :
    nesting depth (c :: text) = (deepen depth c).bind (nesting · text) := by
  simp [nesting]

theorem nesting_append (depth : Nat) (first second : List Char) :
    nesting depth (first ++ second) = (nesting depth first).bind (nesting · second) := by
  simp [nesting]

/-- Every parenthesis in the text has its partner there. -/
def Balanced (text : List Char) : Prop := nesting 0 text = some 0

instance (text : List Char) : Decidable (Balanced text) := inferInstanceAs (Decidable (_ = _))

def groups : List Pending → Nat
  | [] => 0
  | .operation .. :: rest => groups rest
  | .group :: rest => groups rest + 1

theorem groups_settle (level : Nat) (expr : Expr) (pending : List Pending) :
    groups (settle level expr pending).2 = groups pending := by
  fun_induction settle level expr pending with
  | case1 expr left token rest _ ih => exact ih
  | case2 => rfl
  | case3 => rfl

/-- At level zero, all operators of the innermost group have their right operand. -/
theorem settle_zero (expr : Expr) (pending : List Pending) :
    (∃ whole, settle 0 expr pending = (whole, []) ∧ groups pending = 0) ∨
      ∃ whole rest, settle 0 expr pending = (whole, .group :: rest) ∧
        groups pending = groups rest + 1 := by
  induction pending generalizing expr with
  | nil => exact .inl ⟨expr, rfl, rfl⟩
  | cons item rest ih =>
    cases item with
    | group => exact .inr ⟨expr, rest, rfl, rfl⟩
    | operation left token => exact ih (.binary token left expr)

theorem closeGroup_eq_some {state next : State} (h : state.closeGroup = some next) :
    ∃ last whole, state.complete? = some last ∧ next.phase = .closed whole ∧
      groups state.pending = groups next.pending + 1 := by
  obtain ⟨last, hlast, hclose⟩ := Option.bind_eq_some_iff.1 h
  rcases settle_zero last state.pending with ⟨whole, hsettle, -⟩ | ⟨whole, rest, hsettle, hgroups⟩
  · simp [hsettle] at hclose
  · simp only [hsettle, Option.some.injEq] at hclose
    subst hclose
    exact ⟨last, whole, hlast, rfl, hgroups⟩

theorem closeGroup_of_groups {state : State} {last : Expr} (hlast : state.complete? = some last)
    (h : 0 < groups state.pending) :
    ∃ next whole, state.closeGroup = some next ∧ next.phase = .closed whole ∧
      groups state.pending = groups next.pending + 1 := by
  rcases settle_zero last state.pending with ⟨-, -, hgroups⟩ | ⟨whole, rest, hsettle, hgroups⟩
  · omega
  · refine ⟨⟨rest, .closed whole, []⟩, whole, ?_, rfl, hgroups⟩
    simp [closeGroup, hlast, hsettle]

/-- Whatever may come next in a state may come next in another one. Behind a closing parenthesis,
that holds of every state in which an operand may end. -/
def State.Resembles (state other : State) : Prop :=
  match state.phase with
  | .operand => other.phase = .operand ∧ other.word = state.word
  | .closed _ => ∃ last, other.complete? = some last
  | .operator _ => (∃ left, other.phase = .operator left) ∧ other.word = state.word

/-- The states resemble each other, but in the first one some more groups are open. -/
structure Follows (extra : Nat) (state other : State) : Prop where
  resembles : state.Resembles other
  depth : groups state.pending = groups other.pending + extra

namespace Follows

variable {extra : Nat} {state other next : State}

theorem complete? (h : Follows extra state other) {last : Expr} (hlast : state.complete? = some last) :
    ∃ last', other.complete? = some last' := by
  obtain ⟨hresembles, -⟩ := h
  obtain ⟨pending, phase, word⟩ := state
  cases phase with
  | operand => exact ⟨.variable (String.ofList other.word), by simp [State.complete?, hresembles.1]⟩
  | closed expr => exact hresembles
  | operator left => cases hlast

theorem openGroup (h : Follows extra state other) (hstep : state.openGroup = some next) :
    ∃ next', other.openGroup = some next' ∧ Follows extra next next' := by
  obtain ⟨hresembles, hgroups⟩ := h
  obtain ⟨hphase, hword, rfl⟩ := openGroup_eq_some hstep
  simp only [State.Resembles, hphase, hword] at hresembles
  refine ⟨⟨.group :: other.pending, .operand, []⟩, ?_, ⟨rfl, rfl⟩, ?_⟩
  · simp [State.openGroup, hresembles]
  · simp only [groups, hgroups]
    omega

theorem closeGroup (h : Follows extra state other) (hopen : 0 < groups other.pending)
    (hstep : state.closeGroup = some next) :
    ∃ next', other.closeGroup = some next' ∧ Follows extra next next' := by
  obtain ⟨last, whole, hlast, hphase, hgroups⟩ := closeGroup_eq_some hstep
  obtain ⟨last', hlast'⟩ := h.complete? hlast
  obtain ⟨next', whole', hnext', hphase', hgroups'⟩ := closeGroup_of_groups hlast' hopen
  refine ⟨next', hnext', ?_, ?_⟩
  · simp only [State.Resembles, hphase]
    exact ⟨whole', by simp [State.complete?, hphase']⟩
  · have := h.depth
    omega

theorem space (h : Follows extra state other) (hstep : state.space = some next) :
    ∃ next', other.space = some next' ∧ Follows extra next next' := by
  rcases space_eq_some hstep with ⟨left, op, hphase, hop, rfl⟩ | ⟨last, hlast, rfl⟩
  · obtain ⟨hresembles, hgroups⟩ := h
    simp only [State.Resembles, hphase] at hresembles
    obtain ⟨⟨left', hphase'⟩, hword⟩ := hresembles
    refine ⟨⟨.operation (settle op.precedence left' other.pending).1 (String.ofList other.word) ::
      (settle op.precedence left' other.pending).2, .operand, []⟩, ?_, ⟨rfl, rfl⟩, ?_⟩
    · simp [State.space, hphase', hword, hop]
    · simp only [groups, groups_settle, hgroups]
  · obtain ⟨last', hlast'⟩ := h.complete? hlast
    refine ⟨⟨other.pending, .operator last', []⟩, ?_, ⟨⟨last', rfl⟩, rfl⟩, h.depth⟩
    unfold State.space
    split
    · next left hphase => simp [State.complete?, hphase] at hlast'
    · simp [hlast']

theorem letter {c : Char} (h : Follows extra state other) (hstep : state.letter c = some next) :
    ∃ next', other.letter c = some next' ∧ Follows extra next next' := by
  obtain ⟨hopen, rfl⟩ := letter_eq_some hstep
  obtain ⟨pending, phase, word⟩ := state
  obtain ⟨hresembles, hgroups⟩ := h
  refine ⟨{ other with word := other.word ++ [c] }, ?_, ?_, hgroups⟩
  · cases phase with
    | closed expr => exact absurd rfl (hopen expr)
    | operand => simp [State.letter, hresembles.1]
    | operator left =>
      obtain ⟨⟨left', hphase⟩, -⟩ := hresembles
      simp [State.letter, hphase]
  · cases phase with
    | closed expr => exact absurd rfl (hopen expr)
    | operand => exact ⟨hresembles.1, congrArg (· ++ [c]) hresembles.2⟩
    | operator left => exact ⟨hresembles.1, congrArg (· ++ [c]) hresembles.2⟩

theorem step {c : Char} (h : Follows extra state other)
    (hopen : c = ')' → 0 < groups other.pending) (hstep : state.step c = some next) :
    ∃ next', other.step c = some next' ∧ Follows extra next next' := by
  rcases wordlike_or c with rfl | rfl | rfl | hc
  · exact h.openGroup hstep
  · exact h.closeGroup (hopen rfl) hstep
  · exact h.space hstep
  · rw [step_letter _ hc] at hstep ⊢
    exact h.letter hstep

end Follows

/-- The reader keeps a group for every parenthesis that is open. -/
theorem deepen_groups {state next : State} {c : Char} (h : state.step c = some next) :
    deepen (groups state.pending) c = some (groups next.pending) := by
  rcases wordlike_or c with rfl | rfl | rfl | hc
  · obtain ⟨-, -, rfl⟩ := openGroup_eq_some h
    rfl
  · obtain ⟨-, -, -, -, hgroups⟩ := closeGroup_eq_some h
    rw [hgroups]
    rfl
  · rcases space_eq_some h with ⟨_, _, -, -, rfl⟩ | ⟨_, -, rfl⟩
    · simp [deepen, groups, groups_settle]
    · rfl
  · rw [step_letter _ hc] at h
    obtain ⟨-, rfl⟩ := letter_eq_some h
    simp [deepen, hc.2.1, hc.2.2]

theorem deepen_mono {depth depth' next next' : Nat} {c : Char} (hle : depth ≤ depth')
    (h : deepen depth c = some next) (h' : deepen depth' c = some next') : next ≤ next' := by
  unfold deepen at h h'
  split at h
  · simp_all
    omega
  · split at h
    · cases depth <;> cases depth' <;> simp_all
    · simp_all

/-- A text that closes no group from before it is read in the same way where fewer groups are
open. -/
theorem Follows.run_nested {extra : Nat} {state other next : State} {text : List Char}
    {depth final : Nat} (h : Follows extra state other) (hdepth : depth ≤ groups other.pending)
    (hnesting : nesting depth text = some final) (hrun : state.run text = some next) :
    ∃ next', other.run text = some next' ∧ Follows extra next next' := by
  induction text generalizing state other depth with
  | nil =>
    cases hrun
    exact ⟨other, rfl, h⟩
  | cons c text ih =>
    rw [run_cons] at hrun
    obtain ⟨middle, hstep, hrest⟩ := Option.bind_eq_some_iff.1 hrun
    rw [nesting_cons] at hnesting
    obtain ⟨inner, hinner, htail⟩ := Option.bind_eq_some_iff.1 hnesting
    have hopen : c = ')' → 0 < groups other.pending := by
      rintro rfl
      cases depth with
      | zero => cases hinner
      | succ depth => omega
    obtain ⟨middle', hstep', hmiddle⟩ := h.step hopen hstep
    have hle := deepen_mono hdepth hinner (deepen_groups hstep')
    obtain ⟨next', hrun', hnext⟩ := ih hmiddle hle htail hrest
    exact ⟨next', by rw [run_cons, hstep', Option.bind_some, hrun'], hnext⟩

theorem nesting_groups {state next : State} {text : List Char} (h : state.run text = some next) :
    nesting (groups state.pending) text = some (groups next.pending) := by
  induction text generalizing state with
  | nil =>
    cases h
    rfl
  | cons c text ih =>
    rw [run_cons] at h
    obtain ⟨middle, hstep, hrest⟩ := Option.bind_eq_some_iff.1 h
    rw [nesting_cons, deepen_groups hstep]
    exact ih hrest

theorem Follows.finish {state other : State} {expr : Expr} (h : Follows 0 state other)
    (hfinish : state.finish = some expr) : ∃ expr', other.finish = some expr' := by
  obtain ⟨last, hlast, hend⟩ := Option.bind_eq_some_iff.1 hfinish
  obtain ⟨last', hlast'⟩ := h.complete? hlast
  have hdepth := h.depth
  rcases settle_zero last state.pending with ⟨-, -, hgroups⟩ | ⟨whole, rest, hsettle, -⟩
  · rcases settle_zero last' other.pending with ⟨whole', hsettle', -⟩ | ⟨_, _, _, hgroups'⟩
    · exact ⟨whole', by simp [State.finish, hlast', hsettle']⟩
    · omega
  · simp [hsettle] at hend

/-- A text stays readable without one of its pairs of parentheses. -/
theorem read_without_pair {before inside after : List Char} {expr : Expr}
    (h : read (String.ofList (before ++ '(' :: (inside ++ ')' :: after))) = some expr)
    (hinside : Balanced inside) :
    ∃ other, read (String.ofList (before ++ (inside ++ after))) = some other := by
  obtain ⟨final, hrun, hfinish⟩ := Option.bind_eq_some_iff.1 h
  rw [String.toList_ofList, run_append] at hrun
  obtain ⟨opening, hbefore, hrun⟩ := Option.bind_eq_some_iff.1 hrun
  rw [run_cons] at hrun
  obtain ⟨first, hopen, hrun⟩ := Option.bind_eq_some_iff.1 hrun
  rw [run_append] at hrun
  obtain ⟨last, hlast, hrun⟩ := Option.bind_eq_some_iff.1 hrun
  rw [run_cons] at hrun
  obtain ⟨closing, hclose, hafter⟩ := Option.bind_eq_some_iff.1 hrun
  -- Without the parenthesis one group less is open, and nothing inside closes it.
  have hfirst : Follows 1 first opening := by
    obtain ⟨hphase, hword, rfl⟩ := openGroup_eq_some hopen
    exact ⟨⟨hphase, hword⟩, rfl⟩
  obtain ⟨last', hinner, hlast'⟩ := hfirst.run_nested (Nat.zero_le _) hinside hlast
  -- Behind the parenthesis both have the same groups open and an operand that may end.
  have hclosing : Follows 0 closing last' := by
    obtain ⟨operand, whole, hoperand, hphase, hgroups⟩ := closeGroup_eq_some hclose
    obtain ⟨operand', hoperand'⟩ := hlast'.complete? hoperand
    refine ⟨?_, ?_⟩
    · simp only [State.Resembles, hphase]
      exact ⟨operand', hoperand'⟩
    · have := hlast'.depth
      omega
  obtain ⟨final', hafter', hfinal⟩ :=
    hclosing.run_nested (Nat.le_of_eq hclosing.depth) (nesting_groups hafter) hafter
  obtain ⟨other, hother⟩ := hfinal.finish hfinish
  refine ⟨other, ?_⟩
  simp [read, run_append, hbefore, hinner, hafter', hother]

/-! The parentheses of an operation. -/

theorem nesting_word {text : List Char} (h : ∀ c ∈ text, Wordlike c) (depth : Nat) :
    nesting depth text = some depth := by
  induction text with
  | nil => rfl
  | cons c text ih =>
    obtain ⟨⟨-, hopen, hclose⟩, htext⟩ := List.forall_mem_cons.1 h
    rw [nesting_cons]
    simpa [deepen, hopen, hclose] using ih htext

theorem nesting_charsAt {expr : Expr} (h : expr.Operation) (strength depth : Nat) :
    nesting depth (expr.charsAt strength) = some depth := by
  induction h generalizing strength depth with
  | name hword => exact nesting_word hword depth
  | @apply token op left right hop _ _ ihleft ihright =>
    have hbare (depth : Nat) : nesting depth (Expr.bareChars token left right) = some depth := by
      have hspace (text : List Char) : nesting depth (' ' :: text) = nesting depth text := rfl
      rw [Expr.bareChars, nesting_append, ihleft, Option.bind_some, hspace, nesting_append,
        nesting_word (wordlike_of_ofToken? hop), Option.bind_some, hspace, ihright]
    rw [Expr.charsAt_binary]
    split
    · have hopen (text : List Char) : nesting depth ('(' :: text) = nesting (depth + 1) text := rfl
      rw [hopen, nesting_append, hbare]
      rfl
    · exact hbare depth

/-- The text of an operation is read back as it, and all parentheses in the text belong to pairs,
each of which is needed: without any one of them another expression is read. No other text that is
read as the operation has fewer parentheses. -/
theorem parentheses_needed {expr : Expr} (h : expr.Operation) :
    read expr.render = some expr ∧ Balanced expr.render.toList ∧
      (∀ before inside after : List Char,
        expr.render.toList = before ++ '(' :: (inside ++ ')' :: after) → Balanced inside →
        ∃ other, read (String.ofList (before ++ (inside ++ after))) = some other ∧ other ≠ expr) ∧
      ∀ text, read text = some expr → expr.render.toList.count '(' ≤ text.toList.count '(' := by
  have hread := read_render h
  refine ⟨hread, nesting_charsAt h 0 0, ?_, fun text => parens_render_le⟩
  intro before inside after htext hinside
  have hpair : read (String.ofList (before ++ '(' :: (inside ++ ')' :: after))) = some expr := by
    rw [← htext, String.ofList_toList, hread]
  obtain ⟨other, hother⟩ := read_without_pair hpair hinside
  refine ⟨other, hother, ?_⟩
  rintro rfl
  have hle := parens_render_le hother
  have hclose : ')' ≠ '(' := by decide
  rw [htext, String.toList_ofList] at hle
  simp only [List.count_append, List.count_cons_self, List.count_cons_of_ne hclose] at hle
  omega

/-- A difference on the right of a difference keeps its parentheses. -/
theorem parentheses_needed_difference :
    let expr := Expr.binary "-" (.variable "a") (.binary "-" (.variable "b") (.variable "c"))
    expr.Operation ∧ expr.render = "a - (b - c)" ∧ read expr.render = some expr ∧
      ∃ other, read "a - b - c" = some other ∧ other ≠ expr := by
  intro expr
  have hexpr : expr.Operation :=
    .apply rfl (.name (by simp [Wordlike]))
      (.apply rfl (.name (by simp [Wordlike])) (.name (by simp [Wordlike])))
  obtain ⟨hread, -, hpairs, -⟩ := parentheses_needed hexpr
  exact ⟨hexpr, by decide +kernel, hread,
    hpairs "a - ".toList "b - c".toList [] (by decide +kernel) (by decide)⟩

/-- What a word means is decided by its place. -/
example : read "and and (or -> not)" =
    some (.binary "and" (.variable "and") (.binary "->" (.variable "or") (.variable "not"))) := rfl

end Reading
end Archflow
