import Archflow.Expr

/-!
Reading by precedence. Operations are built from variables by binary operators. A reader that knows
the strengths of the operators and groups to the left keeps what it has begun on a stack; it reads
every operation back from its text (`read_render`).
-/
namespace Archflow

/-- A character that may stand in a word: neither a space nor a parenthesis. -/
def Wordlike (c : Char) : Prop := c ≠ ' ' ∧ c ≠ '(' ∧ c ≠ ')'

theorem wordlike_or (c : Char) : c = '(' ∨ c = ')' ∨ c = ' ' ∨ Wordlike c := by
  unfold Wordlike
  grind

namespace Expr

/-- The expression is built from variables, whose names are words, by binary operators. -/
inductive Operation : Expr → Prop where
  | name {name : String} (word : ∀ c ∈ name.toList, Wordlike c) : Operation (.variable name)
  | apply {token : String} {op : BinaryOp} {left right : Expr}
      (known : BinaryOp.ofToken? token = some op) (left_operation : Operation left)
      (right_operation : Operation right) : Operation (.binary token left right)

end Expr

/-! Reading by precedence. -/

namespace Reading

/-- What has been begun and waits for the text that follows. -/
inductive Pending where
  /-- An operator waits for its right operand. -/
  | operation (left : Expr) (token : String)
  /-- A parenthesis waits to be closed. -/
  | group

inductive Phase where
  | operand
  /-- After a parenthesis that has closed an operand. -/
  | closed (expr : Expr)
  | operator (left : Expr)

structure State where
  /-- From the inside out. -/
  pending : List Pending
  phase : Phase
  /-- What has been read of the name of an operand or of an operator. -/
  word : List Char

def start : State := ⟨[], .operand, []⟩

/-- Let an operand be the right one of all operators that wait for it and bind at least as strongly
as some level. -/
def settle (level : Nat) (expr : Expr) : List Pending → Expr × List Pending
  | .operation left token :: rest =>
      if level ≤ Expr.tokenPrecedence token then settle level (.binary token left expr) rest
      else (expr, .operation left token :: rest)
  | pending => (expr, pending)

namespace State

def complete? (state : State) : Option Expr :=
  match state.phase with
  | .operand => some (.variable (String.ofList state.word))
  | .closed expr => some expr
  | .operator _ => none

def openGroup (state : State) : Option State :=
  match state.phase, state.word with
  | .operand, [] => some ⟨.group :: state.pending, .operand, []⟩
  | _, _ => none

def closeGroup (state : State) : Option State := do
  match settle 0 (← state.complete?) state.pending with
  | (expr, .group :: rest) => some ⟨rest, .closed expr, []⟩
  | _ => none

/-- A space ends an operand or an operator. An operator takes what stands before it as its left
operand, up to the operators that bind less strongly. -/
def space (state : State) : Option State :=
  match state.phase with
  | .operator left => do
      let token := String.ofList state.word
      let op ← BinaryOp.ofToken? token
      let (left, pending) := settle op.precedence left state.pending
      some ⟨.operation left token :: pending, .operand, []⟩
  | _ => do some ⟨state.pending, .operator (← state.complete?), []⟩

def letter (state : State) (c : Char) : Option State :=
  match state.phase with
  | .closed _ => none
  | _ => some { state with word := state.word ++ [c] }

def step (state : State) (c : Char) : Option State :=
  if c = '(' then state.openGroup
  else if c = ')' then state.closeGroup
  else if c = ' ' then state.space
  else state.letter c

def run (state : State) (text : List Char) : Option State := text.foldlM step state

def finish (state : State) : Option Expr := do
  match settle 0 (← state.complete?) state.pending with
  | (expr, []) => some expr
  | _ => none

end State

/-- Read an operation. Operators stand between two spaces, and all of them group to the left. -/
def read (text : String) : Option Expr := do (← start.run text.toList).finish

open State

@[simp] theorem run_nil (state : State) : state.run [] = some state := rfl

theorem run_cons (state : State) (c : Char) (text : List Char) :
    state.run (c :: text) = (state.step c).bind (·.run text) := by
  simp [run, Option.bind_eq_bind]

theorem run_append (state : State) (first second : List Char) :
    state.run (first ++ second) = (state.run first).bind (·.run second) := by
  simp [run, List.foldlM_append, Option.bind_eq_bind]

@[simp] theorem step_open (state : State) : state.step '(' = state.openGroup := rfl

@[simp] theorem step_close (state : State) : state.step ')' = state.closeGroup := rfl

@[simp] theorem step_space (state : State) : state.step ' ' = state.space := rfl

theorem step_letter (state : State) {c : Char} (h : Wordlike c) : state.step c = state.letter c := by
  obtain ⟨hspace, hopen, hclose⟩ := h
  simp [step, hspace, hopen, hclose]

/-! What each kind of character can do. -/

theorem openGroup_eq_some {state next : State} (h : state.openGroup = some next) :
    state.phase = .operand ∧ state.word = [] ∧
      next = ⟨.group :: state.pending, .operand, []⟩ := by
  unfold openGroup at h
  split at h
  · next hphase hword => exact ⟨hphase, hword, (Option.some.inj h).symm⟩
  · cases h

theorem space_eq_some {state next : State} (h : state.space = some next) :
    (∃ left op, state.phase = .operator left ∧
      BinaryOp.ofToken? (String.ofList state.word) = some op ∧
      next = ⟨.operation (settle op.precedence left state.pending).1 (String.ofList state.word) ::
        (settle op.precedence left state.pending).2, .operand, []⟩) ∨
    ∃ last, state.complete? = some last ∧ next = ⟨state.pending, .operator last, []⟩ := by
  unfold State.space at h
  split at h
  · next left hphase =>
    obtain ⟨op, hop, hnext⟩ := Option.bind_eq_some_iff.1 h
    exact .inl ⟨left, op, hphase, hop, (Option.some.inj hnext).symm⟩
  · obtain ⟨last, hlast, hnext⟩ := Option.bind_eq_some_iff.1 h
    exact .inr ⟨last, hlast, (Option.some.inj hnext).symm⟩

theorem letter_eq_some {state next : State} {c : Char} (h : state.letter c = some next) :
    (∀ expr, state.phase ≠ .closed expr) ∧ next = { state with word := state.word ++ [c] } := by
  unfold State.letter at h
  split at h
  · cases h
  · next hopen => exact ⟨fun expr hphase => hopen expr hphase, (Option.some.inj h).symm⟩

theorem run_word (state : State) (hphase : ∀ expr, state.phase ≠ .closed expr) {text : List Char}
    (h : ∀ c ∈ text, Wordlike c) : state.run text = some { state with word := state.word ++ text } := by
  induction text generalizing state with
  | nil => simp
  | cons c text ih =>
    obtain ⟨hc, htext⟩ := List.forall_mem_cons.1 h
    have hletter : state.letter c = some { state with word := state.word ++ [c] } := by
      unfold letter
      split
      · next expr hclosed => exact absurd hclosed (hphase expr)
      · rfl
    rw [run_cons, step_letter _ hc, hletter, Option.bind_some, ih]
    · simp
    · exact hphase
    · exact htext

theorem wordlike_of_ofToken? {token : String} {op : BinaryOp}
    (h : BinaryOp.ofToken? token = some op) : ∀ c ∈ token.toList, Wordlike c := by
  unfold BinaryOp.ofToken? at h
  split at h
  any_goals simp [Wordlike]
  cases h

/-! Texts are read back. -/

/-- The innermost operator that waits binds less strongly than some strength. -/
def Loose (strength : Nat) (pending : List Pending) : Prop :=
  ∀ left token, pending.head? = some (.operation left token) →
    Expr.tokenPrecedence token < strength

theorem Loose.mono {strength strength' : Nat} {pending : List Pending} (h : Loose strength pending)
    (hle : strength ≤ strength') : Loose strength' pending := by
  intro left token hhead
  have := h left token hhead
  omega

theorem loose_group (strength : Nat) (pending : List Pending) :
    Loose strength (.group :: pending) := by
  intro left token h
  simp at h

theorem settle_of_loose {level : Nat} {pending : List Pending} (h : Loose level pending)
    (expr : Expr) : settle level expr pending = (expr, pending) := by
  unfold settle
  split
  · next left token rest =>
    have := h left token rfl
    simp only [ite_eq_right_iff]
    omega
  · rfl

theorem settle_operation {level : Nat} {token : String} (h : level ≤ Expr.tokenPrecedence token)
    (expr left : Expr) (pending : List Pending) :
    settle level expr (.operation left token :: pending) =
      settle level (.binary token left expr) pending := by
  rw [settle, if_pos h]

/-- To operators of at most some strength, the state gives what it would give if an expression had
been read as a whole. -/
def Offers (state : State) (strength : Nat) (expr : Expr) (pending : List Pending) : Prop :=
  ∃ last, state.complete? = some last ∧
    ∀ level ≤ strength, settle level last state.pending = settle level expr pending

theorem Offers.mono {state : State} {strength strength' : Nat} {expr : Expr} {pending : List Pending}
    (h : Offers state strength expr pending) (hle : strength' ≤ strength) :
    Offers state strength' expr pending := by
  obtain ⟨last, hlast, hsettle⟩ := h
  exact ⟨last, hlast, fun level hlevel => hsettle level (Nat.le_trans hlevel hle)⟩

theorem Offers.space {state : State} {strength : Nat} {expr : Expr} {pending : List Pending}
    (h : Offers state strength expr pending) :
    ∃ last, state.space = some ⟨state.pending, .operator last, []⟩ ∧
      ∀ level ≤ strength, settle level last state.pending = settle level expr pending := by
  obtain ⟨last, hlast, hsettle⟩ := h
  refine ⟨last, ?_, hsettle⟩
  obtain ⟨_, phase, _⟩ := state
  cases phase with
  | operand => simp [State.space, hlast]
  | closed expr => simp [State.space, hlast]
  | operator left => simp [complete?] at hlast

/-- A text is read to the end as an expression, whatever is pending that is weaker. -/
def Reads (strength : Nat) (expr : Expr) (text : List Char) : Prop :=
  ∀ pending, Loose strength pending →
    ∃ state, run ⟨pending, .operand, []⟩ text = some state ∧ Offers state strength expr pending

theorem reads_variable (strength : Nat) {name : String} (h : ∀ c ∈ name.toList, Wordlike c) :
    Reads strength (.variable name) name.toList := by
  intro pending _
  refine ⟨_, run_word _ (by simp) h, .variable name, ?_, fun _ _ => rfl⟩
  simp [complete?]

/-- The left operand is complete when the operator comes, since nothing that waits for it is
stronger. -/
theorem reads_bareChars {token : String} {op : BinaryOp} {left right : Expr}
    (hop : BinaryOp.ofToken? token = some op)
    (hleft : Reads (Expr.tokenPrecedence token) left (left.charsAt (Expr.tokenPrecedence token)))
    (hright : Reads (Expr.tokenPrecedence token + 1) right
      (right.charsAt (Expr.tokenPrecedence token + 1))) :
    Reads (Expr.tokenPrecedence token) (.binary token left right)
      (Expr.bareChars token left right) := by
  intro pending hloose
  have hown : Expr.tokenPrecedence token = op.precedence := by simp [Expr.tokenPrecedence, hop]
  obtain ⟨before, hbefore, hoffers⟩ := hleft pending hloose
  obtain ⟨last, hspace, hsettle⟩ := hoffers.space
  have hcomplete : settle op.precedence last before.pending = (left, pending) := by
    rw [← hown, hsettle _ (Nat.le_refl _), settle_of_loose hloose]
  have htoken : run ⟨before.pending, .operator last, []⟩ (token.toList ++ [' ']) =
      some ⟨.operation left token :: pending, .operand, []⟩ := by
    rw [run_append, run_word _ (by simp) (wordlike_of_ofToken? hop)]
    simp [run_cons, State.space, hop, hcomplete]
  have hnext : Loose (Expr.tokenPrecedence token + 1) (.operation left token :: pending) := by
    rintro _ _ ⟨⟩
    exact Nat.lt_succ_self _
  obtain ⟨after, hafter, rest, hrest, hsettled⟩ := hright _ hnext
  refine ⟨after, ?_, rest, hrest, ?_⟩
  · have hsplit : Expr.bareChars token left right =
        left.charsAt (Expr.tokenPrecedence token) ++ ([' '] ++ ((token.toList ++ [' ']) ++
          right.charsAt (Expr.tokenPrecedence token + 1))) := by
      simp [Expr.bareChars]
    rw [hsplit, run_append, hbefore, Option.bind_some, List.singleton_append, run_cons, step_space,
      hspace, Option.bind_some, run_append, htoken, Option.bind_some, hafter]
  · intro level hlevel
    rw [hsettled level (Nat.le_succ_of_le hlevel), settle_operation hlevel]

/-- Whatever is read between parentheses is complete behind them. -/
theorem reads_group (strength : Nat) {inner : Nat} {expr : Expr} {text : List Char}
    (h : Reads inner expr text) : Reads strength expr ('(' :: (text ++ [')'])) := by
  intro pending _
  obtain ⟨state, hstate, last, hlast, hsettle⟩ := h (.group :: pending) (loose_group _ _)
  refine ⟨⟨pending, .closed expr, []⟩, ?_, expr, rfl, fun _ _ => rfl⟩
  have hclose : state.closeGroup = some ⟨pending, .closed expr, []⟩ := by
    simp [closeGroup, hlast, hsettle 0 (Nat.zero_le _), settle_of_loose (loose_group 0 pending)]
  rw [run_cons, step_open]
  simp [openGroup, run_append, hstate, run_cons, hclose]

theorem reads_charsAt {expr : Expr} (h : expr.Operation) (strength : Nat) :
    Reads strength expr (expr.charsAt strength) := by
  induction h generalizing strength with
  | name hword => exact reads_variable strength hword
  | @apply token op left right hop _ _ ihleft ihright =>
    have hbare := reads_bareChars hop (ihleft _) (ihright _)
    rw [Expr.charsAt_binary]
    split
    · exact reads_group strength hbare
    · next hstrong =>
      intro pending hloose
      obtain ⟨state, hstate, hoffers⟩ := hbare pending (hloose.mono (by omega))
      exact ⟨state, hstate, hoffers.mono (by omega)⟩

theorem read_render {expr : Expr} (h : expr.Operation) : read expr.render = some expr := by
  obtain ⟨state, hstate, last, hlast, hsettle⟩ := reads_charsAt h 0 [] (by simp [Loose])
  have hfinish : state.finish = some expr := by
    simp [finish, hlast, hsettle 0 (Nat.le_refl 0), settle]
  unfold read start
  rw [Expr.toList_render, hstate]
  exact hfinish

end Reading
end Archflow
