import Asm6502.Proofs.Selection

/-!
# Open blocks

The stack of conditional blocks keeps no conditions: for each open block it keeps whether statements
were assembled around the block, and for the innermost one whether they are assembled now. What it
stands for is the list of open blocks themselves, each with its condition and the branch that is
selected (`Block`). Opening, turning and closing blocks does to the stack what it does to the list
(`act_ofBlocks`), stray actions included, so the stack is at all times the one of the open blocks
(`run_eq_ofBlocks`). Hence statements are assembled if and only if the selected branch of every open
block holds, and a block inside a disabled one stays disabled however often it is turned
(`enabled_iff_holds`).

Actions that turn and close only blocks of their own, and close all of them, are `Nested`; they lead
back to the stack they start from (`foldl_act_of_nested`).
-/

namespace Asm6502

namespace Conditions

/-! ### Actions -/

/-- What can be done to the open blocks. -/
inductive Action where
  /-- Open a block with a condition. -/
  | enter (condition : Bool)
  /-- Turn to the other branch of the innermost block. -/
  | flip
  /-- Close the innermost block. -/
  | leave
  deriving DecidableEq, Repr

/-- The stack after an action. -/
def act (conditions : Conditions) : Action → Conditions
  | .enter condition => conditions.enter condition
  | .flip => conditions.flip
  | .leave => conditions.leave

/-- The stack after actions, with no block open before them. -/
def run (actions : List Action) : Conditions := actions.foldl act {}

/-- An open block. -/
structure Block where
  /-- The condition of its first branch. -/
  condition : Bool
  /-- Its other branch is selected. -/
  otherwise : Bool := false
  deriving DecidableEq, Repr

/-- The selected branch of a block holds: the first one if the condition does, the other one if it
does not. -/
def Block.holds (block : Block) : Bool :=
  if block.otherwise then !block.condition else block.condition

/-- The open blocks after an action, the innermost first. -/
def Action.change : Action → List Block → List Block
  | .enter condition, blocks => ⟨condition, false⟩ :: blocks
  | .flip, block :: blocks => { block with otherwise := !block.otherwise } :: blocks
  | .leave, _ :: blocks => blocks
  | .flip, [] | .leave, [] => []

/-- The open blocks after actions, with no block open before them. -/
def openBlocks (actions : List Action) : List Block :=
  actions.foldl (fun blocks action => action.change blocks) []

/-- The actions turn and close only blocks that they open themselves, and close all of them. Those
`inside` a block can also turn that block. -/
inductive Nested : (inside : Bool) → List Action → Prop where
  /-- Nothing is done. -/
  | nil {inside : Bool} : Nested inside []
  /-- The block around is turned. -/
  | flip {actions : List Action} : Nested true actions → Nested true (.flip :: actions)
  /-- A block is opened and closed. -/
  | block {inside condition : Bool} {body actions : List Action} :
    Nested true body → Nested inside actions →
      Nested inside (.enter condition :: (body ++ .leave :: actions))

/-! ### The stack of a list of blocks -/

/-- For each block, whether the selected branches of all blocks around it hold. -/
def parentsOf : List Block → List Bool
  | [] => []
  | _ :: outer => outer.all Block.holds :: parentsOf outer

/-- The stack that stands for a list of blocks. -/
def ofBlocks (blocks : List Block) : Conditions := ⟨blocks.all Block.holds, parentsOf blocks⟩

/-- Turning a block negates it. -/
theorem Block.holds_turned (block : Block) :
    { block with otherwise := !block.otherwise }.holds = !block.holds := by
  simp only [Block.holds]
  cases block.otherwise <;> simp

/-- **One action** does to the stack what it does to the blocks. -/
theorem act_ofBlocks (blocks : List Block) (action : Action) :
    (ofBlocks blocks).act action = ofBlocks (action.change blocks) := by
  cases action with
  | enter condition =>
    simp only [act, enter, ofBlocks, Action.change, parentsOf, List.all_cons, Block.holds,
      Bool.false_eq_true, if_false, Bool.and_comm]
  | flip =>
    cases blocks with
    | nil => rfl
    | cons block outer =>
      -- in a disabled block both branches are disabled
      simp only [act, flip, ofBlocks, Action.change, parentsOf, List.all_cons, Block.holds_turned]
      cases outer.all Block.holds <;> simp
  | leave =>
    cases blocks with
    | nil => rfl
    | cons block outer => rfl

/-- **The stack is that of the open blocks**, whatever was done. -/
theorem run_eq_ofBlocks (actions : List Action) : run actions = ofBlocks (openBlocks actions) := by
  have from_blocks (blocks : List Block) :
      actions.foldl act (ofBlocks blocks) =
        ofBlocks (actions.foldl (fun blocks action => action.change blocks) blocks) := by
    induction actions generalizing blocks with
    | nil => rfl
    | cons action actions ih => rw [List.foldl_cons, act_ofBlocks, ih, List.foldl_cons]
  exact from_blocks []

theorem enabled_iff_holds (actions : List Action) :
    (run actions).enabled = true ↔ ∀ block ∈ openBlocks actions, block.holds = true := by
  rw [run_eq_ofBlocks]
  exact List.all_eq_true

/-! ### Parents -/

theorem depth_ofBlocks (blocks : List Block) : (ofBlocks blocks).depth = blocks.length := by
  show (parentsOf blocks).length = blocks.length
  induction blocks with
  | nil => rfl
  | cons block outer ih => rw [parentsOf, List.length_cons, ih, List.length_cons]

/-- Where all blocks hold, those around each of them do. -/
theorem eq_true_of_mem_parentsOf {blocks : List Block} (all : blocks.all Block.holds = true)
    {parent : Bool} (mem : parent ∈ parentsOf blocks) : parent = true := by
  induction blocks with
  | nil => cases mem
  | cons block outer ih =>
    rw [List.all_cons, Bool.and_eq_true] at all
    rcases List.mem_cons.mp mem with rfl | older
    · exact all.2
    · exact ih all.2 older

theorem pairwise_parentsOf (blocks : List Block) :
    (parentsOf blocks).Pairwise fun newer older => newer = true → older = true := by
  induction blocks with
  | nil => exact .nil
  | cons block outer ih =>
    exact .cons (fun older mem all => eq_true_of_mem_parentsOf all mem) ih

/-! ### Nested actions -/

/-- Nested actions leave everything around the innermost block, and outside of blocks everything. -/
theorem foldl_act_of_nested {inside : Bool} {actions : List Action} (nested : Nested inside actions)
    (conditions : Conditions) :
    (actions.foldl act conditions).parents = conditions.parents ∧
      (inside = false → actions.foldl act conditions = conditions) := by
  induction nested generalizing conditions with
  | nil => exact ⟨rfl, fun _ => rfl⟩
  | flip nested ih =>
    have same : conditions.flip.parents = conditions.parents := by
      unfold flip
      split <;> rfl
    exact ⟨(ih conditions.flip).1.trans same, fun outside => by cases outside⟩
  | @block inside condition body actions inner rest ihBody ihRest =>
    -- closing looks at the parents only, and the body has left them
    have closed : (body.foldl act (conditions.enter condition)).leave = conditions := by
      have parents := (ihBody (conditions.enter condition)).1
      unfold leave
      rw [parents]
      rfl
    have whole : (Action.enter condition :: (body ++ .leave :: actions)).foldl act conditions =
        actions.foldl act conditions := by
      rw [List.foldl_cons, List.foldl_append, List.foldl_cons]
      exact congrArg (actions.foldl act) closed
    rw [whole]
    exact ihRest conditions

end Conditions

namespace Assembly

open Conditions (Action openBlocks Nested)

/-! ### The blocks of a program -/

/-- What a statement does to the open blocks. -/
def State.action? (state : State) (statement : Statement) : Option Action :=
  match statement.role with
  | .opens test operand => some (.enter (state.verdict test operand))
  | .turns => some .flip
  | .closes => some .leave
  | .plain => none

/-- What the statements before index `i` do to the open blocks in a pass. -/
def actionsBefore (options : Options) (statements : List Statement) (pass : Pass) (i : Nat) :
    List Action :=
  (List.range i).filterMap fun j => statements[j]?.bind (before options statements pass j).action?

variable {options : Options} {statements : List Statement} {pass : Pass} {i : Nat}

theorem actionsBefore_succ :
    actionsBefore options statements pass (i + 1) =
      actionsBefore options statements pass i ++
        (statements[i]?.bind (before options statements pass i).action?).toList := by
  rw [actionsBefore, List.range_succ, List.filterMap_append, ← actionsBefore, List.filterMap_cons,
    List.filterMap_nil]
  cases statements[i]?.bind (before options statements pass i).action? <;> rfl

theorem conditions_visit {statement : Statement} :
    (visit options statements pass i statement).1.conditions =
      ((before options statements pass i).action? statement).toList.foldl Conditions.act
        (before options statements pass i).conditions := by
  rw [visit, conditions_step, State.action?]
  cases statement.role <;> rfl

/-- The stack before a statement is that of the actions of the statements before it. -/
theorem conditions_before :
    (before options statements pass i).conditions =
      Conditions.run (actionsBefore options statements pass i) := by
  induction i with
  | zero =>
    rw [before_zero]
    cases pass <;> rfl
  | succ i ih =>
    rw [actionsBefore_succ, Conditions.run, List.foldl_append, ← Conditions.run, ← ih]
    cases found : statements[i]? with
    | some statement => rw [before_succ found, conditions_visit, Option.bind_some]
    | none =>
      have past : statements.length ≤ i := List.getElem?_eq_none_iff.mp found
      rw [before_of_length_le past, before_of_length_le (Nat.le_succ_of_le past)]
      rfl

/-- **The stack of conditional blocks**, after any actions, stray ones included: it is enabled if no
block is open; it is enabled only if all its parents are, and a parent is enabled only if all older
ones are; it is enabled exactly if the selected branch of every open block holds, so that a program
assembles the plain statements at which this is the case; and nested actions after the others leave
it as it was. -/
theorem openBlocks_decide (actions : List Action) (options : Options) (statements : List Statement)
    (pass : Pass) (i : Nat) (statement : Statement) :
    let conditions := Conditions.run actions
    (conditions.depth = 0 → conditions.enabled = true) ∧
      (conditions.enabled = true → ∀ parent ∈ conditions.parents, parent = true) ∧
      conditions.parents.Pairwise (fun newer older => newer = true → older = true) ∧
      (conditions.enabled = true ↔ ∀ block ∈ openBlocks actions, block.holds = true) ∧
      ((before options statements pass i).Assembles statement ↔
        statement.role = .plain ∧
          ∀ block ∈ openBlocks (actionsBefore options statements pass i), block.holds = true) ∧
      ∀ further, Nested false further → Conditions.run (actions ++ further) = conditions := by
  intro conditions
  have stands : conditions = .ofBlocks (openBlocks actions) := Conditions.run_eq_ofBlocks actions
  refine ⟨?_, ?_, ?_, Conditions.enabled_iff_holds actions, ?_, ?_⟩
  · intro empty
    rw [stands, Conditions.depth_ofBlocks] at empty
    rw [stands, List.eq_nil_of_length_eq_zero empty]
    rfl
  · intro enabled parent mem
    rw [stands] at enabled mem
    exact Conditions.eq_true_of_mem_parentsOf enabled mem
  · rw [stands]
    exact Conditions.pairwise_parentsOf _
  · rw [State.Assembles, conditions_before, Conditions.enabled_iff_holds]
  · intro further nested
    rw [Conditions.run, List.foldl_append]
    exact (Conditions.foldl_act_of_nested nested conditions).2 rfl

/-- After a stray close and turn, in the other branch of a block whose condition fails, an inner
block that is turned twice and closed leaves the stack as it was; turned once, it is disabled. -/
theorem openBlocks_decide_turnedTwice :
    let actions : List Action := [.leave, .flip, .enter false, .flip]
    let inner : List Action := [.enter true, .flip, .flip, .leave]
    Nested false inner ∧ (Conditions.run actions).enabled = true ∧
      (∀ parent ∈ (Conditions.run actions).parents, parent = true) ∧
      Conditions.run (actions ++ inner) = Conditions.run actions ∧
      Conditions.run (actions ++ inner.take 2) = ⟨false, [true, true]⟩ := by
  intro actions inner
  have nested : Nested false inner := .block (.flip (.flip .nil)) .nil
  obtain ⟨-, outer, -, -, -, back⟩ :=
    openBlocks_decide actions {} [] .one 0 { position := ⟨1, 1⟩ }
  exact ⟨nested, rfl, outer rfl, back inner nested, rfl⟩

end Assembly

end Asm6502
