import FormulaScript.Proofs.Checked.Basic
import FormulaScript.Proofs.Layout.Rules

/-!
# Checked counting of delimiters

The counters of layout in signed words. A token moves each of them by one at most, so they stay as
close to zero as the tokens are many.
-/

namespace FormulaScript

namespace Layout

open Checked

namespace Nesting

def deepenChecked : Nesting → Except Fault Nesting
  | ⟨[]⟩ => .ok ⟨[]⟩
  | ⟨count :: outer⟩ => do
      let count ← int32 (count + 1)
      .ok ⟨count :: outer⟩

def closeChecked : Nesting → Except Fault (Option Int × Nesting)
  | ⟨[]⟩ => .ok (none, ⟨[]⟩)
  | ⟨count :: outer⟩ => do
      let count ← int32 (count - 1)
      .ok (some count, if count = 0 then ⟨outer⟩ else ⟨count :: outer⟩)

/-- Every count is as close to zero as that. -/
def Within (nesting : Nesting) (limit : Nat) : Prop :=
  ∀ count ∈ nesting.counts, count.natAbs ≤ limit

variable {nesting : Nesting} {limit : Nat}

theorem Within.mono (hwithin : nesting.Within limit) {bound : Nat} (hle : limit ≤ bound) :
    nesting.Within bound :=
  fun count hcount => Nat.le_trans (hwithin count hcount) hle

theorem Within.enter (hwithin : nesting.Within limit) {count : Int}
    (hcount : count.natAbs ≤ limit) : (nesting.enter count).Within limit :=
  List.forall_mem_cons.mpr ⟨hcount, hwithin⟩

theorem Within.deepen (hwithin : nesting.Within limit) : nesting.deepen.Within (limit + 1) := by
  obtain ⟨counts⟩ := nesting
  cases counts with
  | nil => exact hwithin.mono (Nat.le_succ limit)
  | cons count outer =>
      obtain ⟨hcount, houter⟩ := List.forall_mem_cons.mp hwithin
      exact List.forall_mem_cons.mpr ⟨by omega, fun other hother =>
        Nat.le_succ_of_le (houter other hother)⟩

theorem Within.close (hwithin : nesting.Within limit) : nesting.close.2.Within (limit + 1) := by
  obtain ⟨counts⟩ := nesting
  cases counts with
  | nil => exact hwithin.mono (Nat.le_succ limit)
  | cons count outer =>
      obtain ⟨hcount, houter⟩ := List.forall_mem_cons.mp hwithin
      have houter' : Within ⟨outer⟩ (limit + 1) := fun other hother =>
        Nat.le_succ_of_le (houter other hother)
      rw [Nesting.close]
      split_ifs
      · exact houter'
      · exact List.forall_mem_cons.mpr ⟨by omega, houter'⟩

theorem Within.countBrace (hwithin : nesting.Within limit) {bound : Nat} (hle : limit ≤ bound)
    {kind : Token.Kind} (hmark : ∀ mark, kind = .punctuation mark → limit + 1 ≤ bound) :
    (nesting.countBrace kind).Within bound := by
  rw [Nesting.countBrace]
  split_ifs with hfunction hopen hclose
  · exact (hwithin.mono hle).enter (Nat.zero_le _)
  · exact hwithin.deepen.mono (hmark _ hopen)
  · exact hwithin.close.mono (hmark _ hclose)
  · exact hwithin.mono hle

theorem Within.countBracket (hwithin : nesting.Within limit) (rule? : Option Rule) {bound : Nat}
    (hle : limit ≤ bound) {kind : Token.Kind}
    (hmark : ∀ mark, kind = .punctuation mark → limit + 1 ≤ bound) :
    (nesting.countBracket rule? kind).Within bound := by
  rw [Nesting.countBracket]
  split_ifs with hopen hindex hclose
  · have hone := hmark _ hopen
    exact (hwithin.mono hle).enter (Nat.le_trans (Nat.le_add_left 1 limit) hone)
  · exact hwithin.deepen.mono (hmark _ hopen)
  · exact hwithin.close.mono (hmark _ hclose.1)
  · exact hwithin.mono hle

theorem deepenChecked_eq_ok (hwithin : nesting.Within limit) (hlimit : limit + 1 < 2 ^ 31) :
    nesting.deepenChecked = .ok nesting.deepen := by
  obtain ⟨counts⟩ := nesting
  cases counts with
  | nil => rfl
  | cons count outer =>
      have hcount : count.natAbs ≤ limit := hwithin count List.mem_cons_self
      exact bind_ok (int32_eq_ok (by omega) (by omega)) _

theorem closeChecked_eq_ok (hwithin : nesting.Within limit) (hlimit : limit + 1 < 2 ^ 31) :
    nesting.closeChecked = .ok nesting.close := by
  obtain ⟨counts⟩ := nesting
  cases counts with
  | nil => rfl
  | cons count outer =>
      have hcount : count.natAbs ≤ limit := hwithin count List.mem_cons_self
      exact bind_ok (int32_eq_ok (by omega) (by omega)) _

example : closeChecked ⟨[-2 ^ 31]⟩ = .error (.overflow (-2 ^ 31 - 1)) := rfl

end Nesting

namespace State

def trackChecked (state : State) (kind : Token.Kind) : Except Fault State :=
  match kind with
  | .keyword .functionWord => .ok { state with functions := state.functions.enter 0 }
  | .punctuation .openBrace => do
      let functions ← state.functions.deepenChecked
      .ok { state with functions := functions }
  | .punctuation .openParen =>
      if state.inArrow then do
        let parens ← int32 (state.arrowParens + 1)
        .ok { state with arrowParens := parens }
      else .ok state
  | _ => .ok state

def closeFunctionChecked (state : State) (kind : Token.Kind) : Except Fault (Bool × State) :=
  if kind = .punctuation .closeBrace then do
    let (count, functions) ← state.functions.closeChecked
    .ok (count == some 0, { state with functions := functions })
  else .ok (false, state)

def closeArrowChecked (state : State) (kind : Token.Kind) : Except Fault (Bool × State) :=
  if state.inArrow ∧ kind = .punctuation .closeParen then do
    let parens ← int32 (state.arrowParens - 1)
    .ok (parens == 0, { state with arrowParens := parens, inArrow := parens != 0 })
  else .ok (false, state)

def closeIndexChecked (state : State) (kind : Token.Kind) : Except Fault (Bool × State) :=
  if kind = .punctuation .closeBracket then do
    let (count, indices) ← state.indices.closeChecked
    .ok (count == some 0, { state with indices := indices })
  else .ok (false, state)

def insertAtIndexChecked (state : State) (kind : Token.Kind) :
    Except Fault (Option Insertion × State) :=
  if kind = .punctuation .openBracket ∧ state.last = .identifier then
    .ok (some (.after (.punctuation .openParen)), { state with indices := state.indices.enter 1 })
  else do
    let (ends, state) ← state.closeIndexChecked kind
    .ok (if ends then some (.before (.punctuation .closeParen)) else none, state)

def insertAtArrowChecked (state : State) (kind : Token.Kind) :
    Except Fault (Option Insertion × State) :=
  if state.last = .punctuation .equalsGreaterThan ∧ kind ≠ .punctuation .openBrace then
    .ok (some (.before (.punctuation .openBrace)), state.openArrow kind)
  else do
    let (ends, state) ← state.closeArrowChecked kind
    if ends then .ok (some (.before (.punctuation .closeBrace)), state)
    else state.insertAtIndexChecked kind

def insertChecked (state : State) (kind : Token.Kind) (lineCrossed : Bool) :
    Except Fault (Option Insertion × State) :=
  if state.separates kind lineCrossed then .ok (some (.before (.punctuation .semicolon)), state)
  else if kind = .keyword .exportWord ∧ state.last ≠ .punctuation .semicolon then
    .ok (some (.before (.punctuation .semicolon)), state)
  else do
    let (ends, state) ← state.closeFunctionChecked kind
    if ends then .ok (some (.after (.punctuation .semicolon)), state)
    else state.insertAtArrowChecked kind

def nestBracketChecked (state : State) (kind : Token.Kind) (insertion : Option Insertion) :
    Except Fault State :=
  match insertion with
  | some (.after _) => .ok state
  | _ =>
      if kind = .punctuation .openBracket then do
        let indices ← state.indices.deepenChecked
        .ok { state with indices := indices }
      else .ok state

def placeChecked (state : State) (kind : Token.Kind) (lineCrossed : Bool) :
    Except Fault (Option Insertion × State) :=
  if kind = .punctuation .semicolon ∨ kind = .endOfText then .ok (none, state)
  else do
    let tracked ← state.trackChecked kind
    let (insertion, inserted) ← tracked.insertChecked kind lineCrossed
    let nested ← inserted.nestBracketChecked kind insertion
    .ok (insertion, nested)

/-- Every counter is as close to zero as that. -/
structure Within (state : State) (limit : Nat) : Prop where
  functions : state.functions.Within limit
  indices : state.indices.Within limit
  arrowParens : state.arrowParens.natAbs ≤ limit

variable {state : State} {kind : Token.Kind} {limit : Nat}

theorem within_empty : Within {} 0 :=
  ⟨fun _ hcount => (List.not_mem_nil hcount).elim, fun _ hcount => (List.not_mem_nil hcount).elim,
    Nat.le_refl 0⟩

theorem Within.mono (hwithin : state.Within limit) {bound : Nat} (hle : limit ≤ bound) :
    state.Within bound :=
  ⟨hwithin.functions.mono hle, hwithin.indices.mono hle, Nat.le_trans hwithin.arrowParens hle⟩

theorem Within.emit (hwithin : state.Within limit) (kind : Token.Kind) :
    (state.emit kind).Within limit :=
  ⟨hwithin.functions, hwithin.indices, hwithin.arrowParens⟩

theorem natAbs_countParen_le (hparens : state.arrowParens.natAbs ≤ limit) {bound : Nat}
    (hle : limit ≤ bound) (hmark : ∀ mark, kind = .punctuation mark → limit + 1 ≤ bound)
    {rule? : Option Rule} (harrow : rule? = some .arrowOpen → 1 ≤ limit) :
    (state.countParen rule? kind).natAbs ≤ bound := by
  rw [countParen]
  split_ifs with hbody hopen hopen' hclose
  · have hone := harrow hbody
    have hnext := hmark _ hopen
    omega
  · have hone := harrow hbody
    omega
  · have hnext := hmark _ hopen'.2
    omega
  · have hnext := hmark _ hclose.2
    omega
  · omega

/-- A mark moves each counter by one at most. Only the parentheses of an arrow body may begin with
two, when the arrow was a mark as well. -/
theorem Within.count (hwithin : state.Within limit) {bound : Nat} (hle : limit ≤ bound)
    (hmark : ∀ mark, kind = .punctuation mark → limit + 1 ≤ bound) {rule? : Option Rule}
    (harrow : rule? = some .arrowOpen → 1 ≤ limit) : (state.count rule? kind).Within bound :=
  ⟨hwithin.functions.countBrace hle hmark, hwithin.indices.countBracket rule? hle hmark,
    natAbs_countParen_le hwithin.arrowParens hle hmark harrow⟩

/-- At a bracket that opens no index, the indices are not touched before it is nested. -/
theorem indices_insert_openBracket (state : State) (lineCrossed : Bool) :
    (∃ mark, (state.insert (.punctuation .openBracket) lineCrossed).1 = some (.after mark)) ∨
      (state.insert (.punctuation .openBracket) lineCrossed).2.indices = state.indices := by
  have hfunction : state.closeFunction (.punctuation .openBracket) = (false, state) :=
    if_neg (by simp)
  have harrow : state.closeArrow (.punctuation .openBracket) = (false, state) := if_neg (by simp)
  have hindex : state.closeIndex (.punctuation .openBracket) = (false, state) := if_neg (by simp)
  simp only [insert, hfunction, insertAtArrow, harrow, insertAtIndex, hindex, Bool.false_eq_true,
    if_false]
  split_ifs
  all_goals first | exact .inl ⟨_, rfl⟩ | exact .inr rfl

/-! ### No faults -/

section

variable (hlimit : limit + 1 < 2 ^ 31)
include hlimit

theorem trackChecked_eq_ok (hwithin : state.Within limit) (kind : Token.Kind) :
    state.trackChecked kind = .ok (state.track kind) := by
  have hparens := hwithin.arrowParens
  fun_cases track state kind with
  | case1 => rfl
  | case2 => exact bind_ok (Nesting.deepenChecked_eq_ok hwithin.functions hlimit) _
  | case3 hinside =>
      rw [trackChecked, if_pos hinside]
      exact bind_ok (int32_eq_ok (by omega) (by omega)) _
  | case4 houtside => rw [trackChecked, if_neg houtside]
  | case5 =>
      unfold trackChecked
      split <;> simp_all

theorem closeFunctionChecked_eq_ok
    (hfunctions : kind = .punctuation .closeBrace → state.functions.Within limit) :
    state.closeFunctionChecked kind = .ok (state.closeFunction kind) := by
  rw [closeFunctionChecked, closeFunction]
  split_ifs with hkind
  · rw [bind_ok (Nesting.closeChecked_eq_ok (hfunctions hkind) hlimit)]
  · rfl

theorem closeArrowChecked_eq_ok
    (hparens : kind = .punctuation .closeParen → state.arrowParens.natAbs ≤ limit) :
    state.closeArrowChecked kind = .ok (state.closeArrow kind) := by
  rw [closeArrowChecked, closeArrow]
  split_ifs with hkind
  · have hle := hparens hkind.2
    rw [bind_ok (int32_eq_ok (by omega) (by omega))]
  · rfl

theorem closeIndexChecked_eq_ok
    (hindices : kind = .punctuation .closeBracket → state.indices.Within limit) :
    state.closeIndexChecked kind = .ok (state.closeIndex kind) := by
  rw [closeIndexChecked, closeIndex]
  split_ifs with hkind
  · rw [bind_ok (Nesting.closeChecked_eq_ok (hindices hkind) hlimit)]
  · rfl

theorem insertAtIndexChecked_eq_ok
    (hindices : kind = .punctuation .closeBracket → state.indices.Within limit) :
    state.insertAtIndexChecked kind = .ok (state.insertAtIndex kind) := by
  rw [insertAtIndexChecked, insertAtIndex]
  split_ifs with hkind
  · rfl
  · rw [bind_ok (closeIndexChecked_eq_ok hlimit hindices)]

theorem insertAtArrowChecked_eq_ok
    (hparens : kind = .punctuation .closeParen → state.arrowParens.natAbs ≤ limit)
    (hindices : kind = .punctuation .closeBracket → state.indices.Within limit) :
    state.insertAtArrowChecked kind = .ok (state.insertAtArrow kind) := by
  have hclosed : (state.closeArrow kind).2.indices = state.indices := by
    rw [closeArrow]
    split_ifs <;> rfl
  rw [← hclosed] at hindices
  rw [insertAtArrowChecked, insertAtArrow]
  split_ifs with harrow
  · rfl
  · rw [bind_ok (closeArrowChecked_eq_ok hlimit hparens)]
    dsimp only
    split_ifs
    · rfl
    · exact insertAtIndexChecked_eq_ok hlimit hindices

/-- What an insertion counts are closing marks only. -/
theorem insertChecked_eq_ok
    (hfunctions : kind = .punctuation .closeBrace → state.functions.Within limit)
    (hparens : kind = .punctuation .closeParen → state.arrowParens.natAbs ≤ limit)
    (hindices : kind = .punctuation .closeBracket → state.indices.Within limit)
    (lineCrossed : Bool) :
    state.insertChecked kind lineCrossed = .ok (state.insert kind lineCrossed) := by
  have hclosed : (state.closeFunction kind).2.arrowParens = state.arrowParens ∧
      (state.closeFunction kind).2.indices = state.indices := by
    rw [closeFunction]
    split_ifs <;> exact ⟨rfl, rfl⟩
  rw [← hclosed.1] at hparens
  rw [← hclosed.2] at hindices
  rw [insertChecked, insert]
  split_ifs with hseparates hexport
  · rfl
  · rfl
  · rw [bind_ok (closeFunctionChecked_eq_ok hlimit hfunctions)]
    dsimp only
    split_ifs
    · rfl
    · exact insertAtArrowChecked_eq_ok hlimit hparens hindices

theorem nestBracketChecked_eq_ok {insertion : Option Insertion}
    (hindices : kind = .punctuation .openBracket → (∀ mark, insertion ≠ some (.after mark)) →
      state.indices.Within limit) :
    state.nestBracketChecked kind insertion = .ok (state.nestBracket kind insertion) := by
  have hnest (hinsertion : ∀ mark, insertion ≠ some (.after mark)) :
      (if kind = .punctuation .openBracket then do
        let indices ← state.indices.deepenChecked
        .ok { state with indices := indices }
      else .ok state : Except Fault State) =
        .ok (if kind = .punctuation .openBracket then
          { state with indices := state.indices.deepen } else state) := by
    split_ifs with hkind
    · exact bind_ok (Nesting.deepenChecked_eq_ok (hindices hkind hinsertion) hlimit) _
    · rfl
  rcases insertion with _ | mark | mark
  · exact hnest fun _ hafter => by cases hafter
  · exact hnest fun _ hafter => by cases hafter
  · rfl

theorem placeChecked_eq_ok (hwithin : state.Within limit) (kind : Token.Kind) (lineCrossed : Bool) :
    state.placeChecked kind lineCrossed = .ok (state.place kind lineCrossed) := by
  rw [placeChecked, place]
  split_ifs with hkind
  · rfl
  · rw [bind_ok (trackChecked_eq_ok hlimit hwithin kind)]
    have hfunctions (hclose : kind = .punctuation .closeBrace) :
        (state.track kind).functions.Within limit := by
      rw [hclose]
      exact hwithin.functions
    have hparens (hclose : kind = .punctuation .closeParen) :
        (state.track kind).arrowParens.natAbs ≤ limit := by
      rw [hclose]
      exact hwithin.arrowParens
    have hindices (hclose : kind = .punctuation .closeBracket) :
        (state.track kind).indices.Within limit := by
      rw [hclose]
      exact hwithin.indices
    rw [bind_ok (insertChecked_eq_ok hlimit hfunctions hparens hindices lineCrossed)]
    dsimp only
    rw [bind_ok (nestBracketChecked_eq_ok hlimit fun hopen hinsertion => ?_)]
    subst hopen
    have hinsert := indices_insert_openBracket (state.track (.punctuation .openBracket)) lineCrossed
    rcases hinsert with ⟨mark, hafter⟩ | hsame
    · exact absurd hafter (hinsertion mark)
    · rw [hsame]
      exact hwithin.indices

end

end State

end Layout

end FormulaScript
