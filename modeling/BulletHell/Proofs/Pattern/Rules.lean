import BulletHell.Proofs.Pattern.Block
import Mathlib.Data.List.Infix

/-!
# The rules of the strict check

The rules for loops can be said without a stack. They count loop starts and loop ends in the
beginnings of a list, and look at two neighbours at a time: loops have turns, no loop start stands
directly behind another one, no beginning has more ends than starts, nor too many starts more than
ends. All these are broken at a place, if they are broken. The last rule is about the list as a
whole, which may leave one loop open.

What is wrong with a list that breaks the rules can be said in the same way. There is a first place
where a rule is broken; and where there is none, there is a first loop that is never closed.

## Main definitions

* `Program.balance`, `Program.balanceAt` — loop starts less loop ends
* `Program.Sound` — the rules
* `Program.BrokenAt`, `Program.Culprit` — a place where a rule is broken, and what is blamed there
* `Program.NeverClosed` — a loop that no loop end closes
* `Program.Blames` — what is wrong with a list as a whole

## Main results

* `Program.sound_iff` — the rules are kept if none is broken at any place
* `Program.neverClosed_iff` — a loop is never closed if it is open up to the end
* `Program.Blames.unique`, `Program.Sound.not_blames` — one thing is wrong at most, and nothing with
  a list that keeps the rules
-/

namespace BulletHell

namespace Instruction

/-- Does a loop end here? -/
def isRepeatEnd : Instruction → Bool
  | repeatEnd => true
  | _ => false

/-- How many more loops are open behind an instruction than in front of it. -/
def weight : Instruction → Int
  | repeatStart _ => 1
  | repeatEnd => -1
  | _ => 0

theorem weight_of_not_bracket {i : Instruction} (h : i.isBracket = false) : i.weight = 0 := by
  cases i <;> first | rfl | cases h

end Instruction

namespace Program

variable {limit : Nat} {ops : List Instruction}

/-! ### Counting brackets -/

/-- Loop starts less loop ends. -/
def balance (ops : List Instruction) : Int :=
  ops.countP (·.isRepeatStart) - ops.countP (·.isRepeatEnd)

/-- The balance of what stands in front of a place. -/
def balanceAt (ops : List Instruction) (place : Nat) : Int :=
  balance (ops.take place)

theorem balance_concat (ops : List Instruction) (op : Instruction) :
    balance (ops ++ [op]) = balance ops + op.weight := by
  rw [balance, balance, List.countP_append, List.countP_append]
  cases op <;> simp [Instruction.isRepeatStart, Instruction.isRepeatEnd, Instruction.weight] <;>
    omega

@[simp] theorem balanceAt_zero (ops : List Instruction) : balanceAt ops 0 = 0 := by
  simp [balanceAt, balance]

@[simp] theorem balanceAt_length (ops : List Instruction) :
    balanceAt ops ops.length = balance ops := by
  rw [balanceAt, List.take_length]

theorem balanceAt_succ {place : Nat} {op : Instruction} (h : ops[place]? = some op) :
    balanceAt ops (place + 1) = balanceAt ops place + op.weight := by
  rw [balanceAt, List.take_add_one, h, Option.toList_some, balance_concat]
  rfl

/-- From one place to the next the balance changes by one at most. -/
theorem balanceAt_le_succ {place : Nat} (h : place < ops.length) :
    balanceAt ops place ≤ balanceAt ops (place + 1) + 1 := by
  have hweight : -1 ≤ ops[place].weight := by
    cases ops[place] <;> simp [Instruction.weight]
  rw [balanceAt_succ (List.getElem?_eq_getElem h)]
  omega

/-! ### The rules -/

/-- **The rules of the strict check**: loops have turns, no loop start stands directly behind
another one, no beginning of the list has more ends than starts, nor too many starts more than ends,
and the list as a whole leaves one loop open at most. -/
structure Sound (limit : Nat) (ops : List Instruction) : Prop where
  turns : ∀ times, .repeatStart times ∈ ops → times ≠ 0
  apart : ∀ times times', ¬ [.repeatStart times, .repeatStart times'] <:+: ops
  matched : ∀ front, front <+: ops →
    front.countP (·.isRepeatEnd) ≤ front.countP (·.isRepeatStart)
  shallow : ∀ front, front <+: ops → balance front ≤ limit
  closed : balance ops ≤ 1

/-- A loop starts at a place. -/
def OpensAt (ops : List Instruction) (place : Nat) : Prop :=
  ∃ times, ops[place]? = some (.repeatStart times)

/-- A loop without turns starts at a place. -/
def ZeroAt (ops : List Instruction) (place : Nat) : Prop :=
  ops[place]? = some (.repeatStart 0)

/-- A loop start directly follows another one. -/
def AdjacentAt (ops : List Instruction) (place : Nat) : Prop :=
  OpensAt ops place ∧ ∃ before, place = before + 1 ∧ OpensAt ops before

/-- Up to and including a place there are more ends than starts. -/
def UnmatchedAt (ops : List Instruction) (place : Nat) : Prop :=
  place < ops.length ∧ balanceAt ops (place + 1) < 0

/-- Up to and including a place there are too many starts more than ends. -/
def TooDeepAt (limit : Nat) (ops : List Instruction) (place : Nat) : Prop :=
  place < ops.length ∧ (limit : Int) < balanceAt ops (place + 1)

/-- One of the first four rules is broken at a place. -/
def BrokenAt (limit : Nat) (ops : List Instruction) (place : Nat) : Prop :=
  ZeroAt ops place ∨ AdjacentAt ops place ∨ UnmatchedAt ops place ∨ TooDeepAt limit ops place

/-- What is blamed at a place where a rule is broken. A start without turns comes first, then one
that follows another one, then one that nests too deep. -/
inductive Culprit (limit : Nat) (ops : List Instruction) (place : Nat) : ProgramError → Prop where
  | zero (h : ZeroAt ops place) : Culprit limit ops place (.zeroRepeat place)
  | adjacent (hturns : ¬ ZeroAt ops place) (h : AdjacentAt ops place) :
      Culprit limit ops place (.adjacentRepeatStart place)
  | deep {depth : Nat} (hturns : ¬ ZeroAt ops place) (hapart : ¬ AdjacentAt ops place)
      (h : TooDeepAt limit ops place) (hdepth : (depth : Int) = balanceAt ops (place + 1)) :
      Culprit limit ops place (.repeatTooDeep place depth limit)
  | unmatched (hend : ops[place]? = some .repeatEnd) (h : UnmatchedAt ops place) :
      Culprit limit ops place (.unmatchedRepeatEnd place)

/-- What stands at one place ends the loop that starts at another: behind it there are, for the
first time, as many loops open as in front of the start. -/
def ClosesAt (ops : List Instruction) (start stop : Nat) : Prop :=
  start < stop ∧ balanceAt ops (stop + 1) = balanceAt ops start ∧
    ∀ place, start < place → place ≤ stop → balanceAt ops start < balanceAt ops place

/-- A loop starts at a place, and nothing in the list ends it. -/
def NeverClosed (ops : List Instruction) (start : Nat) : Prop :=
  OpensAt ops start ∧ ∀ stop < ops.length, ¬ ClosesAt ops start stop

/-- **What is wrong with a list**: what is blamed at the first place where a rule is broken; and if
there is none, but more than one loop is left open, the first of the loops that are never closed. -/
inductive Blames (limit : Nat) (ops : List Instruction) : ProgramError → Prop where
  | first {place : Nat} {error : ProgramError}
      (hbefore : ∀ earlier < place, ¬ BrokenAt limit ops earlier)
      (h : Culprit limit ops place error) : Blames limit ops error
  | unclosed {start : Nat} (hrules : ∀ place, ¬ BrokenAt limit ops place)
      (hopen : 1 < balance ops) (h : NeverClosed ops start)
      (houter : ∀ earlier < start, ¬ NeverClosed ops earlier) :
      Blames limit ops (.unclosedRepeat start)

/-! ### Rules and places -/

theorem OpensAt.lt {place : Nat} (h : OpensAt ops place) : place < ops.length := by
  obtain ⟨times, hstart⟩ := h
  exact (List.getElem?_eq_some_iff.mp hstart).1

theorem OpensAt.balanceAt_succ {place : Nat} (h : OpensAt ops place) :
    balanceAt ops (place + 1) = balanceAt ops place + 1 := by
  obtain ⟨times, hstart⟩ := h
  exact Program.balanceAt_succ hstart

theorem not_opensAt {place : Nat} {op : Instruction} (h : ops[place]? = some op)
    (hop : op.isRepeatStart = false) : ¬ OpensAt ops place := by
  rintro ⟨times, hstart⟩
  obtain rfl := Option.some.inj (h.symm.trans hstart)
  cases hop

/-- A rule is broken by an instruction of the list. -/
theorem BrokenAt.lt {place : Nat} (h : BrokenAt limit ops place) : place < ops.length := by
  rcases h with hzero | ⟨hopens, -⟩ | ⟨hlt, -⟩ | ⟨hlt, -⟩
  · exact OpensAt.lt ⟨0, hzero⟩
  · exact hopens.lt
  · exact hlt
  · exact hlt

/-- Neighbours in a list are an infix of it. -/
theorem pair_infix_iff {i j : Instruction} :
    [i, j] <:+: ops ↔ ∃ place, ops[place]? = some i ∧ ops[place + 1]? = some j := by
  constructor
  · rintro ⟨before, after, rfl⟩
    exact ⟨before.length, by simp, by simp⟩
  · rintro ⟨place, hi, hj⟩
    obtain ⟨hplace, rfl⟩ := List.getElem?_eq_some_iff.mp hi
    obtain ⟨hnext, rfl⟩ := List.getElem?_eq_some_iff.mp hj
    refine ⟨ops.take place, ops.drop (place + 1 + 1), ?_⟩
    conv_rhs => rw [← List.take_append_drop place ops, List.drop_eq_getElem_cons hplace,
      List.drop_eq_getElem_cons hnext]
    simp

/-- The beginnings of a list, by their length. -/
theorem forall_prefix_iff {P : List Instruction → Prop} (hnil : P []) :
    (∀ front, front <+: ops → P front) ↔ ∀ place < ops.length, P (ops.take (place + 1)) := by
  constructor
  · exact fun h place _ => h _ (List.take_prefix _ _)
  · intro h front hfront
    rw [List.prefix_iff_eq_take.mp hfront]
    cases hlength : front.length with
    | zero => exact hnil
    | succ place => exact h place (by have := hfront.length_le; omega)

theorem turns_iff :
    (∀ times, .repeatStart times ∈ ops → times ≠ 0) ↔ ∀ place, ¬ ZeroAt ops place := by
  constructor
  · exact fun h place hzero => h 0 (List.mem_of_getElem? hzero) rfl
  · rintro h times hmem rfl
    obtain ⟨place, hzero⟩ := List.mem_iff_getElem?.mp hmem
    exact h place hzero

theorem apart_iff : (∀ times times', ¬ [.repeatStart times, .repeatStart times'] <:+: ops) ↔
    ∀ place, ¬ AdjacentAt ops place := by
  simp only [pair_infix_iff]
  constructor
  · rintro h _ ⟨⟨times', hsecond⟩, place, rfl, times, hfirst⟩
    exact h times times' ⟨place, hfirst, hsecond⟩
  · rintro h times times' ⟨place, hfirst, hsecond⟩
    exact h (place + 1) ⟨⟨times', hsecond⟩, place, rfl, times, hfirst⟩

theorem matched_iff : (∀ front, front <+: ops →
    front.countP (·.isRepeatEnd) ≤ front.countP (·.isRepeatStart)) ↔
      ∀ place, ¬ UnmatchedAt ops place := by
  rw [forall_prefix_iff (P := fun front : List Instruction =>
    front.countP (·.isRepeatEnd) ≤ front.countP (·.isRepeatStart)) (Nat.le_refl 0)]
  refine forall_congr' fun place => ?_
  rw [UnmatchedAt, not_and, balanceAt, balance]
  exact imp_congr_right fun _ => by omega

theorem shallow_iff : (∀ front, front <+: ops → balance front ≤ limit) ↔
    ∀ place, ¬ TooDeepAt limit ops place := by
  rw [forall_prefix_iff (P := (balance · ≤ limit)) (Int.natCast_nonneg limit)]
  refine forall_congr' fun place => ?_
  rw [TooDeepAt, not_and, Int.not_lt]
  rfl

/-- **The rules** are those that can be broken at a place, and the one about the list as a whole. -/
theorem sound_iff : Sound limit ops ↔ (∀ place, ¬ BrokenAt limit ops place) ∧ balance ops ≤ 1 := by
  constructor
  · intro h
    refine ⟨fun place hbroken => ?_, h.closed⟩
    rcases hbroken with hzero | hadjacent | hunmatched | hdeep
    · exact turns_iff.mp h.turns place hzero
    · exact apart_iff.mp h.apart place hadjacent
    · exact matched_iff.mp h.matched place hunmatched
    · exact shallow_iff.mp h.shallow place hdeep
  · rintro ⟨hrules, hclosed⟩
    exact {
      turns := turns_iff.mpr fun place h => hrules place (.inl h)
      apart := apart_iff.mpr fun place h => hrules place (.inr (.inl h))
      matched := matched_iff.mpr fun place h => hrules place (.inr (.inr (.inl h)))
      shallow := shallow_iff.mpr fun place h => hrules place (.inr (.inr (.inr h)))
      closed := hclosed }

/-! ### Open loops -/

/-- A loop starts at a place, and up to another place it has not been closed. -/
def OpenUntil (ops : List Instruction) (start stop : Nat) : Prop :=
  OpensAt ops start ∧ start < stop ∧
    ∀ place, start < place → place ≤ stop → balanceAt ops start < balanceAt ops place

theorem OpenUntil.balanceAt_lt {start stop : Nat} (h : OpenUntil ops start stop) :
    balanceAt ops start < balanceAt ops stop :=
  h.2.2 stop h.2.1 (Nat.le_refl stop)

/-- One place further, a loop is open if it was open before and has not just been closed, or if it
has just been opened. -/
theorem openUntil_succ_iff {start stop : Nat} :
    OpenUntil ops start (stop + 1) ↔
      OpenUntil ops start stop ∧ balanceAt ops start < balanceAt ops (stop + 1) ∨
        start = stop ∧ OpensAt ops start := by
  constructor
  · rintro ⟨hopens, hlt, habove⟩
    rcases Nat.lt_succ_iff_lt_or_eq.mp hlt with hlt | rfl
    · exact .inl ⟨⟨hopens, hlt, fun place hfrom hto => habove place hfrom (Nat.le_succ_of_le hto)⟩,
        habove (stop + 1) (by omega) (Nat.le_refl _)⟩
    · exact .inr ⟨rfl, hopens⟩
  · rintro (⟨⟨hopens, hlt, habove⟩, hlast⟩ | ⟨rfl, hopens⟩)
    · refine ⟨hopens, by omega, fun place hfrom hto => ?_⟩
      rcases Nat.le_succ_iff.mp hto with hto | rfl
      · exact habove place hfrom hto
      · exact hlast
    · refine ⟨hopens, Nat.lt_succ_self start, fun place hfrom hto => ?_⟩
      obtain rfl : place = start + 1 := by omega
      have hnext := hopens.balanceAt_succ
      omega

/-- A loop is never closed if it is open up to the end of the list. -/
theorem neverClosed_iff {start : Nat} : NeverClosed ops start ↔ OpenUntil ops start ops.length := by
  constructor
  · rintro ⟨hopens, hstops⟩
    refine ⟨hopens, hopens.lt, fun place hfrom hto => ?_⟩
    -- where the balance comes back to that of the start, the loop has been closed just before
    induction place using Nat.strong_induction_on with
    | _ place ih =>
      by_contra hback
      obtain ⟨stop, rfl⟩ : ∃ stop, place = stop + 1 := ⟨place - 1, by omega⟩
      rcases Nat.lt_succ_iff_lt_or_eq.mp hfrom with hlt | rfl
      · have hbefore := ih stop (Nat.lt_succ_self stop) hlt (by omega)
        have hwithin : stop < ops.length := by omega
        have hdrop := balanceAt_le_succ hwithin
        refine hstops stop (by omega) ⟨hlt, by omega, fun place hfrom hto => ?_⟩
        exact ih place (by omega) hfrom (by omega)
      · have hnext := hopens.balanceAt_succ
        omega
  · rintro ⟨hopens, -, habove⟩
    refine ⟨hopens, fun stop hstop hcloses => ?_⟩
    have hback := habove (stop + 1) (by have := hcloses.1; omega) hstop
    have hsame := hcloses.2.1
    omega

/-! ### One culprit -/

theorem Culprit.brokenAt {place : Nat} {error : ProgramError} (h : Culprit limit ops place error) :
    BrokenAt limit ops place := by
  cases h with
  | zero h => exact .inl h
  | adjacent _ h => exact .inr (.inl h)
  | deep _ _ h _ => exact .inr (.inr (.inr h))
  | unmatched _ h => exact .inr (.inr (.inl h))

theorem Culprit.unique {place : Nat} {error error' : ProgramError}
    (h : Culprit limit ops place error) (h' : Culprit limit ops place error') : error = error' := by
  -- a loop end is no loop start, and no list is both short of starts and too deep
  have hend : ops[place]? = some .repeatEnd → ¬ OpensAt ops place := fun h => not_opensAt h rfl
  cases h with
  | zero hzero =>
    cases h' with
    | zero => rfl
    | adjacent hturns => exact absurd hzero hturns
    | deep hturns => exact absurd hzero hturns
    | unmatched h => exact absurd ⟨0, hzero⟩ (hend h)
  | adjacent hturns hadjacent =>
    cases h' with
    | zero hzero => exact absurd hzero hturns
    | adjacent => rfl
    | deep _ hapart => exact absurd hadjacent hapart
    | unmatched h => exact absurd hadjacent.1 (hend h)
  | deep hturns hapart hdeep hdepth =>
    cases h' with
    | zero hzero => exact absurd hzero hturns
    | adjacent _ hadjacent => exact absurd hadjacent hapart
    | deep _ _ _ hdepth' =>
      obtain rfl := Int.ofNat.inj (hdepth.trans hdepth'.symm)
      rfl
    | unmatched _ hunmatched =>
      have hshort := hunmatched.2
      have htall := hdeep.2
      omega
  | unmatched h hunmatched =>
    cases h' with
    | zero hzero => exact absurd ⟨0, hzero⟩ (hend h)
    | adjacent _ hadjacent => exact absurd hadjacent.1 (hend h)
    | deep _ _ hdeep =>
      have hshort := hunmatched.2
      have htall := hdeep.2
      omega
    | unmatched => rfl

/-- Of two places of which each is the first of its kind, none comes before the other. -/
theorem eq_of_first {P : Nat → Prop} {place place' : Nat} (h : P place) (h' : P place')
    (hbefore : ∀ earlier < place, ¬ P earlier) (hbefore' : ∀ earlier < place', ¬ P earlier) :
    place = place' :=
  Nat.le_antisymm (Nat.not_lt.mp fun hlt => hbefore place' hlt h')
    (Nat.not_lt.mp fun hlt => hbefore' place hlt h)

/-- There is one thing to blame. -/
theorem Blames.unique {error error' : ProgramError} (h : Blames limit ops error)
    (h' : Blames limit ops error') : error = error' := by
  cases h with
  | first hbefore hculprit =>
    cases h' with
    | first hbefore' hculprit' =>
      obtain rfl := eq_of_first hculprit.brokenAt hculprit'.brokenAt hbefore hbefore'
      exact hculprit.unique hculprit'
    | unclosed hrules => exact absurd hculprit.brokenAt (hrules _)
  | unclosed hrules _ hopen houter =>
    cases h' with
    | first _ hculprit => exact absurd hculprit.brokenAt (hrules _)
    | unclosed _ _ hopen' houter' => rw [eq_of_first hopen hopen' houter houter']

theorem Sound.not_blames (h : Sound limit ops) (error : ProgramError) :
    ¬ Blames limit ops error := by
  obtain ⟨hrules, hclosed⟩ := sound_iff.mp h
  intro hblames
  cases hblames with
  | first _ hculprit => exact hrules _ hculprit.brokenAt
  | unclosed _ hopen => omega

end Program

end BulletHell
