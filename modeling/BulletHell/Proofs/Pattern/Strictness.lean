import BulletHell.Proofs.Pattern.Rules

/-!
# What the strict check accepts, and whom it blames

The check reads a program once, with the loops that are open on a stack, and stops at the first
instruction that it does not like. The rules that it stands for know of no stack.

Both sides meet in what is known of a scan that has got to a place. The stack holds the starts of
the loops that have not been closed up to there, the latest first, and it is as high as the balance
of starts and ends. So an end finds nothing to close where the balance would become negative, and
what lies at the bottom of the stack in the end is the first start whose loop is never closed.

## Main definitions

* `Program.Scan.Stacked`, `Program.Scan.Knows` — what is known of the stack, and of a scan

## Main results

* `Program.Scan.step_spec` — one instruction
* `Program.Scan.run_spec` — the scan stops at the first place where a rule is broken
* `Program.strict_check_blames_the_first_culprit`
-/

namespace BulletHell

namespace Program

variable {limit : Nat} {ops : List Instruction}

/-! ### What a scan knows -/

namespace Scan

/-- The stack at a place: the loops that are open there, the latest first, each as deep as there are
others below it. -/
structure Stacked (ops : List Instruction) (place : Nat) (openStarts : List Nat) : Prop where
  mem_iff : ∀ start, start ∈ openStarts ↔ OpenUntil ops start place
  sorted : openStarts.Pairwise (· > ·)
  level : ∀ start below, start :: below <:+ openStarts → balanceAt ops start = below.length
  height : balanceAt ops place = openStarts.length

/-- What is known of a scan that has got to its place without an error. -/
structure Knows (limit : Nat) (ops : List Instruction) (s : Scan) : Prop where
  afterStart : s.afterStart = true ↔ ∃ before, s.index = before + 1 ∧ OpensAt ops before
  stacked : Stacked ops s.index s.openStarts
  room : s.openStarts.length ≤ limit

theorem knows_start (limit : Nat) (ops : List Instruction) : Knows limit ops {} where
  afterStart := by simp
  stacked := {
    mem_iff := fun start => iff_of_false List.not_mem_nil fun h => Nat.not_lt_zero _ h.2.1
    sorted := .nil
    level := fun start below h => absurd (List.suffix_nil.mp h) (List.cons_ne_nil _ _)
    height := balanceAt_zero ops }
  room := Nat.zero_le limit

variable {place : Nat} {openStarts : List Nat} {s : Scan}

/-- A plain instruction changes nothing. -/
theorem Stacked.plain (h : Stacked ops place openStarts) {op : Instruction}
    (hop : ops[place]? = some op) (plain : op.isBracket = false) :
    Stacked ops (place + 1) openStarts := by
  have hsame : balanceAt ops (place + 1) = balanceAt ops place := by
    rw [balanceAt_succ hop, Instruction.weight_of_not_bracket plain, Int.add_zero]
  have hopens : ¬ OpensAt ops place :=
    not_opensAt hop (Instruction.isRepeatStart_of_not_bracket plain)
  refine ⟨fun start => ?_, h.sorted, h.level, hsame.trans h.height⟩
  rw [h.mem_iff, openUntil_succ_iff, hsame]
  constructor
  · exact fun hopen => .inl ⟨hopen, hopen.balanceAt_lt⟩
  · rintro (⟨hopen, -⟩ | ⟨rfl, hstart⟩)
    · exact hopen
    · exact absurd hstart hopens

/-- A loop start lies on top of the loops that were open before. -/
theorem Stacked.push (h : Stacked ops place openStarts) (hopens : OpensAt ops place) :
    Stacked ops (place + 1) (place :: openStarts) := by
  have hnext := hopens.balanceAt_succ
  have hheight := h.height
  refine ⟨fun start => ?_, ?_, fun start below hsuffix => ?_, ?_⟩
  · rw [List.mem_cons, h.mem_iff, openUntil_succ_iff]
    constructor
    · rintro (rfl | hopen)
      · exact .inr ⟨rfl, hopens⟩
      · exact .inl ⟨hopen, by have := hopen.balanceAt_lt; omega⟩
    · rintro (⟨hopen, -⟩ | ⟨rfl, -⟩)
      · exact .inr hopen
      · exact .inl rfl
  · exact List.pairwise_cons.mpr ⟨fun start hmem => ((h.mem_iff start).mp hmem).2.1, h.sorted⟩
  · rcases List.suffix_cons_iff.mp hsuffix with heq | hsuffix
    · obtain ⟨rfl, rfl⟩ := List.cons.inj heq
      exact hheight
    · exact h.level start below hsuffix
  · rw [List.length_cons]
    omega

/-- A loop end takes off the loop on top. -/
theorem Stacked.pop {start : Nat} (h : Stacked ops place (start :: openStarts))
    (hend : ops[place]? = some .repeatEnd) : Stacked ops (place + 1) openStarts := by
  have hnext : balanceAt ops (place + 1) = balanceAt ops place - 1 := balanceAt_succ hend
  have hheight := h.height
  have htop := h.level start openStarts (List.suffix_refl _)
  rw [List.length_cons] at hheight
  refine ⟨fun other => ?_, h.sorted.of_cons, fun other below hsuffix => ?_, by omega⟩
  · rw [openUntil_succ_iff, ← h.mem_iff, List.mem_cons]
    constructor
    · intro hmem
      obtain ⟨above, below, rfl⟩ := List.append_of_mem hmem
      have hlevel := h.level other below ⟨start :: above, rfl⟩
      rw [List.length_append, List.length_cons] at hheight
      exact .inl ⟨.inr hmem, by omega⟩
    · rintro (⟨rfl | hmem, habove⟩ | ⟨rfl, hstart⟩)
      · omega
      · exact hmem
      · exact absurd hstart (not_opensAt hend rfl)
  · exact h.level other below (hsuffix.trans (List.suffix_cons start openStarts))

/-- With an empty stack a loop end has nothing to close. -/
theorem Stacked.unmatched (h : Stacked ops place []) (hend : ops[place]? = some .repeatEnd) :
    UnmatchedAt ops place := by
  have hnext : balanceAt ops (place + 1) = balanceAt ops place - 1 := balanceAt_succ hend
  have hheight : balanceAt ops place = 0 := h.height
  exact ⟨(List.getElem?_eq_some_iff.mp hend).1, by omega⟩

/-! ### One instruction -/

theorem not_brokenAt {stack : List Nat} (hturns : ¬ ZeroAt ops place)
    (hapart : ¬ AdjacentAt ops place) (hstacked : Stacked ops (place + 1) stack)
    (hroom : stack.length ≤ limit) : ¬ BrokenAt limit ops place := by
  have hheight := hstacked.height
  rintro (hzero | hadjacent | ⟨-, hunmatched⟩ | ⟨-, hdeep⟩)
  · exact hturns hzero
  · exact hapart hadjacent
  · omega
  · omega

/-- What the scan of one instruction comes to: it goes on with what it knows, and no rule is broken
there; or it stops, and blames what is to blame. -/
inductive StepResult (limit : Nat) (ops : List Instruction) (place : Nat) :
    Except ProgramError Scan → Prop where
  | goesOn {next : Scan} (hindex : next.index = place + 1) (h : Knows limit ops next)
      (hrules : ¬ BrokenAt limit ops place) : StepResult limit ops place (.ok next)
  | stops {error : ProgramError} (h : Culprit limit ops place error) :
      StepResult limit ops place (.error error)

theorem step_spec_plain (h : Knows limit ops s) {op : Instruction} (hop : ops[s.index]? = some op)
    (plain : op.isBracket = false) : StepResult limit ops s.index (s.step limit op) := by
  have hopens : ¬ OpensAt ops s.index :=
    not_opensAt hop (Instruction.isRepeatStart_of_not_bracket plain)
  have hstacked := h.stacked.plain hop plain
  rw [step_of_not_bracket s plain]
  refine .goesOn rfl ⟨?_, hstacked, h.room⟩
    (not_brokenAt (fun hzero => hopens ⟨0, hzero⟩) (fun hadjacent => hopens hadjacent.1) hstacked
      h.room)
  refine iff_of_false Bool.false_ne_true ?_
  rintro ⟨before, hbefore, hstart⟩
  obtain rfl := Nat.succ.inj hbefore
  exact hopens hstart

theorem step_spec_repeatEnd (h : Knows limit ops s) (hend : ops[s.index]? = some .repeatEnd) :
    StepResult limit ops s.index (s.step limit .repeatEnd) := by
  have hopens : ¬ OpensAt ops s.index := not_opensAt hend rfl
  have hstacked := h.stacked
  have hroom := h.room
  rw [step]
  split
  · next hempty =>
    rw [hempty] at hstacked
    exact .stops (.unmatched hend (hstacked.unmatched hend))
  · next start rest hcons =>
    rw [hcons] at hstacked hroom
    have hfits : rest.length ≤ limit := Nat.le_of_succ_le hroom
    have hpopped := hstacked.pop hend
    refine .goesOn rfl ⟨?_, hpopped, hfits⟩
      (not_brokenAt (fun hzero => hopens ⟨0, hzero⟩) (fun hadjacent => hopens hadjacent.1) hpopped
        hfits)
    refine iff_of_false Bool.false_ne_true ?_
    rintro ⟨before, hbefore, hstart⟩
    obtain rfl := Nat.succ.inj hbefore
    exact hopens hstart

theorem step_spec_repeatStart (h : Knows limit ops s) {times : Nat}
    (hstart : ops[s.index]? = some (.repeatStart times)) :
    StepResult limit ops s.index (s.step limit (.repeatStart times)) := by
  have hopens : OpensAt ops s.index := ⟨times, hstart⟩
  have hpushed := h.stacked.push hopens
  have hadjacent : AdjacentAt ops s.index ↔ s.afterStart = true := by
    rw [h.afterStart, AdjacentAt, and_iff_right hopens]
  rw [step]
  split
  · next hzero =>
    subst hzero
    exact .stops (.zero hstart)
  next htimes =>
  have hturns : ¬ ZeroAt ops s.index := fun hzero =>
    htimes (Instruction.repeatStart.inj (Option.some.inj (hstart.symm.trans hzero)))
  split
  · next hafter => exact .stops (.adjacent hturns (hadjacent.mpr hafter))
  next hafter =>
  have hapart : ¬ AdjacentAt ops s.index := mt hadjacent.mp hafter
  have hheight : balanceAt ops (s.index + 1) = (s.openStarts.length + 1 : Nat) := hpushed.height
  split
  · next hdeep => exact .stops (.deep hturns hapart ⟨hopens.lt, by omega⟩ hheight.symm)
  next hroom =>
  have hfits : (s.index :: s.openStarts).length ≤ limit := Nat.not_lt.mp hroom
  refine .goesOn rfl ⟨?_, hpushed, hfits⟩ (not_brokenAt hturns hapart hpushed hfits)
  exact iff_of_true rfl ⟨s.index, rfl, hopens⟩

/-- **One instruction.** -/
theorem step_spec (h : Knows limit ops s) {op : Instruction} (hop : ops[s.index]? = some op) :
    StepResult limit ops s.index (s.step limit op) := by
  cases op with
  | repeatStart times => exact step_spec_repeatStart h hop
  | repeatEnd => exact step_spec_repeatEnd h hop
  | _ => exact step_spec_plain h hop rfl

/-! ### The whole list -/

/-- **The scan stops at the first place where a rule is broken**, and gets to the end if there is
none. By induction on what is left to read. -/
theorem run_spec (h : Knows limit ops s) (hwithin : s.index ≤ ops.length)
    (hbefore : ∀ earlier < s.index, ¬ BrokenAt limit ops earlier) {rest : List Instruction}
    (hrest : ops.drop s.index = rest) :
    (∃ last, run limit s rest = .ok last ∧ Stacked ops ops.length last.openStarts ∧
        ∀ place, ¬ BrokenAt limit ops place) ∨
      ∃ place error, run limit s rest = .error error ∧ Culprit limit ops place error ∧
        ∀ earlier < place, ¬ BrokenAt limit ops earlier := by
  induction rest generalizing s with
  | nil =>
    have hend : s.index = ops.length := Nat.le_antisymm hwithin (List.drop_eq_nil_iff.mp hrest)
    refine .inl ⟨s, rfl, hend ▸ h.stacked, fun place hbroken => ?_⟩
    exact hbefore place (hend ▸ hbroken.lt) hbroken
  | cons op rest ih =>
    have hop : ops[s.index]? = some op := by
      rw [← List.head?_drop, hrest, List.head?_cons]
    have hstep := step_spec h hop
    rw [run]
    generalize s.step limit op = result at hstep
    cases hstep with
    | stops hculprit => exact .inr ⟨s.index, _, rfl, hculprit, hbefore⟩
    | @goesOn next hindex hnext hrules =>
      refine ih hnext ?_ (fun earlier hearlier => ?_) ?_
      · rw [hindex]
        exact (List.getElem?_eq_some_iff.mp hop).1
      · rcases Nat.lt_succ_iff_lt_or_eq.mp (hindex ▸ hearlier) with hlt | rfl
        · exact hbefore earlier hlt
        · exact hrules
      · rw [hindex, ← List.drop_drop, hrest]
        rfl

/-- At the end of the list the stack is looked at once more. -/
theorem finish_spec (h : Stacked ops ops.length s.openStarts)
    (hrules : ∀ place, ¬ BrokenAt limit ops place) :
    s.finish = .ok () ∧ balance ops ≤ 1 ∨
      ∃ error, s.finish = .error error ∧ Blames limit ops error := by
  have hheight : balance ops = s.openStarts.length := (balanceAt_length ops).symm.trans h.height
  rw [finish]
  split
  · next top inner rest hopen =>
    obtain ⟨above, bottom, hbottom⟩ := List.eq_nil_or_concat (inner :: rest) |>.resolve_left
      (List.cons_ne_nil inner rest)
    rw [List.concat_eq_append] at hbottom
    rw [hopen, hbottom] at h
    have hsorted := (List.pairwise_append.mp (List.pairwise_cons.mp h.sorted).2).2.2
    refine .inr ⟨_, rfl, ?_⟩
    rw [hbottom, List.getLastD_concat]
    refine .unclosed hrules ?_ (neverClosed_iff.mpr ((h.mem_iff bottom).mp (by simp)))
      fun earlier hearlier hopenEarlier => ?_
    · rw [hheight, hopen, List.length_cons, List.length_cons]
      omega
    · -- everything on the stack lies at or behind its bottom
      have hmem := (h.mem_iff earlier).mpr (neverClosed_iff.mp hopenEarlier)
      rw [List.mem_cons, List.mem_append, List.mem_singleton] at hmem
      rcases hmem with rfl | hmem | rfl
      · have := (List.pairwise_cons.mp h.sorted).1 bottom (by simp)
        omega
      · have := hsorted earlier hmem bottom List.mem_cons_self
        omega
      · omega
  · next hshort =>
    refine .inl ⟨rfl, ?_⟩
    rw [hheight]
    rcases hopen : s.openStarts with _ | ⟨top, _ | ⟨inner, rest⟩⟩
    · simp
    · simp
    · exact absurd hopen (hshort top inner rest)

end Scan

/-- What the check answers, in full. -/
theorem validate_spec (limit : Nat) (ops : List Instruction) :
    validate limit ops = .ok () ∧ Sound limit ops ∨
      ∃ error, validate limit ops = .error error ∧ Blames limit ops error := by
  rw [validate]
  have hall : ops.drop 0 = ops := List.drop_zero
  rcases Scan.run_spec (Scan.knows_start limit ops) (Nat.zero_le _)
    (fun earlier h => absurd h (Nat.not_lt_zero earlier)) hall with
    ⟨last, hrun, hstacked, hrules⟩ | ⟨place, error, hrun, hculprit, hbefore⟩
  · rw [hrun]
    rcases Scan.finish_spec hstacked hrules with ⟨hfinish, hclosed⟩ | ⟨error, hfinish, hblames⟩
    · exact .inl ⟨hfinish, sound_iff.mpr ⟨hrules, hclosed⟩⟩
    · exact .inr ⟨error, hfinish, hblames⟩
  · rw [hrun]
    exact .inr ⟨error, rfl, .first hbefore hculprit⟩

/-! ### The check -/

/-- **The strict check accepts the sound programs and no others, and otherwise blames the first
culprit.** A list is sound if it keeps the rules as they are written, by counting. If it does not,
there is exactly one error, and it names the first place where one of the rules is broken that can
be broken at a place; only where there is no such place it names the outermost loop that is never
closed. Without the check every list is a program, just as it is. -/
theorem strict_check_blames_the_first_culprit (limit : Nat) (ops : List Instruction) :
    (∀ p, ofInstructions true limit ops = .ok p ↔ Sound limit ops ∧ p = ⟨ops⟩) ∧
      (∀ error, ofInstructions true limit ops = .error error ↔ Blames limit ops error) ∧
        ofInstructions false limit ops = .ok ⟨ops⟩ := by
  rcases validate_spec limit ops with ⟨hok, hsound⟩ | ⟨error, herror, hblames⟩
  · have hresult : ofInstructions true limit ops = .ok ⟨ops⟩ := by
      rw [ofInstructions, if_pos rfl, hok]
    refine ⟨fun p => ?_, fun error => ?_, rfl⟩
    · rw [hresult, Except.ok.injEq, and_iff_right hsound, eq_comm]
    · rw [hresult]
      exact iff_of_false nofun (hsound.not_blames error)
  · have hresult : ofInstructions true limit ops = .error error := by
      rw [ofInstructions, if_pos rfl, herror]
    refine ⟨fun p => ?_, fun error' => ?_, rfl⟩
    · rw [hresult]
      exact iff_of_false nofun fun h => h.1.not_blames error hblames
    · rw [hresult, Except.error.injEq]
      constructor
      · rintro rfl
        exact hblames
      · exact fun hblames' => hblames.unique hblames'

end Program

end BulletHell
