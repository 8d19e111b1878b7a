import BulletHell.Pattern.Program
import Mathlib.Data.List.Basic

/-!
# The loops of a program

A program is a flat list in which loops are brackets. This file gives such a list its tree, says
what the tree stands for, and shows that whatever the strict check accepts has one.

## The shape of a program

The end of a program closes the innermost open loop, so one loop may be left open. An `Outline`
is therefore a block, in which every loop is closed, and perhaps one open loop behind it that
takes up the rest of the program.

The tree is read from the end of the list. Seen from some place on, a list is a number of
blocks that each run into the end of a loop opened before that place, and then an outline. That
is an `Ending`, and putting one more instruction in front of it is `Ending.push?`.

## Main definitions

* `Block`, `Outline` — instructions whose loops are closed, and a whole program
* `Block.unfolding`, `Outline.unfolding` — the instructions that the loops stand for
* `Block.Fits`, `Outline.Fits` — loops with turns, not started together, not nested too deep
* `Outline.read?` — the outline of an instruction list

## Main results

* `Outline.flatten_of_read?` — reading loses nothing
* `Outline.exists_of_validate` — what the strict check accepts has an outline that fits
* `Outline.validate_of_fits` — and it accepts whatever has one
-/

namespace BulletHell

namespace Instruction

/-- Loop starts and loop ends. -/
def isBracket : Instruction → Bool
  | repeatStart _ => true
  | repeatEnd => true
  | _ => false

theorem isRepeatStart_of_not_bracket {i : Instruction} (h : i.isBracket = false) :
    i.isRepeatStart = false := by
  cases i <;> first | rfl | cases h

end Instruction

/-! ### Blocks and outlines -/

/-- Instructions in which every loop is closed. -/
inductive Block where
  | nil
  | op (i : Instruction) (plain : i.isBracket = false) (next : Block)
  | loop (times : Nat) (body next : Block)

/-- A number of copies, one behind the other. -/
def copies (count : Nat) (ops : List Instruction) : List Instruction :=
  (List.replicate count ops).flatten

@[simp] theorem copies_zero (ops : List Instruction) : copies 0 ops = [] := rfl

theorem copies_succ (count : Nat) (ops : List Instruction) :
    copies (count + 1) ops = ops ++ copies count ops := by
  simp [copies, List.replicate_succ]

/-- The first of some copies, taken off. -/
theorem copies_of_pos {count : Nat} (h : 0 < count) (ops : List Instruction) :
    copies count ops = ops ++ copies (count - 1) ops := by
  rw [← copies_succ, Nat.sub_add_cancel h]

namespace Block

/-- The list that a block is the tree of. -/
def flatten : Block → List Instruction
  | nil => []
  | op i _ next => i :: next.flatten
  | loop times body next => .repeatStart times :: (body.flatten ++ .repeatEnd :: next.flatten)

/-- What a block stands for: a loop for its turns, everything else for itself. -/
def unfolding : Block → List Instruction
  | nil => []
  | op i _ next => i :: next.unfolding
  | loop times body next => copies times body.unfolding ++ next.unfolding

/-- Does the block begin with a loop? -/
def opensLoop : Block → Bool
  | loop .. => true
  | _ => false

/-- Every loop has turns, does not begin with another loop, and no more than `limit` loops are
open at any place. -/
def Fits : Nat → Block → Prop
  | _, nil => True
  | limit, op _ _ next => next.Fits limit
  | limit, loop times body next =>
    (0 < limit ∧ 0 < times ∧ body.opensLoop = false ∧ body.Fits (limit - 1)) ∧ next.Fits limit

theorem exists_repeatStart_of_opensLoop {b : Block} (h : b.opensLoop = true)
    (rest : List Instruction) :
    ∃ times more, b.flatten ++ rest = .repeatStart times :: more := by
  cases b with
  | loop times body next => exact ⟨times, _, rfl⟩
  | nil => cases h
  | op i plain next => cases h

/-- No loop start follows directly where a block begins that does not begin with a loop,
provided that none follows an empty block either. -/
theorem takeWhile_isRepeatStart {b : Block} (h : b.opensLoop = false) {rest : List Instruction}
    (hrest : rest.takeWhile (·.isRepeatStart) = []) :
    (b.flatten ++ rest).takeWhile (·.isRepeatStart) = [] := by
  cases b with
  | nil => exact hrest
  | op i plain next =>
    simp [flatten, Instruction.isRepeatStart_of_not_bracket plain]
  | loop times body next => cases h

end Block

/-- A program: a block, and perhaps a loop behind it that is left open to the end. -/
structure Outline where
  lead : Block
  openLoop : Option (Nat × Block)

namespace Outline

/-- The list that an outline is the tree of. -/
def flatten (o : Outline) : List Instruction :=
  o.lead.flatten ++
    match o.openLoop with
    | none => []
    | some (times, body) => .repeatStart times :: body.flatten

/-- What a program stands for. The end of the program closes the open loop, which runs for its
turns as well. -/
def unfolding (o : Outline) : List Instruction :=
  o.lead.unfolding ++
    match o.openLoop with
    | none => []
    | some (times, body) => copies times body.unfolding

/-- The rules for loops, the open one included. -/
def Fits (limit : Nat) (o : Outline) : Prop :=
  o.lead.Fits limit ∧
    ∀ times body, o.openLoop = some (times, body) →
      0 < limit ∧ 0 < times ∧ body.opensLoop = false ∧ body.Fits (limit - 1)

end Outline

/-! ### Reading a list from its end -/

/-- The end of a program as seen from some place in it. -/
structure Ending where
  /-- Blocks that run into the end of a loop opened before the place, nearest first. -/
  closed : List Block
  rest : Outline

namespace Ending

def flatten : List Block → Outline → List Instruction
  | [], o => o.flatten
  | b :: more, o => b.flatten ++ .repeatEnd :: flatten more o

/-- Changes the block at the place. -/
def mapFirst (f : Block → Block) : Ending → Ending
  | ⟨[], o⟩ => ⟨[], { o with lead := f o.lead }⟩
  | ⟨b :: more, o⟩ => ⟨f b :: more, o⟩

/-- Puts a loop start in front: its loop takes the block at the place for its body. -/
def pushStart? (times : Nat) : Ending → Option Ending
  | ⟨body :: more, o⟩ => some (mapFirst (.loop times body) ⟨more, o⟩)
  | ⟨[], ⟨body, none⟩⟩ => some ⟨[], ⟨.nil, some (times, body)⟩⟩
  | ⟨[], ⟨_, some _⟩⟩ => none

/-- Puts an instruction in front; `none` if that leaves two loops open. -/
def push? : Instruction → Ending → Option Ending
  | .repeatStart times, e => e.pushStart? times
  | .repeatEnd, e => some ⟨.nil :: e.closed, e.rest⟩
  | i, e => if plain : i.isBracket = false then some (e.mapFirst (.op i plain)) else none

/-- Reads a list. -/
def read? : List Instruction → Option Ending
  | [] => some ⟨[], ⟨.nil, none⟩⟩
  | i :: ops => (read? ops).bind (push? i)

/-- The rules for loops, `depth` loops being open at the place. -/
inductive Fits (limit : Nat) : Nat → Ending → Prop
  | top {o : Outline} (h : o.Fits limit) : Fits limit 0 ⟨[], o⟩
  | inOpen {body : Block} (h : body.Fits (limit - 1)) : Fits limit 1 ⟨[], ⟨body, none⟩⟩
  | inClosed {depth : Nat} {b : Block} {more : List Block} {o : Outline}
      (h : b.Fits (limit - (depth + 1))) (outer : Fits limit depth ⟨more, o⟩) :
      Fits limit (depth + 1) ⟨b :: more, o⟩

theorem flatten_mapFirst {f : Block → Block} {i : List Instruction}
    (h : ∀ b, (f b).flatten = i ++ b.flatten) (e : Ending) :
    flatten (e.mapFirst f).closed (e.mapFirst f).rest = i ++ flatten e.closed e.rest := by
  obtain ⟨closed, o⟩ := e
  cases closed with
  | nil => simp [mapFirst, flatten, Outline.flatten, h]
  | cons b more => simp [mapFirst, flatten, h]

theorem push?_of_not_bracket {i : Instruction} (plain : i.isBracket = false) (e : Ending) :
    push? i e = some (e.mapFirst (.op i plain)) := by
  cases i <;> first | rfl | cases plain

theorem flatten_pushStart? {times : Nat} {e e' : Ending} (h : e.pushStart? times = some e') :
    flatten e'.closed e'.rest = .repeatStart times :: flatten e.closed e.rest := by
  rw [pushStart?.eq_def] at h
  split at h
  · rename_i body more o
    obtain rfl := Option.some.inj h
    rw [flatten_mapFirst (i := .repeatStart times :: (body.flatten ++ [.repeatEnd]))
      (fun b => by simp [Block.flatten])]
    simp [flatten]
  · obtain rfl := Option.some.inj h
    simp [flatten, Outline.flatten, Block.flatten]
  · cases h

theorem flatten_push? {i : Instruction} {e e' : Ending} (h : push? i e = some e') :
    flatten e'.closed e'.rest = i :: flatten e.closed e.rest := by
  by_cases plain : i.isBracket = false
  · rw [push?_of_not_bracket plain] at h
    obtain rfl := Option.some.inj h
    exact flatten_mapFirst (i := [i]) (fun _ => rfl) e
  · cases i <;> try exact absurd rfl plain
    case repeatStart times => exact flatten_pushStart? h
    case repeatEnd =>
      obtain rfl := Option.some.inj h
      rfl

/-- Reading loses nothing. -/
theorem flatten_of_read? {ops : List Instruction} {e : Ending} (h : read? ops = some e) :
    flatten e.closed e.rest = ops := by
  induction ops generalizing e with
  | nil =>
    obtain rfl := Option.some.inj h
    rfl
  | cons i ops ih =>
    obtain ⟨e', hread, hpush⟩ := Option.bind_eq_some_iff.mp h
    rw [flatten_push? hpush, ih hread]

theorem Fits.mapFirst {limit depth : Nat} {e : Ending} (h : Fits limit depth e)
    {f : Block → Block} (hf : ∀ b, b.Fits (limit - depth) → (f b).Fits (limit - depth)) :
    Fits limit depth (e.mapFirst f) := by
  cases h with
  | top h => exact .top ⟨hf _ h.1, h.2⟩
  | inOpen h => exact .inOpen (hf _ h)
  | inClosed h outer => exact .inClosed (hf _ h) outer

/-- A loop start in front of an ending: it opens the loop that the next loop end closes, or the
one that stays open. -/
theorem Fits.exists_pushStart? {limit depth times : Nat} {e : Ending}
    (h : Fits limit (depth + 1) e) (hlimit : depth < limit) (htimes : 0 < times)
    (hapart : ∀ t more, flatten e.closed e.rest ≠ .repeatStart t :: more) :
    ∃ e', e.pushStart? times = some e' ∧ Fits limit depth e' := by
  -- the body of the new loop does not begin with a loop, since no loop start follows
  have hbody : ∀ (b : Block) (more : List Instruction),
      flatten e.closed e.rest = b.flatten ++ more → b.opensLoop = false := by
    intro b more heq
    by_contra hopen
    obtain ⟨t, tail, htail⟩ :=
      Block.exists_repeatStart_of_opensLoop (eq_true_of_ne_false hopen) more
    exact hapart t tail (heq.trans htail)
  cases h with
  | inOpen hfits =>
    refine ⟨_, rfl, .top ⟨trivial, ?_⟩⟩
    intro t b hb
    obtain ⟨rfl, rfl⟩ := Prod.mk.inj (Option.some.inj hb)
    exact ⟨hlimit, htimes, hbody _ [] (by simp [flatten, Outline.flatten]), hfits⟩
  | @inClosed _ b more o hfits outer =>
    refine ⟨_, rfl, outer.mapFirst fun next hnext => ⟨⟨?_, htimes, ?_, ?_⟩, hnext⟩⟩
    · omega
    · exact hbody _ (.repeatEnd :: flatten more o) rfl
    · rw [Nat.sub_sub]
      exact hfits

end Ending

/-! ### What the strict check accepts -/

namespace Program

theorem Scan.step_of_not_bracket {limit : Nat} {i : Instruction} (s : Scan)
    (plain : i.isBracket = false) :
    s.step limit i = .ok ⟨s.index + 1, false, s.openStarts⟩ := by
  cases i <;> first | rfl | cases plain

/-- What the check asks of a loop start. -/
theorem Scan.step_repeatStart_eq_ok_iff {limit times : Nat} {s s' : Scan} :
    s.step limit (.repeatStart times) = .ok s' ↔
      0 < times ∧ s.afterStart = false ∧ s.openStarts.length < limit ∧
        s' = ⟨s.index + 1, true, s.index :: s.openStarts⟩ := by
  rw [Scan.step]
  constructor
  · intro hstep
    split at hstep
    · cases hstep
    split at hstep
    · cases hstep
    split at hstep
    · cases hstep
    rename_i htimes hapart hroom
    exact ⟨Nat.pos_of_ne_zero htimes, (Bool.not_eq_true _).mp hapart, Nat.not_lt.mp hroom,
      (Except.ok.inj hstep).symm⟩
  · rintro ⟨htimes, hapart, hroom, rfl⟩
    rw [if_neg (Nat.pos_iff_ne_zero.mp htimes), hapart, if_neg Bool.false_ne_true,
      if_neg (Nat.not_lt.mpr hroom)]

/-- What the check asks of a loop end. -/
theorem Scan.step_repeatEnd_eq_ok_iff {limit : Nat} {s s' : Scan} :
    s.step limit .repeatEnd = .ok s' ↔
      ∃ start rest, s.openStarts = start :: rest ∧ s' = ⟨s.index + 1, false, rest⟩ := by
  rw [Scan.step]
  constructor
  · intro hstep
    split at hstep
    · cases hstep
    · next start rest hopen => exact ⟨start, rest, hopen, (Except.ok.inj hstep).symm⟩
  · rintro ⟨start, rest, hopen, rfl⟩
    rw [hopen]

theorem Scan.run_cons_eq_ok_iff {limit : Nat} {s s' : Scan} {i : Instruction}
    {ops : List Instruction} :
    Scan.run limit s (i :: ops) = .ok s' ↔
      ∃ next, s.step limit i = .ok next ∧ Scan.run limit next ops = .ok s' := by
  rw [Scan.run]
  constructor
  · intro hrun
    split at hrun
    · cases hrun
    · next next hstep => exact ⟨next, hstep, hrun⟩
  · rintro ⟨next, hstep, hrun⟩
    rw [hstep]
    exact hrun

/-- Directly behind a loop start the check accepts no other one. -/
theorem Scan.run_ne_ok_of_afterStart {limit times : Nat} {s s' : Scan}
    {ops : List Instruction} (h : s.afterStart = true) :
    Scan.run limit s (.repeatStart times :: ops) ≠ .ok s' := by
  intro hrun
  obtain ⟨next, hstep, -⟩ := Scan.run_cons_eq_ok_iff.mp hrun
  obtain ⟨-, hapart, -, -⟩ := Scan.step_repeatStart_eq_ok_iff.mp hstep
  exact Bool.false_ne_true (hapart.symm.trans h)

/-- A list that the scan reads to its end, leaving at most one loop open, has an ending that
fits where the scan began. -/
theorem Scan.exists_ending {limit : Nat} {s s' : Scan} {ops : List Instruction}
    (hrun : Scan.run limit s ops = .ok s') (hend : s'.openStarts.length ≤ 1) :
    ∃ e, Ending.read? ops = some e ∧ e.Fits limit s.openStarts.length := by
  induction ops generalizing s with
  | nil =>
    obtain rfl : s = s' := Except.ok.inj hrun
    refine ⟨_, rfl, ?_⟩
    match hlen : s.openStarts.length with
    | 0 => exact .top ⟨trivial, by simp⟩
    | 1 => exact .inOpen trivial
    | _ + 2 => omega
  | cons i ops ih =>
    obtain ⟨next, hstep, hrun⟩ := Scan.run_cons_eq_ok_iff.mp hrun
    obtain ⟨e, hread, hfits⟩ := ih hrun
    simp only [Ending.read?, hread, Option.bind_some]
    by_cases plain : i.isBracket = false
    · rw [Scan.step_of_not_bracket s plain] at hstep
      obtain rfl := Except.ok.inj hstep
      exact ⟨_, Ending.push?_of_not_bracket plain e, hfits.mapFirst fun b hb => hb⟩
    · cases i <;> try exact absurd rfl plain
      case repeatStart times =>
        obtain ⟨htimes, -, hroom, rfl⟩ := Scan.step_repeatStart_eq_ok_iff.mp hstep
        refine hfits.exists_pushStart? hroom htimes ?_
        intro t more hmore
        rw [Ending.flatten_of_read? hread] at hmore
        subst hmore
        exact Scan.run_ne_ok_of_afterStart rfl hrun
      case repeatEnd =>
        obtain ⟨start, rest, hopen, rfl⟩ := Scan.step_repeatEnd_eq_ok_iff.mp hstep
        rw [hopen]
        exact ⟨⟨.nil :: e.closed, e.rest⟩, rfl, .inClosed trivial hfits⟩

/-- What the check asks of a scan: that it gets through, and leaves at most one loop open. -/
theorem validate_eq_ok_iff {limit : Nat} {ops : List Instruction} :
    validate limit ops = .ok () ↔
      ∃ s, Scan.run limit {} ops = .ok s ∧ s.openStarts.length ≤ 1 := by
  have hfinish : ∀ s : Scan, s.finish = .ok () ↔ s.openStarts.length ≤ 1 := by
    intro s
    rw [Scan.finish]
    match s.openStarts with
    | [] => simp
    | [_] => simp
    | _ :: _ :: _ => simp
  rw [validate]
  constructor
  · intro h
    split at h
    · cases h
    · next s hrun => exact ⟨s, hrun, (hfinish s).mp h⟩
  · rintro ⟨s, hrun, hopen⟩
    rw [hrun]
    exact (hfinish s).mpr hopen

end Program

/-- A scan gets through a block that fits, and leaves what was open. -/
theorem Block.exists_run {limit : Nat} {b : Block} {s : Program.Scan}
    (hfits : b.Fits (limit - s.openStarts.length))
    (hafter : s.afterStart = true → b.opensLoop = false) (rest : List Instruction) :
    ∃ s', Program.Scan.run limit s (b.flatten ++ rest) = Program.Scan.run limit s' rest ∧
      s'.openStarts = s.openStarts ∧
      (s'.afterStart = true → s.afterStart = true ∧ b = .nil) := by
  induction b generalizing s rest with
  | nil => exact ⟨s, rfl, rfl, fun h => ⟨h, rfl⟩⟩
  | op i plain next ih =>
    obtain ⟨s', hrun, hopen, hlast⟩ :=
      ih (s := ⟨s.index + 1, false, s.openStarts⟩) hfits (fun h => by cases h) rest
    refine ⟨s', ?_, hopen, fun h => by cases (hlast h).1⟩
    rw [Block.flatten, List.cons_append, Program.Scan.run, Program.Scan.step_of_not_bracket s plain]
    exact hrun
  | loop times body next ihBody ihNext =>
    obtain ⟨⟨hroom, htimes, hapart, hbody⟩, hnext⟩ := hfits
    have hbehind : s.afterStart = false := by
      rw [← Bool.not_eq_true]
      exact fun h => by cases hafter h
    obtain ⟨s₁, hrun₁, hopen₁, -⟩ :=
      ihBody (s := ⟨s.index + 1, true, s.index :: s.openStarts⟩)
        (by rw [List.length_cons, ← Nat.sub_sub]; exact hbody) (fun _ => hapart)
        (.repeatEnd :: (next.flatten ++ rest))
    obtain ⟨s₂, hrun₂, hopen₂, hlast⟩ :=
      ihNext (s := ⟨s₁.index + 1, false, s.openStarts⟩) hnext (fun h => by cases h) rest
    have hstart : s.step limit (.repeatStart times) =
        .ok ⟨s.index + 1, true, s.index :: s.openStarts⟩ :=
      Program.Scan.step_repeatStart_eq_ok_iff.mpr ⟨htimes, hbehind, by omega, rfl⟩
    have hend : s₁.step limit .repeatEnd = .ok ⟨s₁.index + 1, false, s.openStarts⟩ :=
      Program.Scan.step_repeatEnd_eq_ok_iff.mpr ⟨s.index, s.openStarts, hopen₁, rfl⟩
    refine ⟨s₂, ?_, hopen₂, fun h => by cases (hlast h).1⟩
    rw [Block.flatten, List.cons_append, List.append_assoc, List.cons_append, Program.Scan.run,
      hstart]
    simp only
    rw [hrun₁, Program.Scan.run, hend]
    exact hrun₂

namespace Outline

/-- The outline of an instruction list, if its loop ends match and at most one loop is left
open. -/
def read? (ops : List Instruction) : Option Outline :=
  match Ending.read? ops with
  | some ⟨[], o⟩ => some o
  | _ => none

/-- Reading loses nothing. -/
theorem flatten_of_read? {ops : List Instruction} {o : Outline} (h : read? ops = some o) :
    o.flatten = ops := by
  rw [read?] at h
  split at h
  · rename_i hread
    obtain rfl := Option.some.inj h
    exact Ending.flatten_of_read? hread
  · cases h

/-- **What the strict check accepts has an outline**, and its loops keep the rules. -/
theorem exists_of_validate {limit : Nat} {ops : List Instruction}
    (h : Program.validate limit ops = .ok ()) :
    ∃ o, read? ops = some o ∧ o.Fits limit := by
  obtain ⟨s, hrun, hend⟩ := Program.validate_eq_ok_iff.mp h
  obtain ⟨e, hread, hfits⟩ := Program.Scan.exists_ending hrun hend
  cases hfits with
  | @top o ho => exact ⟨o, by simp [read?, hread], ho⟩

/-- **The strict check accepts whatever has an outline that fits.** -/
theorem validate_of_fits {limit : Nat} {o : Outline} (h : o.Fits limit) :
    Program.validate limit o.flatten = .ok () := by
  obtain ⟨lead, openLoop⟩ := o
  obtain ⟨s, hrun, hopen, hlast⟩ :=
    Block.exists_run (s := {}) h.1 (fun h => by cases h) (Outline.flatten ⟨.nil, openLoop⟩)
  replace hopen : s.openStarts = [] := hopen
  rw [Program.validate_eq_ok_iff]
  have hflat : (Outline.mk lead openLoop).flatten =
      lead.flatten ++ (Outline.mk .nil openLoop).flatten := rfl
  rw [hflat, hrun]
  cases openLoop with
  | none => exact ⟨s, rfl, by rw [hopen]; exact Nat.zero_le 1⟩
  | some loop =>
    obtain ⟨times, body⟩ := loop
    obtain ⟨hroom, htimes, hapart, hbody⟩ := h.2 times body rfl
    obtain ⟨s', hrun', hopen', -⟩ :=
      Block.exists_run (s := ⟨s.index + 1, true, s.index :: s.openStarts⟩) (b := body)
        (by rw [List.length_cons, hopen]; exact hbody) (fun _ => hapart) []
    have hbehind : s.afterStart = false := by
      rw [← Bool.not_eq_true]
      exact fun h => by cases (hlast h).1
    refine ⟨s', ?_, by rw [hopen', List.length_cons, hopen]; exact Nat.le_refl 1⟩
    show Program.Scan.run limit s (.repeatStart times :: body.flatten) = _
    rw [Program.Scan.run, Program.Scan.step, if_neg (Nat.pos_iff_ne_zero.mp htimes), hbehind,
      if_neg Bool.false_ne_true, hopen, if_neg (by rw [List.length_nil]; omega),
      ← List.append_nil body.flatten]
    rw [hopen] at hrun'
    exact hrun'

example :
    (Outline.read? [.repeatStart 2, .fire, .repeatEnd, .repeatStart 2, .mirror]).map unfolding =
      some [.fire, .fire, .mirror, .mirror] := rfl

end Outline

end BulletHell
