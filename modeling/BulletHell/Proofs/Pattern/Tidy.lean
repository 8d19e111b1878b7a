import BulletHell.Proofs.Pattern.Block

/-!
# Brackets that are passed over

An emitter has room for a limited number of open loops. A loop start that finds none is passed over;
and so is a loop end where no loop is open, of which a program may have some if only because the
starts in front of them were passed over. Which brackets these are can be told from the list alone,
by counting open loops from its beginning. Without them, the list is said to be tidy.

The brackets that are left need not be pairs of the original list: when a loop start is passed over,
the loop end meant for it goes to the loop around it, and the one meant for that loop goes further
out. What can be said is that a tidy list is no worse than the original one. Where the strict check
has nothing to say against a list but that it nests too deep, it has nothing to say against the tidy
one, so there is an outline of it.

## Main definitions

* `Instruction.isSpare` — brackets that are passed over with some loops open
* `tidy` — a list without these brackets
* `depthAt`, `placeIn` — the loops open at a place of a list, and the same place in the tidy one

## Main results

* `Outline.exists_of_tidy` — a tidy list has one
* `getElem?_tidy`, `placeIn_inj` — the tidy list, place by place
-/

namespace BulletHell

namespace Instruction

variable {limit depth : Nat} {i : Instruction}

/-- The loops that are open behind an instruction. -/
def depthAfter (limit depth : Nat) : Instruction → Nat
  | repeatStart _ => if depth < limit then depth + 1 else depth
  | repeatEnd => depth - 1
  | _ => depth

/-- A loop start without room for its loop, or a loop end where no loop is open. -/
def isSpare (limit depth : Nat) : Instruction → Bool
  | repeatStart _ => limit ≤ depth
  | repeatEnd => depth = 0
  | _ => false

theorem depthAfter_of_isSpare (h : i.isSpare limit depth = true) :
    i.depthAfter limit depth = depth := by
  cases i with
  | repeatStart times => exact if_neg (Nat.not_lt.mpr (of_decide_eq_true h))
  | repeatEnd =>
    rw [depthAfter, show depth = 0 from of_decide_eq_true h]
  | _ => rfl

theorem depthAfter_of_not_bracket (plain : i.isBracket = false) :
    i.depthAfter limit depth = depth := by
  cases i <;> first | rfl | cases plain

theorem isSpare_of_not_bracket (plain : i.isBracket = false) :
    i.isSpare limit depth = false := by
  cases i <;> first | rfl | cases plain

end Instruction

/-- The list without the brackets that are passed over, if it is gone through with `depth` loops
open. -/
def tidy (limit : Nat) : Nat → List Instruction → List Instruction
  | _, [] => []
  | depth, i :: ops =>
    if i.isSpare limit depth then tidy limit depth ops
    else i :: tidy limit (i.depthAfter limit depth) ops

section Tidy

variable {limit depth : Nat} {i : Instruction} {ops : List Instruction}

theorem tidy_of_isSpare (h : i.isSpare limit depth = true) (ops : List Instruction) :
    tidy limit depth (i :: ops) = tidy limit depth ops := by
  rw [tidy, if_pos h]

theorem tidy_of_not_isSpare (h : i.isSpare limit depth = false) (ops : List Instruction) :
    tidy limit depth (i :: ops) = i :: tidy limit (i.depthAfter limit depth) ops := by
  rw [tidy, if_neg (by rw [h]; exact Bool.false_ne_true)]

theorem tidy_of_not_bracket (plain : i.isBracket = false) (ops : List Instruction) :
    tidy limit depth (i :: ops) = i :: tidy limit depth ops := by
  rw [tidy_of_not_isSpare (i.isSpare_of_not_bracket plain), i.depthAfter_of_not_bracket plain]

theorem tidy_repeatStart_of_lt (h : depth < limit) (times : Nat) (ops : List Instruction) :
    tidy limit depth (.repeatStart times :: ops) =
      .repeatStart times :: tidy limit (depth + 1) ops := by
  have hkept : (Instruction.repeatStart times).isSpare limit depth = false :=
    decide_eq_false (Nat.not_le.mpr h)
  rw [tidy_of_not_isSpare hkept, Instruction.depthAfter, if_pos h]

theorem tidy_repeatStart_of_le (h : limit ≤ depth) (times : Nat) (ops : List Instruction) :
    tidy limit depth (.repeatStart times :: ops) = tidy limit depth ops :=
  tidy_of_isSpare (i := .repeatStart times) (decide_eq_true h) ops

theorem tidy_repeatEnd_zero (limit : Nat) (ops : List Instruction) :
    tidy limit 0 (.repeatEnd :: ops) = tidy limit 0 ops :=
  tidy_of_isSpare (i := .repeatEnd) rfl ops

theorem tidy_repeatEnd_succ (limit depth : Nat) (ops : List Instruction) :
    tidy limit (depth + 1) (.repeatEnd :: ops) = .repeatEnd :: tidy limit depth ops :=
  tidy_of_not_isSpare (i := .repeatEnd) rfl ops

theorem tidy_append (limit depth : Nat) (ops more : List Instruction) :
    tidy limit depth (ops ++ more) =
      tidy limit depth ops ++ tidy limit (ops.foldl (Instruction.depthAfter limit) depth) more := by
  induction ops generalizing depth with
  | nil => rfl
  | cons i ops ih =>
    rw [List.cons_append, List.foldl_cons]
    by_cases hspare : i.isSpare limit depth = true
    · rw [tidy_of_isSpare hspare, tidy_of_isSpare hspare, i.depthAfter_of_isSpare hspare, ih]
    · rw [Bool.not_eq_true] at hspare
      rw [tidy_of_not_isSpare hspare, tidy_of_not_isSpare hspare, ih, List.cons_append]

/-- Where no loop start follows, none follows in the tidy list either, provided that a loop is open:
whatever follows is kept. -/
theorem takeWhile_tidy (h : ops.takeWhile (·.isRepeatStart) = []) (hdepth : 0 < depth) :
    (tidy limit depth ops).takeWhile (·.isRepeatStart) = [] := by
  cases ops with
  | nil => rfl
  | cons i ops =>
    have hstart : ¬ i.isRepeatStart = true := fun hi => by
      rw [List.takeWhile_cons_of_pos hi] at h
      cases h
    have hkept : i.isSpare limit depth = false := by
      cases i with
      | repeatStart times => exact absurd rfl hstart
      | repeatEnd => exact decide_eq_false (Nat.pos_iff_ne_zero.mp hdepth)
      | _ => rfl
    rw [tidy_of_not_isSpare hkept, List.takeWhile_cons_of_neg hstart]

end Tidy

/-! ### Place by place -/

/-- The loops that are open at a place of a list. -/
def depthAt (limit : Nat) (ops : List Instruction) (place : Nat) : Nat :=
  (ops.take place).foldl (Instruction.depthAfter limit) 0

/-- A place of a list as a place of the tidy one. -/
def placeIn (limit : Nat) (ops : List Instruction) (place : Nat) : Nat :=
  (tidy limit 0 (ops.take place)).length

section Places

variable {limit place place' : Nat} {i i' : Instruction} {ops : List Instruction}

theorem take_succ_of_getElem? (h : ops[place]? = some i) :
    ops.take (place + 1) = ops.take place ++ [i] := by
  rw [List.take_add_one, h, Option.toList_some]

theorem depthAt_succ (h : ops[place]? = some i) :
    depthAt limit ops (place + 1) = i.depthAfter limit (depthAt limit ops place) := by
  rw [depthAt, take_succ_of_getElem? h, List.foldl_append]
  rfl

theorem tidy_take_succ (h : ops[place]? = some i) :
    tidy limit 0 (ops.take (place + 1)) =
      tidy limit 0 (ops.take place) ++ tidy limit (depthAt limit ops place) [i] := by
  rw [take_succ_of_getElem? h, tidy_append, depthAt]

theorem placeIn_succ_of_isSpare (h : ops[place]? = some i)
    (hspare : i.isSpare limit (depthAt limit ops place) = true) :
    placeIn limit ops (place + 1) = placeIn limit ops place := by
  rw [placeIn, tidy_take_succ h, tidy_of_isSpare hspare, tidy, List.append_nil, placeIn]

theorem placeIn_succ_of_not_isSpare (h : ops[place]? = some i)
    (hkept : i.isSpare limit (depthAt limit ops place) = false) :
    placeIn limit ops (place + 1) = placeIn limit ops place + 1 := by
  rw [placeIn, tidy_take_succ h, tidy_of_not_isSpare hkept, tidy, List.length_append,
    List.length_singleton, placeIn]

theorem drop_tidy (limit place : Nat) (ops : List Instruction) :
    (tidy limit 0 ops).drop (placeIn limit ops place) =
      tidy limit (depthAt limit ops place) (ops.drop place) := by
  conv_lhs => rw [← List.take_append_drop place ops]
  rw [tidy_append, placeIn, List.take_append_drop, List.drop_left]
  rfl

/-- What is not passed over is found again. -/
theorem getElem?_tidy (h : ops[place]? = some i)
    (hkept : i.isSpare limit (depthAt limit ops place) = false) :
    (tidy limit 0 ops)[placeIn limit ops place]? = some i := by
  obtain ⟨hlt, hi⟩ := List.getElem?_eq_some_iff.mp h
  have hdrop : (tidy limit 0 ops).drop (placeIn limit ops place) =
      i :: tidy limit (i.depthAfter limit (depthAt limit ops place)) (ops.drop (place + 1)) := by
    rw [drop_tidy, List.drop_eq_getElem_cons hlt, hi, tidy_of_not_isSpare hkept]
  rw [← Nat.add_zero (placeIn limit ops place), ← List.getElem?_drop, hdrop]
  rfl

/-- Behind the end there is nothing in either list. -/
theorem getElem?_tidy_of_none (h : ops[place]? = none) :
    (tidy limit 0 ops)[placeIn limit ops place]? = none := by
  rw [← Nat.add_zero (placeIn limit ops place), ← List.getElem?_drop, drop_tidy,
    List.drop_eq_nil_of_le (List.getElem?_eq_none_iff.mp h)]
  rfl

theorem placeIn_le (h : place ≤ place') : placeIn limit ops place ≤ placeIn limit ops place' := by
  obtain ⟨more, hmore⟩ : ops.take place <+: ops.take place' := List.take_prefix_take_left h
  rw [placeIn, placeIn, ← hmore, tidy_append, List.length_append]
  exact Nat.le_add_right _ _

/-- Places of instructions that are not passed over are told apart. -/
theorem placeIn_inj (h : ops[place]? = some i)
    (hkept : i.isSpare limit (depthAt limit ops place) = false) (h' : ops[place']? = some i')
    (hkept' : i'.isSpare limit (depthAt limit ops place') = false) :
    placeIn limit ops place = placeIn limit ops place' ↔ place = place' := by
  refine ⟨fun hsame => ?_, fun hplace => hplace ▸ rfl⟩
  have hsucc := placeIn_succ_of_not_isSpare h hkept
  have hsucc' := placeIn_succ_of_not_isSpare h' hkept'
  rcases Nat.lt_trichotomy place place' with hlt | heq | hgt
  · have hle : placeIn limit ops (place + 1) ≤ placeIn limit ops place' := placeIn_le hlt
    omega
  · exact heq
  · have hle : placeIn limit ops (place' + 1) ≤ placeIn limit ops place := placeIn_le hgt
    omega

end Places

/-! ### The strict check -/

namespace Program

/-- **A tidy list reads no worse.** If a scan gets through a list, then one that has fewer loops
open gets through the tidy list, with the loops that it has room for, and still has fewer open. -/
theorem Scan.exists_run_tidy {bound limit : Nat} {ops : List Instruction} {s s' t : Scan}
    (hrun : Scan.run bound s ops = .ok s') (hdepth : t.openStarts.length ≤ s.openStarts.length)
    (hlimit : t.openStarts.length ≤ limit)
    (hafter : t.afterStart = true → s.afterStart = true ∧ 0 < t.openStarts.length) :
    ∃ t', Scan.run limit t (tidy limit t.openStarts.length ops) = .ok t' ∧
      t'.openStarts.length ≤ s'.openStarts.length := by
  induction ops generalizing s t with
  | nil =>
    obtain rfl : s = s' := Except.ok.inj hrun
    exact ⟨t, rfl, hdepth⟩
  | cons i ops ih =>
    obtain ⟨next, hstep, hrun⟩ := Scan.run_cons_eq_ok_iff.mp hrun
    by_cases plain : i.isBracket = false
    · rw [Scan.step_of_not_bracket s plain] at hstep
      obtain rfl := Except.ok.inj hstep
      rw [tidy_of_not_bracket plain, Scan.run, Scan.step_of_not_bracket t plain]
      exact ih (t := ⟨t.index + 1, false, t.openStarts⟩) hrun hdepth hlimit (fun h => by cases h)
    cases i <;> try exact absurd rfl plain
    case repeatStart times =>
      obtain ⟨htimes, hapart, -, rfl⟩ := Scan.step_repeatStart_eq_ok_iff.mp hstep
      have hbehind : t.afterStart = false := by
        rw [← Bool.not_eq_true]
        exact fun h => Bool.false_ne_true (hapart.symm.trans (hafter h).1)
      by_cases hroom : t.openStarts.length < limit
      · have hstart : t.step limit (.repeatStart times) =
            .ok ⟨t.index + 1, true, t.index :: t.openStarts⟩ :=
          Scan.step_repeatStart_eq_ok_iff.mpr ⟨htimes, hbehind, hroom, rfl⟩
        rw [tidy_repeatStart_of_lt hroom, Scan.run, hstart]
        exact ih (t := ⟨t.index + 1, true, t.index :: t.openStarts⟩) hrun
          (Nat.succ_le_succ hdepth) hroom fun _ => ⟨rfl, Nat.succ_pos _⟩
      · rw [tidy_repeatStart_of_le (Nat.not_lt.mp hroom)]
        refine ih hrun (Nat.le_succ_of_le hdepth) hlimit fun h => ?_
        exact absurd (hbehind.symm.trans h) Bool.false_ne_true
    case repeatEnd =>
      obtain ⟨start, rest, hopen, rfl⟩ := Scan.step_repeatEnd_eq_ok_iff.mp hstep
      rw [hopen, List.length_cons] at hdepth
      cases hopen' : t.openStarts with
      | nil =>
        rw [List.length_nil, tidy_repeatEnd_zero]
        rw [hopen', List.length_nil] at hafter
        have h := ih (t := t) hrun (by rw [hopen']; exact Nat.zero_le _) hlimit
          fun h => absurd (hafter h).2 (Nat.lt_irrefl 0)
        rwa [hopen'] at h
      | cons start' rest' =>
        have hend : t.step limit .repeatEnd = .ok ⟨t.index + 1, false, rest'⟩ :=
          Scan.step_repeatEnd_eq_ok_iff.mpr ⟨start', rest', hopen', rfl⟩
        rw [hopen', List.length_cons] at hdepth hlimit
        rw [List.length_cons, tidy_repeatEnd_succ, Scan.run, hend]
        exact ih (t := ⟨t.index + 1, false, rest'⟩) hrun (Nat.le_of_succ_le_succ hdepth)
          (Nat.le_of_succ_le hlimit) (fun h => by cases h)

/-- Where the check gets through, no loop start follows another one. -/
theorem Scan.apart_of_run {bound : Nat} {ops : List Instruction} {s s' : Scan}
    (hrun : Scan.run bound s ops = .ok s') {place times : Nat}
    (h : ops[place]? = some (.repeatStart times)) :
    (ops.drop (place + 1)).takeWhile (·.isRepeatStart) = [] := by
  induction ops generalizing s place with
  | nil => cases h
  | cons i ops ih =>
    obtain ⟨next, hstep, hrun⟩ := Scan.run_cons_eq_ok_iff.mp hrun
    cases place with
    | succ place => exact ih hrun h
    | zero =>
      obtain rfl : i = .repeatStart times := Option.some.inj h
      obtain ⟨-, -, -, rfl⟩ := Scan.step_repeatStart_eq_ok_iff.mp hstep
      cases ops with
      | nil => rfl
      | cons j ops =>
        cases j with
        | repeatStart t => exact absurd hrun (Scan.run_ne_ok_of_afterStart rfl)
        | _ => rfl

/-- **The strict check accepts a tidy list** if it would accept the original one with more room. -/
theorem validate_tidy {bound limit : Nat} {ops : List Instruction}
    (h : validate bound ops = .ok ()) : validate limit (tidy limit 0 ops) = .ok () := by
  obtain ⟨s, hrun, hopen⟩ := validate_eq_ok_iff.mp h
  obtain ⟨t, hrun', hopen'⟩ : ∃ t, Scan.run limit {} (tidy limit 0 ops) = .ok t ∧
      t.openStarts.length ≤ s.openStarts.length :=
    Scan.exists_run_tidy (t := {}) hrun (Nat.le_refl 0) (Nat.zero_le limit) (fun h => by cases h)
  exact validate_eq_ok_iff.mpr ⟨t, hrun', Nat.le_trans hopen' hopen⟩

end Program

namespace Outline

/-- **A tidy list has an outline**, and its loops find room. -/
theorem exists_of_tidy {bound : Nat} {ops : List Instruction}
    (h : Program.validate bound ops = .ok ()) (limit : Nat) :
    ∃ o, read? (tidy limit 0 ops) = some o ∧ o.Fits limit :=
  exists_of_validate (Program.validate_tidy h)

end Outline

end BulletHell
