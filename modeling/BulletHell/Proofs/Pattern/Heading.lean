import BulletHell.Proofs.Pattern.Mirroring
import BulletHell.Proofs.Pattern.Waiting

/-!
# The heading behind many turns

An emitter does not add up its turns. It folds the offset behind each of them, and folding may
reverse it. Whether a long turning pattern still points where it should is therefore not clear from
any single turn. What it should point to is the exact sum: what the offset was set to last, and all
turns since, to the side to which they went. This sum is kept here in a ledger beside the emitter,
and the offset is compared with it.

The offset is always folded, so behind a turn it was not further off than half a turn and the turn
itself. If this is less than a full turn, folding does not reverse, and the offset says the exact
heading, however many turns were made. If it may be more, the offset still says the line. The only
other thing that could go wrong is saturation, and no single turn gets there unless it is about as
great as an angle can be.

Nothing else that an emitter does turns the offset. Firing does not, whatever the surroundings say
of the target and of random angles; it only decides on the last angle, to which a change of the mode
may go back.

## Main definitions

* `Heading`, `Heading.enter` — the ledger, and what an instruction adds to it
* `Heading.noteCalls` — the ledger over a session
* `FoldsAlong` — folding changes nothing modulo some angle
* `Emitter.Tracks` — the offset agrees with the ledger

## Main results

* `Emitter.Tracks.cycle`, `Emitter.Tracks.run`, `Emitter.Tracks.call`
* `Emitter.heading_stays_true`
-/

namespace BulletHell

/-- What an offset was set to last, and the sum of the turns since. -/
structure Heading where
  base : Int
  turned : Int

namespace Heading

/-- Behind a load or a restart. -/
def zero : Heading := ⟨0, 0⟩

/-- An instruction is entered: a turn to the side to which it goes, and whatever sets the offset
anew. A mode that is not another one sets nothing. -/
def enter (heading : Heading) (e : Emitter) : Instruction → Heading
  | .offsetAngle degrees =>
    { heading with turned := heading.turned + if e.mirrored then -degrees else degrees }
  | .resetAngle => zero
  | .setMode mode =>
    if mode = e.mode then heading else ⟨if mode = .static then e.lastAngle else 0, 0⟩
  | _ => heading

/-- The cycle that begins in a state is entered. -/
def note (heading : Heading) (e : Emitter) : Heading :=
  e.next?.elim heading (heading.enter e)

variable {σ : Type} [FireContext σ]

/-- A call is entered, cycle by cycle. -/
def noteCall (heading : Heading) (e : Emitter) (c : Emitter.Call σ) : Heading :=
  match c with
  | .load _ _ => zero
  | .restart _ _ => (e.entry c).cycles.foldl note zero
  | .tick _ _ => (e.entry c).cycles.foldl note heading
  | .beat => heading

/-- The ledger behind some calls. -/
def noteCalls : Heading → Emitter → List (Emitter.Call σ) → Heading
  | heading, _, [] => heading
  | heading, e, c :: calls => noteCalls (heading.noteCall e c) (e.call c) calls

end Heading

/-- Whatever a folded angle is turned by, up to a bound, folding changes nothing modulo an angle. -/
def FoldsAlong (bound : Nat) (modulus : Int) : Prop :=
  ∀ angle : Int, angle.natAbs ≤ 180 + bound → wrapAngle angle ≡ angle [ZMOD modulus]

theorem foldsAlong_line (bound : Nat) : FoldsAlong bound 180 :=
  fun angle _ => wrapAngle_modEq angle

theorem foldsAlong_direction : FoldsAlong 179 360 :=
  fun _ h => wrapAngle_modEq_of_lt (by omega)

namespace Emitter

/-- A program that a call loads has no turn greater than a bound. -/
def Call.TurnsBy {σ : Type} (bound : Nat) : Call σ → Prop
  | .load spec _ => spec.program.TurnsBy bound
  | .restart _ _ | .tick _ _ | .beat => True

/-- The offset agrees with the ledger modulo an angle, and the program has no turn greater than a
bound. -/
structure Tracks (bound : Nat) (modulus : Int) (heading : Heading) (e : Emitter) : Prop where
  folded : e.Folded
  program : e.program.TurnsBy bound
  offset : e.angleOffset ≡ heading.base + heading.turned [ZMOD modulus]

variable {e : Emitter} {heading : Heading} {bound : Nat} {modulus : Int}

/-- An emitter without an offset begins a ledger. -/
theorem tracks_rewind (h : e.program.TurnsBy bound) : e.rewind.Tracks bound modulus .zero :=
  ⟨folded_rewind e, h, Int.ModEq.refl _⟩

theorem tracks_load {spec : EmitterSpec} (h : spec.program.TurnsBy bound) (e : Emitter)
    (mirrored : Bool) : (e.load spec mirrored).Tracks bound modulus .zero :=
  ⟨folded_rewind _, h, Int.ModEq.refl _⟩

section Calls

variable {σ : Type} [FireContext σ] (hfold : FoldsAlong bound modulus)
  (hbound : bound ≤ greatestTurn)

include hfold hbound

/-! ### One cycle -/

/-- A turn is added to both sides. Behind it the offset is folded, and the ledger is not. -/
theorem Tracks.turn (h : e.Tracks bound modulus heading) {degrees : Int}
    (hdegrees : degrees.natAbs ≤ bound) :
    (e.turn degrees).angleOffset ≡
      heading.base + (heading.turned + if e.mirrored then -degrees else degrees)
        [ZMOD modulus] := by
  have hoffset := h.folded.offset
  have hreach : (e.angleOffset + if e.mirrored then -degrees else degrees).natAbs ≤
      180 + bound := by
    split <;> omega
  rw [turn_eq h.folded (hdegrees.trans hbound), ← Int.add_assoc]
  exact (hfold _ hreach).trans (h.offset.add_right _)

/-- **One instruction.** -/
theorem Tracks.execute (h : e.Tracks bound modulus heading) {op : Instruction}
    (hop : e.next? = some op) (origin : Vec2) (ctx : σ) :
    (e.execute origin ctx op).2.1.angleOffset ≡
      (heading.enter e op).base + (heading.enter e op).turned [ZMOD modulus] := by
  cases op with
  | offsetAngle degrees =>
    have hmem : .offsetAngle degrees ∈ e.program.instructions := List.mem_of_getElem? hop
    exact h.turn hfold hbound (h.program degrees hmem)
  | resetAngle => exact Int.ModEq.refl _
  | setMode mode =>
    by_cases hsame : mode = e.mode
    · rw [Heading.enter, if_pos hsame, Emitter.execute, setMode, if_pos hsame]
      exact h.offset
    · rw [Heading.enter, if_neg hsame, Emitter.execute, setMode, if_neg hsame, Int.add_zero]
      exact Int.ModEq.refl _
  | repeatEnd =>
    obtain ⟨repeats, counter, heq⟩ := e.exists_repeatEnd_eq
    rw [Emitter.execute, heq]
    exact h.offset
  | _ => exact h.offset

/-- **One cycle.** -/
theorem Tracks.cycle (h : e.Tracks bound modulus heading) (origin : Vec2) (ctx : σ) :
    (e.cycle origin ctx).2.1.Tracks bound modulus (heading.note e) where
  folded := kept_folded.cycle h.folded origin ctx
  program := (e.fixed_cycle origin ctx).1 ▸ h.program
  offset := by
    cases hnext : e.next? with
    | none =>
      obtain ⟨repeats, counter, heq⟩ := e.exists_endOfProgram_eq
      rw [cycle_of_next?_eq_none hnext, Heading.note, hnext, heq]
      exact h.offset
    | some op =>
      rw [cycle_of_next? hnext, Heading.note, hnext]
      exact h.execute hfold hbound hnext origin ctx

/-! ### Calls -/

theorem Tracks.run (h : e.Tracks bound modulus heading) (origin : Vec2) (budget : Nat) (ctx : σ) :
    (run origin budget e ctx).2.1.Tracks bound modulus
      ((cycles origin budget e ctx).foldl Heading.note heading) := by
  induction budget generalizing e heading ctx with
  | zero => exact h
  | succ budget ih =>
    have hcycle := h.cycle hfold hbound origin ctx
    rcases hfirst : e.cycle origin ctx with ⟨flow, e', ctx'⟩
    rw [hfirst] at hcycle
    simp only [Emitter.run, cycles, hfirst]
    cases flow with
    | running => exact ih hcycle ctx'
    | yielded => exact hcycle
    | ended => exact hcycle

theorem Tracks.tick (h : e.Tracks bound modulus heading) (owner : Vec2) (ctx : σ) :
    (e.tick owner ctx).2.1.Tracks bound modulus
      ((e.tickCycles owner ctx).foldl Heading.note heading) := by
  have hwaited : ∀ frames, { e with waitFrames := frames }.Tracks bound modulus heading :=
    fun _ => ⟨⟨h.folded.offset, h.folded.last⟩, h.program, h.offset⟩
  rcases e.tick_cases owner ctx with
    ⟨hbeats, htick⟩ | ⟨hbeats, hframes, htick⟩ | ⟨hbeats, hframes, htick⟩
  · have hnone : e.tickCycles owner ctx = [] := (idles_tick (.inl hbeats) owner ctx).cycles
    rw [htick, hnone]
    exact h
  · have hnone : e.tickCycles owner ctx = [] :=
      (idles_tick (.inr ⟨hbeats, hframes⟩) owner ctx).cycles
    rw [htick, hnone]
    exact hwaited _
  · rw [htick, tickCycles_of_ready hbeats hframes]
    exact (hwaited 0).run hfold hbound _ _ ctx

/-- **One call.** -/
theorem Tracks.call (h : e.Tracks bound modulus heading) {c : Call σ} (hc : c.TurnsBy bound) :
    (e.call c).Tracks bound modulus (heading.noteCall e c) := by
  cases c with
  | load spec mirrored => exact tracks_load hc e mirrored
  | restart owner ctx => exact (tracks_rewind h.program).tick hfold hbound owner ctx
  | tick owner ctx => exact h.tick hfold hbound owner ctx
  | beat => exact ⟨⟨h.folded.offset, h.folded.last⟩, h.program, h.offset⟩

/-- Any number of calls. -/
theorem Tracks.after (h : e.Tracks bound modulus heading) {calls : List (Call σ)}
    (hcalls : ∀ c ∈ calls, c.TurnsBy bound) :
    (e.after calls).Tracks bound modulus (heading.noteCalls e calls) := by
  induction calls generalizing e heading with
  | nil => exact h
  | cons c calls ih =>
    obtain ⟨hc, hmore⟩ := List.forall_mem_cons.mp hcalls
    exact ih (h.call hfold hbound hc) hmore

end Calls

/-- **The heading stays true.** However many turns, loops and changes of side there are in a session
that begins with a load, the offset is what it was set to last plus the exact sum of the turns
since: up to half turns if no turn is saturated, and up to full turns if each single turn is less
than half a turn. -/
theorem heading_stays_true {σ : Type} [FireContext σ] (e : Emitter) (spec : EmitterSpec)
    (mirrored : Bool) (calls : List (Call σ)) :
    let session := .load spec mirrored :: calls
    let heading := Heading.zero.noteCalls e session
    ((∀ c ∈ session, c.TurnsBy greatestTurn) →
      (e.after session).angleOffset ≡ heading.base + heading.turned [ZMOD 180]) ∧
    ((∀ c ∈ session, c.TurnsBy 179) →
      (e.after session).angleOffset ≡ heading.base + heading.turned [ZMOD 360]) := by
  intro session heading
  have htracks : ∀ {bound modulus}, FoldsAlong bound modulus → bound ≤ greatestTurn →
      (∀ c ∈ session, c.TurnsBy bound) → (e.after session).Tracks bound modulus heading := by
    intro bound modulus hfold hbound hsession
    obtain ⟨hspec, hcalls⟩ := List.forall_mem_cons.mp hsession
    exact (tracks_load hspec e mirrored).after hfold hbound hcalls
  exact ⟨fun h => (htracks (foldsAlong_line _) (Nat.le_refl _) h).offset,
    fun h => (htracks foldsAlong_direction (by decide) h).offset⟩

/-- More than two full turns, then turns to the other side in two modes. -/
def gyre : EmitterSpec :=
  ⟨Vec2.zero, ⟨0⟩, 1,
    ⟨[.repeatStart 5, .offsetAngle 170, .repeatEnd, .mirror, .offsetAngle 20, .fire,
      .setMode .aimed, .offsetAngle 30, .fire, .setMode .static, .offsetAngle 100, .fire]⟩⟩

/-- Two full turns at once. -/
def somersault : EmitterSpec :=
  ⟨Vec2.zero, ⟨0⟩, 1, ⟨[.offsetAngle 720, .fire]⟩⟩

/-- A program is loaded and ticked. -/
def loadAndTick (spec : EmitterSpec) (ticks : Nat) : List (Call Lookout) :=
  .load spec false :: List.replicate ticks (.tick Vec2.zero ⟨60, true⟩)

/-- Behind the first shot of the gyre the ledger says 830 degrees, and the offset 110. When the mode
is static again, the last angle is what counts. Turns of more than half a turn may be folded to the
opposite direction. -/
theorem heading_stays_true_of_gyre :
    let offset (spec : EmitterSpec) (ticks : Nat) :=
      ((idle 4).after (loadAndTick spec ticks)).angleOffset
    let ledger (spec : EmitterSpec) (ticks : Nat) :=
      Heading.zero.noteCalls (idle 4) (loadAndTick spec ticks)
    gyre.program.TurnsBy 179 ∧ somersault.program.TurnsBy greatestTurn ∧
      ledger gyre 1 = ⟨0, 830⟩ ∧ offset gyre 1 = 110 ∧ 110 ≡ 0 + 830 [ZMOD 360] ∧
      ledger gyre 3 = ⟨30, -100⟩ ∧ offset gyre 3 ≡ 30 + -100 [ZMOD 360] ∧
      ledger somersault 1 = ⟨0, 720⟩ ∧ offset somersault 1 ≡ 0 + 720 [ZMOD 180] ∧
      ¬ offset somersault 1 ≡ 0 + 720 [ZMOD 360] := by
  intro offset ledger
  have hgyre : gyre.program.TurnsBy 179 := by
    intro degrees hdegrees
    simp only [gyre, List.mem_cons, Instruction.offsetAngle.injEq, reduceCtorEq, List.not_mem_nil,
      or_false, false_or] at hdegrees
    omega
  have hsomersault : somersault.program.TurnsBy greatestTurn := by
    intro degrees hdegrees
    simp only [somersault, List.mem_cons, Instruction.offsetAngle.injEq, reduceCtorEq,
      List.not_mem_nil, or_false] at hdegrees
    rw [greatestTurn]
    omega
  have hsession : ∀ {bound : Nat} {spec : EmitterSpec} (ticks : Nat), spec.program.TurnsBy bound →
      ∀ c ∈ loadAndTick spec ticks, c.TurnsBy bound := by
    intro bound spec ticks hspec
    refine List.forall_mem_cons.mpr ⟨hspec, fun c hc => ?_⟩
    rw [List.eq_of_mem_replicate hc]
    trivial
  obtain ⟨-, hfirst⟩ := heading_stays_true (idle 4) gyre false
    (List.replicate 1 (.tick Vec2.zero (⟨60, true⟩ : Lookout)))
  obtain ⟨-, hthird⟩ := heading_stays_true (idle 4) gyre false
    (List.replicate 3 (.tick Vec2.zero (⟨60, true⟩ : Lookout)))
  obtain ⟨hline, -⟩ := heading_stays_true (idle 4) somersault false
    (List.replicate 1 (.tick Vec2.zero (⟨60, true⟩ : Lookout)))
  have hoffset : offset somersault 1 = -180 := rfl
  exact ⟨hgyre, hsomersault, rfl, rfl, hfirst (hsession 1 hgyre), rfl, hthird (hsession 3 hgyre),
    rfl, hline (hsession 1 hsomersault), by rw [hoffset]; decide⟩

end Emitter

end BulletHell
