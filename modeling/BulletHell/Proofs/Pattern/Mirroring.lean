import Mathlib.Data.List.Forall2
import BulletHell.Proofs.Pattern.Kept
import BulletHell.Proofs.Pattern.Noted

/-!
# Mirrored emitters

An emitter that is loaded mirrored turns the other way round. What one wants of it is more than
that: its whole pattern should be the mirror image of the one that it would fire otherwise. The
mirror image of an emitter keeps its place in the program and all that it waits for, and has its
angles to the other side. This file shows that it stays a mirror image over all calls, provided that
the target and the random angles are mirrored, too.

Three things are needed for this. Folding treats both sides alike, at the ends of its range as well.
The mirror instruction and the change of modes do not care which of the two images they meet. And no
turn is saturated, for there is one more angle to one side than to the other: a program that names
the least of all angles does not turn back by it. As the offset itself is always folded, it is
enough that no single turn comes within half a turn of the greatest angle.

Nothing is asked of the sizes of the angles to the target and of the random angles. And whether
there is room for a shot may be answered differently, as an emitter does not look at it.

## Main definitions

* `Emitter.mirrorImage`, `ShotRequest.mirrored`
* `FireContext.Opposite` — a relation between mirrored surroundings
* `Program.TurnsBy` — a bound for the turns of a program

## Main results

* `Emitter.execute_mirrored`, `Emitter.run_mirrored`, `Emitter.tick_mirrored`
* `Emitter.mirrored_session`
-/

namespace BulletHell

/-- The same shot to the other side. -/
def ShotRequest.mirrored (r : ShotRequest) : ShotRequest :=
  { r with angle := -r.angle }

/-- No turn is greater than `bound`, to either side. -/
def Program.TurnsBy (bound : Nat) (p : Program) : Prop :=
  ∀ degrees, .offsetAngle degrees ∈ p.instructions → degrees.natAbs ≤ bound

/-- The greatest turn that is not saturated, wherever the emitter is turned to. -/
def greatestTurn : Nat := 0x7fffffff - 180

variable {σ σ' : Type} [FireContext σ] [FireContext σ'] {R : σ → σ' → Prop} {c : σ} {c' : σ'}

/-- Surroundings that are related have their target to the other side, and draw random angles to
the other side within the same spread. They stay related over these draws, and over requests for
mirrored shots, whether there is room for them or not. -/
structure FireContext.Opposite (R : σ → σ' → Prop) : Prop where
  angle : ∀ {c : σ} {c' : σ'}, R c c' → ∀ origin,
    FireContext.angleToTarget c' origin = -FireContext.angleToTarget c origin
  random : ∀ {c : σ} {c' : σ'}, R c c' → ∀ spread,
    ∃ d', FireContext.randomSpread c' (-spread) = (-(FireContext.randomSpread c spread).1, d') ∧
      R (FireContext.randomSpread c spread).2 d'
  spawn : ∀ {c : σ} {c' : σ'}, R c c' → ∀ request : ShotRequest,
    R (FireContext.spawnShot c request).2 (FireContext.spawnShot c' request.mirrored).2

/-- Notes of surroundings to either side: the shots that were asked for are mirrored. -/
def Noted.Opposite (R : σ → σ' → Prop) (noted : Noted σ) (noted' : Noted σ') : Prop :=
  R noted.context noted'.context ∧ noted'.requests = noted.requests.map ShotRequest.mirrored

theorem FireContext.Opposite.noted (hR : Opposite R) : Opposite (Noted.Opposite R) where
  angle h origin := hR.angle h.1 origin
  random := by
    rintro noted noted' ⟨hcontext, hrequests⟩ spread
    obtain ⟨d', hdraw, hd⟩ := hR.random hcontext spread
    refine ⟨⟨d', noted'.requests⟩, ?_, hd, hrequests⟩
    show ((FireContext.randomSpread noted'.context (-spread)).1,
      (⟨(FireContext.randomSpread noted'.context (-spread)).2, noted'.requests⟩ : Noted σ')) = _
    rw [hdraw]
    rfl
  spawn := by
    rintro noted noted' ⟨hcontext, hrequests⟩ request
    refine ⟨hR.spawn hcontext request, ?_⟩
    show noted'.requests ++ [request.mirrored] =
      (noted.requests ++ [request]).map ShotRequest.mirrored
    rw [hrequests, List.map_append, List.map_singleton]

namespace Emitter

variable {e : Emitter}

/-- The emitter that turns the other way round, and has its angles to the other side. -/
def mirrorImage (e : Emitter) : Emitter :=
  { e with mirrored := !e.mirrored, angleOffset := -e.angleOffset, lastAngle := -e.lastAngle }

/-- The angles are folded, and no turn of the program is saturated. -/
structure Steady (e : Emitter) : Prop where
  folded : e.Folded
  program : e.program.TurnsBy greatestTurn

theorem kept_steady (σ : Type) [FireContext σ] : Kept σ Steady where
  cycle h origin ctx :=
    ⟨kept_folded.cycle h.folded origin ctx, by
      rw [(kept_program _).cycle rfl origin ctx]
      exact h.program⟩
  waits h frames beats := ⟨(kept_folded (σ := σ)).waits h.folded frames beats, h.program⟩
  rewind h := ⟨folded_rewind _, h.program⟩

/-! ### One instruction -/

/-- Without saturation a turn is an addition. -/
theorem turn_eq (h : e.Folded) {degrees : Int} (hdegrees : degrees.natAbs ≤ greatestTurn) :
    e.turn degrees = { e with
      angleOffset := wrapAngle (e.angleOffset + if e.mirrored then -degrees else degrees) } := by
  have hoffset := h.offset
  rw [greatestTurn] at hdegrees
  have hdelta : (e.angleOffset + if e.mirrored then -degrees else degrees).natAbs ≤ 0x7fffffff := by
    cases e.mirrored with
    | true => exact (by omega : (e.angleOffset + -degrees).natAbs ≤ 0x7fffffff)
    | false => exact (by omega : (e.angleOffset + degrees).natAbs ≤ 0x7fffffff)
  rw [turn, saturate_eq_self (by omega : (-degrees).natAbs ≤ 0x7fffffff), saturate_eq_self hdelta]

theorem Folded.mirrorImage (h : e.Folded) : e.mirrorImage.Folded where
  offset := (Int.natAbs_neg e.angleOffset).symm ▸ h.offset
  last := (Int.natAbs_neg e.lastAngle).symm ▸ h.last

theorem mirrorImage_turn (h : e.Folded) {degrees : Int}
    (hdegrees : degrees.natAbs ≤ greatestTurn) :
    e.mirrorImage.turn degrees = (e.turn degrees).mirrorImage := by
  have hangle : e.mirrorImage.angleOffset + (if e.mirrorImage.mirrored then -degrees else degrees) =
      -(e.angleOffset + if e.mirrored then -degrees else degrees) := by
    rw [Emitter.mirrorImage]
    cases e.mirrored with
    | true => exact (by omega : -e.angleOffset + degrees = -(e.angleOffset + -degrees))
    | false => exact (by omega : -e.angleOffset + -degrees = -(e.angleOffset + degrees))
  rw [turn_eq h hdegrees, turn_eq h.mirrorImage hdegrees, hangle, wrapAngle_neg]
  rfl

theorem mirrorImage_setMode (e : Emitter) (mode : FireMode) :
    e.mirrorImage.setMode mode = (e.setMode mode).mirrorImage := by
  by_cases hsame : mode = e.mode
  · rw [setMode, setMode, if_pos hsame]
    exact if_pos hsame
  · rw [setMode, setMode, if_neg hsame]
    refine (if_neg hsame).trans ?_
    cases mode <;> rfl

theorem mirrorImage_repeatEnd (e : Emitter) :
    e.mirrorImage.repeatEnd = e.repeatEnd.mirrorImage := by
  cases hframes : e.repeats with
  | nil =>
    rw [repeatEnd_nil hframes]
    exact repeatEnd_nil hframes
  | cons frame frames =>
    rcases stop_cases frame e.counter with hown | ⟨stop, hstop, hother⟩
    · rw [repeatEnd_eq hframes hown, repeatEnd_eq (e := e.mirrorImage) hframes hown]
      split <;> rfl
    · rw [repeatEnd_of_ne hframes hstop hother]
      exact repeatEnd_of_ne hframes hstop hother

theorem mirrorImage_endOfProgram (e : Emitter) :
    e.mirrorImage.endOfProgram = (e.endOfProgram.1, e.endOfProgram.2.mirrorImage) := by
  cases hframes : e.repeats with
  | nil =>
    rw [endOfProgram_nil hframes]
    exact endOfProgram_nil hframes
  | cons frame frames =>
    rw [endOfProgram_eq hframes, endOfProgram_eq (e := e.mirrorImage) hframes]
    split <;> rfl

theorem aim_mirrored (hR : FireContext.Opposite R) (h : R c c') (e : Emitter) (origin : Vec2) :
    ∃ d', e.mirrorImage.aim origin c' = (-(e.aim origin c).1, d') ∧ R (e.aim origin c).2 d' := by
  cases hmode : e.mode with
  | static =>
    simp only [aim, mirrorImage, hmode]
    exact ⟨c', rfl, h⟩
  | aimed =>
    simp only [aim, mirrorImage, hmode, hR.angle h, ← Int.neg_add, wrapAngle_neg]
    exact ⟨c', rfl, h⟩
  | random =>
    obtain ⟨d', hdraw, hd⟩ := hR.random h e.angleOffset
    simp only [aim, mirrorImage, hmode, hdraw, hR.angle hd, ← Int.neg_add, wrapAngle_neg]
    exact ⟨d', rfl, hd⟩

theorem fire_mirrored (hR : FireContext.Opposite R) (h : R c c') (e : Emitter) (origin : Vec2) :
    ∃ d', e.mirrorImage.fire origin c' = ((e.fire origin c).1.mirrorImage, d') ∧
      R (e.fire origin c).2 d' := by
  obtain ⟨d', haim, hd⟩ := e.aim_mirrored hR h origin
  simp only [fire, haim]
  exact ⟨_, rfl, hR.spawn hd _⟩

theorem execute_mirrored (hR : FireContext.Opposite R) (h : R c c') (he : e.Steady)
    (origin : Vec2) {op : Instruction} (hop : op ∈ e.program.instructions) :
    ∃ d', e.mirrorImage.execute origin c' op =
        ((e.execute origin c op).1, (e.execute origin c op).2.1.mirrorImage, d') ∧
      R (e.execute origin c op).2.2 d' := by
  cases op with
  | fire =>
    obtain ⟨d', hfire, hd⟩ := e.fire_mirrored hR h origin
    simp only [execute, hfire]
    exact ⟨d', rfl, hd⟩
  | offsetAngle degrees =>
    simp only [execute, mirrorImage_turn he.folded (he.program degrees hop)]
    exact ⟨c', rfl, h⟩
  | setMode mode =>
    simp only [execute, mirrorImage_setMode]
    exact ⟨c', rfl, h⟩
  | repeatEnd =>
    simp only [execute, mirrorImage_repeatEnd]
    exact ⟨c', rfl, h⟩
  | _ => exact ⟨c', rfl, h⟩

/-! ### Calls -/

theorem cycle_mirrored (hR : FireContext.Opposite R) (h : R c c') (he : e.Steady)
    (origin : Vec2) :
    ∃ d', e.mirrorImage.cycle origin c' =
        ((e.cycle origin c).1, (e.cycle origin c).2.1.mirrorImage, d') ∧
      R (e.cycle origin c).2.2 d' := by
  cases hfetch : e.program.fetch? e.counter with
  | none =>
    have himage : e.mirrorImage.program.fetch? e.mirrorImage.counter = none := hfetch
    simp only [cycle, hfetch, himage, mirrorImage_endOfProgram]
    exact ⟨c', rfl, h⟩
  | some op =>
    have himage : e.mirrorImage.program.fetch? e.mirrorImage.counter = some op := hfetch
    simp only [cycle, hfetch, himage]
    exact execute_mirrored hR h he origin (List.mem_of_getElem? hfetch)

/-- Any number of cycles, up to the end of the tick. -/
theorem run_mirrored (hR : FireContext.Opposite R) (h : R c c') (he : e.Steady) (origin : Vec2)
    (budget : Nat) :
    ∃ d', run origin budget e.mirrorImage c' =
        ((run origin budget e c).1, (run origin budget e c).2.1.mirrorImage, d') ∧
      R (run origin budget e c).2.2 d' := by
  induction budget generalizing e c c' with
  | zero => exact ⟨c', rfl, h⟩
  | succ budget ih =>
    obtain ⟨d', hcycle, hd⟩ := cycle_mirrored hR h he origin
    have hsteady := (kept_steady σ).cycle he origin c
    rcases hfirst : e.cycle origin c with ⟨flow, e', d⟩
    rw [hfirst] at hcycle hd hsteady
    simp only [run, hfirst, hcycle]
    cases flow with
    | running => exact ih hd hsteady
    | yielded => exact ⟨d', rfl, hd⟩
    | ended => exact ⟨d', rfl, hd⟩

theorem tick_mirrored (hR : FireContext.Opposite R) (h : R c c') (he : e.Steady)
    (owner : Vec2) :
    ∃ d', e.mirrorImage.tick owner c' =
        ((e.tick owner c).1, (e.tick owner c).2.1.mirrorImage, d') ∧
      R (e.tick owner c).2.2 d' := by
  rcases e.tick_cases owner c with ⟨hbeats, htick⟩ | ⟨hbeats, hframes, htick⟩ |
    ⟨hbeats, hframes, htick⟩
  · rw [htick, tick_of_waitBeats (e := e.mirrorImage) hbeats]
    exact ⟨c', rfl, h⟩
  · rw [htick, tick_of_waitFrames (e := e.mirrorImage) hbeats hframes]
    exact ⟨c', rfl, h⟩
  · rw [htick, tick_of_ready (e := e.mirrorImage) hbeats hframes]
    exact run_mirrored hR h ((kept_steady σ).waits he 0 e.waitBeats) _ _

theorem restart_mirrored (hR : FireContext.Opposite R) (h : R c c') (he : e.Steady)
    (owner : Vec2) :
    ∃ d', e.mirrorImage.restart owner c' =
        ((e.restart owner c).1, (e.restart owner c).2.1.mirrorImage, d') ∧
      R (e.restart owner c).2.2 d' :=
  tick_mirrored hR h ((kept_steady σ).rewind he) owner

/-! ### Sessions -/

/-- The same call with mirrored surroundings. No program is loaded by it. -/
inductive Call.Opposite (R : σ → σ' → Prop) : Call σ → Call σ' → Prop
  | restart (owner : Vec2) {c : σ} {c' : σ'} (h : R c c') :
    Opposite R (.restart owner c) (.restart owner c')
  | tick (owner : Vec2) {c : σ} {c' : σ'} (h : R c c') :
    Opposite R (.tick owner c) (.tick owner c')
  | beat : Opposite R .beat .beat

/-- **One call**: the emitter stays a mirror image, answers the same, and asks for mirrored shots.
The emitter stays steady. -/
theorem call_mirrored (hR : FireContext.Opposite R) (he : e.Steady) {a : Call σ} {a' : Call σ'}
    (ha : a.Opposite R a') :
    e.mirrorImage.call a' = (e.call a).mirrorImage ∧
      (e.mirrorImage.entry a').answer = (e.entry a).answer ∧
      e.mirrorImage.requests a' = (e.requests a).map ShotRequest.mirrored ∧ (e.call a).Steady := by
  cases ha with
  | restart owner h =>
    obtain ⟨d', hrestart, -⟩ := restart_mirrored hR h he owner
    obtain ⟨n', hnoted, -, hrequests⟩ :=
      restart_mirrored hR.noted (⟨h, rfl⟩ : Noted.Opposite R (.blank _) (.blank _)) he owner
    refine ⟨?_, ?_, ?_, (kept_steady σ).call he fun _ _ => nofun⟩
    · rw [call, hrestart, call]
    · rw [entry, hrestart, entry]
    · rw [requests, hnoted, requests]
      exact hrequests
  | tick owner h =>
    obtain ⟨d', htick, -⟩ := tick_mirrored hR h he owner
    obtain ⟨n', hnoted, -, hrequests⟩ :=
      tick_mirrored hR.noted (⟨h, rfl⟩ : Noted.Opposite R (.blank _) (.blank _)) he owner
    refine ⟨?_, ?_, ?_, (kept_steady σ).call he fun _ _ => nofun⟩
    · rw [call, htick, call]
    · rw [entry, htick, entry]
    · rw [requests, hnoted, requests]
      exact hrequests
  | beat => exact ⟨rfl, rfl, rfl, (kept_steady σ).call (c := .beat) he fun _ _ => nofun⟩

/-- Any number of calls of a mirror image. -/
theorem session_mirrored (hR : FireContext.Opposite R) (he : e.Steady) {calls : List (Call σ)}
    {calls' : List (Call σ')} (hcalls : List.Forall₂ (Call.Opposite R) calls calls') :
    e.mirrorImage.after calls' = (e.after calls).mirrorImage ∧
      (e.mirrorImage.log calls').map (·.answer) = (e.log calls).map (·.answer) ∧
      e.mirrorImage.requestLog calls' =
        (e.requestLog calls).map (·.map ShotRequest.mirrored) := by
  induction hcalls generalizing e with
  | nil => exact ⟨rfl, rfl, rfl⟩
  | cons ha _ ih =>
    obtain ⟨hcall, hanswer, hrequests, hsteady⟩ := call_mirrored hR he ha
    obtain ⟨hafter, hlog, hrequestLog⟩ := ih hsteady
    refine ⟨?_, ?_, ?_⟩
    · rw [after, List.foldl_cons, hcall]
      exact hafter
    · rw [log, List.map_cons, hanswer, hcall, hlog]
      rfl
    · rw [requestLog, hrequests, hcall, hrequestLog]
      rfl

/-- **Mirroring mirrors.** Load a program of which no turn is saturated into one emitter as it is,
and into another one mirrored, and take both through the same calls, in surroundings that are
mirrored. Then they answer the same, ask for the same shots to the other side, and stay mirror
images. -/
theorem mirrored_session (hR : FireContext.Opposite R) {spec : EmitterSpec}
    (hspec : spec.program.TurnsBy greatestTurn) {e e' : Emitter} (hdepth : e'.maxDepth = e.maxDepth)
    {calls : List (Call σ)} {calls' : List (Call σ')}
    (hcalls : List.Forall₂ (Call.Opposite R) calls calls') :
    (e'.load spec true).after calls' = ((e.load spec false).after calls).mirrorImage ∧
      ((e'.load spec true).log calls').map (·.answer) =
        ((e.load spec false).log calls).map (·.answer) ∧
      (e'.load spec true).requestLog calls' =
        ((e.load spec false).requestLog calls).map (·.map ShotRequest.mirrored) := by
  have hload : e'.load spec true = (e.load spec false).mirrorImage := by
    rw [load, hdepth]
    rfl
  rw [hload]
  exact session_mirrored (e := e.load spec false) hR ⟨folded_rewind _, hspec⟩ hcalls

end Emitter

/-- Surroundings with a target in a fixed direction, and with random angles at the end of the
spread. -/
structure Lookout where
  angle : Int
  /-- Is there room for shots? -/
  room : Bool

namespace Lookout

instance : FireContext Lookout where
  angleToTarget c _ := c.angle
  randomSpread c spread := (spread, c)
  spawnShot c _ := (c.room, c)

/-- The targets are to different sides. -/
def Opposite (c c' : Lookout) : Prop :=
  c'.angle = -c.angle

theorem opposite : FireContext.Opposite Opposite where
  angle h _ := h
  random h _ := ⟨_, rfl, h⟩
  spawn h _ := h

end Lookout

namespace Emitter

/-- Shots in all modes. The second one goes straight up, and the turn behind it is folded. -/
def swerve : List Instruction :=
  [.setMode .aimed, .offsetAngle 150, .fire, .mirror, .offsetAngle 30, .fire, .setMode .random,
    .offsetAngle 250, .fire, .setMode .static, .fire]

/-- Four shots and one more from the start, with a beat in between. The restart leaves the emitter
turning the other way round. -/
def swerveCalls (c : Lookout) : List (Call Lookout) :=
  [.tick Vec2.zero c, .tick Vec2.zero c, .beat, .tick Vec2.zero c, .tick Vec2.zero c,
    .restart Vec2.zero c]

theorem mirrored_session_of_swerve :
    let spec : EmitterSpec := ⟨Vec2.zero, ⟨0⟩, 1, ⟨swerve⟩⟩
    let requests := ((idle 4).load spec false).requestLog (swerveCalls ⟨60, true⟩)
    let requests' := ((idle 4).load spec true).requestLog (swerveCalls ⟨-60, false⟩)
    spec.program.TurnsBy greatestTurn ∧
      ((idle 4).load spec true).after (swerveCalls ⟨-60, false⟩) =
        (((idle 4).load spec false).after (swerveCalls ⟨60, true⟩)).mirrorImage ∧
      requests' = requests.map (·.map ShotRequest.mirrored) ∧
      requests.map (·.map (·.angle)) = [[-150], [180], [], [170], [170], [-90]] := by
  intro spec requests requests'
  have hspec : spec.program.TurnsBy greatestTurn := by
    intro degrees hdegrees
    simp only [spec, swerve, List.mem_cons, Instruction.offsetAngle.injEq, reduceCtorEq,
      List.not_mem_nil, or_false, false_or] at hdegrees
    rw [greatestTurn]
    omega
  have hside : Lookout.Opposite ⟨60, true⟩ ⟨-60, false⟩ := rfl
  have hcalls : List.Forall₂ (Call.Opposite Lookout.Opposite) (swerveCalls ⟨60, true⟩)
      (swerveCalls ⟨-60, false⟩) :=
    .cons (.tick _ hside) (.cons (.tick _ hside) (.cons .beat (.cons (.tick _ hside)
      (.cons (.tick _ hside) (.cons (.restart _ hside) .nil)))))
  have hdepth : (idle 4).maxDepth = (idle 4).maxDepth := rfl
  obtain ⟨hafter, -, hrequests⟩ := mirrored_session Lookout.opposite hspec hdepth hcalls
  exact ⟨hspec, hafter, hrequests, by decide +kernel⟩

end Emitter

end BulletHell
