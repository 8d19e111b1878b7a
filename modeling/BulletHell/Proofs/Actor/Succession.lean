import BulletHell.Proofs.Actor.Orders
import BulletHell.Proofs.Actor.Recycled
import BulletHell.Proofs.Pattern.Kept

/-!
# One enemy after another in a slot

A slot is used by one enemy after another, and an enemy should not be told apart by who was there
before. So a slot of any history is compared here with a slot of the same room that nobody has used.
In both an enemy comes on screen, and then the same things are done to both: ticks, beats, pauses,
damage and revenge. All that can be seen is compared: answers, requested shots, what becomes of the
contexts, and the enemies themselves.

The two are the same but for one thing. Where a leg began is only written by legs that take time, so
an enemy that enters with a jump still has it from its predecessor. Most often nobody looks, as the
jump is over at once. But a pause moves the end of the jump, and a tick that finds it ahead draws
the enemy from where its predecessor set out. So what can be said is this. The slot behaves like an
unused one in which the predecessor's beginning was put. It behaves like an unused one as it is if
the enemy enters on a leg that takes time, or if no tick comes before the end of a jump as long as
only jumps were made.

## Main definitions

* `Enemy.Deed`, `Enemy.afterDeeds` — the history of a slot
* `Enemy.Seen`, `Enemy.record` — what can be seen of it
* `Enemy.Punctual` — no tick needs to know where a jump began

## Main results

* `Enemy.Passes.record` — enemies that pass for each other cannot be told apart
* `Enemy.record_withStart` — where a jump began is not seen if ticks are punctual
* `Enemy.spawn_emitters_in_place` — emitters that were used before are as good as new when loaded
* `Enemy.spawn_like_unused`
-/

namespace BulletHell

namespace Enemy

variable {σ : Type} {limits : Nat × Nat} {e e' : Enemy}

/-! ### What is done to a slot -/

/-- What is done to a slot, and to the enemy in it. -/
inductive Deed (σ : Type) where
  | spawn (s : EnemySpawn) (timing : LegTiming)
  | call (c : Call σ)
  | damage (amount : Float32)
  | revenge (ctx : σ)

/-- Does it leave the enemy in its slot? -/
def Deed.Leaves : Deed σ → Prop
  | .spawn _ _ => False
  | .call _ | .damage _ | .revenge _ => True

/-- An enemy without what is not seen of it: where its leg began, and a next step that it has no
route to take on. -/
def outward (e : Enemy) : Enemy :=
  (e.withStart Vec2.zero).shown

/-- What is seen of a deed. -/
structure Seen (σ : Type) where
  answer : Option Bool
  /-- The shots that were asked for. -/
  requests : List ShotRequest
  /-- What has become of the context. -/
  context : Option σ
  /-- The enemy afterwards. -/
  enemy : Enemy

variable [FireContext σ]

def deed (e : Enemy) : Deed σ → Enemy
  | .spawn s timing => e.spawn s timing
  | .call c => e.call c
  | .damage amount => (e.takeDamage amount).2
  | .revenge _ => e

/-- A slot after some deeds. -/
def afterDeeds (e : Enemy) (deeds : List (Deed σ)) : Enemy :=
  deeds.foldl deed e

def seen (e : Enemy) : Deed σ → Seen σ
  | .spawn s timing => ⟨none, [], none, (e.spawn s timing).outward⟩
  | .call (.tick now cutoff ctx) =>
    ⟨some (e.tick now cutoff ctx).1, (e.tick now cutoff (Noted.blank ctx)).2.2.requests,
      some (e.tick now cutoff ctx).2.2, (e.tick now cutoff ctx).2.1.outward⟩
  | .call (.beat timing) => ⟨none, [], none, (e.onBeat timing).outward⟩
  | .call (.unpause lost) => ⟨none, [], none, (e.onUnpause lost).outward⟩
  | .damage amount => ⟨some (e.takeDamage amount).1, [], none, (e.takeDamage amount).2.outward⟩
  | .revenge ctx =>
    ⟨none, (e.fireRevenge (Noted.blank ctx)).requests, some (e.fireRevenge ctx), e.outward⟩

/-- What is seen of some deeds. -/
def record : Enemy → List (Deed σ) → List (Seen σ)
  | _, [] => []
  | e, d :: deeds => e.seen d :: record (e.deed d) deeds

/-- The room of a slot stays, whatever is done. -/
theorem afterDeeds_limits (e : Enemy) (deeds : List (Deed σ)) :
    (e.afterDeeds deeds).limits = e.limits :=
  List.foldlRecOn (motive := fun e' : Enemy => e'.limits = e.limits) deeds deed rfl
    fun e' h d _ => by
      refine Eq.trans ?_ h
      cases d with
      | spawn s timing =>
        rw [deed, spawn_eq, takeStep_limits]
        rfl
      | call c =>
        cases c with
        | tick now cutoff ctx => exact congrArg Bearing.limits (e'.tick_bearing now cutoff ctx)
        | beat timing =>
          show (e'.onBeat timing).limits = e'.limits
          rw [onBeat_eq]
          split_ifs
          · rfl
          · rfl
          · rw [takeStep_limits]
            rfl
        | unpause lost => rfl
      | damage amount => rfl
      | revenge ctx => rfl

/-! ### Enemies that pass for each other -/

theorem Passes.outward (h : Passes limits e e') : e'.outward = e.outward :=
  (h.change (f := (·.withStart Vec2.zero)) (fun _ => rfl) rfl rfl).shown

theorem Passes.seen (h : Passes limits e e') {d : Deed σ} (hd : d.Leaves) :
    e'.seen d = e.seen d ∧ Passes limits (e.deed d) (e'.deed d) := by
  cases d with
  | spawn s timing => exact hd.elim
  | call c =>
    cases c with
    | tick now cutoff ctx =>
      obtain ⟨hanswer, hpasses, hcontext⟩ := h.tick FireContext.alike_eq rfl now cutoff (c := ctx)
      obtain ⟨-, -, hnoted⟩ :=
        h.tick FireContext.alike_eq rfl now cutoff (c := Noted.blank ctx)
      refine ⟨?_, hpasses⟩
      rw [Enemy.seen, Enemy.seen, hanswer, hpasses.outward, ← hcontext, ← hnoted]
    | beat timing =>
      refine ⟨?_, h.onBeat timing⟩
      rw [Enemy.seen, Enemy.seen, (h.onBeat timing).outward]
    | unpause lost =>
      refine ⟨?_, h.onUnpause lost⟩
      rw [Enemy.seen, Enemy.seen, (h.onUnpause lost).outward]
  | damage amount =>
    have hpasses := h.takeDamage amount
    refine ⟨?_, hpasses⟩
    rw [Enemy.seen, Enemy.seen, hpasses.outward]
    obtain ⟨place, rfl⟩ := h.same
    rfl
  | revenge ctx =>
    refine ⟨?_, h⟩
    rw [Enemy.seen, Enemy.seen, h.outward]
    obtain ⟨place, rfl⟩ := h.same
    rfl

/-- **Enemies that pass for each other** cannot be told apart by anything that is done to them. -/
theorem Passes.record (h : Passes limits e e') {deeds : List (Deed σ)}
    (hdeeds : ∀ d ∈ deeds, d.Leaves) : e'.record deeds = e.record deeds := by
  induction deeds generalizing e e' with
  | nil => rfl
  | cons d deeds ih =>
    obtain ⟨hd, hmore⟩ := List.forall_mem_cons.mp hdeeds
    obtain ⟨hseen, hpasses⟩ := h.seen hd
    rw [Enemy.record, Enemy.record, hseen, ih hpasses hmore]

/-! ### Where a jump began -/

/-- A beat with which the enemy sets out on a leg that takes time. -/
def SetsOut (e : Enemy) : Deed σ → Prop
  | .call (.beat timing) =>
    e.deafToBeats = false ∧ e.countBeat.beatsToGo ≤ 0 ∧ 0 < e.nextLeg timing
  | _ => False

/-- Not a tick before the end of the leg. -/
def InTime (e : Enemy) : Deed σ → Prop
  | .call (.tick now _ _) => ¬ now < e.destinationTime
  | _ => True

/-- Until the enemy sets out on a leg that takes time, no tick comes before the end of its leg. -/
def Punctual : Enemy → List (Deed σ) → Prop
  | _, [] => True
  | e, d :: deeds => e.InTime d ∧ (¬ e.SetsOut d → Punctual (e.deed d) deeds)

theorem onBeat_withStart (e : Enemy) (place : Vec2) (timing : LegTiming) :
    (e.withStart place).onBeat timing =
      if e.deafToBeats = false ∧ e.countBeat.beatsToGo ≤ 0 ∧ 0 < e.nextLeg timing then
        e.onBeat timing
      else (e.onBeat timing).withStart place := by
  have hfields : (e.withStart place).deafToBeats = e.deafToBeats ∧
      (e.withStart place).countBeat.beatsToGo = e.countBeat.beatsToGo := ⟨rfl, rfl⟩
  rw [onBeat_eq, onBeat_eq, hfields.1, hfields.2]
  by_cases hdeaf : e.deafToBeats = true
  · rw [if_pos hdeaf, if_pos hdeaf, if_neg (by simp [hdeaf])]
    rfl
  rw [if_neg hdeaf, if_neg hdeaf]
  by_cases hmore : 0 < e.countBeat.beatsToGo
  · rw [if_pos hmore, if_pos hmore, if_neg (by omega)]
    rfl
  rw [if_neg hmore, if_neg hmore]
  have hready : e.deafToBeats = false ∧ e.countBeat.beatsToGo ≤ 0 :=
    ⟨(Bool.not_eq_true _).mp hdeaf, Int.not_lt.mp hmore⟩
  have hleg : e.emittersHear.countBeat.nextLeg timing = e.nextLeg timing := rfl
  rcases Nat.eq_zero_or_pos (e.nextLeg timing) with hjump | htime
  · rw [if_neg (by omega)]
    exact takeStep_withStart_of_jump (hleg.trans hjump) place
  · rw [if_pos ⟨hready.1, hready.2, htime⟩]
    exact takeStep_withStart_of_pos (e := e.emittersHear.countBeat) (hleg ▸ htime) place

/-- One deed: where the leg began is not seen, and stays unless it is written. -/
theorem seen_withStart (place : Vec2) {d : Deed σ} (hd : d.Leaves) (hin : e.InTime d) :
    (e.withStart place).seen d = e.seen d ∧
      (e.SetsOut d ∧ (e.withStart place).deed d = e.deed d ∨
        ¬ e.SetsOut d ∧ (e.withStart place).deed d = (e.deed d).withStart place) := by
  cases d with
  | spawn s timing => exact hd.elim
  | call c =>
    cases c with
    | tick now cutoff ctx =>
      have htick := fun {τ : Type} [FireContext τ] (ctx : τ) =>
        tick_withStart e place hin cutoff ctx
      refine ⟨?_, .inr ⟨id, ?_⟩⟩
      · rw [seen, seen, htick, htick]
        rfl
      · rw [deed, call, htick]
        rfl
    | beat timing =>
      rw [seen, seen, deed, deed, call, call, onBeat_withStart]
      split
      · next hout => exact ⟨rfl, .inl ⟨hout, rfl⟩⟩
      · next hstays => exact ⟨rfl, .inr ⟨hstays, rfl⟩⟩
    | unpause lost => exact ⟨rfl, .inr ⟨id, rfl⟩⟩
  | damage amount => exact ⟨rfl, .inr ⟨id, rfl⟩⟩
  | revenge ctx => exact ⟨rfl, .inr ⟨id, rfl⟩⟩

/-- **Where a jump began** is not seen if ticks are punctual. -/
theorem record_withStart {deeds : List (Deed σ)} (hdeeds : ∀ d ∈ deeds, d.Leaves)
    (h : e.Punctual deeds) (place : Vec2) : (e.withStart place).record deeds = e.record deeds := by
  induction deeds generalizing e with
  | nil => rfl
  | cons d deeds ih =>
    obtain ⟨hd, hmore⟩ := List.forall_mem_cons.mp hdeeds
    obtain ⟨hin, hlater⟩ := h
    obtain ⟨hseen, hout | ⟨hstays, hdeed⟩⟩ := seen_withStart place hd hin
    · rw [record, record, hseen, hout.2]
    · rw [record, record, hseen, hdeed, ih hmore (hlater hstays)]

/-! ### Emitters that were used before -/

theorem takeStep_emitters (e : Enemy) (timing : LegTiming) :
    (e.takeStep timing).emitters = e.emitters := by
  have hsetOut : ∀ (e : Enemy) target count beats, (e.setOut target count beats timing).emitters =
      e.emitters := by
    intro e target count beats
    rw [setOut]
    dsimp only
    split <;> rfl
  cases hstep : e.route.bind (·[e.nextStep]?) with
  | none =>
    rw [takeStep_none hstep, hsetOut]
    rfl
  | some step =>
    rw [takeStep_some hstep, hsetOut]
    rfl

theorem zipWith_load {used : List Emitter} {maxDepth : Nat}
    (hused : ∀ emitter ∈ used, emitter.maxDepth = maxDepth) (specs : List EmitterSpec)
    (mirrored : Bool) :
    List.zipWith (fun emitter spec => emitter.load spec mirrored) used specs =
      (specs.take used.length).map (Emitter.ofSpec maxDepth mirrored) := by
  induction used generalizing specs with
  | nil => rfl
  | cons emitter used ih =>
    obtain ⟨hroom, hmore⟩ := List.forall_mem_cons.mp hused
    cases specs with
    | nil => rfl
    | cons spec specs =>
      have hload : emitter.load spec mirrored = Emitter.ofSpec maxDepth mirrored spec := by
        rw [← hroom]
        rfl
      rw [List.zipWith_cons_cons, List.length_cons, List.take_succ_cons, List.map_cons, hload,
        ih hmore]

/-- The emitters of an enemy that comes on screen may be those that were there before, whatever was
done with them, loaded in their places. -/
theorem spawn_emitters_in_place (e : Enemy) (s : EnemySpawn) (timing : LegTiming)
    {pasts : List (List (Emitter.Call σ))} (hpasts : pasts.length = e.maxEmitters) :
    List.zipWith (fun emitter spec => emitter.load spec s.mirrored)
        (pasts.map (Emitter.idle e.maxDepth).after) s.archetype.emitters =
      (e.spawn s timing).emitters := by
  have hroom : ∀ emitter ∈ pasts.map (Emitter.idle e.maxDepth).after,
      emitter.maxDepth = e.maxDepth := by
    intro emitter hmem
    obtain ⟨past, -, rfl⟩ := List.mem_map.mp hmem
    exact Emitter.after_maxDepth _ past
  rw [zipWith_load hroom, List.length_map, hpasts, spawn_eq, takeStep_emitters]
  rfl

/-! ### A used slot and an unused one -/

/-- The beats of the leg that an enemy enters on; none for a jump. -/
def firstLeg (s : EnemySpawn) (timing : LegTiming) : Nat :=
  (firstStep? s).elim timing.exitBeats (·.beats)

/-- **A used slot behaves like an unused one** of the same room, up to where a leg began that was
written there last. Right after an enemy has come on screen the two look alike. All that is done
afterwards looks as in an unused slot in which that beginning was put. It looks as in an unused slot
as it is if the enemy enters on a leg that takes time, and otherwise as long as ticks are punctual.
And if the enemy enters with a jump, the beginning is still there. -/
theorem spawn_like_unused (maxEmitters maxDepth : Nat) (history : List (Deed σ)) (s : EnemySpawn)
    (timing : LegTiming) {deeds : List (Deed σ)} (hdeeds : ∀ d ∈ deeds, d.Leaves) :
    let unused := blank maxEmitters maxDepth
    let slot := unused.afterDeeds history
    (slot.spawn s timing).outward = (unused.spawn s timing).outward ∧
      (slot.spawn s timing).record deeds =
        ((unused.withStart slot.start).spawn s timing).record deeds ∧
      (0 < firstLeg s timing ∨ (unused.spawn s timing).Punctual deeds →
        (slot.spawn s timing).record deeds = (unused.spawn s timing).record deeds) ∧
      (firstLeg s timing = 0 → (slot.spawn s timing).start = slot.start) ∧
      ∀ pasts : List (List (Emitter.Call σ)), pasts.length = maxEmitters →
        List.zipWith (fun emitter spec => emitter.load spec s.mirrored)
            (pasts.map (Emitter.idle maxDepth).after) s.archetype.emitters =
          (slot.spawn s timing).emitters := by
  intro unused slot
  have hlimits : slot.limits = (maxEmitters, maxDepth) := unused.afterDeeds_limits history
  have hleg : ∀ e : Enemy, (e.entered s timing).nextLeg timing = firstLeg s timing :=
    fun e => nextLeg_entered e s timing
  have hpasses : Passes (maxEmitters, maxDepth) (slot.spawn s timing)
      ((unused.withStart slot.start).spawn s timing) := by
    have hroom : (unused.withStart slot.start).limits = (maxEmitters, maxDepth) := rfl
    exact passes_spawn_of_start hlimits hroom rfl s timing
  have hsame := hpasses.record hdeeds
  refine ⟨?_, hsame.symm, ?_, ?_, ?_⟩
  · rw [← hpasses.outward]
    rcases Nat.eq_zero_or_pos (firstLeg s timing) with hjump | htime
    · rw [spawn_withStart_of_jump ((hleg unused).trans hjump)]
      rfl
    · rw [spawn_withStart_of_pos (hleg unused ▸ htime)]
  · intro hcase
    rw [← hsame]
    rcases Nat.eq_zero_or_pos (firstLeg s timing) with hjump | htime
    · rw [spawn_withStart_of_jump ((hleg unused).trans hjump)]
      exact record_withStart hdeeds (hcase.resolve_left (by omega)) slot.start
    · rw [spawn_withStart_of_pos (hleg unused ▸ htime)]
  · intro hjump
    have hstart := spawn_withStart_of_jump ((hleg slot).trans hjump) slot.start
    exact congrArg (fun e => e.start) hstart
  · intro pasts hpasts
    obtain ⟨hemitters, hdepth⟩ := Prod.mk.inj hlimits
    have hplaces := slot.spawn_emitters_in_place s timing (hpasts.trans hemitters.symm)
    rwa [hdepth] at hplaces

/-- An enemy without emitters that enters at a lane, on a route of a single step. -/
def courier (lane : Float32) (target : Vec2) (beats : Nat) : EnemySpawn where
  id := ⟨0⟩
  archetype := ⟨"courier", 1, 0, [], [], [], .linear, .linear, []⟩
  lane := lane
  mirrored := false
  exempt := false
  route := some ⟨[{ target := target, beats := beats }], 0⟩

/-- A slot in which a courier has set out from the lane at 1. -/
def courierHistory : List (Deed FireControl) :=
  [.spawn (courier 1 ⟨0, 2⟩ 2) ⟨0, 0.5, 4⟩]

/-- A tick when a jump is over. -/
def prompt : List (Deed FireControl) :=
  [.call (.tick 0.7 (-1.5) .emptySky)]

/-- A pause, and a tick before the end of a jump that was over before the pause. -/
def prolonged : List (Deed FireControl) :=
  [.call (.unpause 2.2), .call (.tick 2.9 (-1.5) .emptySky)]

/-- The next courier is as in an unused slot if it has two beats to go, and also if it jumps and is
ticked then. But after the pause a tick looks up where the jump began, and finds the lane at 1. -/
theorem spawn_like_unused_of_courier :
    let slot := (blank 4 8).afterDeeds courierHistory
    let timing : LegTiming := ⟨0.7, 0.5, 4⟩
    (slot.spawn (courier 0 ⟨2, 1⟩ 2) timing).record prolonged =
        ((blank 4 8).spawn (courier 0 ⟨2, 1⟩ 2) timing).record prolonged ∧
      (slot.spawn (courier 0 ⟨2, 1⟩ 0) timing).record prompt =
        ((blank 4 8).spawn (courier 0 ⟨2, 1⟩ 0) timing).record prompt ∧
      ¬ ((blank 4 8).spawn (courier 0 ⟨2, 1⟩ 0) timing).Punctual prolonged ∧
      (slot.spawn (courier 0 ⟨2, 1⟩ 0) timing).start = ⟨1, Playfield.entryHeight⟩ := by
  intro slot timing
  have hprompt : ∀ d ∈ prompt, d.Leaves := by
    simp [prompt, Deed.Leaves]
  have hprolonged : ∀ d ∈ prolonged, d.Leaves := by
    simp [prolonged, Deed.Leaves]
  have hpunctual : ((blank 4 8).spawn (courier 0 ⟨2, 1⟩ 0) timing).Punctual prompt := by
    refine ⟨?_, fun _ => trivial⟩
    show ¬ (0.7 : Float) < 0.7
    decide +kernel
  have hlate : ¬ ((blank 4 8).spawn (courier 0 ⟨2, 1⟩ 0) timing).Punctual prolonged := by
    rintro ⟨-, hticked⟩
    obtain ⟨hin, -⟩ := hticked id
    refine hin ?_
    show (2.9 : Float) < 0.7 + 2.2
    decide +kernel
  obtain ⟨-, -, hwalks, -⟩ := spawn_like_unused 4 8 courierHistory (courier 0 ⟨2, 1⟩ 2) timing
    hprolonged
  obtain ⟨-, -, hjumps, hstart, -⟩ := spawn_like_unused 4 8 courierHistory (courier 0 ⟨2, 1⟩ 0)
    timing hprompt
  exact ⟨hwalks (.inl (by decide)), hjumps (.inr hpunctual), hlate, hstart rfl⟩

end Enemy

end BulletHell
