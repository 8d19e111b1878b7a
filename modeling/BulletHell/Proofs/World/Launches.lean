import BulletHell.Proofs.Actor.Requests
import BulletHell.Proofs.Pool.Sweep
import BulletHell.Proofs.World.Phases

/-!
# Launches

A request for a shot is a launch if the shot's pool has room for it. What fire control does to the
shots and to the event queue is told by its launches, in order: each pool gets the shots that
belong to it at the back of its queue, and each launch is announced. Nothing that flies already is
touched, and nothing else is announced.

## Main definitions

* `ShotPools.pool` — the pool of the shots that can hurt a target
* `Launch`, `Launch.shotsFor` — launches, and the shots that go to one pool
* `FireControl.Launches` — the launches between two states of fire control

## Main results

* `FireControl.launches_spawnShot` — one request
* `FireControl.course_launches` — whatever emitters do
* `World.launches_tickEnemies`, `World.launches_workGate` — the enemies and the player
-/

namespace BulletHell

namespace ShotPools

/-- The pool of the shots that can hurt a target. -/
def pool (p : ShotPools) : ShotTarget → Pool Shot
  | .player => p.enemy
  | .enemy => p.player
  | .both => p.neutral

/-- The pools with another one for a target. -/
def withPool (p : ShotPools) (target : ShotTarget) (q : Pool Shot) : ShotPools :=
  match target with
  | .player => { p with enemy := q }
  | .enemy => { p with player := q }
  | .both => { p with neutral := q }

theorem pool_withPool (p : ShotPools) (target other : ShotTarget) (q : Pool Shot) :
    (p.withPool target q).pool other = if target = other then q else p.pool other := by
  cases target <;> cases other <;> rfl

theorem spawn?_eq (p : ShotPools) (request : ShotRequest) (archetype : ShotArchetype)
    (tick : Nat) :
    p.spawn? request archetype tick =
      ((p.pool archetype.target).spawn? fun _ => .ofRequest request archetype tick).map
        (p.withPool archetype.target) := by
  rw [spawn?]
  cases archetype.target <;> rfl

end ShotPools

/-- A request that found room, and the kind of shot it asked for. -/
structure Launch where
  request : ShotRequest
  archetype : ShotArchetype

namespace Launch

/-- The shot that was launched. -/
def shot (l : Launch) (tick : Nat) : Shot :=
  .ofRequest l.request l.archetype tick

/-- How the launch is announced. -/
def event (l : Launch) : GameEvent :=
  .shotFired l.request.shot l.request.origin l.request.angle

/-- The launched shots that go to the pool of a target, in order. -/
def shotsFor (target : ShotTarget) (tick : Nat) (launches : List Launch) : List Shot :=
  (launches.filter (·.archetype.target = target)).map (·.shot tick)

theorem shotsFor_append (target : ShotTarget) (tick : Nat) (ls ls' : List Launch) :
    shotsFor target tick (ls ++ ls') = shotsFor target tick ls ++ shotsFor target tick ls' := by
  simp [shotsFor]

theorem shotsFor_singleton (target : ShotTarget) (tick : Nat) (l : Launch) :
    shotsFor target tick [l] = if l.archetype.target = target then [l.shot tick] else [] := by
  by_cases h : l.archetype.target = target <;> simp [shotsFor, h]

/-- Every launched shot is born on the tick of its launch. -/
theorem bornTick_of_mem_shotsFor {target : ShotTarget} {tick : Nat} {launches : List Launch}
    {shot : Shot} (h : shot ∈ shotsFor target tick launches) : shot.bornTick = tick := by
  obtain ⟨l, -, rfl⟩ := List.mem_map.mp h
  rfl

/-- Every launched shot is of the kind that was asked for. -/
theorem exists_of_mem_shotsFor {target : ShotTarget} {tick : Nat} {launches : List Launch}
    {shot : Shot} (h : shot ∈ shotsFor target tick launches) :
    ∃ l ∈ launches, shot.archetype = l.request.shot := by
  obtain ⟨l, hl, rfl⟩ := List.mem_map.mp h
  exact ⟨l, (List.mem_filter.mp hl).1, rfl⟩

end Launch

/-- One shot in the pool of its target: it is behind all others, and the other pools stay as they
were. -/
theorem ShotPools.active_spawn? {p p' : ShotPools} {request : ShotRequest}
    {archetype : ShotArchetype} {tick : Nat} (h : p.spawn? request archetype tick = some p')
    (target : ShotTarget) :
    ∃ new, (p'.pool target).active = (p.pool target).active ++ new ∧
      new.map (·.item) = Launch.shotsFor target tick [⟨request, archetype⟩] := by
  rw [spawn?_eq] at h
  obtain ⟨q, hq, rfl⟩ := Option.map_eq_some_iff.mp h
  rw [pool_withPool, Launch.shotsFor_singleton]
  by_cases htarget : archetype.target = target
  · subst htarget
    rw [if_pos rfl, if_pos rfl]
    cases hfree : (p.pool archetype.target).free with
    | nil =>
      rw [Pool.spawn?, hfree] at hq
      cases hq
    | cons fresh rest =>
      rw [Pool.spawn?, hfree] at hq
      obtain rfl := Option.some.inj hq
      exact ⟨_, rfl, rfl⟩
  · rw [if_neg htarget, if_neg htarget]
    exact ⟨[], (List.append_nil _).symm, rfl⟩

namespace FireControl

/-- The launches that lead from one state of fire control to another. -/
structure Launches (launches : List Launch) (f f' : FireControl) : Prop where
  archetypes : f'.archetypes = f.archetypes
  tick : f'.tick = f.tick
  known : ∀ l ∈ launches, f.archetypes[l.request.shot.index]? = some l.archetype
  active : ∀ target, ∃ new, (f'.shots.pool target).active = (f.shots.pool target).active ++ new ∧
    new.map (·.item) = Launch.shotsFor target f.tick launches
  events : f'.events.toList = f.events.toList ++ launches.map (·.event)

namespace Launches

variable {f f' f'' : FireControl} {ls ls' : List Launch}

/-- What leaves shots and events alone launches nothing. -/
theorem of_eq (harchetypes : f'.archetypes = f.archetypes) (htick : f'.tick = f.tick)
    (hshots : f'.shots = f.shots) (hevents : f'.events = f.events) : Launches [] f f' where
  archetypes := harchetypes
  tick := htick
  known := by simp
  active target := ⟨[], by rw [hshots, List.append_nil], rfl⟩
  events := by rw [hevents, List.map_nil, List.append_nil]

theorem append (h : Launches ls f f') (h' : Launches ls' f' f'') :
    Launches (ls ++ ls') f f'' where
  archetypes := h'.archetypes.trans h.archetypes
  tick := h'.tick.trans h.tick
  known l hl := by
    rcases List.mem_append.mp hl with hl | hl
    · exact h.known l hl
    · rw [← h.archetypes]
      exact h'.known l hl
  active target := by
    obtain ⟨new, hactive, hnew⟩ := h.active target
    obtain ⟨new', hactive', hnew'⟩ := h'.active target
    refine ⟨new ++ new', ?_, ?_⟩
    · rw [hactive', hactive, List.append_assoc]
    · rw [List.map_append, hnew, hnew', h.tick, Launch.shotsFor_append]
  events := by rw [h'.events, h.events, List.map_append, List.append_assoc]

end Launches

/-- One request: a launch, or nothing at all. -/
theorem launches_spawnShot (f : FireControl) (request : ShotRequest) :
    ∃ ls, Launches ls f (f.spawnShot request).2 := by
  rw [spawnShot]
  split
  · exact ⟨[], .of_eq rfl rfl rfl rfl⟩
  · next archetype harchetype =>
    split
    · exact ⟨[], .of_eq rfl rfl rfl rfl⟩
    · next shots hshots =>
      refine ⟨[⟨request, archetype⟩], rfl, rfl, ?_, ShotPools.active_spawn? hshots, ?_⟩
      · intro l hl
        obtain rfl := List.mem_singleton.mp hl
        exact harchetype
      · rw [Array.toList_push]
        rfl

/-- **Whatever emitters do** to fire control is told by launches. -/
theorem course_launches :
    FireContext.Course (fun _ => True) fun f f' : FireControl => ∃ ls, Launches ls f f' where
  refl f := ⟨[], .of_eq rfl rfl rfl rfl⟩
  trans := by
    rintro f f' f'' ⟨ls, h⟩ ⟨ls', h'⟩
    exact ⟨ls ++ ls', h.append h'⟩
  random f spread := ⟨[], .of_eq rfl rfl rfl rfl⟩
  spawn f request _ := f.launches_spawnShot request

end FireControl

namespace World

/-- The enemies move and fire. -/
theorem launches_tickEnemies (w : World) (now : Float) :
    ∃ ls, FireControl.Launches ls (w.fireControl w.livingPlayer 0)
      (w.enemies.sweep
        (fun fire enemy => enemy.tick now w.catalog.settings.fireCutoffHeight fire)
        (w.fireControl w.livingPlayer 0)).2 := by
  have hfire := FireControl.course_launches
  obtain ⟨-, hlaunches⟩ := Pool.sweep_course (P := fun _ => True)
    (R := fun f f' : FireControl => ∃ ls, FireControl.Launches ls f f') hfire.refl hfire.trans
    (fun fire enemy => enemy.tick now w.catalog.settings.fireCutoffHeight fire)
    (fun fire enemy _ =>
      ⟨trivial, (Enemy.tick_course hfire (Emitter.allFire_true enemy.emitters) now _ fire).2.2⟩)
    w.enemies (fun _ _ => trivial) (w.fireControl w.livingPlayer 0)
  exact hlaunches

/-- The player works the fire gate. -/
theorem launches_workGate (w : World) (fire : Bool) :
    ∃ ls, FireControl.Launches ls (w.fireControl w.nearestEnemy 180)
      (w.player.handleFire fire w.catalog.settings.player (w.fireControl w.nearestEnemy 180)).2 := by
  obtain ⟨-, -, hlaunches⟩ := Player.handleFire_course FireControl.course_launches
    (Emitter.allFire_true w.player.emitters) fire w.catalog.settings.player
    (w.fireControl w.nearestEnemy 180)
  exact hlaunches

end World

end BulletHell
