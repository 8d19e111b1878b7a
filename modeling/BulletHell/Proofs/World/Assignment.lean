import BulletHell.World.Collision

/-!
# What shots are spent on

The first pass goes through the enemies and, for each of them, through two pools of shots that
shrink on the way and may grow again when a kill is answered with fire. From the side of the
shots it is one assignment: a shot is spent on the first enemy that it touches, and an enemy
suffers from the shots that are spent on it and from no others.

The assignment is written down here without the pass. It looks at all enemies that were active in
the beginning, whatever became of those before. Its lemmas follow the pass in two ways: what the
first of the enemies gets and what it leaves to the others, and that fresh shots do not count.

## Main definitions

* `Skirmish.touches`, `Skirmish.firstTouched` — the assignment
* `Skirmish.share` — the shots that are spent on one enemy
* `Skirmish.fate`, `Skirmish.fates` — what becomes of the enemies through their shares
* `Skirmish.records` — the contacts

## Main results

* `Skirmish.share_perm` — the shares divide the spent shots among the enemies
-/

namespace BulletHell

namespace Skirmish

/-! ### The assignment -/

/-- The contact of a shot with an enemy. -/
def contact (s : Skirmish) (enemy : Enemy) (shot : Shot) : ShotContact :=
  match s.catalog.enemy? enemy.archetype with
  | none => .miss
  | some archetype => shotContact shot enemy.position archetype

/-- Does the shot touch the enemy? A fresh shot touches nobody. -/
def touches (s : Skirmish) (enemy : Enemy) (shot : Shot) : Bool :=
  !shot.isFresh s.tick && s.contact enemy shot ≠ .miss

/-- The first enemy that the shot touches, by its place. -/
def firstTouched (s : Skirmish) (enemies : List Enemy) (shot : Shot) : Option Nat :=
  enemies.findIdx? (s.touches · shot)

/-- The shots that are spent on the enemy at a place. -/
def share (s : Skirmish) (enemies : List Enemy) (shots : List Shot) (i : Nat) : List Shot :=
  shots.filter (s.firstTouched enemies · = some i)

/-- Is a shot from the pool of a target spent on any of the enemies? The shots that hurt only the
player never are. -/
def spends (s : Skirmish) (enemies : List Enemy) (target : ShotTarget) (shot : Shot) : Bool :=
  target ≠ .player && (s.firstTouched enemies shot).isSome

/-- The contact that is recorded for a shot. -/
def record (s : Skirmish) (enemy : Enemy) (shot : Shot) : EffectKind × Vec2 :=
  (if s.contact enemy shot = .shielded then .shieldHit else .hurtHit, shot.position)

/-- The damage that shots do to an enemy: those that its shield does not absorb. -/
def harm (s : Skirmish) (enemy : Enemy) (shots : List Shot) : Float32 :=
  (shots.filter (s.contact enemy · = .hurt)).foldl (fun damage shot => damage + shot.damage) 0

/-- The damage to an enemy on which neutral shots and shots of the player are spent. The player's
body counts last. -/
def damage (s : Skirmish) (enemy : Enemy) (archetype : EnemyArchetype)
    (neutral player : List Shot) : Float32 :=
  match s.melee? enemy.position archetype with
  | some melee => s.harm enemy neutral + s.harm enemy player + melee
  | none => s.harm enemy neutral + s.harm enemy player

/-- What is left of an enemy that takes damage, `none` if it is killed. -/
def leave (enemy : Enemy) (damage : Float32) : Option Enemy :=
  if damage ≤ 0 then some enemy
  else if (enemy.takeDamage damage).1 then none
  else some (enemy.takeDamage damage).2

/-- What becomes of an enemy on which neutral shots and shots of the player are spent. -/
def fate (s : Skirmish) (enemy : Enemy) (neutral player : List Shot) : Option Enemy :=
  match s.catalog.enemy? enemy.archetype with
  | none => some enemy
  | some archetype => leave enemy (s.damage enemy archetype neutral player)

/-- The contacts of all enemies in order, for each of them first those of neutral shots. -/
def records (s : Skirmish) (enemies : List Enemy) (neutral player : List Shot) :
    List (EffectKind × Vec2) :=
  (enemies.mapIdx fun i enemy =>
    (s.share enemies neutral i ++ s.share enemies player i).map (s.record enemy)).flatten

/-- The fates of all enemies in order, for each of them with its slot. -/
def fates (s : Skirmish) (slots : List (Slot Enemy)) (neutral player : List Shot) :
    List (Option (Slot Enemy)) :=
  let enemies := slots.map (·.item)
  slots.mapIdx fun i slot =>
    (s.fate slot.item (s.share enemies neutral i) (s.share enemies player i)).map
      (⟨slot.index, ·⟩)

variable {s : Skirmish}

@[simp] theorem firstTouched_nil (shot : Shot) : s.firstTouched [] shot = none :=
  rfl

/-- A shot is spent if it is not fresh and has contact with any of the enemies. -/
theorem isSome_firstTouched (enemies : List Enemy) (shot : Shot) :
    (s.firstTouched enemies shot).isSome ↔
      shot.isFresh s.tick = false ∧ ∃ enemy ∈ enemies, s.contact enemy shot ≠ .miss := by
  cases hfresh : shot.isFresh s.tick <;> simp [firstTouched, touches, hfresh]

theorem firstTouched_cons (enemy : Enemy) (enemies : List Enemy) (shot : Shot) :
    s.firstTouched (enemy :: enemies) shot =
      if s.touches enemy shot then some 0 else (s.firstTouched enemies shot).map (· + 1) := by
  rw [firstTouched, List.findIdx?_cons, firstTouched]

theorem touches_of_fresh {shot : Shot} (h : shot.bornTick = s.tick) (enemy : Enemy) :
    s.touches enemy shot = false := by
  simp [touches, Shot.isFresh, h]

theorem firstTouched_of_fresh {shot : Shot} (h : shot.bornTick = s.tick) (enemies : List Enemy) :
    s.firstTouched enemies shot = none := by
  simp [firstTouched, List.findIdx?_eq_none_iff, touches_of_fresh h]

/-! ### One enemy, then the others -/

@[simp] theorem spends_nil (target : ShotTarget) (shot : Shot) :
    s.spends [] target shot = false := by
  simp [spends]

theorem spends_singleton (enemy : Enemy) (target : ShotTarget) (shot : Shot) :
    s.spends [enemy] target shot = (decide (target ≠ .player) && s.touches enemy shot) := by
  rw [spends, firstTouched_cons]
  cases s.touches enemy shot <;> simp

theorem spends_cons (enemy : Enemy) (enemies : List Enemy) (target : ShotTarget) (shot : Shot) :
    s.spends (enemy :: enemies) target shot =
      (s.spends [enemy] target shot || s.spends enemies target shot) := by
  rw [spends_singleton, spends, spends, firstTouched_cons]
  cases s.touches enemy shot <;> cases decide (target ≠ .player) <;> simp

theorem spends_of_fresh {shot : Shot} (h : shot.bornTick = s.tick) (enemies : List Enemy)
    (target : ShotTarget) : s.spends enemies target shot = false := by
  simp [spends, firstTouched_of_fresh h]

/-- The head of the enemies gets every shot that touches it. -/
theorem share_cons_zero (enemy : Enemy) (enemies : List Enemy) (shots : List Shot) :
    s.share (enemy :: enemies) shots 0 = shots.filter (s.touches enemy ·) := by
  refine List.filter_congr fun shot _ => ?_
  rw [firstTouched_cons]
  cases s.touches enemy shot <;> simp

/-- The others share what does not touch the head. -/
theorem share_cons_succ (enemy : Enemy) (enemies : List Enemy) (shots : List Shot) (i : Nat) :
    s.share (enemy :: enemies) shots (i + 1) =
      s.share enemies (shots.filter (!s.touches enemy ·)) i := by
  rw [share, share, List.filter_filter]
  refine List.filter_congr fun shot _ => ?_
  rw [firstTouched_cons]
  cases s.touches enemy shot <;> simp

/-- Fresh shots have no part in the shares. -/
theorem share_append_fresh (enemies : List Enemy) (shots : List Shot) {new : List Shot}
    (hnew : ∀ shot ∈ new, shot.bornTick = s.tick) (i : Nat) :
    s.share enemies (shots ++ new) i = s.share enemies shots i := by
  have hnone : s.share enemies new i = [] := by
    rw [share, List.filter_eq_nil_iff]
    intro shot hshot
    simp [firstTouched_of_fresh (hnew shot hshot)]
  rw [share, List.filter_append]
  exact (congrArg _ hnone).trans (List.append_nil _)

@[simp] theorem records_nil (neutral player : List Shot) : s.records [] neutral player = [] :=
  rfl

theorem records_cons (enemy : Enemy) (enemies : List Enemy) (neutral player : List Shot) :
    s.records (enemy :: enemies) neutral player =
      (neutral.filter (s.touches enemy ·) ++ player.filter (s.touches enemy ·)).map
          (s.record enemy) ++
        s.records enemies (neutral.filter (!s.touches enemy ·))
          (player.filter (!s.touches enemy ·)) := by
  simp only [records, List.mapIdx_cons, List.flatten_cons, share_cons_zero, share_cons_succ]

theorem records_append_fresh (enemies : List Enemy) (neutral player : List Shot)
    {new new' : List Shot} (hnew : ∀ shot ∈ new, shot.bornTick = s.tick)
    (hnew' : ∀ shot ∈ new', shot.bornTick = s.tick) :
    s.records enemies (neutral ++ new) (player ++ new') = s.records enemies neutral player := by
  simp only [records, share_append_fresh enemies _ hnew, share_append_fresh enemies _ hnew']

theorem fates_cons (slot : Slot Enemy) (slots : List (Slot Enemy)) (neutral player : List Shot) :
    s.fates (slot :: slots) neutral player =
      (s.fate slot.item (neutral.filter (s.touches slot.item ·))
          (player.filter (s.touches slot.item ·))).map (⟨slot.index, ·⟩) ::
        s.fates slots (neutral.filter (!s.touches slot.item ·))
          (player.filter (!s.touches slot.item ·)) := by
  simp only [fates, List.mapIdx_cons, List.map_cons, share_cons_zero, share_cons_succ]

theorem fates_append_fresh (slots : List (Slot Enemy)) (neutral player : List Shot)
    {new new' : List Shot} (hnew : ∀ shot ∈ new, shot.bornTick = s.tick)
    (hnew' : ∀ shot ∈ new', shot.bornTick = s.tick) :
    s.fates slots (neutral ++ new) (player ++ new') = s.fates slots neutral player := by
  simp only [fates, share_append_fresh _ _ hnew, share_append_fresh _ _ hnew']

/-- **The shares divide the spent shots** among the enemies: together they are the shots that
touch anybody. -/
theorem share_perm (enemies : List Enemy) (shots : List Shot) :
    ((List.range enemies.length).flatMap (s.share enemies shots)).Perm
      (shots.filter fun shot => (s.firstTouched enemies shot).isSome) := by
  induction enemies generalizing shots with
  | nil => simp
  | cons enemy enemies ih =>
    have hrest := ih (shots.filter (!s.touches enemy ·))
    rw [List.length_cons, List.range_succ_eq_map, List.flatMap_cons, List.flatMap_map,
      share_cons_zero]
    simp only [share_cons_succ]
    refine (hrest.append_left _).trans ?_
    rw [List.filter_filter]
    have hsplit := List.filter_append_perm (s.touches enemy ·)
      (shots.filter fun shot => (s.firstTouched (enemy :: enemies) shot).isSome)
    rw [List.filter_filter, List.filter_filter] at hsplit
    refine List.Perm.trans ?_ hsplit
    refine (List.Perm.of_eq ?_).append (List.Perm.of_eq ?_)
    · refine List.filter_congr fun shot _ => ?_
      cases h : s.touches enemy shot <;> simp [firstTouched_cons, h]
    · refine List.filter_congr fun shot _ => ?_
      cases h : s.touches enemy shot <;> simp [firstTouched_cons, h]

end Skirmish

end BulletHell
