import BulletHell.Proofs.World.Session

/-!
# Records of a session

A world does not remember what it has told its audience: the event queue is handed over and begins
anew. What is said about all events of a run is said about a record, kept beside the session. A
record takes note of every call and may begin afresh with some of them.

Ticks are told apart by what becomes of them. One that restarts begins a run. Any other first ages
the effects and sees to the pause button, and is played if a run goes on then and the player is
alive.

## Main definitions

* `World.Call.starts` — calls that begin a run
* `World.ready`, `World.played` — a tick up to the point where it is played
* `World.gather` — a record
* `World.emitted` — the events of one call

## Main results

* `World.tick_eq_ready`, `World.call_of_played`, `World.call_of_not_played`
-/

namespace BulletHell

namespace World

/-- Does the call begin a run? -/
def Call.starts : Call → Bool
  | .tick input _ _ => input.restart
  | .startGame _ => true
  | _ => false

variable {α : Type} [AudioPlayer α Float]

/-! ### Ticks that are played -/

/-- The game after the edge of the pause button, effects included. -/
def ready (w : World) (input : TickInput) (now : Float) (audio : α) (dt : Float32) : World × α :=
  if input.pause then (w.age dt).togglePause now audio else (w.age dt, audio)

theorem tick_eq_ready (w : World) (input : TickInput) (now : Float) (audio : α) (dt : Float32) :
    w.tick input now audio dt =
      if input.restart then (w.age dt).startGame now audio
      else (w.ready input now audio dt).1.goOn input now (w.ready input now audio dt).2 dt := by
  rw [tick_eq, ready]
  split
  · rfl
  · split <;> rfl

/-- A tick that is played, with the game as it finds it. -/
structure PlayedTick (α : Type) where
  world : World
  audio : α
  input : TickInput
  now : Float
  dt : Float32

/-- The tick that a call plays, if it does. -/
def played (s : World × α) : Call → Option (PlayedTick α)
  | .tick input now dt =>
    let (w, audio) := s.1.ready input now s.2 dt
    if !input.restart && w.phase = .playing && w.player.isAlive then
      some ⟨w, audio, input, now, dt⟩
    else none
  | _ => none

variable {s : World × α} {c : Call}

theorem played_tick_eq_some {input : TickInput} {now : Float} {dt : Float32} {p : PlayedTick α}
    (h : played s (.tick input now dt) = some p) :
    p = ⟨(s.1.ready input now s.2 dt).1, (s.1.ready input now s.2 dt).2, input, now, dt⟩ ∧
      input.restart = false ∧ p.world.phase = .playing ∧ p.world.player.isAlive = true := by
  simp only [played] at h
  split at h
  · next hplayed =>
    obtain rfl := Option.some.inj h
    rw [Bool.and_eq_true, Bool.and_eq_true, Bool.not_eq_true', decide_eq_true_eq] at hplayed
    exact ⟨rfl, hplayed.1.1, hplayed.1.2, hplayed.2⟩
  · cases h

/-- **A call that plays a tick.** -/
theorem call_of_played {p : PlayedTick α} (h : played s c = some p) :
    call s c = p.world.simulate p.input p.now p.audio p.dt ∧ p.world.phase = .playing ∧
      p.world.player.isAlive = true := by
  cases c with
  | tick input now dt =>
    obtain ⟨rfl, hrestart, hplaying, halive⟩ := played_tick_eq_some h
    refine ⟨?_, hplaying, halive⟩
    rw [call, tick_eq_ready, hrestart, if_neg Bool.false_ne_true, goOn,
      if_neg (not_not_intro hplaying), halive]
    rfl
  | _ => cases h

/-- **A tick that is not played** and does not restart: it ends there, or it ends the run. -/
theorem tick_of_not_played {input : TickInput} {now : Float} {dt : Float32}
    (h : played s (.tick input now dt) = none) (hrestart : input.restart = false) :
    call s (.tick input now dt) = s.1.ready input now s.2 dt ∧
        (s.1.ready input now s.2 dt).1.phase ≠ .playing ∨
      call s (.tick input now dt) =
          (s.1.ready input now s.2 dt).1.endGame (s.1.ready input now s.2 dt).2 ∧
        (s.1.ready input now s.2 dt).1.phase = .playing ∧
        (s.1.ready input now s.2 dt).1.player.lives = 0 := by
  have hcall : call s (.tick input now dt) =
      (s.1.ready input now s.2 dt).1.goOn input now (s.1.ready input now s.2 dt).2 dt := by
    rw [call, tick_eq_ready, hrestart]
    rfl
  by_cases hplaying : (s.1.ready input now s.2 dt).1.phase = .playing
  · have hdead : (s.1.ready input now s.2 dt).1.player.isAlive = false := by
      simpa [played, hrestart, hplaying] using h
    refine .inr ⟨?_, hplaying, ?_⟩
    · rw [hcall, goOn, if_neg (not_not_intro hplaying), hdead]
      rfl
    · simpa [Player.isAlive] using hdead
  · refine .inl ⟨?_, hplaying⟩
    rw [hcall, goOn, if_pos hplaying]

/-! ### Records -/

/-- A record of a session: what its calls bring, from the last one on that begins a fresh one. -/
def gather {β : Type} (fresh : World × α → Call → Bool) (brings : World × α → Call → List β) :
    World × α → List β → List Call → List β
  | _, record, [] => record
  | s, record, c :: calls =>
    gather fresh brings (call s c)
      (if fresh s c then brings s c else record ++ brings s c) calls

/-- A record of a run: it begins afresh with every new one. -/
def sinceStart {β : Type} (brings : World × α → Call → List β) (s : World × α) (record : List β)
    (calls : List Call) : List β :=
  gather (fun _ c => c.starts) brings s record calls

/-- A record of what can be made of each entry of another one. -/
theorem gather_map {β γ : Type} {fresh : World × α → Call → Bool}
    {brings : World × α → Call → List β} {brings' : World × α → Call → List γ} {f : β → γ}
    (h : ∀ s c, brings' s c = (brings s c).map f) (s : World × α) (record : List β)
    (calls : List Call) :
    gather fresh brings' s (record.map f) calls = (gather fresh brings s record calls).map f := by
  induction calls generalizing s record with
  | nil => rfl
  | cons c calls ih =>
    rw [gather, gather, ← ih]
    congr 1
    rw [h]
    split
    · rfl
    · exact List.map_append.symm

/-- The events of a call: what is behind those that were queued before it. -/
def emitted (s : World × α) (c : Call) : List GameEvent :=
  (call s c).1.events.toList.drop s.1.events.size

/-- The events of a call that leaves the queued ones in place. -/
theorem emitted_of_append {told : List GameEvent}
    (h : (call s c).1.events.toList = s.1.events.toList ++ told) : emitted s c = told := by
  rw [emitted, h, ← Array.length_toList, List.drop_left]

end World

end BulletHell
