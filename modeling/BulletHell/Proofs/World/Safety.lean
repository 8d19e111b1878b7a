import BulletHell.Proofs.World.Freshness
import BulletHell.Proofs.World.Unfailing

/-!
# Every access is in range

A game that was loaded never looks up anything that is not there, whatever is done to it from
outside and for however long.

The invariant is about the places that wait to be used: the timeline's stage and its cursor, the
archetypes of active enemies and shots, and the shots in the emitters in use. Each of them came
from the catalog, and the catalog never changes. The shots in flight need the age of the shots as
well, since only the shots of a tick are known by their launches.

## Main definitions

* `World.Sound` — the invariant

## Main results

* `World.kept_sound` — it holds at all times
* `World.play?_eq` — guarded play does not fail
* `World.accesses_in_range`
-/

namespace BulletHell

namespace World

variable {α : Type} [AudioPlayer α Float] {c : Catalog} {w w' : World}

/-- Every place that play may come to look up stands in the catalog. -/
structure Sound (c : Catalog) (w : World) : Prop where
  catalog : w.catalog = c
  placed : w.timeline.Placed c.stages
  known : w.Known
  aged : w.Aged
  shots : ∀ target, ∀ slot ∈ (w.shots.pool target).active,
    Catalog.HasShot c.shots slot.item.archetype

namespace Sound

/-- What leaves the things alone that play looks up. -/
theorem of_eq (h : Sound c w) (hplaced : w'.timeline.Placed c.stages)
    (hcatalog : w'.catalog = w.catalog) (henemies : w'.enemies = w.enemies)
    (hplayer : w'.player = w.player) (hshots : w'.shots = w.shots)
    (htick : w'.tickCount = w.tickCount) : Sound c w' where
  catalog := hcatalog.trans h.catalog
  placed := hplaced
  known := h.known.of_eq hcatalog henemies hplayer
  aged := h.aged.of_eq hshots htick
  shots := hshots ▸ h.shots

/-- A game that has not started. -/
theorem new (c : Catalog) : Sound c (World.new c) where
  catalog := rfl
  placed := .idle _
  known := ⟨fun _ hslot => (by cases hslot), .of_nil rfl⟩
  aged := .of_empty fun target => by cases target <;> rfl
  shots target slot hslot := by cases target <;> cases hslot

theorem startGame (hc : c.Resolved) (h : Sound c w) (now : Float) (audio : α) :
    Sound c (w.startGame now audio).1 := by
  obtain rfl := h.catalog
  obtain ⟨hplaced, -⟩ := h.placed.moves (w.timeline.moves_start now w.catalog.stages audio)
  have hkeeps : (w.startGame now audio).1.catalog = w.catalog ∧
      (w.startGame now audio).1.timeline = (w.timeline.start now w.catalog.stages audio).2.1 := by
    rw [startGame_eq]
    split
    · exact ⟨(keeps_onTimelineEvent _ _ now).catalog, (keeps_onTimelineEvent _ _ now).timeline⟩
    · exact ⟨rfl, rfl⟩
  refine ⟨hkeeps.1, hkeeps.2 ▸ hplaced, .startGame hc now audio, .startGame w now audio, ?_⟩
  intro target slot hslot
  rw [active_startGame] at hslot
  cases hslot

theorem pause (h : Sound c w) (now : Float) (audio : α) : Sound c (w.pause now audio).2.1 := by
  rcases w.pause_cases now audio with hnone | ⟨hplaying, hactive⟩
  · rw [hnone]
    exact h
  · rw [pause_eq hplaying hactive]
    exact h.of_eq h.placed rfl rfl rfl rfl rfl

theorem resume (h : Sound c w) (now : Float) (audio : α) : Sound c (w.resume now audio).2.1 := by
  have hrest : (w.resume now audio).2.1.catalog = w.catalog ∧
      (w.resume now audio).2.1.timeline.Placed c.stages ∧
      (w.resume now audio).2.1.shots = w.shots := by
    rcases w.resume_cases now audio with hnone | ⟨hpaused, since, hstate⟩
    · rw [hnone]
      exact ⟨rfl, h.placed, rfl⟩
    · rw [resume_eq hpaused hstate]
      exact ⟨rfl, h.placed, rfl⟩
  obtain ⟨hcatalog, hplaced, hshots⟩ := hrest
  exact ⟨hcatalog.trans h.catalog, hplaced, h.known.resume now audio, h.aged.resume now audio,
    hshots ▸ h.shots⟩

/-- A tick that is played. A shot in flight was there before, or was launched in the tick and so
is of a kind that was looked up. -/
theorem simulate (hc : c.Resolved) (h : Sound c w) (halive : w.player.isAlive = true)
    (input : TickInput) (now : Float) (audio : α) (dt : Float32) :
    Sound c (w.simulate input now audio dt).1 := by
  obtain rfl := h.catalog
  obtain ⟨early, late, hplayed⟩ := exists_midTick_simulate h.aged halive input now audio dt
  obtain ⟨hplaced, -⟩ := h.placed.moves (w.timeline.moves_advance now w.catalog.stages audio)
  have hkeeps := w.keeps_simulate input now audio dt
  have hcatalog : (w.simulate input now audio dt).1.catalog = w.catalog := hkeeps.catalog
  refine ⟨hcatalog, hkeeps.timeline ▸ hplaced, h.known.simulate hc input now audio dt,
    h.aged.simulate halive input now audio dt, ?_⟩
  intro target slot hslot
  obtain ⟨kept, new, hactive, hkept, hnew⟩ := hplayed.shots target
  rw [hactive] at hslot
  rcases List.mem_append.mp hslot with hold | hfresh
  · -- motion does not change the kind of a shot
    obtain ⟨before, hbefore, rfl⟩ := List.mem_map.mp (hkept.subset hold)
    exact h.shots target before hbefore
  · obtain ⟨l, hl, hkind⟩ := Launch.exists_of_mem_shotsFor (hnew ▸ List.mem_map_of_mem hfresh)
    have hknown := hplayed.known l (mem_of_mem_unbombed hl)
    rw [hcatalog] at hknown
    rw [hkind]
    exact (List.getElem?_eq_some_iff.mp hknown).1

end Sound

theorem kept_sound (hc : c.Resolved) : Kept fun w (_ : α) => Sound c w where
  tickEffects _ h := h.of_eq h.placed rfl rfl rfl rfl rfl
  startGame now h := h.startGame hc now _
  pause now h := h.pause now _
  resume now h := h.resume now _
  endGame h := h.of_eq (.idle _) rfl rfl rfl rfl rfl
  simulate input now dt _ halive h := h.simulate hc halive input now _ dt
  drainEvents h := h.of_eq h.placed rfl rfl rfl rfl rfl

/-! ### Guarded calls -/

namespace Sound

theorem startGame?_eq (hc : c.Resolved) (h : Sound c w) (now : Float) (audio : α) :
    w.startGame? now audio = some (w.startGame now audio) := by
  obtain rfl := h.catalog
  exact World.startGame?_eq hc h.placed now audio

theorem goOn?_eq (hc : c.Resolved) (h : Sound c w) (input : TickInput) (now : Float) (audio : α)
    (dt : Float32) : w.goOn? input now audio dt = some (w.goOn input now audio dt) := by
  obtain rfl := h.catalog
  exact World.goOn?_eq h.known hc h.placed input now audio dt

theorem tick?_eq (hc : c.Resolved) (h : Sound c w) (input : TickInput) (now : Float) (audio : α)
    (dt : Float32) : w.tick? input now audio dt = some (w.tick input now audio dt) := by
  have haged : Sound c (w.age dt) := (kept_sound hc).age audio h dt
  rw [tick?, tick_eq]
  split
  · exact haged.startGame?_eq hc now audio
  · split
    · exact ((kept_sound hc).togglePause haged now).goOn?_eq hc input now _ dt
    · exact haged.goOn?_eq hc input now audio dt

theorem call?_eq (hc : c.Resolved) {s : World × α} (h : Sound c s.1) (a : Call) :
    call? s a = some (World.call s a) := by
  cases a with
  | tick input now dt => exact h.tick?_eq hc input now s.2 dt
  | startGame now => exact h.startGame?_eq hc now s.2
  | pause now => rfl
  | resume now => rfl
  | drainEvents => rfl

end Sound

/-- **Guarded play** gets through a whole session. -/
theorem play?_eq (hc : c.Resolved) (h : Sound c w) (audio : α) (calls : List Call) :
    play? w audio calls = some (play w audio calls) := by
  rw [play?, play]
  induction calls generalizing w audio with
  | nil => rfl
  | cons a calls ih =>
    rw [List.foldlM_cons, h.call?_eq (s := (w, audio)) hc a, List.foldl_cons]
    exact ih ((kept_sound hc).call (s := (w, audio)) h a) _

/-- **Every access is in range.** Take any configuration that loads, and any calls of a session,
at any readings of the clock and with steps of any length. The session is the same with guards in
front of every access by place: of shots that are requested, enemies that are brought on screen,
engaged or touched, stages, table entries, emitters in use and ranges to draw from. None of them
ever fails. Whatever is active in the end has its place in the catalog. And an emitter, in whatever
state, fetches an instruction only from inside its program. -/
theorem accesses_in_range {config : GameConfig} {catalog : Catalog}
    (hload : Catalog.ofConfig config = .ok catalog) (audio : α) (calls : List Call) :
    play? (new catalog) audio calls = some (play (new catalog) audio calls) ∧
      (∀ target, ∀ slot ∈ ((play (new catalog) audio calls).1.shots.pool target).active,
        slot.item.archetype.index < catalog.shots.length) ∧
      (∀ slot ∈ (play (new catalog) audio calls).1.enemies.active,
        slot.item.archetype.index < catalog.enemies.length) ∧
      ∀ {σ : Type} [FireContext σ] (e : Emitter) (origin : Vec2) (ctx : σ),
        e.cycle origin ctx =
          if h : e.counter < e.program.instructions.length then
            e.execute origin ctx (e.program.instructions.get ⟨e.counter, h⟩)
          else (e.endOfProgram.1, e.endOfProgram.2, ctx) := by
  have hc : catalog.Resolved := Catalog.resolved_ofConfig hload
  have hsound : Sound catalog (play (new catalog) audio calls).1 :=
    (kept_sound hc).play (.new catalog) calls
  refine ⟨play?_eq hc (.new catalog) audio calls, hsound.shots, ?_, ?_⟩
  · intro slot hslot
    have hknown := (hsound.known.enemies slot hslot).archetype
    rw [hsound.catalog] at hknown
    exact hknown
  · intro σ _ e origin ctx
    rw [Emitter.cycle, Program.fetch?]
    split
    · next op hop =>
      obtain ⟨hcounter, rfl⟩ := List.getElem?_eq_some_iff.mp hop
      rw [dif_pos hcounter]
      rfl
    · next hnone => rw [dif_neg (Nat.not_lt.mpr (List.getElem?_eq_none_iff.mp hnone))]

/-- The drone arrives, and fires while the player fires. -/
def oneDroneCalls : List Call :=
  [.startGame 0, .tick {} 1 0.02, .tick { fire := true } 1.02 0.02]

/-- Guarded play gets through these calls. In a catalog without the drone it would not. -/
theorem accesses_in_range_of_oneDrone :
    Catalog.ofConfig oneDrone = .ok oneDroneCatalog ∧
      play? (new oneDroneCatalog) (HeadlessAudio.new 60) oneDroneCalls =
        some (play (new oneDroneCatalog) (HeadlessAudio.new 60) oneDroneCalls) ∧
      (∀ target, ∀ slot ∈ ((play (new oneDroneCatalog) (HeadlessAudio.new 60)
        oneDroneCalls).1.shots.pool target).active, slot.item.archetype.index < 3) ∧
      (∀ slot ∈ (play (new oneDroneCatalog) (HeadlessAudio.new 60) oneDroneCalls).1.enemies.active,
        slot.item.archetype.index < 1) ∧
      play? (new { oneDroneCatalog with enemies := [] }) (HeadlessAudio.new 60) oneDroneCalls =
        none := by
  obtain ⟨hguarded, hshots, henemies, -⟩ :=
    accesses_in_range ofConfig_oneDrone (HeadlessAudio.new 60) oneDroneCalls
  exact ⟨ofConfig_oneDrone, hguarded, hshots, henemies, rfl⟩

end World

end BulletHell
