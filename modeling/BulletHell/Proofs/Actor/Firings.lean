import BulletHell.Proofs.Actor.Latch
import BulletHell.Proofs.Actor.ShotsPerTick

/-!
# Who has fired the shots of a group

An owner calls its emitters one after the other, and may do so twice in the same tick. Each of them
fires into the surroundings that those before it have left, with the random angles that they have
drawn and the room that they have used up. So the firings of a group are those of its emitters, each
from where the one before it has come to.

An enemy and a fire gate differ in when they run their emitters, but not in what they can tell them:
to run on, or to start again. So a call of either of them is a list of orders, and the firings are
gathered from the orders, once for both.

## Main definitions

* `Emitter.roundFirings`, `Emitter.orderFirings` — the firings of a round, and of a list of orders
* `FireGate.orders` — the orders that a fire gate gives
* `Enemy.Tick.firings`, `FireGate.firings` — the firings of an owner

## Main results

* `Emitter.Obeys.requests` — a group asks for what is fired
* `Enemy.Tick.result_requests`, `FireGate.requests_eq` — and so do its owners
-/

namespace BulletHell

variable {σ : Type}

namespace Emitter

/-! ### Rounds -/

/-- The shots that a group fires in a round. -/
def roundFirings (act : Emitter → σ → Bool × Emitter × σ) (fired : Emitter → σ → List (Firing σ)) :
    List Emitter → σ → List (Firing σ)
  | [], _ => []
  | e :: rest, ctx => fired e ctx ++ roundFirings act fired rest (act e ctx).2.2

variable [FireContext σ]

/-- **A round** asks for what is fired in it, if each emitter does. -/
theorem actAll_requests {act : Emitter → σ → Bool × Emitter × σ}
    {act' : Emitter → Noted σ → Bool × Emitter × Noted σ} {fired : Emitter → σ → List (Firing σ)}
    (hact : ∀ e (noted : Noted σ), (act' e noted).2.2 =
      ⟨(act e noted.context).2.2, noted.requests ++ (fired e noted.context).map Firing.request⟩)
    (es : List Emitter) (noted : Noted σ) :
    (actAll act' es noted).2.2.requests =
      noted.requests ++ (roundFirings act fired es noted.context).map Firing.request := by
  induction es generalizing noted with
  | nil => exact (List.append_nil _).symm
  | cons e rest ih =>
    rw [roundFirings, List.map_append, ← List.append_assoc]
    refine (ih (act' e noted).2.2).trans ?_
    rw [hact]

/-- **One tick**, with what becomes of the surroundings. -/
theorem tick_noted_eq (e : Emitter) (owner : Vec2) (noted : Noted σ) :
    (e.tick owner noted).2.2 = ⟨(e.tick owner noted.context).2.2,
      noted.requests ++ (e.tickFirings owner noted.context).map Firing.request⟩ := by
  have hrequests := e.tick_requests owner noted
  obtain ⟨requests, hnoted⟩ := e.tick_noted owner noted
  rw [hnoted] at hrequests ⊢
  exact congrArg _ hrequests

end Emitter

/-! ### Orders -/

variable [FireContext σ]

namespace FireOrder

/-- The round that an order is for. -/
def round (position : Vec2) : FireOrder → List Emitter → σ → Bool × List Emitter × σ
  | .tick _, es, ctx => Emitter.tickAll es position ctx
  | .restart, es, ctx => Emitter.restartAll es position ctx

/-- The shots that a group fires on an order. -/
def firings (position : Vec2) : FireOrder → List Emitter → σ → List (Emitter.Firing σ)
  | .tick _ =>
    Emitter.roundFirings (fun e ctx => e.tick position ctx) fun e ctx => e.tickFirings position ctx
  | .restart =>
    Emitter.roundFirings (fun e ctx => e.restart position ctx)
      fun e ctx => e.rewind.tickFirings position ctx

theorem round_requests (order : FireOrder) (position : Vec2) (es : List Emitter)
    (noted : Noted σ) :
    (order.round position es noted).2.2.requests =
      noted.requests ++ (order.firings position es noted.context).map Emitter.Firing.request := by
  cases order with
  | tick running =>
    exact Emitter.actAll_requests (fun e noted => e.tick_noted_eq position noted) es noted
  | restart =>
    exact Emitter.actAll_requests (fun e noted => e.rewind.tick_noted_eq position noted) es noted

/-- A round is the same where notes are taken. -/
theorem round_noted (order : FireOrder) (position : Vec2) (es : List Emitter)
    (noted : Noted σ) :
    order.round position es noted.context =
      ((order.round position es noted).1, (order.round position es noted).2.1,
        (order.round position es noted).2.2.context) := by
  have hsame : noted.context = noted.context := rfl
  cases order with
  | tick running =>
    obtain ⟨noted', heq, hcontext⟩ := Emitter.tickAll_alike Noted.alike hsame es position
    rw [round, round, heq, hcontext]
  | restart =>
    obtain ⟨noted', heq, hcontext⟩ := Emitter.restartAll_alike Noted.alike hsame es position
    rw [round, round, heq, hcontext]

end FireOrder

namespace Emitter

/-- The shots that a group fires on some orders, one after the other. -/
def orderFirings (position : Vec2) : List FireOrder → List Emitter → σ → List (Firing σ)
  | [], _, _ => []
  | order :: orders, es, ctx =>
    order.firings position es ctx ++
      orderFirings position orders (order.round position es ctx).2.1
        (order.round position es ctx).2.2

/-- One order, then the others. -/
theorem orderFirings_cons (order : FireOrder) {position : Vec2} {es es' : List Emitter}
    {noted noted' : Noted σ} {running : Bool}
    (h : order.round position es noted = (running, es', noted')) (orders : List FireOrder) :
    noted.requests ++
        (orderFirings position (order :: orders) es noted.context).map Firing.request =
      noted'.requests ++ (orderFirings position orders es' noted'.context).map Firing.request := by
  have hround := order.round_requests position es noted
  have hsame := order.round_noted position es noted
  rw [h] at hround hsame
  rw [orderFirings, hsame, hround, List.map_append, List.append_assoc]

/-- **A group asks for what it fires** on its orders. -/
theorem Obeys.requests {position : Vec2} {orders : List FireOrder}
    {g g' : List Emitter × Noted σ} (h : Obeys position orders g g') :
    g'.2.requests =
      g.2.requests ++ (orderFirings position orders g.1 g.2.context).map Firing.request := by
  induction h with
  | done g => exact (List.append_nil _).symm
  | @tick es es' noted noted' running orders g htick _ ih =>
    exact ih.trans (orderFirings_cons (.tick running) htick orders).symm
  | @restart es es' noted noted' running orders g hrestart _ ih =>
    exact ih.trans (orderFirings_cons .restart hrestart orders).symm

end Emitter

/-! ### Enemies -/

namespace Enemy

/-- The orders are the same where notes are taken. -/
theorem orders_noted (e : Enemy) (noted : Noted σ) : e.orders noted = e.orders noted.context := by
  have hsame : noted.context = noted.context := rfl
  obtain ⟨noted', heq, -⟩ := Emitter.tickAll_alike Noted.alike hsame e.emitters e.position
  rw [orders, orders, heq]

namespace Tick

/-- The shots that are fired in a tick. -/
def firings (t : Tick σ) : List (Emitter.Firing σ) :=
  Emitter.orderFirings (t.enemy.moved t.now).position t.orders t.enemy.emitters t.ctx

/-- The same tick, where no notes are taken. -/
def unnoted (t : Tick (Noted σ)) : Tick σ :=
  ⟨t.enemy, t.now, t.cutoff, t.ctx.context⟩

theorem result_unnoted (t : Tick (Noted σ)) :
    t.unnoted.result = (t.result.1, t.result.2.1, t.result.2.2.context) := by
  have hsame : t.ctx.context = t.ctx.context := rfl
  obtain ⟨noted', heq, hcontext⟩ := t.enemy.tick_alike Noted.alike hsame t.now t.cutoff
  rw [result, result, heq, hcontext]
  rfl

theorem works_unnoted (t : Tick (Noted σ)) : t.unnoted.Works ↔ t.Works := by
  rw [Works, Works, CutOff, CutOff, result_unnoted]
  rfl

theorem orders_unnoted (t : Tick (Noted σ)) : t.unnoted.orders = t.orders := by
  rw [orders, orders]
  exact if_congr t.works_unnoted ((t.enemy.moved t.now).orders_noted t.ctx).symm rfl

/-- **An enemy asks for what its emitters fire.** -/
theorem result_requests (t : Tick (Noted σ)) :
    t.result.2.2.requests =
      t.ctx.requests ++ t.unnoted.firings.map Emitter.Firing.request := by
  rw [firings, orders_unnoted]
  exact t.obeys.requests

end Tick

end Enemy

/-! ### Fire gates -/

namespace FireGate

/-- The orders that a fire gate gives in a call: to go on with the burst, if there is one, and to
begin another if none is left running and the button counts as held. -/
def orders (g : FireGate) (owner : Vec2) (ctx : σ) : List FireOrder :=
  (if g.firing then [.tick (g.goOn owner ctx).1] else []) ++
    if (g.goOn owner ctx).1 = false ∧ 0 ≤ g.frames - 1 then [.restart] else []

theorem obeys (g : FireGate) (owner : Vec2) (ctx : σ) :
    Emitter.Obeys owner (g.orders owner ctx) (g.emitters, ctx)
      ((g.tick owner ctx).1.emitters, (g.tick owner ctx).2) := by
  have hlatch : ∀ burst : Bool × List Emitter × σ,
      Emitter.Obeys owner (if burst.1 = false ∧ 0 ≤ g.frames - 1 then [.restart] else []) burst.2
        ((followUp burst (g.frames - 1) owner).1.emitters,
          (followUp burst (g.frames - 1) owner).2) := by
    intro burst
    rw [followUp]
    split
    · exact .restart rfl (.done _)
    · exact .done _
  rw [tick_eq_followUp, orders]
  cases hfiring : g.firing with
  | true =>
    have hburst : g.goOn owner ctx = Emitter.tickAll g.emitters owner ctx := by
      rw [goOn, hfiring, if_pos rfl]
    exact .tick hburst.symm (hlatch _)
  | false =>
    have hburst : g.goOn owner ctx = (false, g.emitters, ctx) := by
      rw [goOn, hfiring, if_neg Bool.false_ne_true]
    rw [hburst]
    exact hlatch (false, g.emitters, ctx)

/-- The orders are the same where notes are taken. -/
theorem orders_noted (g : FireGate) (owner : Vec2) (noted : Noted σ) :
    g.orders owner noted = g.orders owner noted.context := by
  have hburst : (g.goOn owner noted).1 = (g.goOn owner noted.context).1 := by
    have hsame : noted.context = noted.context := rfl
    obtain ⟨noted', heq, -⟩ := Emitter.tickAll_alike Noted.alike hsame g.emitters owner
    rw [goOn, goOn, heq]
    split <;> rfl
  rw [orders, orders, hburst]

/-- The shots that are fired in a call of a fire gate. -/
def firings (g : FireGate) (owner : Vec2) (ctx : σ) : List (Emitter.Firing σ) :=
  Emitter.orderFirings owner (g.orders owner ctx) g.emitters ctx

/-- **A fire gate asks for what its emitters fire.** -/
theorem requests_eq (g : FireGate) (owner : Vec2) (ctx : σ) :
    g.requests owner ctx = (g.firings owner ctx).map Emitter.Firing.request := by
  have hrequests := (g.obeys owner (Noted.blank ctx)).requests
  rw [tick_noted, orders_noted] at hrequests
  exact hrequests

end FireGate

end BulletHell
