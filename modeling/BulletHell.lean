import BulletHell.Number.Decimal
import BulletHell.Json.Reader
import BulletHell.Json.Printer
import BulletHell.Json.Shape
import BulletHell.Geometry.Circle
import BulletHell.Geometry.Curve
import BulletHell.Pattern.Group
import BulletHell.Random
import BulletHell.Clock.Manual
import BulletHell.Stage.Compile
import BulletHell.Timeline
import BulletHell.Actor.Shot
import BulletHell.Actor.Effect
import BulletHell.Actor.Powerup
import BulletHell.Actor.Enemy
import BulletHell.Actor.Player
import BulletHell.Config.Reader
import BulletHell.Config.Writer
import BulletHell.Catalog
import BulletHell.World.Tick
import BulletHell.World.Snapshot
import BulletHell.Main
import BulletHell.Proofs.Pattern.Block
import BulletHell.Proofs.Pattern.Session
import BulletHell.Proofs.Pattern.Unfolding
import BulletHell.Proofs.Pattern.Requests
import BulletHell.Proofs.Pool.Conservation
import BulletHell.Proofs.Pool.Turns
import BulletHell.Proofs.Pool.Snapshot
import BulletHell.Proofs.Stage.Table
import BulletHell.Proofs.Timeline.HandOut
import BulletHell.Proofs.Timeline.Place
import BulletHell.Proofs.Timeline.Grid
import BulletHell.Proofs.Timeline.KeepsTime
import BulletHell.Proofs.Actor.Contexts
import BulletHell.Proofs.Actor.Requests
import BulletHell.Proofs.Pool.Sweep
import BulletHell.Proofs.World.Staging
import BulletHell.Proofs.World.StagedTick
import BulletHell.Proofs.World.Course
import BulletHell.Proofs.World.Session
import BulletHell.Proofs.World.Pause
import BulletHell.Proofs.World.Launches
import BulletHell.Proofs.World.Quiet
import BulletHell.Proofs.World.Assignment
import BulletHell.Proofs.World.Strikes
import BulletHell.Proofs.World.Resolution
import BulletHell.Proofs.World.MidTick
import BulletHell.Proofs.World.Freshness
import BulletHell.Proofs.Catalog.Resolved
import BulletHell.Proofs.World.Watch
import BulletHell.Proofs.World.Guarded
import BulletHell.Proofs.World.Known
import BulletHell.Proofs.World.Unfailing
import BulletHell.Proofs.World.Safety
import BulletHell.Proofs.World.Record
import BulletHell.Proofs.World.Accounts
import BulletHell.Proofs.World.Balance
import BulletHell.Proofs.World.Concord
import BulletHell.Proofs.World.Decisions
import BulletHell.Proofs.World.Ledger
import BulletHell.Proofs.Pattern.Halting
import BulletHell.Proofs.Pool.Twins
import BulletHell.Proofs.Pool.Heirs
import BulletHell.Proofs.Actor.Legs
import BulletHell.Proofs.Actor.Recycled
import BulletHell.Proofs.Actor.Countdown
import BulletHell.Proofs.Timeline.Devices
import BulletHell.Proofs.World.Audience
import BulletHell.Proofs.World.Twins
import BulletHell.Proofs.World.TwinTick
import BulletHell.Proofs.World.Restart
import BulletHell.Proofs.World.OnScreen
import BulletHell.Proofs.World.Itinerary
import BulletHell.Proofs.World.Allegiance
import BulletHell.Proofs.Actor.Holding
import BulletHell.Proofs.Pattern.Ended
import BulletHell.Proofs.Pattern.Paths
import BulletHell.Proofs.Pattern.SharedBody
import BulletHell.Proofs.Geometry.Angle
import BulletHell.Proofs.Pattern.Kept
import BulletHell.Proofs.Pattern.Noted
import BulletHell.Proofs.Pattern.Mirroring
import BulletHell.Proofs.Actor.Schedule
import BulletHell.Proofs.Actor.Orders
import BulletHell.Proofs.Actor.Bursts
import BulletHell.Proofs.Pattern.Strictness
import BulletHell.Proofs.Pattern.Waiting
import BulletHell.Proofs.Timeline.Rounds
import BulletHell.Proofs.Actor.Succession
import BulletHell.Proofs.Actor.Latch
import BulletHell.Proofs.World.Topics
import BulletHell.Proofs.World.Hits
import BulletHell.Proofs.World.Bombs
import BulletHell.Proofs.Catalog.Entries
import BulletHell.Proofs.Catalog.Bearers
import BulletHell.Proofs.Stage.Playable
import BulletHell.Proofs.Catalog.Acceptance
import BulletHell.Proofs.Stage.Defects
import BulletHell.Proofs.Catalog.Refusals
import BulletHell.Proofs.Actor.Exhaustion
import BulletHell.Proofs.Pattern.Heading
import BulletHell.Proofs.Actor.ShotsPerTick
import BulletHell.Proofs.Actor.Charge
import BulletHell.Proofs.World.Loadout
import BulletHell.Proofs.World.Pickups
import BulletHell.Proofs.Pattern.Firing
import BulletHell.Proofs.Pattern.WellFormed
import BulletHell.Proofs.Random
import BulletHell.Proofs.Actor.Firings
import BulletHell.Proofs.World.RandomFire
