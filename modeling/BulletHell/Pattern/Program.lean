import BulletHell.Pattern.Instruction

/-!
# Programs

A program is a list of instructions, shared by all emitters that run it. Loops are flat
brackets in the list. Strict loading refuses every bracket structure whose meaning at run time
would be ambiguous; lenient loading accepts all of them and leaves it to the interpreter.

## Main definitions

* `ProgramError` — what is wrong with a program, and where.
* `Program.validate` — the strict check. It stops at the first culprit.
* `Program.ofInstructions` — a program from instructions, checked or not.
* `Program.compile` — a program from written instructions, with shot names resolved.
-/

namespace BulletHell

/-- What is wrong with a program. Indices count instructions from zero. -/
inductive ProgramError where
  | unmatchedRepeatEnd (index : Nat)
  | zeroRepeat (index : Nat)
  | adjacentRepeatStart (index : Nat)
  | unclosedRepeat (index : Nat)
  | repeatTooDeep (index depth limit : Nat)
  | unknownShot (index : Nat) (name : String)
deriving DecidableEq, Repr

namespace ProgramError

/-- The kind of an error, as one word. -/
def kind : ProgramError → String
  | unmatchedRepeatEnd _ => "UnmatchedRepeatEnd"
  | zeroRepeat _ => "ZeroRepeat"
  | adjacentRepeatStart _ => "AdjacentRepeatStart"
  | unclosedRepeat _ => "UnclosedRepeat"
  | repeatTooDeep .. => "RepeatTooDeep"
  | unknownShot .. => "UnknownShot"

/-- What is wrong, as a sentence. -/
def message : ProgramError → String
  | unmatchedRepeatEnd index => s!"repeat end at {index} has no open repeat start"
  | zeroRepeat index => s!"repeat start at {index} has a zero count"
  | adjacentRepeatStart index =>
    s!"repeat start at {index} directly follows another repeat start"
  | unclosedRepeat index =>
    s!"repeat start at {index} is never closed (only one may run to the end of the program)"
  | repeatTooDeep index depth limit =>
    s!"repeat start at {index} nests {depth} deep, limit is {limit}"
  | unknownShot index name => "unknown shot archetype `" ++ name ++ s!"` at {index}"

end ProgramError

/-- An instruction list. -/
structure Program where
  instructions : List Instruction

namespace Program

/-- The program that ends at once. -/
def empty : Program := ⟨[]⟩

def length (p : Program) : Nat :=
  p.instructions.length

/-- The instruction at a place. -/
def fetch? (p : Program) (place : Nat) : Option Instruction :=
  p.instructions[place]?

/-! ### The strict check -/

/-- What the check knows in front of an instruction: its index, whether the instruction before
it opened a loop, and the loops still open, innermost first. -/
structure Scan where
  index : Nat := 0
  afterStart : Bool := false
  openStarts : List Nat := []

namespace Scan

/-- Reads one instruction. A zero count is reported before adjacency, adjacency before
depth. -/
def step (limit : Nat) (s : Scan) : Instruction → Except ProgramError Scan
  | .repeatStart times =>
    if times = 0 then .error (.zeroRepeat s.index)
    else if s.afterStart then .error (.adjacentRepeatStart s.index)
    else if limit < s.openStarts.length + 1 then
      .error (.repeatTooDeep s.index (s.openStarts.length + 1) limit)
    else .ok ⟨s.index + 1, true, s.index :: s.openStarts⟩
  | .repeatEnd =>
    match s.openStarts with
    | [] => .error (.unmatchedRepeatEnd s.index)
    | _ :: rest => .ok ⟨s.index + 1, false, rest⟩
  | _ => .ok ⟨s.index + 1, false, s.openStarts⟩

/-- Reads instructions up to the first culprit. -/
def run (limit : Nat) : Scan → List Instruction → Except ProgramError Scan
  | s, [] => .ok s
  | s, op :: rest =>
    match s.step limit op with
    | .error e => .error e
    | .ok next => run limit next rest

/-- The end of the program closes one loop. If more are open, the outermost is to blame. -/
def finish (s : Scan) : Except ProgramError Unit :=
  match s.openStarts with
  | _ :: inner :: rest => .error (.unclosedRepeat ((inner :: rest).getLastD inner))
  | _ => .ok ()

end Scan

/-- Refuses loops that are empty of turns, start together, nest too deep, or do not match. -/
def validate (limit : Nat) (ops : List Instruction) : Except ProgramError Unit :=
  match Scan.run limit {} ops with
  | .error e => .error e
  | .ok s => s.finish

/-- A program from instructions, checked when `strict`. -/
def ofInstructions (strict : Bool) (limit : Nat) (ops : List Instruction) :
    Except ProgramError Program :=
  if strict then
    match validate limit ops with
    | .error e => .error e
    | .ok () => .ok ⟨ops⟩
  else .ok ⟨ops⟩

/-! ### Resolving names -/

/-- Resolves the shot name of one instruction. -/
def resolve (shotId? : String → Option ShotId) (index : Nat) :
    InstructionConfig → Except ProgramError Instruction
  | .fire => .ok .fire
  | .waitFrames frames => .ok (.waitFrames frames)
  | .waitBeats beats => .ok (.waitBeats beats)
  | .offsetAngle degrees => .ok (.offsetAngle degrees)
  | .resetAngle => .ok .resetAngle
  | .setMode mode => .ok (.setMode mode)
  | .setShot name =>
    match shotId? name with
    | some id => .ok (.setShot id)
    | none => .error (.unknownShot index name)
  | .mirror => .ok .mirror
  | .damage amount => .ok (.damage amount)
  | .repeatStart times => .ok (.repeatStart times)
  | .repeatEnd => .ok .repeatEnd

/-- Resolves a list of instructions that starts at a given index. -/
def resolveFrom (shotId? : String → Option ShotId) :
    Nat → List InstructionConfig → Except ProgramError (List Instruction)
  | _, [] => .ok []
  | index, op :: rest =>
    match resolve shotId? index op with
    | .error e => .error e
    | .ok op =>
      match resolveFrom shotId? (index + 1) rest with
      | .error e => .error e
      | .ok ops => .ok (op :: ops)

/-- A program from written instructions. Unknown shots are reported before loops are looked
at. -/
def compile (shotId? : String → Option ShotId) (strict : Bool) (limit : Nat)
    (ops : List InstructionConfig) : Except ProgramError Program :=
  match resolveFrom shotId? 0 ops with
  | .error e => .error e
  | .ok ops => ofInstructions strict limit ops

end Program

end BulletHell
