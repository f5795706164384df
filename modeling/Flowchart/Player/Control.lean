import Flowchart.Player

/-!
The controls of a player as values, so that a way to drive it can be given as a list.
-/

namespace Flowchart.Player

inductive Control (τ : Type)
  | start
  | pause
  | resume
  | step
  | reset
  | setSpeed (speed : Number)
  /-- Steps until the walk is completed, at most so many. -/
  | run (limit : Int)
  | advance (duration : τ)
  | runNext
deriving Inhabited, Repr

inductive Outcome
  | nothing
  | speed (value : Int)
  | count (value : Nat)
  | flag (value : Bool)
deriving Repr

variable {τ σ χ : Type}
variable [Zero τ] [ClockTime τ] [LE τ] [DecidableLE τ] [LT τ] [DecidableLT τ] [IntCast τ]

def perform (stage : Stage τ σ χ) (limit : Nat) : Control τ → Play τ σ χ Outcome
  | .start => do start stage; return .nothing
  | .pause => do pause stage; return .nothing
  | .resume => do resume stage; return .nothing
  | .step => do step stage; return .nothing
  | .reset => do reset stage; return .nothing
  | .setSpeed speed => return .speed (← setSpeed stage speed)
  | .run steps => do runUntilComplete stage steps; return .nothing
  | .advance duration => return .count (← advance stage limit duration)
  | .runNext => return .flag (← runNext stage)

def drive (stage : Stage τ σ χ) (limit : Nat) (controls : List (Control τ))
    (player : Player τ σ χ) : Player τ σ χ :=
  controls.foldl (fun player control => ((perform stage limit control).run player).2) player

end Flowchart.Player
