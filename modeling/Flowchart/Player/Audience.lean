import Flowchart.Player.Control

/-!
Listeners that control the player they listen to.

A listener hears of states or of log entries. It records what it hears, and the first time it hears
anything it carries out a script of commands. Listeners keep to the order in which they came, and
those that are told of something are settled before the first of them is told.
-/

namespace Flowchart

inductive PlayerCommand
  | control (control : Player.Control Number)
  /-- Two listeners under one name, each with a script of its own. -/
  | subscribe (name : String) (hearsState hearsLog : Bool) (script : List PlayerCommand)
  /-- Takes away the listeners that came last under a name. -/
  | unsubscribe (name : String)
deriving Inhabited

namespace PlayerCommand

mutual

/-- The number of commands, those in scripts included. A script may be carried out twice, by a
listener for states and one for log entries. -/
def size : PlayerCommand → Nat
  | .subscribe _ _ _ script => 1 + 2 * sizeAll script
  | .control _ => 1
  | .unsubscribe _ => 1

def sizeAll : List PlayerCommand → Nat
  | [] => 0
  | command :: rest => size command + sizeAll rest

end

end PlayerCommand

namespace Audience

inductive Interest
  | state
  | log
deriving DecidableEq, Repr

structure Listener where
  id : Nat
  name : String
  interest : Interest
deriving DecidableEq, Repr

structure Record where
  name : String
  interest : Interest
  word : String
  position : Option Int
deriving Repr

end Audience

structure Audience where
  nextId : Nat := 0
  listeners : List Audience.Listener := []
  /-- The scripts that have not been carried out, by listener. -/
  scripts : List (Nat × List PlayerCommand) := []
  /-- The listeners that came last under each name. -/
  latest : List (String × List Nat) := []
  records : List Audience.Record := []

namespace Audience

open Player Walk

variable {σ : Type}

def join (name : String) (interest : Interest) (script : List PlayerCommand)
    (audience : Audience) : Audience :=
  { audience with
    nextId := audience.nextId + 1
    listeners := audience.listeners ++ [⟨audience.nextId, name, interest⟩]
    scripts := (audience.nextId, script) :: audience.scripts }

def subscribe (name : String) (hearsState hearsLog : Bool) (script : List PlayerCommand)
    (audience : Audience) : Audience :=
  let first := audience.nextId
  let joined := if hearsState then audience.join name .state script else audience
  let joined := if hearsLog then joined.join name .log script else joined
  { joined with
    latest := putField name ((List.range joined.nextId).drop first) joined.latest }

def unsubscribe (name : String) (audience : Audience) : Audience :=
  let leaving := (audience.latest.lookup name).getD []
  { audience with
    listeners := audience.listeners.filter fun listener => !leaving.contains listener.id }

def interestOf : Notification Number → Interest
  | .entry _ => .log
  | .state _ => .state

def recordOf (name : String) : Notification Number → Record
  | .entry entry => ⟨name, .log, entry.action.name, some entry.index⟩
  | .state state => ⟨name, .state, state.phase.name, state.current⟩

def perform (stage : Stage Number σ Audience) (limit : Nat) :
    PlayerCommand → Play Number σ Audience Player.Outcome
  | .control control => Player.perform stage limit control
  | .subscribe name hearsState hearsLog script => do
      modify fun player =>
        { player with audience := player.audience.subscribe name hearsState hearsLog script }
      return .nothing
  | .unsubscribe name => do
      modify fun player => { player with audience := player.audience.unsubscribe name }
      return .nothing

def performAll (stage : Stage Number σ Audience) (limit : Nat) :
    List PlayerCommand → Play Number σ Audience Unit
  | [] => return
  | command :: rest => do
      let _ ← perform stage limit command
      performAll stage limit rest

def tell (stage : Stage Number σ Audience) (limit : Nat) (notification : Notification Number)
    (player : Player Number σ Audience) (listener : Listener) : Player Number σ Audience :=
  let audience := player.audience
  let script := (audience.scripts.lookup listener.id).getD []
  let audience := { audience with
    records := audience.records ++ [recordOf listener.name notification]
    scripts := audience.scripts.filter (·.1 ≠ listener.id) }
  ((performAll stage limit script).run { player with audience }).2

/-- Tells all listeners that are interested. Every script is carried out once, so that scripts
call for one another at most as often as there are scripts; `depth` bounds this. -/
def notify (setting : Stage Number σ Audience) (limit : Nat) :
    Nat → Notification Number → Player Number σ Audience → Player Number σ Audience
  | 0, _, player => player
  | depth + 1, notification, player =>
      let stage := { setting with notify := notify setting limit depth }
      (player.audience.listeners.filter fun listener =>
        listener.interest = interestOf notification).foldl
          (tell stage limit notification) player

def stage (graph : Graph) (options : Options) (oracle : Oracle σ) (limit commands : Nat) :
    Stage Number σ Audience :=
  let setting := Stage.silent graph options oracle
  { setting with notify := notify setting limit (2 * commands + 2) }

end Audience

end Flowchart
