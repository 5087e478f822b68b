/-!
# Special commands

The low values of a packet are commands to a motor controller rather than throttle. This file lists
them with the number of times each has to be sent and the rest that its controller needs after it.
-/

namespace Rotor

/-- The special commands of a motor controller. -/
inductive Command
  | motorStop
  | beacon1
  | beacon2
  | beacon3
  | beacon4
  | beacon5
  | escInfo
  | spinDirection1
  | spinDirection2
  | mode3dOff
  | mode3dOn
  | settingsRequest
  | saveSettings
  | spinDirectionNormal
  | spinDirectionReversed
  | led0On
  | led1On
  | led2On
  | led3On
  | led0Off
  | led1Off
  | led2Off
  | led3Off
  | audioStreamMode
  | silentMode
  deriving DecidableEq, Repr, Inhabited

namespace Command

/-- The packet value of a command. -/
def value : Command → UInt16
  | motorStop => 0
  | beacon1 => 1
  | beacon2 => 2
  | beacon3 => 3
  | beacon4 => 4
  | beacon5 => 5
  | escInfo => 6
  | spinDirection1 => 7
  | spinDirection2 => 8
  | mode3dOff => 9
  | mode3dOn => 10
  | settingsRequest => 11
  | saveSettings => 12
  | spinDirectionNormal => 20
  | spinDirectionReversed => 21
  | led0On => 22
  | led1On => 23
  | led2On => 24
  | led3On => 25
  | led0Off => 26
  | led1Off => 27
  | led2Off => 28
  | led3Off => 29
  | audioStreamMode => 30
  | silentMode => 31

/-- How often a command is sent. A controller acts on a change of its settings only when it sees the
command ten times in a row. -/
def repeats : Command → Nat
  | spinDirection1 => 10
  | spinDirection2 => 10
  | mode3dOff => 10
  | mode3dOn => 10
  | saveSettings => 10
  | spinDirectionNormal => 10
  | spinDirectionReversed => 10
  | _ => 1

/-- The pause between two repeats, and between two commands, in microseconds. -/
def gapMicros : Nat := 1000

/-- The pause before the first command of an empty queue, in microseconds. -/
def leadMicros : Nat := 10000

/-- The pause after the last repeat of a command, in microseconds: a beacon has to end its tone, and
an information request its answer. -/
def restMicros : Command → Nat
  | beacon1 => 100000
  | beacon2 => 100000
  | beacon3 => 100000
  | beacon4 => 100000
  | beacon5 => 100000
  | escInfo => 12000
  | _ => gapMicros

theorem repeats_pos (command : Command) : 0 < command.repeats := by
  cases command <;> decide

end Command

/-- The motors that a command goes to. -/
inductive Target
  | all
  | motor (index : Nat)
  deriving DecidableEq, Repr, Inhabited

namespace Target

/-- Whether a command with this target goes to `motor`. -/
def includes : Target → Nat → Bool
  | all, _ => true
  | motor index, other => index == other

end Target

end Rotor
