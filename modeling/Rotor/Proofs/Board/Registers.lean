import Rotor.Board.Basic

/-!
# What the accesses of the board leave in the registers

The accesses that the board makes are replayed here on a file of registers that are all zero at
first. `Registers.inlet` gathers what decides whether a channel captures: it lies in five registers
of the timer and of the stream of the channel. The calls of a link change the inlet of their own
channel in a few ways and leave all others as they are.
-/

namespace Rotor

namespace Board

/-- The place of a register. The output modes and the input modes of two channels are one register
under two names. -/
def Register.place : Register → Register
  | .timerInputMode half => .timerOutputMode half
  | register => register

/-- The contents of the registers, by field or as whole words. What was never put there is zero. The
output modes of a channel share bits with its input filter, and are kept apart all the same: only
the direction of the channel is read here. -/
structure Registers where
  field? : Register → Field → Option Value
  word? : Register → Option Word

namespace Registers

/-- Registers after a reset. -/
def zero : Registers where
  field? _ _ := none
  word? _ := none

/-- Puts a value into a field. -/
def put (registers : Registers) (register : Register) (entry : Field × Value) : Registers :=
  { registers with
    field? := fun other field =>
      if other = register ∧ field = entry.1 then some entry.2 else registers.field? other field }

/-- Puts zero into a whole register. -/
def clear (registers : Registers) (register : Register) : Registers where
  field? other field := if other = register then none else registers.field? other field
  word? other := if other = register then none else registers.word? other

/-- Puts values into fields, one after the other. -/
def putAll (registers : Registers) (register : Register) (entries : List (Field × Value)) :
    Registers :=
  entries.foldl (fun after entry => after.put register entry) registers

/-- Puts a word into a whole register. -/
def putWord (registers : Registers) (register : Register) (word : Word) : Registers :=
  { registers.clear register with
    word? := fun other => if other = register then some word else registers.word? other }

/-- The registers after an access. Reads leave them as they are. -/
def apply (registers : Registers) : Access → Registers
  | .write register fields => (registers.clear register.place).putAll register.place fields
  | .modify register fields => registers.putAll register.place fields
  | .writeWord register word => registers.putWord register.place word
  | .read _ | .transferOut _ _ | .transferIn _ _ => registers

/-- The registers after accesses one after the other. -/
def replay (registers : Registers) (accesses : List Access) : Registers :=
  accesses.foldl apply registers

/-- The registers after the accesses of calls. -/
def afterCalls (registers : Registers) (board : Board) (calls : List Call) : Registers :=
  registers.replay (board.performAll calls).2

end Registers

/-- What decides whether a channel captures. -/
structure Inlet where
  /-- The direction of the channel. -/
  select : Option Value
  enable : Option Value
  polarity : Option Value
  complementPolarity : Option Value
  /-- The request that the channel makes for every capture. -/
  request : Option Value
  /-- The direction of the stream. -/
  direction : Option Value
  /-- The register that the stream reads. -/
  peripheral : Option Word
  /-- The number of words that the stream takes. -/
  count : Option Value
  /-- Whether the stream is on. -/
  running : Option Value
  deriving DecidableEq, Repr

/-- An inlet through which a channel captures both edges, up to a number of them, if the channel is
enabled. -/
def Inlet.armed (channel count : Nat) (enabled : Bool) : Inlet where
  select := some (.setting .ownInput)
  enable := some (.flag enabled)
  polarity := some (.flag true)
  complementPolarity := some (.flag true)
  request := some (.flag true)
  direction := some (.setting .peripheralToMemory)
  peripheral := some (.number (compareAddress channel))
  count := some (.number count)
  running := some (.flag true)

namespace Registers

/-- The inlet of a channel. -/
def inlet (registers : Registers) (channel : Nat) : Inlet where
  select := registers.field? (.timerOutputMode (channel / 2)) (.channelSelect (channel % 2))
  enable := registers.field? .timerEnable (.channelEnable channel)
  polarity := registers.field? .timerEnable (.polarity channel)
  complementPolarity := registers.field? .timerEnable (.complementPolarity channel)
  request := registers.field? .timerRequest (.channelRequest channel)
  direction := registers.field? (.streamControl (streamOf channel)) .transferDirection
  peripheral := registers.word? (.streamPeripheral (streamOf channel))
  count := registers.field? (.streamCount (streamOf channel)) .wordCount
  running := registers.field? (.streamControl (streamOf channel)) .streamEnable

variable {registers : Registers} {board : Board}

section Replay

@[simp]
theorem replay_nil : registers.replay [] = registers :=
  rfl

@[simp]
theorem replay_cons (access : Access) (rest : List Access) :
    registers.replay (access :: rest) = (registers.apply access).replay rest :=
  rfl

@[simp]
theorem replay_append (front rest : List Access) :
    registers.replay (front ++ rest) = (registers.replay front).replay rest :=
  List.foldl_append

theorem replay_reads (count : Nat) (register : Register) :
    registers.replay (List.replicate count (.read register)) = registers := by
  induction count with
  | zero => rfl
  | succ count ih => exact ih

/-- Stopping a stream only takes its enable bit away. -/
@[simp]
theorem replay_stopAccesses (stream : Nat) :
    registers.replay (board.stopAccesses stream) =
      registers.put (.streamControl stream) (.streamEnable, .flag false) := by
  simp [stopAccesses, replay_reads, apply, putAll, Register.place]

theorem performAll_append (board : Board) (front rest : List Call) :
    board.performAll (front ++ rest) =
      (((board.performAll front).1.performAll rest).1,
        (board.performAll front).2 ++ ((board.performAll front).1.performAll rest).2) := by
  induction front generalizing board with
  | nil => rfl
  | cons call front ih => simp [performAll, ih]

@[simp]
theorem afterCalls_nil : registers.afterCalls board [] = registers :=
  rfl

theorem afterCalls_cons (call : Call) (rest : List Call) :
    registers.afterCalls board (call :: rest) =
      (registers.replay (board.perform call).2).afterCalls (board.perform call).1 rest := by
  simp [afterCalls, performAll]

theorem afterCalls_append (front rest : List Call) :
    registers.afterCalls board (front ++ rest) =
      (registers.afterCalls board front).afterCalls (board.performAll front).1 rest := by
  simp [afterCalls, performAll_append]

end Replay

section Inlets

theorem inlet_listen (channel : Channel) (index : Nat) :
    (registers.replay (board.perform (.listen channel)).2).inlet index =
      if channel.index.toNat = index then
        { registers.inlet index with
          select := some (.setting .ownInput)
          enable := some (.flag false)
          polarity := some (.flag true)
          complementPolarity := some (.flag true) }
      else registers.inlet index := by
  simp only [perform, inputAccesses, pinAccesses, inlet]
  generalize channel.index.toNat = target
  by_cases same : target = index
  · subst same
    simp [apply, putAll, put, Register.place]
  · have apart : ¬(index / 2 = target / 2 ∧ index % 2 = target % 2) := by
      omega
    simp [apply, putAll, put, Register.place, same, Ne.symm same, apart]

theorem inlet_arm (channel : Channel) (count index : Nat) :
    (registers.replay (board.perform (.arm channel count)).2).inlet index =
      if channel.index.toNat = index then
        { registers.inlet index with
          request := some (.flag true)
          direction := some (.setting .peripheralToMemory)
          peripheral := some (.number (compareAddress index))
          count := some (.number (min count Mailbox.capacity))
          running := some (.flag true) }
      else registers.inlet index := by
  simp only [perform, routeAccesses, startAccesses, clearAccesses, requestAccesses, inlet]
  generalize channel.index.toNat = target
  by_cases same : target = index
  · subst same
    simp [apply, putAll, putWord, put, clear, Register.place]
  · have apart : streamOf index ≠ streamOf target := by
      unfold streamOf
      omega
    simp [apply, putAll, putWord, put, clear, Register.place, same, Ne.symm same, apart]

theorem inlet_halt (channel : Channel) (index : Nat) :
    (registers.replay (board.perform (.halt channel)).2).inlet index =
      if channel.index.toNat = index then
        { registers.inlet index with
          request := some (.flag false)
          running := some (.flag false) }
      else registers.inlet index := by
  simp only [perform, requestAccesses, inlet]
  generalize channel.index.toNat = target
  by_cases same : target = index
  · subst same
    simp [apply, putAll, put, Register.place]
  · have apart : streamOf index ≠ streamOf target := by
      unfold streamOf
      omega
    simp [apply, putAll, put, Register.place, same, Ne.symm same, apart]

theorem inlet_acknowledge (motor index : Nat) :
    (registers.replay (board.perform (.acknowledge motor)).2).inlet index =
      registers.inlet index := by
  simp [perform, clearAccesses, inlet, apply, putAll, put, clear, Register.place]

theorem inlet_fetch (channel : Channel) (room index : Nat) :
    (registers.replay (board.perform (.fetch channel room)).2).inlet index =
      registers.inlet index :=
  rfl

end Inlets

end Registers

end Board

end Rotor
