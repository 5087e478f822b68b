import Rotor.Proofs.Board.Registers

/-!
# How streams are started

A stream is set up in pieces: it is stopped, its flags are cleared, its registers are written, and
the last of these writes enables it. `Board.Disciplined` says of a list of accesses that it touches
only the four streams of the motors, that it enables a stream only after stopping it and clearing
its flags, and that the stream is then set up for one of the transfers it is meant for. Disciplined
accesses may be put one behind the other (`Board.Disciplined.append`), so it is enough to know it of
each call.
-/

namespace Rotor

namespace Board

/-- A stream of a motor. -/
def IsMotorStream (stream : Nat) : Prop :=
  firstStream ≤ stream ∧ stream < firstStream + motorCount

instance (stream : Nat) : Decidable (IsMotorStream stream) :=
  inferInstanceAs (Decidable (_ ∧ _))

/-- The streams that a register belongs to. -/
def Register.streams : Register → List Nat
  | .dmaStatus half | .dmaClear half => (List.range 4).map (4 * half + ·)
  | .streamControl stream | .streamPeripheral stream | .streamMemory stream | .streamCount stream
  | .streamBuffer stream | .requestRoute stream => [stream]
  | _ => []

/-- The stream whose flag a field is, among the four of its register. -/
def Field.flagSlot? : Field → Option Nat
  | .completeFlag slot | .halfFlag slot | .transferErrorFlag slot | .directErrorFlag slot
  | .bufferErrorFlag slot => some slot
  | _ => none

namespace Access

/-- The streams that an access concerns. Flags that are written as zero stay as they are. -/
def streams : Access → List Nat
  | .write (.dmaClear half) fields =>
    fields.filterMap fun entry => entry.1.flagSlot?.map (4 * half + ·)
  | .write register _ | .modify register _ | .writeWord register _ | .read register =>
    register.streams
  | .transferOut stream _ | .transferIn stream _ => [stream]

/-- Whether an access enables a stream. -/
def enables (stream : Nat) : Access → Bool
  | .write register fields | .modify register fields =>
    register = .streamControl stream && fields.contains (.streamEnable, .flag true)
  | .writeWord register _ => register = .streamControl stream
  | .read _ | .transferOut _ _ | .transferIn _ _ => false

/-- Whether an access concerns the streams of motors only. -/
def Confined (access : Access) : Prop :=
  ∀ stream ∈ access.streams, IsMotorStream stream

instance (access : Access) : Decidable access.Confined :=
  inferInstanceAs (Decidable (∀ stream ∈ access.streams, IsMotorStream stream))

/-- Whether an access enables no stream. -/
def Calm (access : Access) : Prop :=
  ∀ stream, access.enables stream = false

end Access

/-- What a stream is set up for. -/
structure Transfer where
  /-- The request that the stream follows. -/
  request : Option Value
  direction : Option Value
  /-- The register that the stream reads or writes. -/
  peripheral : Option Word
  /-- The number of words. -/
  count : Option Value
  deriving DecidableEq, Repr

/-- What the registers set a stream up for. -/
def Registers.transfer (registers : Registers) (stream : Nat) : Transfer where
  request := registers.field? (.requestRoute stream) .requestId
  direction := registers.field? (.streamControl stream) .transferDirection
  peripheral := registers.word? (.streamPeripheral stream)
  count := registers.field? (.streamCount stream) .wordCount

namespace Transfer

/-- The frame of one channel. -/
def output (encoding : Encoding) (channel : Nat) : Transfer where
  request := some (.number (channelRequestLine channel))
  direction := some (.setting .memoryToPeripheral)
  peripheral := some (.number (compareAddress channel))
  count := some (.number encoding.frameLength)

/-- The reply on one channel. -/
def input (encoding : Encoding) (channel : Nat) : Transfer where
  request := some (.number (channelRequestLine channel))
  direction := some (.setting .peripheralToMemory)
  peripheral := some (.number (compareAddress channel))
  count := some (.number encoding.captureLength)

/-- The frames of all channels. -/
def burst (encoding : Encoding) : Transfer where
  request := some (.number updateRequestLine)
  direction := some (.setting .memoryToPeripheral)
  peripheral := some (.number burstAddress)
  count := some (.number (encoding.frameLength * channelsPerTimer))

end Transfer

example (channel : Nat) :
    (Transfer.output .bits channel).count = some (.number 17) ∧
      (Transfer.output .nibbles channel).count = some (.number 5) ∧
      (Transfer.input .bits channel).count = some (.number 32) ∧
      (Transfer.input .nibbles channel).count = some (.number 8) ∧
      (Transfer.burst .bits).count = some (.number 68) ∧
      (Transfer.burst .nibbles).count = some (.number 20) :=
  ⟨rfl, rfl, rfl, rfl, rfl, rfl⟩

/-- The transfers that streams are meant for. -/
inductive Allowed (encoding : Encoding) (burst : Bool) : Nat → Transfer → Prop
  | output {channel : Nat} (onBoard : channel < motorCount) (single : burst = false) :
      Allowed encoding burst (streamOf channel) (.output encoding channel)
  | input {channel : Nat} (onBoard : channel < motorCount) :
      Allowed encoding burst (streamOf channel) (.input encoding channel)
  | burst (bursts : burst = true) : Allowed encoding burst firstStream (.burst encoding)

/-- A stream is enabled as it should be. The registers are those before the accesses `before`, after
which it happens, and `origin` tells how long a stream takes to stop. -/
structure StartsWell (origin : Board) (encoding : Encoding) (burst : Bool) (registers : Registers)
    (before : List Access) (access : Access) (stream : Nat) : Prop where
  /-- The stream was stopped and had its flags cleared since it was last enabled. -/
  prepared : ∃ earlier recent,
    before = earlier ++ origin.stopAccesses stream ++ clearAccesses stream ++ recent ∧
    ∀ other ∈ recent, other.enables stream = false
  /-- The stream is set up for a transfer that it is meant for. -/
  allowed :
    Allowed encoding burst stream ((registers.replay (before ++ [access])).transfer stream)

/-- Accesses that touch only the streams of motors, and enable them as they should be. -/
structure Disciplined (origin : Board) (encoding : Encoding) (burst : Bool) (registers : Registers)
    (accesses : List Access) : Prop where
  confined : ∀ access ∈ accesses, access.Confined
  startsWell : ∀ before access after stream, accesses = before ++ access :: after →
    access.enables stream = true → StartsWell origin encoding burst registers before access stream

variable {origin board : Board} {encoding : Encoding} {burst : Bool} {registers : Registers}
  {accesses front rest : List Access} {stream : Nat}

section Composition

theorem Disciplined.of_calm (confined : ∀ access ∈ accesses, access.Confined)
    (calm : ∀ access ∈ accesses, access.Calm) :
    Disciplined origin encoding burst registers accesses := by
  refine ⟨confined, ?_⟩
  rintro before access after stream rfl enables
  rw [calm access (by simp) stream] at enables
  cases enables

theorem Access.mem_streams_of_enables {access : Access} (enables : access.enables stream = true) :
    stream ∈ access.streams := by
  cases access with
  | write register fields =>
      simp only [Access.enables, Bool.and_eq_true, decide_eq_true_eq] at enables
      simp [enables.1, Access.streams, Register.streams]
  | modify register fields =>
      simp only [Access.enables, Bool.and_eq_true, decide_eq_true_eq] at enables
      simp [enables.1, Access.streams, Register.streams]
  | writeWord register word =>
      simp only [Access.enables, decide_eq_true_eq] at enables
      simp [enables, Access.streams, Register.streams]
  | _ => cases enables

/-- Accesses that are not about streams are disciplined. -/
theorem Disciplined.of_away (away : ∀ access ∈ accesses, access.streams = []) :
    Disciplined origin encoding burst registers accesses := by
  apply of_calm
  · intro access accessMem stream streamMem
    rw [away access accessMem] at streamMem
    cases streamMem
  · intro access accessMem stream
    rcases Bool.eq_false_or_eq_true (access.enables stream) with enables | calm
    · have streamMem := Access.mem_streams_of_enables enables
      rw [away access accessMem] at streamMem
      cases streamMem
    · exact calm

theorem StartsWell.append {before : List Access} {access : Access}
    (starts : StartsWell origin encoding burst (registers.replay front) before access stream) :
    StartsWell origin encoding burst registers (front ++ before) access stream := by
  rcases starts.prepared with ⟨earlier, recent, rfl, still⟩
  refine ⟨⟨front ++ earlier, recent, by simp, still⟩, ?_⟩
  rw [List.append_assoc, Registers.replay_append]
  exact starts.allowed

/-- Disciplined accesses may be put one behind the other. -/
theorem Disciplined.append (disciplined : Disciplined origin encoding burst registers front)
    (later : Disciplined origin encoding burst (registers.replay front) rest) :
    Disciplined origin encoding burst registers (front ++ rest) := by
  refine ⟨List.forall_mem_append.mpr ⟨disciplined.confined, later.confined⟩, ?_⟩
  intro before access after stream split enables
  -- The access is among the later ones, or among the first, or the first of the later ones.
  rcases List.append_eq_append_iff.mp split with
    ⟨middle, rfl, restSplit⟩ | ⟨middle, frontSplit, afterSplit⟩
  · exact (later.startsWell middle access after stream restSplit enables).append
  · cases middle with
    | nil =>
        rw [List.append_nil] at frontSplit
        subst frontSplit
        have starts := later.startsWell [] access after stream afterSplit.symm enables
        simpa using starts.append
    | cons first middle =>
        obtain ⟨rfl, rfl⟩ := List.cons.inj afterSplit
        exact disciplined.startsWell before access middle stream frontSplit enables

end Composition

section Starting

theorem isMotorStream_streamOf {channel : Nat} (onBoard : channel < motorCount) :
    IsMotorStream (streamOf channel) := by
  unfold IsMotorStream streamOf
  omega

theorem isMotorStream_firstStream : IsMotorStream firstStream := by
  decide

theorem stopAccesses_congr (same : board.busyReads = origin.busyReads) (stream : Nat) :
    board.stopAccesses stream = origin.stopAccesses stream := by
  simp [stopAccesses, same]

theorem confined_stopAccesses (board : Board) (onBoard : IsMotorStream stream) :
    ∀ access ∈ board.stopAccesses stream, access.Confined := by
  simpa [stopAccesses, Access.Confined, Access.streams, Register.streams] using onBoard

theorem confined_clearAccesses (onBoard : IsMotorStream stream) :
    ∀ access ∈ clearAccesses stream, access.Confined := by
  have whole : 4 * (stream / 4) + stream % 4 = stream := by
    omega
  simpa [clearAccesses, Access.Confined, Access.streams, Field.flagSlot?, whole] using onBoard

theorem calm_stopAccesses (board : Board) (stream : Nat) :
    ∀ access ∈ board.stopAccesses stream, access.Calm := by
  simp [stopAccesses, Access.Calm, Access.enables]

theorem calm_clearAccesses (stream : Nat) : ∀ access ∈ clearAccesses stream, access.Calm := by
  simp [clearAccesses, Access.Calm, Access.enables]

/-- Where only the last access enables a stream, it is found nowhere else. -/
theorem split_of_calm {before after : List Access} {access last : Access}
    (calm : ∀ access ∈ front, access.Calm) (split : front ++ [last] = before ++ access :: after)
    (enables : access.enables stream = true) : before = front ∧ access = last ∧ after = [] := by
  rcases List.eq_nil_or_concat after with rfl | ⟨middle, final, rfl⟩
  · obtain ⟨rfl, same⟩ := List.append_inj' split rfl
    exact ⟨rfl, (List.singleton_inj.mp same).symm, rfl⟩
  · rw [List.concat_eq_append, ← List.cons_append, ← List.append_assoc] at split
    obtain ⟨rfl, _⟩ := List.append_inj' split rfl
    rw [calm access (by simp) stream] at enables
    cases enables

/-- The writes to the registers of a stopped stream. -/
def setUpAccesses (stream peripheral : Nat) (region : Region) (count : Nat) : List Access :=
  [.writeWord (.streamPeripheral stream) (.number peripheral),
    .writeWord (.streamMemory stream) (.address region),
    .write (.streamCount stream) [(.wordCount, .number count)],
    .write (.streamBuffer stream) [(.directDisable, .flag false)]]

/-- The write that enables a stream. -/
def enableAccess (stream : Nat) (direction : Setting) : Access :=
  .write (.streamControl stream)
    [(.transferDirection, .setting direction), (.memorySize, .setting .word32),
      (.peripheralSize, .setting .word32), (.memoryIncrement, .flag true),
      (.peripheralIncrement, .flag false), (.priority, .setting .veryHigh),
      (.streamEnable, .flag true)]

theorem startAccesses_eq (board : Board) (stream : Nat) (direction : Setting) (peripheral : Nat)
    (region : Region) (count : Nat) :
    board.startAccesses stream direction peripheral region count =
      board.stopAccesses stream ++ clearAccesses stream ++
        setUpAccesses stream peripheral region count ++ [enableAccess stream direction] := by
  simp [startAccesses, setUpAccesses, enableAccess]

theorem calm_setUpAccesses (stream peripheral : Nat) (region : Region) (count : Nat) :
    ∀ access ∈ setUpAccesses stream peripheral region count, access.Calm := by
  simp [setUpAccesses, Access.Calm, Access.enables]

theorem transfer_startAccesses (board : Board) (registers : Registers) (stream : Nat)
    (direction : Setting) (peripheral : Nat) (region : Region) (count : Nat) :
    (registers.replay (board.startAccesses stream direction peripheral region count)).transfer
        stream =
      { request := registers.field? (.requestRoute stream) .requestId
        direction := some (.setting direction)
        peripheral := some (.number peripheral)
        count := some (.number count) } := by
  simp [startAccesses, clearAccesses, Registers.transfer, Registers.apply, Registers.putAll,
    Registers.putWord, Registers.put, Registers.clear, Register.place]

/-- A stream that is started is set up for what it is started with, and for the request that it
follows already. -/
theorem disciplined_startAccesses (same : board.busyReads = origin.busyReads)
    (onBoard : IsMotorStream stream) {direction : Setting} {peripheral count : Nat}
    (allowed : Allowed encoding burst stream
      { request := registers.field? (.requestRoute stream) .requestId
        direction := some (.setting direction)
        peripheral := some (.number peripheral)
        count := some (.number count) }) (region : Region) :
    Disciplined origin encoding burst registers
      (board.startAccesses stream direction peripheral region count) := by
  have shape := startAccesses_eq board stream direction peripheral region count
  constructor
  · simp only [startAccesses, List.forall_mem_append]
    refine ⟨⟨confined_stopAccesses board onBoard, confined_clearAccesses onBoard⟩, ?_⟩
    simpa [Access.Confined, Access.streams, Register.streams] using onBoard
  · intro before access after other split enables
    have calm : ∀ access ∈ board.stopAccesses stream ++ clearAccesses stream ++
        setUpAccesses stream peripheral region count, access.Calm := by
      simp only [List.forall_mem_append]
      exact ⟨⟨calm_stopAccesses board stream, calm_clearAccesses stream⟩,
        calm_setUpAccesses stream peripheral region count⟩
    obtain ⟨rfl, rfl, rfl⟩ := split_of_calm calm (shape.symm.trans split) enables
    obtain rfl : stream = other := by
      simpa [enableAccess, Access.enables] using enables
    refine ⟨⟨[], setUpAccesses stream peripheral region count, ?_, ?_⟩, ?_⟩
    · rw [stopAccesses_congr same, List.nil_append]
    · intro access accessMem
      exact calm_setUpAccesses stream peripheral region count access accessMem stream
    · rw [← shape, transfer_startAccesses]
      exact allowed

end Starting

section Calls

variable {call : Call} {calls : List Call} {channel : Nat}

/-- The request that the stream of a channel follows. -/
def Registers.route (registers : Registers) (channel : Nat) : Option Value :=
  registers.field? (.requestRoute (streamOf channel)) .requestId

/-- The stream of a channel follows the request of the channel. -/
def Registers.RoutesOwn (registers : Registers) (channel : Nat) : Prop :=
  registers.route channel = some (.number (channelRequestLine channel))

/-- A call that the board is made for. It is about motors of the board, and about as many words as
there are in a frame or in a reply. -/
def Fitting (encoding : Encoding) (burst : Bool) : Call → Prop
  | .claim _ forBurst => forBurst = burst
  | .load channel words => burst = false ∧ channel.index.toNat < motorCount ∧
      words.length = encoding.frameLength
  | .arm channel count => channel.index.toNat < motorCount ∧ count = encoding.captureLength
  | .halt channel => channel.index.toNat < motorCount
  | .burst _ words => burst = true ∧ words.length = encoding.frameLength * channelsPerTimer
  | .acknowledge motor => motor < motorCount
  | .setUpTimer _ _ | .drive _ | .listen _ | .enable _ | .fetch _ _ | .start _ _ | .haltBurst _ =>
      True

@[simp]
theorem busyReads_perform (board : Board) (call : Call) :
    (board.perform call).1.busyReads = board.busyReads := by
  cases call with
  | claim motor forBurst =>
      simp only [perform]
      split <;> rfl
  | _ => rfl

@[simp]
theorem busyReads_performAll (board : Board) (calls : List Call) :
    (board.performAll calls).1.busyReads = board.busyReads := by
  induction calls generalizing board with
  | nil => rfl
  | cons call rest ih => exact (ih (board.perform call).1).trans (busyReads_perform board call)

theorem lt_motorCount_of_answer {motor : Nat} {claimed : Channel}
    (answer : board.answer motor = .ok claimed) : motor < motorCount := by
  unfold Board.answer at answer
  split at answer
  · cases answer
  · next onBoard => exact Nat.lt_of_not_le onBoard

section Routes

/-- The register that an access writes. -/
def Access.written? : Access → Option Register
  | .write register _ | .modify register _ | .writeWord register _ => some register.place
  | .read _ | .transferOut _ _ | .transferIn _ _ => none

theorem Registers.field?_putAll_of_ne {register other : Register} (differ : other ≠ register)
    (entries : List (Field × Value)) (field : Field) :
    (registers.putAll register entries).field? other field = registers.field? other field := by
  induction entries generalizing registers with
  | nil => rfl
  | cons entry entries ih =>
      have head : (registers.put register entry).field? other field =
          registers.field? other field := by
        simp [put, differ]
      exact ih.trans head

theorem Registers.field?_apply_of_unwritten {access : Access} {register : Register}
    (unwritten : access.written? ≠ some register) (field : Field) :
    (registers.apply access).field? register field = registers.field? register field := by
  cases access with
  | write other entries =>
      have differ : register ≠ other.place := by simpa [Access.written?, eq_comm] using unwritten
      rw [apply, field?_putAll_of_ne differ]
      simp [clear, differ]
  | modify other entries =>
      have differ : register ≠ other.place := by simpa [Access.written?, eq_comm] using unwritten
      rw [apply, field?_putAll_of_ne differ]
  | writeWord other word =>
      have differ : register ≠ other.place := by simpa [Access.written?, eq_comm] using unwritten
      simp [apply, putWord, clear, differ]
  | _ => rfl

/-- A field stays as it is as long as its register is not written. -/
theorem Registers.field?_replay_of_unwritten {register : Register}
    (unwritten : ∀ access ∈ accesses, access.written? ≠ some register) (field : Field) :
    (registers.replay accesses).field? register field = registers.field? register field := by
  induction accesses generalizing registers with
  | nil => rfl
  | cons access rest ih =>
      rw [List.forall_mem_cons] at unwritten
      rw [replay_cons, ih unwritten.2, field?_apply_of_unwritten unwritten.1]

theorem Registers.RoutesOwn.keep (routes : registers.RoutesOwn channel)
    (unwritten : ∀ access ∈ accesses,
      access.written? ≠ some (.requestRoute (streamOf channel))) :
    (registers.replay accesses).RoutesOwn channel :=
  (field?_replay_of_unwritten unwritten _).trans routes

theorem Registers.field?_routeAccesses (registers : Registers) (stream other request : Nat) :
    (registers.replay (routeAccesses stream request)).field? (.requestRoute other) .requestId =
      if other = stream then some (.number request)
      else registers.field? (.requestRoute other) .requestId := by
  by_cases same : other = stream <;>
    simp [routeAccesses, apply, putAll, put, clear, Register.place, same]

theorem Registers.RoutesOwn.reroute (routes : registers.RoutesOwn channel) (other : Nat) :
    (registers.replay (routeAccesses (streamOf other) (channelRequestLine other))).RoutesOwn
      channel := by
  unfold RoutesOwn route
  rw [field?_routeAccesses]
  split
  · next same =>
    obtain rfl : channel = other := by
      unfold streamOf at same
      omega
    rfl
  · exact routes

end Routes

/-- Without bursts, streams that follow their own requests go on to do so. -/
theorem routesOwn_perform (fitting : Fitting encoding false call)
    (routes : registers.RoutesOwn channel) (board : Board) :
    (registers.replay (board.perform call).2).RoutesOwn channel := by
  cases call with
  | claim motor forBurst =>
      obtain rfl : forBurst = false := fitting
      simp only [perform]
      split
      · exact routes
      · simp only [claimAccesses, Bool.false_eq_true, false_and, if_false,
          Registers.replay_append]
        apply Registers.RoutesOwn.reroute
        apply routes.keep
        simp [pinAccesses, Access.written?, Register.place]
  | setUpTimer other protocol =>
      apply routes.keep
      simp only [perform, initAccesses]
      split <;> simp [Access.written?, Register.place]
  | load target words =>
      apply routes.keep
      simp [perform, startAccesses, stopAccesses, clearAccesses, Access.written?, Register.place]
  | arm target count =>
      simp only [perform, Registers.replay_append]
      apply Registers.RoutesOwn.keep
      · apply Registers.RoutesOwn.keep
        · exact routes.reroute _
        · simp [startAccesses, stopAccesses, clearAccesses, Access.written?, Register.place]
      · simp [requestAccesses, Access.written?, Register.place]
  | burst other words => exact absurd fitting.1 (by decide)
  | _ =>
      apply routes.keep
      simp [perform, outputAccesses, inputAccesses, pinAccesses, requestAccesses, resetAccesses,
        stopAccesses, clearAccesses, Access.written?, Register.place]

theorem disciplined_routeAccesses (onBoard : IsMotorStream stream) (request : Nat) :
    Disciplined origin encoding burst registers (routeAccesses stream request) := by
  apply Disciplined.of_calm
  · simpa [routeAccesses, Access.Confined, Access.streams, Register.streams] using onBoard
  · simp [routeAccesses, Access.Calm, Access.enables]

theorem disciplined_stopAccesses (board : Board) (onBoard : IsMotorStream stream) :
    Disciplined origin encoding burst registers (board.stopAccesses stream) :=
  .of_calm (confined_stopAccesses board onBoard) (calm_stopAccesses board stream)

theorem disciplined_clearAccesses (onBoard : IsMotorStream stream) :
    Disciplined origin encoding burst registers (clearAccesses stream) :=
  .of_calm (confined_clearAccesses onBoard) (calm_clearAccesses stream)

theorem away_initAccesses (board : Board) (protocol : Protocol) :
    ∀ access ∈ board.initAccesses protocol, access.streams = [] := by
  unfold initAccesses
  split <;> simp [Access.streams, Register.streams]

theorem away_requestAccesses (channel : Nat) (on : Bool) :
    ∀ access ∈ requestAccesses channel on, access.streams = [] := by
  simp [requestAccesses, Access.streams, Register.streams]

theorem disciplined_claimAccesses {motor : Nat} (onBoard : motor < motorCount) (forBurst : Bool) :
    Disciplined origin encoding burst registers (claimAccesses motor forBurst) := by
  unfold claimAccesses
  apply Disciplined.append
  · apply Disciplined.of_away
    simp [pinAccesses, Access.streams, Register.streams]
  · split
    · exact disciplined_routeAccesses isMotorStream_firstStream _
    · exact disciplined_routeAccesses (isMotorStream_streamOf onBoard) _

theorem disciplined_load (same : board.busyReads = origin.busyReads) {target : Channel}
    {words : List UInt32} (fitting : Fitting encoding burst (.load target words))
    (routes : registers.RoutesOwn target.index.toNat) :
    Disciplined origin encoding burst registers (board.perform (.load target words)).2 := by
  rcases fitting with ⟨single, onBoard, length⟩
  have isMotor := isMotorStream_streamOf onBoard
  have whole : (words.take outputCapacity).length = encoding.frameLength := by
    rw [List.length_take, length]
    cases encoding <;> rfl
  simp only [perform, whole]
  apply Disciplined.append
  · apply disciplined_startAccesses same isMotor
    unfold Registers.RoutesOwn Registers.route at routes
    rw [routes]
    exact .output onBoard single
  · apply Disciplined.of_calm
    · simpa [Access.Confined, Access.streams] using isMotor
    · simp [Access.Calm, Access.enables]

theorem disciplined_arm (same : board.busyReads = origin.busyReads) {target : Channel}
    {count : Nat} (fitting : Fitting encoding burst (.arm target count)) :
    Disciplined origin encoding burst registers (board.perform (.arm target count)).2 := by
  rcases fitting with ⟨onBoard, length⟩
  have isMotor := isMotorStream_streamOf onBoard
  have whole : min count Mailbox.capacity = encoding.captureLength := by
    rw [length]
    cases encoding <;> rfl
  simp only [perform, whole]
  apply Disciplined.append
  · apply Disciplined.append
    · exact disciplined_routeAccesses isMotor _
    · apply disciplined_startAccesses same isMotor
      rw [Registers.field?_routeAccesses, if_pos rfl]
      exact .input onBoard
  · apply Disciplined.of_calm
    · simpa [requestAccesses, Access.Confined, Access.streams, Register.streams] using isMotor
    · simp [requestAccesses, Access.Calm, Access.enables]

theorem disciplined_burst (same : board.busyReads = origin.busyReads) {other : Timer}
    {words : List UInt32} (fitting : Fitting encoding burst (.burst other words)) :
    Disciplined origin encoding burst registers (board.perform (.burst other words)).2 := by
  rcases fitting with ⟨bursts, length⟩
  have whole : (words.take burstCapacity).length = encoding.frameLength * channelsPerTimer := by
    rw [List.length_take, length]
    cases encoding <;> rfl
  simp only [perform, whole, List.append_assoc]
  apply Disciplined.append
  · exact disciplined_routeAccesses isMotorStream_firstStream _
  apply Disciplined.append
  · apply disciplined_startAccesses same isMotorStream_firstStream
    rw [Registers.field?_routeAccesses, if_pos rfl]
    exact .burst bursts
  · apply Disciplined.of_calm
    · simp [resetAccesses, Access.Confined, Access.streams, Register.streams,
        isMotorStream_firstStream]
    · simp [resetAccesses, Access.Calm, Access.enables]

/-- The board handles its streams well in every call that it is made for. A channel is loaded only
while its stream follows its own request. -/
theorem disciplined_perform (same : board.busyReads = origin.busyReads)
    (fitting : Fitting encoding burst call)
    (routes : ∀ target words, call = .load target words →
      registers.RoutesOwn target.index.toNat) :
    Disciplined origin encoding burst registers (board.perform call).2 := by
  cases call with
  | claim motor forBurst =>
      simp only [perform]
      split
      · exact .of_away (by simp)
      · next claimed answer =>
        exact disciplined_claimAccesses (lt_motorCount_of_answer answer) forBurst
  | setUpTimer other protocol => exact .of_away (away_initAccesses board protocol)
  | load target words => exact disciplined_load same fitting (routes target words rfl)
  | arm target count => exact disciplined_arm same fitting
  | burst other words => exact disciplined_burst same fitting
  | halt target =>
      exact (Disciplined.of_away (away_requestAccesses _ _)).append
        (disciplined_stopAccesses board (isMotorStream_streamOf fitting))
  | haltBurst other =>
      have request : Disciplined origin encoding burst registers
          [.modify .timerRequest [(.updateRequest, .flag false)]] := by
        apply Disciplined.of_away
        simp [Access.streams, Register.streams]
      exact request.append (disciplined_stopAccesses board isMotorStream_firstStream)
  | acknowledge motor => exact disciplined_clearAccesses (isMotorStream_streamOf fitting)
  | _ =>
      apply Disciplined.of_away
      simp [perform, outputAccesses, inputAccesses, pinAccesses, resetAccesses, Access.streams,
        Register.streams]

/-- The same of calls one after the other. -/
theorem disciplined_performAll (same : board.busyReads = origin.busyReads)
    (fitting : ∀ call ∈ calls, Fitting encoding burst call)
    (routes : ∀ target words, .load target words ∈ calls →
      registers.RoutesOwn target.index.toNat) :
    Disciplined origin encoding burst registers (board.performAll calls).2 := by
  induction calls generalizing board registers with
  | nil => exact .of_away (by simp [performAll])
  | cons call rest ih =>
      rw [List.forall_mem_cons] at fitting
      apply Disciplined.append
      · apply disciplined_perform same fitting.1
        rintro target words rfl
        exact routes target words List.mem_cons_self
      · apply ih ((busyReads_perform board call).trans same) fitting.2
        intro target words loads
        -- Channels are loaded only where there are no bursts.
        have single := (fitting.2 _ loads).1
        exact routesOwn_perform (single ▸ fitting.1)
          (routes target words (List.mem_cons_of_mem _ loads)) board

end Calls

end Board

end Rotor
