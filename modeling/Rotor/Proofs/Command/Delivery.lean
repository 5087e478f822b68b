import Rotor.Proofs.Command.Advance

/-!
# Commands arrive once and in order

A command is sent in each of its repeats, in the order in which the commands were accepted, and
nothing comes between them. The proof is a balance: what the commands of a queue still owe a motor,
together with what the commands accepted later call for, is what the motor is sent in a run and what
the queue owes it in the end (`Queue.script_balance`).
-/

namespace Rotor

/-- What a motor is sent for a command in one frame, motor stop where the command is not for it. -/
def Target.share (target : Target) (command : Command) (motor : Nat) : UInt16 :=
  if target.includes motor then command.value else 0

/-- What a motor has to be sent for commands, each in all of its repeats. -/
def script (motor : Nat) (orders : List (Target × Command)) : List UInt16 :=
  orders.flatMap fun order => List.replicate order.2.repeats (order.1.share order.2 motor)

@[simp]
theorem script_nil (motor : Nat) : script motor [] = [] := rfl

theorem script_cons (motor : Nat) (target : Target) (command : Command)
    (orders : List (Target × Command)) :
    script motor ((target, command) :: orders) =
      List.replicate command.repeats (target.share command motor) ++ script motor orders := rfl

@[simp]
theorem script_append (motor : Nat) (first second : List (Target × Command)) :
    script motor (first ++ second) = script motor first ++ script motor second := by
  simp [script]

namespace Entry

/-- The command of an entry and the motors that it goes to. -/
def order (entry : Entry) : Target × Command :=
  (entry.target, entry.command)

/-- What a motor is still to be sent for an entry. -/
def owed (motor : Nat) (entry : Entry) : List UInt16 :=
  List.replicate entry.repeatsLeft (entry.target.share entry.command motor)

end Entry

namespace Queue

variable {queue : Queue} {events : List Event}

/-- The commands that have not left the queue. -/
def pending (queue : Queue) : List (Target × Command) :=
  queue.entries.map Entry.order

/-- What a motor is still to be sent for the commands in the queue. -/
def owed (motor : Nat) (queue : Queue) : List UInt16 :=
  queue.entries.flatMap (Entry.owed motor)

@[simp]
theorem pending_empty (frameMicros : Nat) : (empty frameMicros).pending = [] := rfl

@[simp]
theorem owed_empty (motor frameMicros : Nat) : (empty frameMicros).owed motor = [] := rfl

/-- The command that an event adds to the queue, none where it is refused. -/
def taken (queue : Queue) : Event → List (Target × Command)
  | .enqueue target command =>
      if (queue.enqueue target command).1 then [(target, command)] else []
  | .frame _ => []

/-- The commands that are accepted in a run, in the order of their acceptance. -/
def accepted (queue : Queue) : List Event → List (Target × Command)
  | [] => []
  | event :: rest => queue.taken event ++ (queue.react event).accepted rest

/-- What a motor is sent at an event while the head is active. -/
def sentBy (motor : Nat) (queue : Queue) : Event → List UInt16
  | .enqueue _ _ => []
  | .frame throttles =>
      if queue.isActive then (queue.frame motor (throttles motor)).1.toList else []

/-- What a motor is sent in those frames of a run that carry a command. -/
def sentCommands (motor : Nat) (queue : Queue) : List Event → List UInt16
  | [] => []
  | event :: rest => queue.sentBy motor event ++ (queue.react event).sentCommands motor rest

section Room

theorem enqueue_fst_iff (queue : Queue) (target : Target) (command : Command) :
    (queue.enqueue target command).1 = true ↔ queue.entries.length < capacity := by
  simp only [enqueue]
  split <;> simp_all

theorem enqueue_of_refused {target : Target} {command : Command}
    (refused : (queue.enqueue target command).1 = false) :
    (queue.enqueue target command).2 = queue := by
  simp only [enqueue] at refused ⊢
  split at refused
  · simp at refused
  · next full => simp [full]

theorem entries_of_accepted {target : Target} {command : Command}
    (accepted : (queue.enqueue target command).1 = true) :
    ∃ stage, (queue.enqueue target command).2.entries =
      queue.entries ++ [{ target, command, stage, repeatsLeft := command.repeats }] := by
  have room := (enqueue_fst_iff queue target command).mp accepted
  let micros := if queue.isBusy then Command.gapMicros else Command.leadMicros
  refine ⟨.startDelay (queue.framesIn micros), ?_⟩
  simp only [enqueue, room, if_true, micros]

end Room

section Balance

theorem valueFor_of_entries {head : Entry} {rest : List Entry}
    (entries : queue.entries = head :: rest) (active : head.stage = .active) (motor : Nat) :
    queue.valueFor motor = head.target.share head.command motor := by
  have found : queue.active? = some head := by simp [active?, entries, active]
  exact valueFor_of_active found motor

theorem owed_enqueue (motor : Nat) (queue : Queue) (target : Target) (command : Command) :
    (queue.enqueue target command).2.owed motor =
      queue.owed motor ++ script motor (queue.taken (.enqueue target command)) := by
  cases answer : (queue.enqueue target command).1 with
  | true =>
      rcases entries_of_accepted answer with ⟨stage, entries⟩
      simp [owed, entries, taken, answer, script, Entry.owed]
  | false => simp [taken, answer, enqueue_of_refused answer]

/-- A frame that carries a command pays one repeat of what the head owes, and no other frame
changes what is owed. -/
theorem Advance.owed_eq {out : Bool} {next : Queue} (advance : queue.Advance out next)
    (motor : Nat) :
    queue.owed motor =
      (if queue.isActive then [queue.valueFor motor] else []) ++ next.owed motor := by
  cases advance with
  | idle entries => simp [isActive, entries]
  | waits entries lasts =>
      have inactive := isActive_of_delay entries (Nat.zero_lt_of_lt lasts)
      simp [inactive, owed, entries, Entry.owed]
  | wakes entries ended due =>
      have inactive := isActive_of_delay entries (by omega)
      simp [inactive, owed, entries, Entry.owed]
  | @sends head rest entries active due =>
      have processing : queue.isActive = true := (isActive_of_entries entries).mpr active
      rcases Nat.exists_eq_add_of_lt due with ⟨left, repeats⟩
      simp [processing, owed, entries, Entry.owed, afterRepeat, valueFor_of_entries entries active,
        repeats, List.replicate_succ]
  | leaves entries ended done =>
      have inactive := isActive_of_delay entries (by simp [ended, Stage.delay])
      simp [inactive, owed, entries, Entry.owed, done]

theorem Advance.out_of_active {out : Bool} {next : Queue} (advance : queue.Advance out next)
    (active : queue.isActive = true) : out = true := by
  cases advance with
  | idle entries => rfl
  | waits entries lasts => simp [isActive_of_delay entries (Nat.zero_lt_of_lt lasts)] at active
  | wakes entries ended due =>
      have inactive := isActive_of_delay entries (by omega)
      simp [inactive] at active
  | sends entries stage due => rfl
  | leaves entries ended done =>
      have inactive := isActive_of_delay entries (by simp [ended, Stage.delay])
      simp [inactive] at active

/-- A frame that carries a command is never held back. -/
theorem sentBy_frame (sound : queue.Sound) (motor : Nat) (throttles : Nat → UInt16) :
    queue.sentBy motor (.frame throttles) =
      if queue.isActive then [queue.valueFor motor] else [] := by
  simp only [sentBy, frame_eq]
  split
  · next active => simp [(advance_tick sound).out_of_active active]
  · rfl

theorem owed_tick (sound : queue.Sound) (motor : Nat) (throttles : Nat → UInt16) :
    queue.owed motor = queue.sentBy motor (.frame throttles) ++ queue.tick.2.owed motor := by
  rw [sentBy_frame sound]
  exact (advance_tick sound).owed_eq motor

theorem owed_react (sound : queue.Sound) (motor : Nat) (event : Event) :
    queue.owed motor ++ script motor (queue.taken event) =
      queue.sentBy motor event ++ (queue.react event).owed motor := by
  cases event with
  | enqueue target command => exact (owed_enqueue motor queue target command).symm
  | frame throttles =>
      simpa [taken, react] using owed_tick sound motor throttles

/-- What a queue owes and what it accepts is what it sends and what it owes in the end. -/
theorem script_balance (sound : queue.Sound) (motor : Nat) (events : List Event) :
    queue.owed motor ++ script motor (queue.accepted events) =
      queue.sentCommands motor events ++ (queue.after events).owed motor := by
  induction events generalizing queue with
  | nil => simp [accepted, sentCommands, after]
  | cons event rest ih =>
      have first := owed_react sound motor event
      have later := ih (sound_react sound event)
      calc queue.owed motor ++ script motor (queue.accepted (event :: rest))
        _ = (queue.owed motor ++ script motor (queue.taken event)) ++
              script motor ((queue.react event).accepted rest) := by simp [accepted]
        _ = queue.sentBy motor event ++ ((queue.react event).owed motor ++
              script motor ((queue.react event).accepted rest)) := by simp [first]
        _ = queue.sentCommands motor (event :: rest) ++
              (queue.after (event :: rest)).owed motor := by
            rw [later]
            simp [sentCommands, after]

end Balance

section Order

/-- No entry has more repeats left than its command has, and only the head may have fewer. -/
structure Ordered (queue : Queue) : Prop where
  bounded : ∀ entry ∈ queue.entries, entry.repeatsLeft ≤ entry.command.repeats
  untouched : ∀ entry ∈ queue.entries.tail, entry.repeatsLeft = entry.command.repeats

theorem ordered_empty (frameMicros : Nat) : (empty frameMicros).Ordered :=
  ⟨by simp [empty], by simp [empty]⟩

theorem ordered_enqueue (ordered : queue.Ordered) (target : Target) (command : Command) :
    (queue.enqueue target command).2.Ordered := by
  cases answer : (queue.enqueue target command).1 with
  | false => rwa [enqueue_of_refused answer]
  | true =>
      rcases entries_of_accepted answer with ⟨stage, entries⟩
      constructor
      · intro entry entryMem
        simp only [entries, List.mem_append, List.mem_singleton] at entryMem
        rcases entryMem with old | rfl
        · exact ordered.bounded entry old
        · exact Nat.le_refl _
      · intro entry entryMem
        rw [entries] at entryMem
        cases before : queue.entries with
        | nil => simp [before] at entryMem
        | cons head rest =>
            simp only [before, List.cons_append, List.tail_cons, List.mem_append,
              List.mem_singleton] at entryMem
            rcases entryMem with old | rfl
            · exact ordered.untouched entry (by simpa [before] using old)
            · rfl

/-- A queue keeps its order when a head that has repeats of its command left is changed or taken
away. -/
theorem ordered_of_tail {next : Queue} {head : Entry} {rest : List Entry} (ordered : queue.Ordered)
    (entries : queue.entries = head :: rest)
    (changed : next.entries = rest ∨ ∃ changed : Entry, next.entries = changed :: rest ∧
      changed.command = head.command ∧ changed.repeatsLeft ≤ head.repeatsLeft) :
    next.Ordered := by
  have restUntouched : ∀ entry ∈ rest, entry.repeatsLeft = entry.command.repeats := by
    simpa [entries] using ordered.untouched
  have headBounded : head.repeatsLeft ≤ head.command.repeats :=
    ordered.bounded head (by simp [entries])
  rcases changed with gone | ⟨changed, nextEntries, command, fewer⟩
  · constructor
    · intro entry entryMem
      rw [gone] at entryMem
      exact Nat.le_of_eq (restUntouched entry entryMem)
    · intro entry entryMem
      rw [gone] at entryMem
      exact restUntouched entry (List.mem_of_mem_tail entryMem)
  · constructor
    · intro entry entryMem
      rw [nextEntries] at entryMem
      rcases List.mem_cons.mp entryMem with rfl | entryMem
      · rw [command]
        exact Nat.le_trans fewer headBounded
      · exact Nat.le_of_eq (restUntouched entry entryMem)
    · simpa [nextEntries] using restUntouched

theorem Advance.ordered {out : Bool} {next : Queue} (advance : queue.Advance out next)
    (ordered : queue.Ordered) : next.Ordered := by
  cases advance with
  | idle entries => exact ordered
  | waits entries lasts =>
      exact ordered_of_tail ordered entries (.inr ⟨_, rfl, rfl, Nat.le_refl _⟩)
  | wakes entries ended due =>
      exact ordered_of_tail ordered entries (.inr ⟨_, rfl, rfl, Nat.le_refl _⟩)
  | sends entries active due =>
      exact ordered_of_tail ordered entries (.inr ⟨_, rfl, rfl, Nat.sub_le _ _⟩)
  | leaves entries ended done => exact ordered_of_tail ordered entries (.inl rfl)

theorem ordered_react (sound : queue.Sound) (ordered : queue.Ordered) (event : Event) :
    (queue.react event).Ordered := by
  cases event with
  | enqueue target command => exact ordered_enqueue ordered target command
  | frame throttles => exact (advance_tick sound).ordered ordered

theorem ordered_after (sound : queue.Sound) (ordered : queue.Ordered) (events : List Event) :
    (queue.after events).Ordered := by
  induction events generalizing queue with
  | nil => exact ordered
  | cons event rest ih => exact ih (sound_react sound event) (ordered_react sound ordered event)

/-- Of the commands in the queue, only the first repeats of the head are no longer owed. -/
theorem owed_suffix_script (ordered : queue.Ordered) (motor : Nat) :
    queue.owed motor <:+ script motor queue.pending := by
  cases entries : queue.entries with
  | nil => simp [owed, entries]
  | cons head rest =>
      have headBounded : head.repeatsLeft ≤ head.command.repeats :=
        ordered.bounded head (by simp [entries])
      have restOwed : rest.flatMap (Entry.owed motor) = script motor (rest.map Entry.order) := by
        have restUntouched : ∀ entry ∈ rest, entry.repeatsLeft = entry.command.repeats := by
          simpa [entries] using ordered.untouched
        simp only [script, List.flatMap_map]
        apply List.flatMap_congr
        intro entry entryMem
        simp [Entry.owed, Entry.order, restUntouched entry entryMem]
      refine ⟨List.replicate (head.command.repeats - head.repeatsLeft)
        (head.target.share head.command motor), ?_⟩
      simp only [owed, pending, entries, List.flatMap_cons, List.map_cons, Entry.order,
        script_cons, restOwed, Entry.owed]
      rw [← List.append_assoc, List.replicate_append_replicate, Nat.sub_add_cancel headBounded]

/-- Where the accepted commands are balanced by what was sent and what is owed, the sending is past
the commands that have left the queue and not past those that were accepted. -/
theorem prefixes_of_balance {motor : Nat} {finished accepted : List (Target × Command)}
    {sent : List UInt16} (ordered : queue.Ordered) (split : accepted = finished ++ queue.pending)
    (balance : script motor accepted = sent ++ queue.owed motor) :
    script motor finished <+: sent ∧ sent <+: script motor accepted := by
  rcases owed_suffix_script ordered motor with ⟨begun, begunEq⟩
  refine ⟨⟨begun, ?_⟩, ⟨queue.owed motor, balance.symm⟩⟩
  apply (List.append_left_inj (queue.owed motor)).mp
  -- Between the finished commands and what is owed lie the repeats of the head that have gone out.
  calc script motor finished ++ begun ++ queue.owed motor
    _ = script motor accepted := by rw [split, script_append, List.append_assoc, begunEq]
    _ = sent ++ queue.owed motor := balance

theorem pending_enqueue (queue : Queue) (target : Target) (command : Command) :
    (queue.enqueue target command).2.pending =
      queue.pending ++ queue.taken (.enqueue target command) := by
  cases answer : (queue.enqueue target command).1 with
  | true =>
      rcases entries_of_accepted answer with ⟨stage, entries⟩
      simp [pending, taken, answer, entries, Entry.order]
  | false => simp [taken, answer, enqueue_of_refused answer]

theorem Advance.exists_finished {out : Bool} {next : Queue} (advance : queue.Advance out next) :
    ∃ finished, queue.pending = finished ++ next.pending := by
  cases advance with
  | idle entries => exact ⟨[], rfl⟩
  | waits entries lasts => exact ⟨[], by simp [pending, entries, Entry.order]⟩
  | wakes entries ended due => exact ⟨[], by simp [pending, entries, Entry.order]⟩
  | sends entries active due => exact ⟨[], by simp [pending, entries, Entry.order, afterRepeat]⟩
  | @leaves head rest entries ended done => exact ⟨[head.order], by simp [pending, entries]⟩

theorem pending_react (sound : queue.Sound) (event : Event) :
    ∃ finished, queue.pending ++ queue.taken event = finished ++ (queue.react event).pending := by
  cases event with
  | enqueue target command => exact ⟨[], (pending_enqueue queue target command).symm⟩
  | frame throttles => simpa [taken, react] using (advance_tick sound).exists_finished

/-- Commands leave the queue in the order in which they were accepted. -/
theorem pending_after (sound : queue.Sound) (events : List Event) :
    ∃ finished, queue.pending ++ queue.accepted events =
      finished ++ (queue.after events).pending := by
  induction events generalizing queue with
  | nil => exact ⟨[], by simp [accepted, after]⟩
  | cons event rest ih =>
      rcases pending_react sound event with ⟨first, firstEq⟩
      rcases ih (sound_react sound event) with ⟨later, laterEq⟩
      refine ⟨first ++ later, ?_⟩
      calc queue.pending ++ queue.accepted (event :: rest)
        _ = (queue.pending ++ queue.taken event) ++ (queue.react event).accepted rest := by
            simp [accepted]
        _ = first ++ ((queue.react event).pending ++ (queue.react event).accepted rest) := by
            simp [firstEq]
        _ = first ++ later ++ (queue.after (event :: rest)).pending := by
            rw [laterEq]
            simp [after]

end Order

/-- A frame that carries no command goes out only if it leaves the queue empty, and then the queue
owed nothing. -/
theorem Advance.settled {next : Queue} (advance : queue.Advance true next)
    (inactive : queue.isActive = false) :
    next.entries = [] ∧ ∀ motor, queue.owed motor = [] := by
  -- With the flag as a variable every outcome is a case, also those that hold the frame back.
  generalize released : true = out at advance
  cases advance with
  | idle entries => simp [owed, entries]
  | waits entries lasts => simp at released
  | wakes entries ended due => simp at released
  | sends entries active due => simp [(isActive_of_entries entries).mpr active] at inactive
  | leaves entries ended done =>
      have last := List.isEmpty_iff.mp released.symm
      simp [owed, entries, Entry.owed, done, last]

theorem settled_of_throttle {motor : Nat} {throttle value : UInt16} (sound : queue.Sound)
    (inactive : queue.isActive = false) (out : (queue.frame motor throttle).1 = some value) :
    value = throttle ∧ (queue.frame motor throttle).2.entries = [] ∧
      ∀ other, queue.owed other = [] := by
  rw [frame_eq] at out ⊢
  have released : queue.tick.1 = true := by
    by_contra held
    simp [held] at out
  have advance := advance_tick sound
  rw [released] at advance
  refine ⟨?_, advance.settled inactive⟩
  simpa [released, inactive] using out.symm

/-- The queue takes a command while fewer than eight are pending and is not changed by one that it
refuses. What a motor is sent in the frames that carry a command follows the commands in the order
of their acceptance, each in all of its repeats, and is complete for those that have left the queue.
A throttle value goes out only where the frame leaves the queue empty and nothing accepted so far is
outstanding. -/
theorem commands_sent_in_order (frameMicros : Nat) (events : List Event) :
    let queue := (empty frameMicros).after events
    let accepted := (empty frameMicros).accepted events
    let sent (motor : Nat) := (empty frameMicros).sentCommands motor events
    (∀ target command,
      ((queue.enqueue target command).1 = true ↔ queue.pending.length < 8) ∧
      ((queue.enqueue target command).1 = false → (queue.enqueue target command).2 = queue)) ∧
    (∃ finished, accepted = finished ++ queue.pending ∧ ∀ motor,
      script motor finished <+: sent motor ∧ sent motor <+: script motor accepted) ∧
    ∀ motor throttle value, queue.isActive = false →
      (queue.frame motor throttle).1 = some value →
        value = throttle ∧ (queue.frame motor throttle).2.entries = [] ∧
          ∀ other, sent other = script other accepted := by
  intro queue accepted sent
  have sound : queue.Sound := sound_after (sound_empty frameMicros) events
  have ordered : queue.Ordered :=
    ordered_after (sound_empty frameMicros) (ordered_empty frameMicros) events
  have balance (motor : Nat) : script motor accepted = sent motor ++ queue.owed motor := by
    simpa using script_balance (sound_empty frameMicros) motor events
  refine ⟨?_, ?_, ?_⟩
  · intro target command
    refine ⟨?_, enqueue_of_refused⟩
    simpa [pending, capacity] using enqueue_fst_iff queue target command
  · rcases pending_after (sound_empty frameMicros) events with ⟨finished, split⟩
    have acceptedEq : accepted = finished ++ queue.pending := by simpa using split
    refine ⟨finished, acceptedEq, ?_⟩
    intro motor
    exact prefixes_of_balance ordered acceptedEq (balance motor)
  · intro motor throttle value inactive out
    rcases settled_of_throttle sound inactive out with ⟨same, empties, nothing⟩
    refine ⟨same, empties, ?_⟩
    intro other
    simpa [nothing other] using (balance other).symm

end Queue

end Rotor
