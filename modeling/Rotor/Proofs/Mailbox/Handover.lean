import Mathlib.Data.List.Forall2
import Mathlib.Data.List.Induction
import Rotor.Mailbox

/-!
# Handing captures over

The answers of a mailbox are read here as one list of events, in which the calls that come in during
a deposit stand between its beginning and its end. What the list says decides every answer: a
capture waits from the end of its deposit until it is collected or discarded, and nothing else gets
at the box while a deposit is being written.

`Mailbox.Lawful` states this of one event and those before it, and `Mailbox.Shows` ties the events
to the state of the box. That captures are handed over in order, and each at most once, follows from
the events alone.
-/

namespace Rotor.Mailbox

/-- What happens at a mailbox. The flag of an event tells whether a capture waits after it. -/
inductive Event
  /-- A deposit was accepted, and is being written from now on. -/
  | began
  | refused (isFull : Bool)
  /-- The words of a deposit are written, and it is over. -/
  | ended (capture : Capture) (isFull : Bool)
  /-- A collection into `out`, with the number of words collected and the words afterwards. -/
  | collected (out : List UInt32) (count : Option Nat) (words : List UInt32) (isFull : Bool)
  | discarded (isFull : Bool)

variable {box : Mailbox} {action : Action} {actions : List Action} {event : Event}
  {before events : List Event}

mutual

/-- The events that the answer to a call tells of. A refused deposit answers for no call that would
have come in during it. -/
inductive Reads : Action → Answer → List Event → Prop
  | accepted {capture : Capture} {during : List Action} {answers : List Answer}
      {events : List Event} {isFull : Bool} (inside : ReadsAll during answers events) :
      Reads (.deposit capture during) (.deposit true answers isFull)
        (.began :: events ++ [.ended capture isFull])
  | refused {capture : Capture} {during : List Action} {isFull : Bool} :
      Reads (.deposit capture during) (.deposit false [] isFull) [.refused isFull]
  | collected {out words : List UInt32} {count : Option Nat} {isFull : Bool} :
      Reads (.collect out) (.collect count words isFull) [.collected out count words isFull]
  | discarded {isFull : Bool} : Reads .discard (.discard isFull) [.discarded isFull]

/-- The events that the answers to calls tell of, call by call. -/
inductive ReadsAll : List Action → List Answer → List Event → Prop
  | nil : ReadsAll [] [] []
  | cons {action : Action} {rest : List Action} {answer : Answer} {answers : List Answer}
      {events more : List Event} (first : Reads action answer events)
      (later : ReadsAll rest answers more) :
      ReadsAll (action :: rest) (answer :: answers) (events ++ more)

end

section History

/-- What a deposit left in the mailbox: the words of the buffer, and the count it ended with. -/
structure Deposit where
  buffer : List UInt32
  count : Nat

/-- The buffer after deposits. -/
def bufferAfter (deposits : List Deposit) : List UInt32 :=
  (deposits.getLast?.map Deposit.buffer).getD (List.replicate capacity 0)

/-- The deposits after one more capture was written over what the last one left. -/
def deposited (deposits : List Deposit) (capture : Capture) : List Deposit :=
  deposits ++ [{ buffer := overlay capture.words (bufferAfter deposits), count := capture.count }]

namespace Event

def capture? : Event → Option Capture
  | ended capture _ => some capture
  | _ => none

/-- Whether a deposit is being written after an event, none where the event does not tell. -/
def writes? : Event → Option Bool
  | began => some true
  | ended _ _ => some false
  | _ => none

/-- Whether an event fills the mailbox or empties it, none where it does neither. -/
def fills? : Event → Option Bool
  | ended _ _ => some true
  | collected _ (some _) _ _ | discarded _ => some false
  | _ => none

/-- A collection that found a capture. -/
structure Collection where
  out : List UInt32
  count : Nat
  words : List UInt32

def collection? : Event → Option Collection
  | collected out (some count) words _ => some { out, count, words }
  | _ => none

theorem eq_ended_of_fills? (filled : event.fills? = some true) :
    ∃ capture isFull, event = .ended capture isFull := by
  cases event with
  | ended capture isFull => exact ⟨capture, isFull, rfl⟩
  | collected out count words isFull => cases count <;> cases filled
  | _ => cases filled

theorem capture?_of_fills?_eq_none (neither : event.fills? = none) : event.capture? = none := by
  cases event with
  | ended capture isFull => cases neither
  | _ => rfl

theorem collection?_of_fills?_eq_none (neither : event.fills? = none) :
    event.collection? = none := by
  cases event with
  | collected out count words isFull =>
      cases count with
      | none => rfl
      | some count => cases neither
  | _ => rfl

end Event

/-- The deposits that have ended. -/
def deposits (events : List Event) : List Deposit :=
  (events.filterMap Event.capture?).foldl deposited []

/-- Whether a deposit has begun and not ended. -/
def isWriting (events : List Event) : Bool :=
  (events.filterMap Event.writes?).getLast? == some true

/-- The last deposit, if it was neither collected nor discarded. -/
def waiting? (events : List Event) : Option Deposit :=
  if (events.filterMap Event.fills?).getLast? = some true then (deposits events).getLast? else none

/-- The collections that found a capture. -/
def collections (events : List Event) : List Event.Collection :=
  events.filterMap Event.collection?

/-- A collection receives a deposit: as many words as count, lie in the buffer and have room. They
are those of the buffer, and the rest of the words stays as it was. -/
def Deposit.Reaches (deposit : Deposit) (collection : Event.Collection) : Prop :=
  collection.count = min (min deposit.count capacity) collection.out.length ∧
    collection.words =
      deposit.buffer.take collection.count ++ collection.out.drop collection.count

/-- What an event may be after those before it. -/
def Lawful (before : List Event) : Event → Prop
  | .began => isWriting before = false ∧ waiting? before = none
  | .refused isFull =>
      (isWriting before = true ∧ isFull = false) ∨
        (isWriting before = false ∧ (waiting? before).isSome ∧ isFull = true)
  | .ended _ isFull => isWriting before = true ∧ isFull = true
  | .collected out count words isFull =>
      isFull = false ∧
        if isWriting before then count = none ∧ words = out
        else
          match waiting? before with
          | none => count = none ∧ words = out
          | some deposit => ∃ taken, count = some taken ∧ deposit.Reaches ⟨out, taken, words⟩
  | .discarded isFull => isFull = false

/-- Events that are all lawful after earlier ones. -/
def LawfulAfter (before events : List Event) : Prop :=
  ∀ front event rest, events = front ++ event :: rest → Lawful (before ++ front) event

theorem deposits_concat (events : List Event) (event : Event) :
    deposits (events ++ [event]) =
      event.capture?.elim (deposits events) (deposited (deposits events)) := by
  cases written : event.capture? <;> simp [deposits, written]

theorem isWriting_concat (events : List Event) (event : Event) :
    isWriting (events ++ [event]) = event.writes?.getD (isWriting events) := by
  cases told : event.writes? with
  | none => simp [isWriting, told]
  | some writing => cases writing <;> simp [isWriting, told]

theorem waiting?_of_fills (filled : event.fills? = some true) :
    waiting? (events ++ [event]) = (deposits (events ++ [event])).getLast? := by
  simp [waiting?, filled]

theorem waiting?_of_empties (emptied : event.fills? = some false) :
    waiting? (events ++ [event]) = none := by
  simp [waiting?, emptied]

theorem waiting?_of_neither (neither : event.fills? = none) :
    waiting? (events ++ [event]) = waiting? events := by
  have kept := Event.capture?_of_fills?_eq_none neither
  simp [waiting?, neither, deposits_concat, kept]

theorem collections_concat (events : List Event) (event : Event) :
    collections (events ++ [event]) = collections events ++ event.collection?.toList := by
  cases found : event.collection? <;> simp [collections, found]

theorem deposits_of_waiting {deposit : Deposit} (waits : waiting? events = some deposit) :
    (deposits events).getLast? = some deposit := by
  unfold waiting? at waits
  split at waits
  · exact waits
  · cases waits

theorem lawfulAfter_nil : LawfulAfter before [] := by
  intro front event rest split
  simp at split

theorem lawfulAfter_concat_iff :
    LawfulAfter before (events ++ [event]) ↔
      LawfulAfter before events ∧ Lawful (before ++ events) event := by
  constructor
  · intro lawful
    refine ⟨?_, lawful events event [] rfl⟩
    rintro front middle rest rfl
    exact lawful front middle (rest ++ [event]) (by simp)
  · rintro ⟨lawful, lastLawful⟩ front middle rest split
    induction rest using List.reverseRecOn with
    | nil =>
        obtain ⟨rfl, same⟩ := List.append_inj' split rfl
        cases same
        exact lastLawful
    | append_singleton rest final ih =>
        apply lawful front middle rest
        rw [← List.cons_append, ← List.append_assoc] at split
        exact (List.append_inj' split rfl).1

theorem lawfulAfter_append {more : List Event} (lawful : LawfulAfter before events)
    (later : LawfulAfter (before ++ events) more) : LawfulAfter before (events ++ more) := by
  induction more using List.reverseRecOn with
  | nil => simpa using lawful
  | append_singleton more event ih =>
      rw [lawfulAfter_concat_iff] at later
      rw [← List.append_assoc, lawfulAfter_concat_iff]
      refine ⟨ih later.1, ?_⟩
      rw [← List.append_assoc]
      exact later.2

theorem lawfulAfter_singleton (lawful : Lawful before event) : LawfulAfter before [event] := by
  rw [← List.nil_append [event], lawfulAfter_concat_iff]
  exact ⟨lawfulAfter_nil, by simpa using lawful⟩

end History

section Order

/-- The deposits that reached a collection so far, in their order. A deposit that waits is none of
them. -/
structure Served (events : List Event) (served : List Deposit) : Prop where
  reaches : List.Forall₂ Deposit.Reaches served (collections events)
  ordered : served.Sublist (deposits events)
  unserved : ∀ deposit, waiting? events = some deposit →
    ∃ earlier, deposits events = earlier ++ [deposit] ∧ served.Sublist earlier

variable {served : List Deposit}

theorem Served.keep (serving : Served events served) (neither : event.fills? = none) :
    Served (events ++ [event]) served := by
  have deposits_eq : deposits (events ++ [event]) = deposits events := by
    rw [deposits_concat, Event.capture?_of_fills?_eq_none neither, Option.elim_none]
  have collections_eq : collections (events ++ [event]) = collections events := by
    rw [collections_concat, Event.collection?_of_fills?_eq_none neither, Option.toList_none,
      List.append_nil]
  refine ⟨collections_eq ▸ serving.reaches, deposits_eq ▸ serving.ordered, ?_⟩
  intro deposit waits
  rw [waiting?_of_neither neither] at waits
  rw [deposits_eq]
  exact serving.unserved deposit waits

theorem Served.ended (serving : Served events served) (capture : Capture) (isFull : Bool) :
    Served (events ++ [.ended capture isFull]) served := by
  have deposits_eq : deposits (events ++ [.ended capture isFull]) =
      deposited (deposits events) capture :=
    deposits_concat events _
  refine ⟨?_, ?_, ?_⟩
  · simpa [collections_concat, Event.collection?] using serving.reaches
  · rw [deposits_eq]
    exact serving.ordered.trans (List.sublist_append_left _ _)
  · intro deposit waits
    rw [waiting?_of_fills rfl, deposits_eq] at waits
    rw [deposited, List.getLast?_concat, Option.some.injEq] at waits
    exact ⟨deposits events, by rw [deposits_eq, ← waits, deposited], serving.ordered⟩

theorem Served.collected {deposit : Deposit} {out words : List UInt32} {count : Nat}
    (serving : Served events served) (waits : waiting? events = some deposit)
    (reaches : deposit.Reaches ⟨out, count, words⟩) (isFull : Bool) :
    Served (events ++ [.collected out (some count) words isFull]) (served ++ [deposit]) := by
  rcases serving.unserved deposit waits with ⟨earlier, split, inEarlier⟩
  refine ⟨?_, ?_, ?_⟩
  · rw [collections_concat]
    exact List.rel_append serving.reaches (.cons reaches .nil)
  · have written : deposits (events ++ [.collected out (some count) words isFull]) =
        deposits events :=
      deposits_concat events _
    rw [written, split]
    exact inEarlier.append (.refl _)
  · intro other waitsAfter
    rw [waiting?_of_empties rfl] at waitsAfter
    cases waitsAfter

theorem Served.discarded (serving : Served events served) (isFull : Bool) :
    Served (events ++ [.discarded isFull]) served := by
  refine ⟨?_, ?_, ?_⟩
  · simpa [collections_concat, Event.collection?] using serving.reaches
  · simpa [deposits_concat, Event.capture?] using serving.ordered
  · intro other waitsAfter
    rw [waiting?_of_empties rfl] at waitsAfter
    cases waitsAfter

/-- Captures are collected in the order of their deposits, and each at most once. -/
theorem exists_served (lawful : LawfulAfter [] events) : ∃ served, Served events served := by
  induction events using List.reverseRecOn with
  | nil => exact ⟨[], .nil, .refl _, by simp [waiting?]⟩
  | append_singleton events event ih =>
      rcases lawfulAfter_concat_iff.mp lawful with ⟨earlier, last⟩
      rcases ih earlier with ⟨served, before⟩
      cases event with
      | began => exact ⟨served, before.keep rfl⟩
      | refused isFull => exact ⟨served, before.keep rfl⟩
      | ended capture isFull => exact ⟨served, before.ended capture isFull⟩
      | discarded isFull => exact ⟨served, before.discarded isFull⟩
      | collected out count words isFull =>
          cases count with
          | none => exact ⟨served, before.keep rfl⟩
          | some count =>
              rw [List.nil_append] at last
              rcases last with ⟨_, found⟩
              split at found
              · cases found.1
              · cases waits : waiting? events with
                | none => simp [waits] at found
                | some deposit =>
                    simp only [waits, Option.some.injEq] at found
                    rcases found with ⟨_, rfl, reaches⟩
                    exact ⟨_, before.collected waits reaches isFull⟩

end Order

section Runs

/-- The events so far tell the state of the mailbox. -/
inductive Shows (events : List Event) : Mailbox → Prop
  | empty {count : Nat} (idle : isWriting events = false) (nothing : waiting? events = none) :
      Shows events { phase := .empty, count, buffer := bufferAfter (deposits events) }
  | filling {count : Nat} (writing : isWriting events = true)
      (nothing : waiting? events = none) :
      Shows events { phase := .filling, count, buffer := bufferAfter (deposits events) }
  | full {deposit : Deposit} (idle : isWriting events = false)
      (waits : waiting? events = some deposit) :
      Shows events
        { phase := .full, count := min deposit.count capacity, buffer := deposit.buffer }

/-- What is told of calls that come in while a deposit is being written: they change nothing. -/
structure Ignored (before events : List Event) : Prop where
  lawful : LawfulAfter before events
  writing : isWriting (before ++ events) = true
  nothing : waiting? (before ++ events) = none
  deposits_eq : deposits (before ++ events) = deposits before

theorem Ignored.append {more : List Event} (ignored : Ignored before events)
    (later : Ignored (before ++ events) more) : Ignored before (events ++ more) := by
  refine ⟨lawfulAfter_append ignored.lawful later.lawful, ?_, ?_, ?_⟩
  · rw [← List.append_assoc]
    exact later.writing
  · rw [← List.append_assoc]
    exact later.nothing
  · rw [← List.append_assoc, later.deposits_eq, ignored.deposits_eq]

theorem ignored_singleton (lawful : Lawful before event) (writing : isWriting before = true)
    (nothing : waiting? before = none) (still : event.writes? = none) : Ignored before [event] := by
  refine ⟨lawfulAfter_singleton lawful, ?_, ?_, ?_⟩
  · rw [isWriting_concat, still]
    exact writing
  · cases fills : event.fills? with
    | none => rw [waiting?_of_neither fills, nothing]
    | some filled =>
        cases filled with
        | false => exact waiting?_of_empties fills
        | true =>
            rcases Event.eq_ended_of_fills? fills with ⟨capture, isFull, rfl⟩
            cases still
  · have noCapture : event.capture? = none := by
      cases event with
      | ended capture isFull => cases still
      | _ => rfl
    rw [deposits_concat, noCapture, Option.elim_none]

theorem runAll_cons (box : Mailbox) (action : Action) (rest : List Action) :
    runAll box (action :: rest) =
      ((run box action).1 :: (runAll (run box action).2 rest).1,
        (runAll (run box action).2 rest).2) := by
  rw [runAll]

theorem exists_ignored (filling : box.phase = .filling) (writing : isWriting before = true)
    (nothing : waiting? before = none) (action : Action) :
    (run box action).2 = box ∧
      ∃ events, Reads action (run box action).1 events ∧ Ignored before events := by
  cases action with
  | deposit capture during =>
      have refused : run box (.deposit capture during) = (.deposit false [] false, box) := by
        simp [run, beginDeposit?, filling, isFull]
      rw [refused]
      refine ⟨rfl, _, .refused, ?_⟩
      exact ignored_singleton (.inl ⟨writing, rfl⟩) writing nothing rfl
  | collect out =>
      have missed : run box (.collect out) = (.collect none out false, box) := by
        simp [run, collect, filling, isFull]
      rw [missed]
      refine ⟨rfl, _, .collected, ?_⟩
      exact ignored_singleton ⟨rfl, by simp [writing]⟩ writing nothing rfl
  | discard =>
      have kept : run box .discard = (.discard false, box) := by
        simp [run, discard, filling, isFull]
      rw [kept]
      refine ⟨rfl, _, .discarded, ?_⟩
      exact ignored_singleton rfl writing nothing rfl

/-- While a deposit is being written no call gets at the mailbox. -/
theorem exists_ignored_all (filling : box.phase = .filling) (writing : isWriting before = true)
    (nothing : waiting? before = none) (during : List Action) :
    (runAll box during).2 = box ∧
      ∃ events, ReadsAll during (runAll box during).1 events ∧ Ignored before events := by
  induction during generalizing before with
  | nil => exact ⟨rfl, [], .nil, lawfulAfter_nil, by simpa, by simpa, by simp⟩
  | cons action rest ih =>
      rcases exists_ignored filling writing nothing action with ⟨same, events, reads, ignored⟩
      rcases ih ignored.writing ignored.nothing with ⟨sameAfter, more, readsRest, later⟩
      rw [runAll_cons, same]
      exact ⟨sameAfter, _, .cons reads readsRest, ignored.append later⟩

theorem bufferAfter_of_waiting {deposit : Deposit} (waits : waiting? events = some deposit) :
    bufferAfter (deposits events) = deposit.buffer := by
  rw [bufferAfter, deposits_of_waiting waits]
  rfl

theorem length_bufferAfter (events : List Event) :
    (bufferAfter (deposits events)).length = capacity := by
  induction events using List.reverseRecOn with
  | nil => simp [deposits, bufferAfter]
  | append_singleton events event ih =>
      rw [deposits_concat]
      cases event.capture? with
      | none => exact ih
      | some capture => simpa [deposited, bufferAfter] using ih

theorem shows_empty {buffer : List UInt32} (idle : isWriting events = false)
    (nothing : waiting? events = none) (buffer_eq : buffer = bufferAfter (deposits events))
    (count : Nat) : Shows events ⟨.empty, count, buffer⟩ := by
  rw [buffer_eq]
  exact .empty idle nothing

/-- The answer to a call tells of lawful events, and these tell the state after it. -/
def Told (before : List Event) (action : Action) (result : Answer × Mailbox) : Prop :=
  ∃ events, Reads action result.1 events ∧ LawfulAfter before events ∧
    isWriting (before ++ events) = false ∧ Shows (before ++ events) result.2

theorem told_single {answer : Answer} (reads : Reads action answer [event])
    (lawful : Lawful before event) (idle : isWriting before = false) (still : event.writes? = none)
    (shown : isWriting (before ++ [event]) = false → Shows (before ++ [event]) box) :
    Told before action (answer, box) := by
  have stillIdle : isWriting (before ++ [event]) = false := by
    rw [isWriting_concat, still]
    exact idle
  exact ⟨[event], reads, lawfulAfter_singleton lawful, stillIdle, shown stillIdle⟩

/-- A deposit into an empty mailbox, with the calls that come in during it. -/
theorem told_deposit (idle : isWriting before = false) (nothing : waiting? before = none)
    (count : Nat) (capture : Capture) (during : List Action) :
    Told before (.deposit capture during)
      (run ⟨.empty, count, bufferAfter (deposits before)⟩ (.deposit capture during)) := by
  have began : isWriting (before ++ [.began]) = true := isWriting_concat before _
  have noneWaits : waiting? (before ++ [.began]) = none := (waiting?_of_neither rfl).trans nothing
  have sameDeposits : deposits (before ++ [.began]) = deposits before := deposits_concat before _
  have taken : (⟨.filling, count, bufferAfter (deposits before)⟩ : Mailbox).phase = .filling := rfl
  rcases exists_ignored_all taken began noneWaits during with ⟨same, inside, reads, ignored⟩
  have ran : run ⟨.empty, count, bufferAfter (deposits before)⟩ (.deposit capture during) =
      (.deposit true (runAll ⟨.filling, count, bufferAfter (deposits before)⟩ during).1 true,
        endDeposit ⟨.filling, count, bufferAfter (deposits before)⟩ capture) := by
    simp [run, beginDeposit?, same, endDeposit, isFull]
  have written : deposits (before ++ [.began] ++ inside ++ [.ended capture true]) =
      deposited (deposits before) capture := by
    rw [deposits_concat, ignored.deposits_eq, sameDeposits]
    rfl
  have finished : isWriting (before ++ [.began] ++ inside ++ [.ended capture true]) = false :=
    isWriting_concat _ _
  have whole : before ++ (.began :: inside ++ [.ended capture true]) =
      before ++ [.began] ++ inside ++ [.ended capture true] := by
    simp
  rw [ran]
  have opened : Lawful before .began := ⟨idle, nothing⟩
  have closed : Lawful (before ++ .began :: inside) (.ended capture true) :=
    ⟨by simpa using ignored.writing, rfl⟩
  have waits : waiting? (before ++ [.began] ++ inside ++ [.ended capture true]) =
      some ⟨overlay capture.words (bufferAfter (deposits before)), capture.count⟩ := by
    rw [waiting?_of_fills rfl, written, deposited, List.getLast?_concat]
  have shown := Shows.full finished waits
  rw [← whole] at finished shown
  refine ⟨_, .accepted reads, ?_, finished, shown⟩
  exact lawfulAfter_concat_iff.mpr
    ⟨lawfulAfter_append (lawfulAfter_singleton opened) ignored.lawful, closed⟩

theorem told_of_empty (idle : isWriting before = false) (nothing : waiting? before = none)
    (count : Nat) (action : Action) :
    Told before action (run ⟨.empty, count, bufferAfter (deposits before)⟩ action) := by
  cases action with
  | deposit capture during => exact told_deposit idle nothing count capture during
  | collect out =>
      apply told_single .collected ⟨rfl, by simp [idle, nothing]⟩ idle rfl
      intro stillIdle
      apply shows_empty stillIdle ((waiting?_of_neither rfl).trans nothing)
      rw [deposits_concat]
      rfl
  | discard =>
      apply told_single .discarded rfl idle rfl
      intro stillIdle
      apply shows_empty stillIdle (waiting?_of_empties rfl)
      rw [deposits_concat]
      rfl

theorem told_of_full {deposit : Deposit} (idle : isWriting before = false)
    (waits : waiting? before = some deposit) (action : Action) :
    Told before action (run ⟨.full, min deposit.count capacity, deposit.buffer⟩ action) := by
  have buffer_eq := bufferAfter_of_waiting waits
  cases action with
  | deposit capture during =>
      apply told_single .refused (.inr ⟨idle, by simp [waits], rfl⟩) idle rfl
      intro stillIdle
      exact .full stillIdle ((waiting?_of_neither rfl).trans waits)
  | collect out =>
      have long : deposit.buffer.length = capacity := by
        rw [← buffer_eq]
        exact length_bufferAfter before
      have copied : overlay
          (deposit.buffer.take (min (min deposit.count capacity) out.length)) out =
            deposit.buffer.take (min (min deposit.count capacity) out.length) ++
              out.drop (min (min deposit.count capacity) out.length) := by
        rw [overlay, List.take_take, List.length_take, long]
        congr 2 <;> omega
      refine told_single .collected ⟨rfl, ?_⟩ idle rfl ?_
      · rw [idle, waits]
        exact ⟨_, rfl, rfl, copied⟩
      · intro stillIdle
        apply shows_empty stillIdle (waiting?_of_empties rfl)
        rw [deposits_concat]
        exact buffer_eq.symm
  | discard =>
      apply told_single .discarded rfl idle rfl
      intro stillIdle
      apply shows_empty stillIdle (waiting?_of_empties rfl)
      rw [deposits_concat]
      exact buffer_eq.symm

/-- One call, made while no deposit is being written. -/
theorem told (shown : Shows before box) (idle : isWriting before = false) (action : Action) :
    Told before action (run box action) := by
  cases shown with
  | empty free nothing => exact told_of_empty free nothing _ action
  | filling writing nothing =>
      rw [idle] at writing
      cases writing
  | full free waits => exact told_of_full free waits action

theorem exists_reads_all (shown : Shows before box) (idle : isWriting before = false)
    (actions : List Action) :
    ∃ events, ReadsAll actions (runAll box actions).1 events ∧ LawfulAfter before events ∧
      isWriting (before ++ events) = false ∧ Shows (before ++ events) (runAll box actions).2 := by
  induction actions generalizing box before with
  | nil => exact ⟨[], .nil, lawfulAfter_nil, by simpa, by simpa⟩
  | cons action rest ih =>
      rcases told shown idle action with ⟨events, reads, lawful, stillIdle, shownAfter⟩
      rcases ih shownAfter stillIdle with ⟨more, readsRest, later, lastIdle, shownLast⟩
      rw [List.append_assoc] at lastIdle shownLast
      rw [runAll_cons]
      exact ⟨events ++ more, .cons reads readsRest, lawfulAfter_append lawful later, lastIdle,
        shownLast⟩

end Runs

/-- Whatever calls are made on a new mailbox, and come in during its deposits, its answers tell of
lawful events: a deposit is accepted exactly when none is being written and none waits, and a
collection finds the last deposit exactly when that waits, with the words that it left in the
buffer. At any moment the collections so far were reached by deposits that had ended, in their order
and by each at most once. A deposit that is being written keeps everything else out. -/
theorem captures_handed_over (actions : List Action) :
    ∃ events, ReadsAll actions (runAll new actions).1 events ∧
      (∀ before event after, events = before ++ event :: after → Lawful before event) ∧
      (∀ before after, events = before ++ after →
        ∃ served, served.Sublist (deposits before) ∧
          List.Forall₂ Deposit.Reaches served (collections before)) ∧
      ((runAll new actions).2.isFull = (waiting? events).isSome) ∧
      ∀ taken, (runAll new actions).2.beginDeposit? = some taken → ∀ during,
        taken.isFull = false ∧ (runAll taken during).2 = taken := by
  have shown : Shows [] new := shows_empty rfl rfl rfl 0
  rcases exists_reads_all shown rfl actions with ⟨events, reads, lawful, idle, shownLast⟩
  rw [List.nil_append] at idle shownLast
  refine ⟨events, reads, ?_, ?_, ?_, ?_⟩
  · intro before event after split
    exact lawful before event after split
  · rintro before after rfl
    have front : LawfulAfter [] before := by
      rintro front event rest rfl
      exact lawful front event (rest ++ after) (by simp)
    rcases exists_served front with ⟨served, serves⟩
    exact ⟨served, serves.ordered, serves.reaches⟩
  · generalize (runAll new actions).2 = last at shownLast
    cases shownLast with
    | empty free nothing => simp [isFull, nothing]
    | filling writing nothing => simp [isFull, nothing]
    | full free waits => simp [isFull, waits]
  · intro taken takes during
    have filling : taken.phase = .filling := by
      unfold beginDeposit? at takes
      split at takes
      · cases takes
        rfl
      · cases takes
    refine ⟨by simp [isFull, filling], ?_⟩
    have writing : isWriting [.began] = true := rfl
    exact (exists_ignored_all filling writing rfl during).1

end Rotor.Mailbox
