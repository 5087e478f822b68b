import Rotor.Proofs.Link.Runs

/-!
# What a mailbox holds when a frame begins

A mailbox keeps the first capture that arrives since it was emptied and refuses the others:
`Mailbox.Carries` says this of the captures that arrived. The beginning of a frame decodes every
edge of the first one, and empties the mailbox in any case.
-/

namespace Rotor

/-- The hardware writes the words that it counts. -/
def Capture.Honest (capture : Capture) (room : Nat) : Prop :=
  capture.count ≤ min capture.words.length room

instance (capture : Capture) (room : Nat) : Decidable (capture.Honest room) :=
  inferInstanceAs (Decidable (_ ≤ _))

theorem Capture.Honest.written {capture : Capture} {room : Nat} (honest : capture.Honest room) :
    min capture.count room ≤ capture.words.length := by
  unfold Capture.Honest at honest
  omega

namespace Mailbox

/-- A mailbox waits for a capture, or holds the first one that arrived since it was empty. -/
def Carries (box : Mailbox) (room : Nat) : List Capture → Prop
  | [] => box.phase = .empty
  | first :: _ => ∃ before : Mailbox, before.Sound ∧ before.phase = .empty ∧
      box = (before.deposit (first.cut room)).2

theorem phase_of_carries {box : Mailbox} {room : Nat} {first : Capture} {rest : List Capture}
    (carries : box.Carries room (first :: rest)) : box.phase = .full := by
  rcases carries with ⟨before, _, empty, rfl⟩
  simp [deposit, beginDeposit?, empty, endDeposit]

/-- A capture that arrives goes into an empty mailbox, and is refused by a full one. -/
theorem carries_deposit {box : Mailbox} (sound : box.Sound) {room : Nat} {held : List Capture}
    (carries : box.Carries room held) (capture : Capture) :
    (box.deposit (capture.cut room)).2.Carries room (held ++ [capture]) := by
  cases held with
  | nil => exact ⟨box, sound, carries, rfl⟩
  | cons first rest =>
      have full := phase_of_carries carries
      have refused : (box.deposit (capture.cut room)).2 = box := by
        simp [deposit, beginDeposit?, full]
      rw [refused]
      exact carries

theorem take_overlay {words buffer : List UInt32} {count : Nat} (written : count ≤ words.length)
    (inBuffer : count ≤ buffer.length) : (overlay words buffer).take count = words.take count := by
  have front : count ≤ (words.take buffer.length).length := by
    rw [List.length_take]
    exact Nat.le_min.mpr ⟨inBuffer, written⟩
  rw [overlay, List.take_append_of_le_length front, List.take_take, Nat.min_eq_left inBuffer]

/-- As far as there is room, a capture is collected as it was delivered if every word that counts is
written. -/
theorem collect_deposit {before : Mailbox} (sound : before.Sound) (empty : before.phase = .empty)
    {capture : Capture} {room : Nat} (written : min capture.count room ≤ capture.words.length)
    (bounded : room ≤ capacity) {out : List UInt32} (enough : out.length = capacity) :
    ∃ count, ((before.deposit (capture.cut room)).2.collect out).1 = some count ∧
      (((before.deposit (capture.cut room)).2.collect out).2.1.take count).take room =
        (capture.words.take capture.count).take room := by
  have count : min (min capture.count capacity) out.length = min capture.count capacity := by
    rw [enough, Nat.min_assoc, Nat.min_self]
  have length : (overlay (capture.words.take room) before.buffer).length = capacity := by
    rw [length_overlay, sound.full_length]
  have counted : min room (min capture.count capacity) = min capture.count room := by
    omega
  have kept : (overlay (capture.words.take room) before.buffer).take (min capture.count room) =
      capture.words.take (min capture.count room) := by
    rw [take_overlay (by rw [List.length_take]; omega) (by rw [sound.full_length]; omega),
      List.take_take, Nat.min_eq_left (Nat.min_le_right _ _)]
  refine ⟨min capture.count capacity, ?_, ?_⟩
  · simp [deposit, beginDeposit?, empty, endDeposit, collect, Capture.cut, count]
  · simp only [deposit, beginDeposit?, empty, if_true, endDeposit, collect, Capture.cut, count]
    rw [take_overlay (by rw [List.length_take, length]; omega) (by rw [enough]; omega),
      List.take_take, List.take_take, Nat.min_assoc, Nat.min_self, counted, kept, List.take_take,
      Nat.min_comm room]

end Mailbox

namespace MotorState

variable {state : MotorState} {encoding : Encoding}

/-- Without a capture, the beginning of a frame keeps the telemetry unless a reply was due. -/
theorem telemetry_begin_of_empty (empty : state.mailbox.phase = .empty) :
    (state.begin encoding).telemetry = if state.owesReply then none else state.telemetry := by
  have missing : state.reply encoding = .missing state.owesReply := by
    simp [reply, Mailbox.collect, empty]
  rw [begin, missing]
  cases state.owesReply <;> rfl

/-- A capture that waits is decoded, every edge of it. -/
theorem reply_of_deposit {before : Mailbox} {capture : Capture} (sound : before.Sound)
    (empty : before.phase = .empty)
    (written : min capture.count encoding.captureLength ≤ capture.words.length)
    (mailbox : state.mailbox = (before.deposit (capture.cut encoding.captureLength)).2) :
    match encoding.decode (capture.words.take capture.count) with
    | some payload => state.reply encoding = .valid payload
    | none => ∃ edges, state.reply encoding = .damaged edges := by
  have bounded : encoding.captureLength ≤ Mailbox.capacity := by
    cases encoding <;> decide
  have blankLength : blank.length = Mailbox.capacity := by
    simp [blank]
  rcases Mailbox.collect_deposit sound empty written bounded blankLength with ⟨count, same⟩
  rw [← mailbox] at same
  rcases collected : state.mailbox.collect blank with ⟨count?, edges, box⟩
  rw [collected] at same
  rcases same with ⟨rfl, same⟩
  have decoded : encoding.decode (edges.take count) =
      encoding.decode (capture.words.take capture.count) :=
    Encoding.decode_congr encoding same
  rw [← decoded]
  cases found : encoding.decode (edges.take count) with
  | none => exact ⟨edges, by simp [reply, collected, found]⟩
  | some payload => simp [reply, collected, found]

theorem telemetry_begin_of_deposit {before : Mailbox} {capture : Capture} (sound : before.Sound)
    (empty : before.phase = .empty)
    (written : min capture.count encoding.captureLength ≤ capture.words.length)
    (mailbox : state.mailbox = (before.deposit (capture.cut encoding.captureLength)).2) :
    (state.begin encoding).telemetry = encoding.decode (capture.words.take capture.count) := by
  have found := reply_of_deposit sound empty written mailbox
  cases decoded : encoding.decode (capture.words.take capture.count) with
  | none =>
      rw [decoded] at found
      rcases found with ⟨edges, damaged⟩
      rw [begin, damaged]
      rfl
  | some payload =>
      rw [decoded] at found
      rw [begin, found]
      rfl

theorem phase_begin {state : MotorState} (sound : state.mailbox.Sound) (encoding : Encoding) :
    (state.begin encoding).mailbox.phase = .empty := by
  unfold begin Mailbox.collect
  dsimp only
  split
  · rfl
  · next notFull =>
    cases phase : state.mailbox.phase with
    | empty => rfl
    | filling => exact absurd phase sound.idle
    | full => exact absurd phase notFull

end MotorState

end Rotor
