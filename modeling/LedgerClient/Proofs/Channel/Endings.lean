import LedgerClient.Proofs.Channel.Handles
import LedgerClient.Proofs.Channel.Tally

/-!
# The end of a stream

Deliveries, consumers, closers and the owner of a stream act on it in any order. Whatever they do,
a stream ends once, and what it ends with stays. From then on nothing is put into its queue, and
the consumers, one after the other and whoever they are, get what still waits and then the end;
if the owner has ended the stream, they get the end at once.

No consumer is left behind: those in line are called one by one, and each turn makes the line
shorter.

## Main definitions

* `Channel.Stream.Move`: what is done to a stream
* `Channel.Stream.following`, `Channel.Stream.answers`: a run of moves, and what consumers get in it
* `Channel.Stream.Drains`: how a closed stream goes on, and what consumers are told

## Main results

* `Channel.Stream.drains_apply`: a move drains a closed stream
* `Channel.Stream.drains_following`: so does a run of moves
* `Channel.Stream.closed_for_good`: the end is final, and seen by everyone
-/

namespace LedgerClient.Channel

open Rpc (Feed Reply)

/-- What a consumer gets that does not have to wait. -/
def Received.answer : Received → List Received
  | .waits => []
  | received => [received]

/-- What the end of a stream tells a consumer. -/
def Received.ofEnd : Option Fault → Received
  | none => .ended
  | some fault => .failed fault

namespace Stream

variable {s t u : Stream} {how : Option Fault} {told others : List Received}

/-- What is done to a stream. -/
inductive Move
  /-- A notification is delivered and read by the host. -/
  | deliver (text : Bytes) (host : Host)
  /-- A delivery that was held back goes on. More than one may be held back, so each brings its
  notification. -/
  | proceed (reply : Reply)
  | close (how : Option Fault)
  /-- The owner ends the stream. -/
  | unsubscribe
  | receive (task : Nat)
  | resume (task : Nat)
  | leave (task : Nat)
  | watch (task : Nat)

namespace Move

/-- The stream after a move. A delivery that fails leaves it as it is. -/
def apply : Move → Stream → Stream
  | .deliver text host, s => (s.offer text host).toOption.getD s
  | .proceed reply, s => { s with held := some reply }.proceed
  | .close how, s => s.close how
  | .unsubscribe, s => if s.isClosed then s else s.silence
  | .receive task, s => (s.receive task).1
  | .resume task, s => (s.resume task).1
  | .leave task, s => s.leave task
  | .watch task, s => s.watch task

/-- What a consumer gets in a move. -/
def answer : Move → Stream → List Received
  | .receive task, s => (s.receive task).2.answer
  | .resume task, s => (s.resume task).2.answer
  | _, _ => []

end Move

/-- The stream after some moves. -/
def following : List Move → Stream → Stream
  | [], s => s
  | move :: moves, s => following moves (move.apply s)

/-- What consumers get in some moves, in order. -/
def answers : List Move → Stream → List Received
  | [], _ => []
  | move :: moves, s => move.answer s ++ answers moves (move.apply s)

/-- The number of consumers that are in line or called. -/
def line (s : Stream) : Nat := s.waiting.length + s.called.length

/-! ## Moves -/

section Moves

/-- A delivery does nothing, or is a change of the stream. -/
theorem apply_deliver (text : Bytes) (host : Host) (s : Stream) :
    (Move.deliver text host).apply s = s ∨ s.isClosed = false ∧
      ((∃ reply, (Move.deliver text host).apply s = s.accept reply) ∨
      ∃ fault, (Move.deliver text host).apply s = s.close (some fault)) := by
  change (s.offer text host).toOption.getD s = _ ∨ _ ∧
    ((∃ reply, (s.offer text host).toOption.getD s = _) ∨
    ∃ fault, (s.offer text host).toOption.getD s = _)
  cases hoffer : s.offer text host with
  | error fault => exact .inl rfl
  | ok t =>
    rcases offer_cases hoffer with ⟨-, rfl⟩ | ⟨hopen, ⟨reply, -, rfl⟩ | ⟨fault, -, rfl⟩⟩
    · exact .inl rfl
    · exact .inr ⟨hopen, .inl ⟨reply, rfl⟩⟩
    · exact .inr ⟨hopen, .inr ⟨fault, rfl⟩⟩

theorem Sound.held (h : s.Sound) (held : Option Reply) : Sound { s with held } :=
  ⟨h.queue, h.quiet, h.line⟩

/-- Whatever is done keeps the queue and the line before it in shape. -/
theorem Sound.move (h : s.Sound) (move : Move) : (move.apply s).Sound := by
  cases move with
  | deliver text host =>
    rcases apply_deliver text host s with heq | ⟨hopen, ⟨reply, heq⟩ | ⟨fault, heq⟩⟩
    · rwa [heq]
    · rw [heq]
      exact h.accept hopen
    · rw [heq]
      exact h.close
  | proceed reply => exact (h.held (some reply)).proceed
  | close how => exact h.close
  | unsubscribe =>
    change (if s.isClosed then s else s.silence).Sound
    split
    · exact h
    · next hopen => exact h.silence (Bool.eq_false_iff.mpr hopen)
  | receive task => exact h.receive
  | resume task => exact h.resume
  | leave task => exact h.leave
  | watch task => exact h.watch

theorem Sound.following (h : s.Sound) (moves : List Move) : (following moves s).Sound := by
  induction moves generalizing s with
  | nil => exact h
  | cons move moves ih => exact ih (h.move move)

theorem sound_new (id : Int) (feed : Feed) (ending : String) (capacity : Int)
    (overflow : Overflow) : Sound { id, feed, ending, capacity, overflow } :=
  ⟨rfl, nofun, fun hwaiting => absurd rfl hwaiting⟩

end Moves

/-! ## After the end -/

/-- From the end of a stream on: it stays as it was closed, the line does not grow, nothing is put
into the queue, and consumers get what waits, in order, and then the end; from a stream that its
owner has ended they get nothing else. -/
structure Drains (how : Option Fault) (s t : Stream) (told : List Received) : Prop where
  outcome : t.outcome = some how
  quiet : t.quiet = s.quiet
  line : t.line ≤ s.line
  notes : t.notes <:+ s.notes
  silent : s.quiet = true → ∀ received ∈ told, received = .ended
  inOrder : s.quiet = false → t.notes = s.notes.drop told.length ∧
    ∀ (i : Nat) (received : Received), told[i]? = some received →
      received = (s.notes[i]?).elim (.ofEnd how) .item

section Closed

theorem Drains.trans (h : Drains how s t told) (h' : Drains how t u others) :
    Drains how s u (told ++ others) := by
  refine ⟨h'.outcome, h'.quiet.trans h.quiet, Nat.le_trans h'.line h.line,
    h'.notes.trans h.notes, fun hquiet received hmem => ?_, fun hloud => ?_⟩
  · rcases List.mem_append.mp hmem with hmem | hmem
    · exact h.silent hquiet received hmem
    · exact h'.silent (h.quiet.trans hquiet) received hmem
  · obtain ⟨hnotes, htold⟩ := h.inOrder hloud
    obtain ⟨hnotes', hothers⟩ := h'.inOrder (h.quiet.trans hloud)
    refine ⟨?_, fun i received hreceived => ?_⟩
    · rw [hnotes', hnotes, List.drop_drop, List.length_append]
    · rw [List.getElem?_append] at hreceived
      split at hreceived
      · exact htold i received hreceived
      · next hlength =>
        have hi := hothers _ received hreceived
        rw [hnotes, List.getElem?_drop] at hi
        rwa [Nat.add_sub_cancel' (Nat.le_of_not_lt hlength)] at hi

/-- What tells consumers nothing and leaves the queue as it is. -/
theorem Drains.idle (houtcome : t.outcome = some how) (hquiet : t.quiet = s.quiet)
    (hqueue : t.queue = s.queue) (hline : t.line ≤ s.line) : Drains how s t [] := by
  have hnotes : t.notes = s.notes := notes_congr hqueue
  exact ⟨houtcome, hquiet, hline, hnotes ▸ List.suffix_refl _, nofun, fun hloud => ⟨hnotes, nofun⟩⟩

/-- A consumer takes the first notification that waits, or sees the end. -/
theorem Drains.taken {received : Received} (houtcome : t.outcome = some how)
    (hquiet : t.quiet = s.quiet) (hline : t.line ≤ s.line) (hnotes : t.notes = s.notes.tail)
    (hreceived : received =
      if s.quiet then .ended else s.notes.head?.elim (.ofEnd how) .item) :
    Drains how s t [received] := by
  refine ⟨houtcome, hquiet, hline, ?_, fun hsilent other hmem => ?_, fun hloud => ⟨?_, ?_⟩⟩
  · rw [hnotes]
    exact List.tail_suffix _
  · rw [List.mem_singleton.mp hmem, hreceived, hsilent]
    rfl
  · rw [hnotes, List.length_singleton, List.drop_one]
  · rintro (- | i) other hother
    · cases hother
      rw [hreceived, hloud, List.head?_eq_getElem?]
      rfl
    · cases hother

/-- What a consumer finds that looks at a closed stream. -/
theorem look_of_closed
    (hqueue : s.queue = s.notes.map .note ++ if s.isClosed then [.ending] else [])
    (hhow : s.outcome = some how) (hquiet : s.quiet = true → how = none) (task : Nat) :
    (s.look task).2 = (if s.quiet then .ended else s.notes.head?.elim (.ofEnd how) .item) ∧
      (s.look task).1.notes = s.notes.tail ∧ (s.look task).1.line = s.line := by
  rcases look_cases task hqueue with
    ⟨-, hopen, -⟩ | ⟨reply, rest, hnotes, heq⟩ | ⟨hnotes, -, heq⟩
  · cases hhow.symm.trans (isClosed_eq_false.mp hopen)
  · have hleft : (s.look task).1.notes = rest := by
      rw [heq]
      exact notes_of_queue rfl
    rw [hleft, heq, hnotes]
    exact ⟨rfl, rfl, rfl⟩
  · have hleft : (s.look task).1.notes = s.notes := by
      rw [heq]
      rfl
    rw [hleft, heq, hnotes, hhow]
    refine ⟨?_, rfl, ?_⟩
    · cases how with
      | none => exact (ite_self _).symm
      | some fault => exact (if_neg fun hsilent => nomatch hquiet hsilent).symm
    · change s.waiting.tail.length + (s.called ++ s.waiting.take 1).length =
        s.waiting.length + s.called.length
      cases s.waiting with
      | nil => simp
      | cons first rest =>
        simp
        omega

theorem Drains.receive (h : s.Sound) (hhow : s.outcome = some how) (task : Nat) :
    Drains how s (s.receive task).1 [(s.receive task).2] := by
  rw [Stream.receive]
  split
  · next hsilent =>
    exact ⟨hhow, rfl, Nat.le_refl _, List.suffix_refl _,
      fun _ received hmem => List.mem_singleton.mp hmem,
      fun hloud => absurd (hsilent.symm.trans hloud) Bool.true_eq_false.mp⟩
  · have hquiet (hsilent : s.quiet = true) : how = none :=
      Option.some.inj (hhow.symm.trans (h.quiet hsilent))
    obtain ⟨hreceived, hnotes, hline⟩ := look_of_closed h.queue hhow hquiet task
    exact .taken (sameBut_look.outcome.trans hhow) sameBut_look.quiet (Nat.le_of_eq hline) hnotes
      hreceived

/-- A consumer that is called leaves the line with its turn. -/
theorem Drains.resume (h : s.Sound) (hhow : s.outcome = some how) {task : Nat}
    (htask : task ∈ s.called) : (s.resume task).1.line < s.line ∧
      Drains how s (s.resume task).1 [(s.resume task).2] := by
  rw [Stream.resume, if_pos (List.contains_iff_mem.mpr htask)]
  have hquiet (hsilent : s.quiet = true) : how = none :=
    Option.some.inj (hhow.symm.trans (h.quiet hsilent))
  obtain ⟨hreceived, hnotes, hline⟩ :=
    look_of_closed (s := { s with called := s.called.erase task }) h.queue hhow hquiet task
  have hleft : Stream.line { s with called := s.called.erase task } < s.line := by
    have hpos := List.length_pos_of_mem htask
    change s.waiting.length + (s.called.erase task).length < s.waiting.length + s.called.length
    rw [List.length_erase_of_mem htask]
    omega
  rw [hline]
  exact ⟨hleft, .taken (sameBut_look.outcome.trans hhow) sameBut_look.quiet
    (hline.symm ▸ Nat.le_of_lt hleft) hnotes hreceived⟩

theorem line_leave (task : Nat) (s : Stream) : (s.leave task).line ≤ s.line := by
  rw [leave]
  split
  · next hcalled =>
    have hpos := List.length_pos_of_mem (List.contains_iff_mem.mp hcalled)
    dsimp only
    split
    · exact Nat.add_le_add_left List.length_erase_le _
    · rw [wake_eq]
      change s.waiting.tail.length + (s.called.erase task ++ s.waiting.take 1).length ≤
        s.waiting.length + s.called.length
      rw [List.length_append, List.length_tail, List.length_take]
      have herase := List.length_erase_le (a := task) (l := s.called)
      omega
  · exact Nat.add_le_add_right List.length_erase_le _

/-- **A move drains a closed stream.** -/
theorem drains_apply (h : s.Sound) (hhow : s.outcome = some how) (move : Move) :
    Drains how s (move.apply s) (move.answer s) := by
  have hclosed : s.isClosed = true := by rw [isClosed, hhow]; rfl
  have hrefl : Drains how s s [] := .idle hhow rfl rfl (Nat.le_refl _)
  have hanswer {received : Received} (hne : received ≠ .waits) : received.answer = [received] := by
    cases received with
    | waits => exact absurd rfl hne
    | _ => rfl
  cases move with
  | deliver text host =>
    rcases apply_deliver text host s with heq | ⟨hopen, -⟩
    · rwa [heq]
    · cases hopen.symm.trans hclosed
  | proceed reply =>
    have heq : (Move.proceed reply).apply s = { s with held := none } := if_pos hclosed
    rw [heq]
    exact .idle hhow rfl rfl (Nat.le_refl _)
  | close other =>
    change Drains how s (s.close other) []
    rwa [close_of_isClosed hclosed]
  | unsubscribe =>
    change Drains how s (if s.isClosed then s else s.silence) []
    rwa [if_pos hclosed]
  | receive task =>
    change Drains how s (s.receive task).1 (s.receive task).2.answer
    rw [hanswer ((h.released hclosed).receive task)]
    exact .receive h hhow task
  | resume task =>
    change Drains how s (s.resume task).1 (s.resume task).2.answer
    by_cases htask : task ∈ s.called
    · rw [hanswer ((h.released hclosed).resume task htask)]
      exact (Drains.resume h hhow htask).2
    · rwa [Stream.resume, if_neg (mt List.contains_iff_mem.mp htask)]
  | leave task =>
    exact .idle (sameBut_leave.outcome.trans hhow) sameBut_leave.quiet queue_leave (line_leave _ _)
  | watch task =>
    change Drains how s (s.watch task) []
    rwa [watch, if_pos hclosed]

/-- **A run of moves drains a closed stream.** -/
theorem drains_following (h : s.Sound) (hhow : s.outcome = some how) (moves : List Move) :
    Drains how s (following moves s) (answers moves s) := by
  induction moves generalizing s with
  | nil => exact .idle hhow rfl rfl (Nat.le_refl _)
  | cons move moves ih =>
    have hmove := drains_apply h hhow move
    exact hmove.trans (ih (h.move move) hmove.outcome)

/-- **The end of a stream is final and seen by everyone.** Whatever is done to a new stream in any
order, it stays as it is closed, and nothing is put behind the marker. Once its owner has ended it
while it was open, consumers get nothing but the end. Once it is closed with a fault, they get
what waits, in order, and then the fault, whoever they are. Nobody waits for a closed stream:
consumers that come or are called get something at once, where a consumer is in line another one is
called, nobody joins the line, and every turn makes it shorter. -/
theorem closed_for_good (id : Int) (feed : Feed) (ending : String) (capacity : Int)
    (overflow : Overflow) (before after : List Move) :
    let s := following before { id, feed, ending, capacity, overflow }
    let t := following after s
    (∀ how, s.outcome = some how → t.outcome = some how) ∧
    (s.isClosed = true → t.queue = t.notes.map .note ++ [.ending] ∧ t.notes <:+ s.notes) ∧
    (s.isClosed = false →
      let ended := Move.unsubscribe.apply s
      (following after ended).outcome = some none ∧
        ∀ received ∈ answers after ended, received = .ended) ∧
    (∀ fault, s.outcome = some (some fault) → ∀ (i : Nat) (received : Received),
      (answers after s)[i]? = some received →
        received = (s.notes[i]?).elim (.failed fault) .item) ∧
    (s.isClosed = true → t.Released ∧ t.line ≤ s.line ∧
      ∀ task ∈ t.called, (t.resume task).1.line < t.line) := by
  intro s t
  have hs : s.Sound := (sound_new id feed ending capacity overflow).following before
  have ht : t.Sound := hs.following after
  have hdrains {how : Option Fault} (hhow : s.outcome = some how) :
      Drains how s t (answers after s) := drains_following hs hhow after
  have hends (hclosed : s.isClosed = true) : ∃ how, s.outcome = some how :=
    Option.isSome_iff_exists.mp hclosed
  refine ⟨fun how hhow => (hdrains hhow).outcome, fun hclosed => ?_, fun hopen => ?_,
    fun fault hfault => ?_, fun hclosed => ?_⟩
  · obtain ⟨how, hhow⟩ := hends hclosed
    have hqueue := ht.queue
    rw [isClosed, (hdrains hhow).outcome] at hqueue
    exact ⟨hqueue, (hdrains hhow).notes⟩
  · intro ended
    have hended : ended = _ := (if_neg (Bool.eq_false_iff.mp hopen)).trans
      (close_of_open (s := { s with quiet := true }) hopen)
    have hhow : ended.outcome = some none := congrArg Stream.outcome hended
    have hquiet : ended.quiet = true := congrArg Stream.quiet hended
    have hrest := drains_following (hs.move .unsubscribe) hhow after
    exact ⟨hrest.outcome, hrest.silent hquiet⟩
  · have hloud : s.quiet = false := by
      cases hquiet : s.quiet with
      | false => rfl
      | true => cases hfault.symm.trans (hs.quiet hquiet)
    exact ((hdrains hfault).inOrder hloud).2
  · obtain ⟨how, hhow⟩ := hends hclosed
    have hlast := (hdrains hhow).outcome
    have hclosed' : t.isClosed = true := by rw [isClosed, hlast]; rfl
    exact ⟨ht.released hclosed', (hdrains hhow).line, fun task htask =>
      (Drains.resume ht hlast htask).1⟩

/-- Two consumers are called for a notification and for the fault behind it, but a third one takes
the notification. -/
example (reply : Reply) (fault : Fault) :
    let s : Stream := ⟨7, .slot, "", 1, .lag, [], none, false, 0, none, false, [], [], []⟩
    answers [.receive 0, .receive 1, .proceed reply, .close (some fault), .receive 2, .resume 0,
      .resume 1, .receive 3] s = [.item reply, .failed fault, .failed fault, .failed fault] :=
  rfl

end Closed

end Stream

end LedgerClient.Channel
