import LedgerClient.Channel.Stream

/-!
# What a stream holds

The queue of a stream holds notifications, and the end marker behind them once the stream is
closed. Whoever waits in line has a called consumer in front of it for every item of the queue, so
nobody waits in vain. Both facts are kept by everything that happens to a stream.

## Main definitions

* `Channel.Stream.Terms`: what a stream was registered with
* `Channel.Stream.notes`: the notifications that wait to be taken
* `Channel.Stream.Sound`: the shape of the queue and of the line before it
* `Channel.Stream.Change`: what may happen to a stream

## Main results

* `Channel.Stream.terms_apply`, `Channel.Stream.Sound.apply`: what is kept whatever happens
* `Channel.Stream.outcome_apply`: a stream closes once, and stays closed
* `Channel.Stream.look_cases`: what a consumer finds
-/

namespace LedgerClient.Channel.Stream

open Rpc (Feed Reply)

variable {s t : Stream} {task : Nat} {reply : Reply} {how : Option Fault}

/-- What a stream was registered with. -/
structure Terms where
  id : Int
  feed : Feed
  ending : String
  capacity : Int
  overflow : Overflow

/-- What a stream was registered with. -/
def terms (s : Stream) : Terms := ⟨s.id, s.feed, s.ending, s.capacity, s.overflow⟩

/-- A new stream, to which nothing has happened yet. -/
def Terms.stream (terms : Terms) : Stream :=
  { id := terms.id
    feed := terms.feed
    ending := terms.ending
    capacity := terms.capacity
    overflow := terms.overflow }

/-- The notifications that wait to be taken. -/
def notes (s : Stream) : List Reply :=
  s.queue.filterMap fun
    | .note reply => some reply
    | .ending => none

/-- The queue ends with the marker just when the stream is closed, an owner who takes nothing more
has closed it without a fault, and whoever waits in line waits behind a called consumer for every
item. -/
structure Sound (s : Stream) : Prop where
  queue : s.queue = s.notes.map .note ++ if s.isClosed then [.ending] else []
  quiet : s.quiet = true → s.outcome = some none
  line : s.waiting ≠ [] → s.queue.length ≤ s.called.length

/-- What may happen to a stream. -/
inductive Change
  | none
  /-- A decoded notification comes. -/
  | arrive (reply : Reply)
  /-- The notification that was held back is tried again. -/
  | retry
  | close (outcome : Option Fault)
  /-- The owner ends the stream. -/
  | silence
  | receive (task : Nat)
  | resume (task : Nat)
  | leave (task : Nat)
  | watch (task : Nat)

namespace Change

/-- The stream after a change. -/
def apply : Change → Stream → Stream
  | .none, s => s
  | .arrive reply, s => s.accept reply
  | .retry, s => s.proceed
  | .close outcome, s => s.close outcome
  | .silence, s => s.silence
  | .receive task, s => (s.receive task).1
  | .resume task, s => (s.resume task).1
  | .leave task, s => s.leave task
  | .watch task, s => s.watch task

/-- When a change may happen: a notification comes to an open stream that holds none back, an
owner ends a stream that is open, and what closes a stream from outside is no lag. -/
def Due (s : Stream) : Change → Prop
  | .arrive _ => s.isClosed = false ∧ s.held = .none
  | .close outcome => ∀ id capacity, outcome ≠ some (.lagged id capacity)
  | .silence => s.isClosed = false
  | _ => True

end Change

/-! ## Closed forms -/

theorem wake_eq (s : Stream) :
    s.wake = { s with waiting := s.waiting.tail, called := s.called ++ s.waiting.take 1 } := by
  unfold wake
  split
  · next h =>
    cases s
    simp_all
  · next h => simp [h]

theorem put_eq (item : Item) (s : Stream) : s.put item =
    { s with
      queue := s.queue ++ [item]
      waiting := s.waiting.tail
      called := s.called ++ s.waiting.take 1 } :=
  wake_eq _

theorem isClosed_eq_false : s.isClosed = false ↔ s.outcome = none :=
  Option.isSome_eq_false_iff.trans Option.isNone_iff_eq_none

theorem close_of_isClosed (h : s.isClosed = true) : s.close how = s :=
  if_pos h

theorem close_of_open (h : s.isClosed = false) : s.close how =
    { s with
      outcome := some how
      space := true
      queue := s.queue ++ [.ending]
      waiting := s.waiting.tail
      called := s.called ++ s.waiting.take 1 } := by
  rw [close, h, if_neg Bool.false_ne_true, put_eq]

@[simp] theorem isClosed_close : (s.close how).isClosed = true := by
  cases h : s.isClosed with
  | true => rw [close_of_isClosed h, h]
  | false => rw [close_of_open h]; rfl

/-- A stream closes once. -/
theorem close_close : (s.close how).close how = s.close how :=
  close_of_isClosed isClosed_close

theorem outcome_close : (s.close how).outcome = s.outcome.or (some how) := by
  cases h : s.isClosed with
  | true =>
    obtain ⟨o, ho⟩ := Option.isSome_iff_exists.mp h
    rw [close_of_isClosed h, ho]
    rfl
  | false =>
    rw [close_of_open h, isClosed_eq_false.mp h]
    rfl

/-! ## What is offered -/

section Offers

variable {text : Bytes} {host : Host}

/-- A notification that the stream cannot be offered is none of its shape. -/
theorem offer_eq_error {fault : Fault} (h : s.offer text host = .error fault) :
    s.isClosed = false ∧ s.feed.shape.decode text host = .error fault := by
  unfold offer at h
  split at h
  · cases h
  · next hopen =>
    refine ⟨Bool.eq_false_iff.mpr hopen, ?_⟩
    split at h
    · cases h
    · next cause hdecode =>
      cases h
      exact hdecode
    · cases h

theorem offer_cases (h : s.offer text host = .ok t) :
    s.isClosed = true ∧ t = s ∨ s.isClosed = false ∧
      ((∃ reply, s.feed.shape.decode text host = .ok reply ∧ t = s.accept reply) ∨
      ∃ fault, s.feed.shape.decode text host = .error fault ∧ t = s.close (some fault)) := by
  unfold offer at h
  split at h
  · next hclosed =>
    cases h
    exact .inl ⟨hclosed, rfl⟩
  · next hopen =>
    refine .inr ⟨Bool.eq_false_iff.mpr hopen, ?_⟩
    split at h
    · next reply hdecode =>
      cases h
      exact .inl ⟨reply, hdecode, rfl⟩
    · cases h
    · next fault _ hdecode =>
      cases h
      exact .inr ⟨fault, hdecode, rfl⟩

end Offers

/-! ## What stays -/

section Stays

/-- Two streams that differ in what waits and who waits for it, and in nothing else. -/
def SameBut (s t : Stream) : Prop :=
  t = { s with
    queue := t.queue
    space := t.space
    waiting := t.waiting
    called := t.called
    watchers := t.watchers }

theorem sameBut_put (item : Item) : s.SameBut (s.put item) := by
  rw [SameBut, put_eq]

theorem sameBut_look : s.SameBut (s.look task).1 := by
  rw [look]
  split
  · rfl
  · rfl
  · rw [SameBut, put_eq]

theorem sameBut_receive : s.SameBut (s.receive task).1 := by
  rw [receive]
  split
  · rfl
  · exact sameBut_look

theorem sameBut_resume : s.SameBut (s.resume task).1 := by
  rw [resume]
  split
  · exact sameBut_look (s := { s with called := s.called.erase task })
  · rfl

theorem sameBut_leave : s.SameBut (s.leave task) := by
  rw [leave]
  split
  · dsimp only
    split
    · rfl
    · rw [SameBut, wake_eq]
  · rfl

theorem sameBut_watch : s.SameBut (s.watch task) := by
  rw [watch]
  split <;> rfl

theorem queue_leave : (s.leave task).queue = s.queue := by
  rw [leave]
  split
  · dsimp only
    split
    · rfl
    · rw [wake_eq]
  · rfl

theorem queue_watch : (s.watch task).queue = s.queue := by
  rw [watch]
  split <;> rfl

namespace SameBut

variable (h : s.SameBut t)
include h

theorem terms : t.terms = s.terms := by rw [h]; rfl

theorem outcome : t.outcome = s.outcome := by rw [h]

theorem isClosed : t.isClosed = s.isClosed := by rw [h]; rfl

theorem quiet : t.quiet = s.quiet := by rw [h]

theorem held : t.held = s.held := by rw [h]

theorem dropped : t.dropped = s.dropped := by rw [h]

end SameBut

theorem held_close : (s.close how).held = s.held := by
  cases h : s.isClosed with
  | true => rw [close_of_isClosed h]
  | false => rw [close_of_open h]

theorem terms_close : (s.close how).terms = s.terms := by
  cases h : s.isClosed with
  | true => rw [close_of_isClosed h]
  | false => rw [close_of_open h]; rfl

/-- What a stream was registered with stays whatever happens. -/
theorem terms_apply (change : Change) (s : Stream) : (change.apply s).terms = s.terms := by
  cases change with
  | none => rfl
  | arrive reply =>
    change (s.accept reply).terms = _
    rw [accept]
    split
    · split
      · rfl
      · exact terms_close
      · rfl
    · exact (sameBut_put _).terms
  | retry =>
    change s.proceed.terms = _
    rw [proceed]
    split
    · rfl
    · split
      · rfl
      · split
        · rfl
        · exact (sameBut_put _).terms
  | close outcome => exact terms_close
  | silence => exact terms_close
  | receive task => exact sameBut_receive.terms
  | resume task => exact sameBut_resume.terms
  | leave task => exact sameBut_leave.terms
  | watch task => exact sameBut_watch.terms

/-- A stream that is closed stays as it was closed. -/
theorem outcome_apply {o : Option Fault} (change : Change) (h : s.outcome = some o) :
    (change.apply s).outcome = some o := by
  have hclose (t : Stream) (how : Option Fault) (ht : t.outcome = s.outcome) :
      (t.close how).outcome = some o := by
    rw [outcome_close, ht, h]
    rfl
  cases change with
  | none => exact h
  | arrive reply =>
    change (s.accept reply).outcome = _
    rw [accept]
    split
    · split
      · exact h
      · exact hclose s _ rfl
      · exact h
    · exact (sameBut_put _).outcome.trans h
  | retry =>
    change s.proceed.outcome = _
    rw [proceed]
    split
    · exact h
    · split
      · exact h
      · split
        · exact h
        · exact (sameBut_put _).outcome.trans h
  | close outcome => exact hclose s _ rfl
  | silence => exact hclose { s with quiet := true } _ rfl
  | receive task => exact sameBut_receive.outcome.trans h
  | resume task => exact sameBut_resume.outcome.trans h
  | leave task => exact sameBut_leave.outcome.trans h
  | watch task => exact sameBut_watch.outcome.trans h

end Stays

/-! ## The queue and the line before it -/

section Sound

/-- What waits depends on the queue only. -/
theorem notes_congr (h : t.queue = s.queue) : t.notes = s.notes := by
  rw [notes, notes, h]

theorem notes_of_queue {replies : List Reply} {closed : Bool}
    (h : s.queue = replies.map .note ++ if closed then [.ending] else []) :
    s.notes = replies := by
  rw [notes, h, List.filterMap_append, List.filterMap_map]
  have hnotes : replies.filterMap ((fun
      | .note reply => some reply
      | .ending => none) ∘ Item.note) = replies := List.filterMap_some
  rw [hnotes]
  cases closed
  · exact List.append_nil _
  · exact List.append_nil _

/-- What a consumer finds: nothing yet, a notification, or the end. -/
theorem look_cases (task : Nat)
    (hqueue : s.queue = s.notes.map .note ++ if s.isClosed then [.ending] else []) :
    (s.notes = [] ∧ s.isClosed = false ∧
      s.look task = ({ s with waiting := s.waiting ++ [task] }, .waits)) ∨
    (∃ reply rest, s.notes = reply :: rest ∧
      s.look task = ({ s with
        queue := rest.map .note ++ if s.isClosed then [.ending] else []
        space := true }, if s.quiet then .ended else .item reply)) ∨
    (s.notes = [] ∧ s.isClosed = true ∧
      s.look task = ({ s with
        space := true
        waiting := s.waiting.tail
        called := s.called ++ s.waiting.take 1 }, match s.outcome with
          | some (some fault) => .failed fault
          | _ => .ended)) := by
  cases hnotes : s.notes with
  | cons reply rest =>
    refine .inr (.inl ⟨reply, rest, rfl, ?_⟩)
    rw [hnotes] at hqueue
    rw [look, hqueue]
    rfl
  | nil =>
    rw [hnotes] at hqueue
    cases hclosed : s.isClosed with
    | false =>
      rw [hclosed] at hqueue
      refine .inl ⟨rfl, rfl, ?_⟩
      rw [look, hqueue]
      rfl
    | true =>
      rw [hclosed] at hqueue
      refine .inr (.inr ⟨rfl, rfl, ?_⟩)
      have hmarker : s.queue = [.ending] := hqueue
      rw [look, hmarker]
      simp only [put_eq]
      rfl

/-- One more item, and one more called consumer for it. -/
theorem line_put (h : s.waiting ≠ [] → s.queue.length ≤ s.called.length)
    (hwaiting : s.waiting.tail ≠ []) (item : Item) :
    (s.queue ++ [item]).length ≤ (s.called ++ s.waiting.take 1).length := by
  cases hw : s.waiting with
  | nil =>
    rw [hw] at hwaiting
    exact absurd rfl hwaiting
  | cons task tasks =>
    have hline := h (by rw [hw]; exact List.cons_ne_nil _ _)
    rw [List.length_append, List.length_append]
    exact Nat.add_le_add_right hline 1

theorem Sound.of_queue (replies : List Reply)
    (hqueue : s.queue = replies.map .note ++ if s.isClosed then [.ending] else [])
    (hquiet : s.quiet = true → s.outcome = some none)
    (hline : s.waiting ≠ [] → s.queue.length ≤ s.called.length) : s.Sound :=
  ⟨by rw [notes_of_queue hqueue]; exact hqueue, hquiet, hline⟩

theorem queue_put_note (h : s.Sound) (hopen : s.isClosed = false) :
    (s.put (.note reply)).queue = (s.notes ++ [reply]).map .note ++
      if (s.put (.note reply)).isClosed then [.ending] else [] := by
  have hqueue := h.queue
  rw [hopen] at hqueue
  rw [put_eq]
  change s.queue ++ [.note reply] = _ ++ if s.isClosed then _ else _
  rw [hqueue, hopen]
  simp

theorem Sound.put (h : s.Sound) (hopen : s.isClosed = false) : (s.put (.note reply)).Sound := by
  refine .of_queue _ (queue_put_note h hopen) ?_ ?_
  · rw [put_eq]
    exact h.quiet
  · rw [put_eq]
    exact fun hwaiting => line_put h.line hwaiting _

theorem Sound.of_close
    (hqueue : s.queue = s.notes.map .note ++ if s.isClosed then [.ending] else [])
    (hquiet : s.quiet = true → s.outcome.or (some how) = some none)
    (hline : s.waiting ≠ [] → s.queue.length ≤ s.called.length) : (s.close how).Sound := by
  cases hclosed : s.isClosed with
  | true =>
    rw [close_of_isClosed hclosed]
    obtain ⟨o, ho⟩ := Option.isSome_iff_exists.mp hclosed
    rw [ho] at hquiet
    exact ⟨hqueue, fun h => ho.trans (hquiet h), hline⟩
  | false =>
    rw [isClosed_eq_false.mp hclosed] at hquiet
    rw [close_of_open hclosed]
    refine .of_queue s.notes ?_ hquiet fun hwaiting => line_put hline hwaiting _
    rw [hclosed] at hqueue
    change s.queue ++ [.ending] = s.notes.map .note ++ [.ending]
    rw [hqueue]
    simp

theorem Sound.close (h : s.Sound) : (s.close how).Sound :=
  .of_close h.queue (fun hquiet => by rw [h.quiet hquiet]; rfl) h.line

theorem Sound.accept (h : s.Sound) (hopen : s.isClosed = false) : (s.accept reply).Sound := by
  rw [Stream.accept]
  split
  · split
    · exact ⟨h.queue, h.quiet, h.line⟩
    · exact h.close
    · exact ⟨h.queue, h.quiet, h.line⟩
  · exact h.put hopen

theorem Sound.proceed (h : s.Sound) : s.proceed.Sound := by
  rw [Stream.proceed]
  split
  · exact h
  · split
    · exact ⟨h.queue, h.quiet, h.line⟩
    · next hopen =>
      have hopen : s.isClosed = false := Bool.not_eq_true _ ▸ hopen
      split
      · exact ⟨h.queue, h.quiet, h.line⟩
      · exact Sound.put (s := { s with held := none }) ⟨h.queue, h.quiet, h.line⟩ hopen

theorem Sound.silence (h : s.Sound) (hopen : s.isClosed = false) : s.silence.Sound :=
  .of_close (s := { s with quiet := true }) h.queue
    (fun _ => congrArg (Option.or · _) (isClosed_eq_false.mp hopen)) h.line

/-- A consumer that looks keeps the shape of queue and line. Where it was called itself, the line
before it is one shorter. -/
theorem Sound.look
    (hqueue : s.queue = s.notes.map .note ++ if s.isClosed then [.ending] else [])
    (hquiet : s.quiet = true → s.outcome = some none)
    (hline : s.waiting ≠ [] → s.queue.length ≤ s.called.length + 1) : (s.look task).1.Sound := by
  rcases look_cases task hqueue with
    ⟨hnotes, hopen, heq⟩ | ⟨reply, rest, hnotes, heq⟩ | ⟨hnotes, hclosed, heq⟩
  · rw [heq]
    have hnil : s.queue = [] := by rw [hqueue, hnotes, hopen]; rfl
    refine .of_queue [] ?_ hquiet fun _ => ?_
    · exact hqueue.trans (by rw [hnotes]; rfl)
    · change s.queue.length ≤ _
      rw [hnil]
      exact Nat.zero_le _
  · rw [heq]
    refine .of_queue rest rfl hquiet fun hwaiting => ?_
    have hlen := hline hwaiting
    rw [hqueue, hnotes, List.map_cons, List.cons_append, List.length_cons] at hlen
    exact Nat.le_of_succ_le_succ hlen
  · -- The marker is seen and stays, so the next in line is called.
    rw [heq]
    have hmarker : s.queue = [.ending] := by rw [hqueue, hnotes, hclosed]; rfl
    refine .of_queue [] ?_ hquiet fun hwaiting => ?_
    · exact hqueue.trans (by rw [hnotes]; rfl)
    · change s.queue.length ≤ (s.called ++ s.waiting.take 1).length
      cases hw : s.waiting with
      | nil =>
        change s.waiting.tail ≠ [] at hwaiting
        rw [hw] at hwaiting
        exact absurd rfl hwaiting
      | cons task tasks =>
        rw [hmarker, List.length_append]
        exact Nat.le_add_left 1 _

theorem Sound.receive (h : s.Sound) : (s.receive task).1.Sound := by
  rw [Stream.receive]
  split
  · exact h
  · exact .look h.queue h.quiet fun hwaiting => Nat.le_succ_of_le (h.line hwaiting)

theorem Sound.resume (h : s.Sound) : (s.resume task).1.Sound := by
  rw [Stream.resume]
  split
  · next hcalled =>
    refine .look h.queue h.quiet fun hwaiting => ?_
    have hline := h.line hwaiting
    have hpos := List.length_pos_of_mem (List.contains_iff_mem.mp hcalled)
    change s.queue.length ≤ (s.called.erase task).length + 1
    rw [List.length_erase_of_mem (List.contains_iff_mem.mp hcalled)]
    omega
  · exact h

theorem Sound.leave (h : s.Sound) : (s.leave task).Sound := by
  rw [Stream.leave]
  split
  · next hcalled =>
    dsimp only
    split
    · next hempty =>
      have hnil : s.queue = [] := List.isEmpty_iff.mp hempty
      refine .of_queue _ h.queue h.quiet fun _ => ?_
      change s.queue.length ≤ _
      rw [hnil]
      exact Nat.zero_le _
    · rw [wake_eq]
      refine .of_queue _ h.queue h.quiet fun hwaiting => ?_
      change s.queue.length ≤ (s.called.erase task ++ s.waiting.take 1).length
      cases hw : s.waiting with
      | nil =>
        change s.waiting.tail ≠ [] at hwaiting
        rw [hw] at hwaiting
        exact absurd rfl hwaiting
      | cons first others =>
        have hline := h.line (by rw [hw]; exact List.cons_ne_nil _ _)
        rw [List.length_append, List.length_erase_of_mem (List.contains_iff_mem.mp hcalled)]
        change s.queue.length ≤ s.called.length - 1 + 1
        omega
  · refine .of_queue _ h.queue h.quiet fun hwaiting => h.line fun hnil => hwaiting ?_
    change s.waiting.erase task = []
    rw [hnil]
    rfl

theorem Sound.watch (h : s.Sound) : (s.watch task).Sound := by
  rw [Stream.watch]
  split
  · exact h
  · exact ⟨h.queue, h.quiet, h.line⟩

/-- **Whatever happens keeps the queue and the line before it in shape.** -/
theorem Sound.apply {change : Change} (h : s.Sound) (hdue : change.Due s) :
    (change.apply s).Sound := by
  cases change with
  | none => exact h
  | arrive reply => exact h.accept hdue.1
  | retry => exact h.proceed
  | close outcome => exact h.close
  | silence => exact h.silence hdue
  | receive task => exact h.receive
  | resume task => exact h.resume
  | leave task => exact h.leave
  | watch task => exact h.watch

end Sound

end LedgerClient.Channel.Stream
