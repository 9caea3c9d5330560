import LedgerClient.Proofs.Channel.Accounting
import LedgerClient.Proofs.Channel.Registry
import LedgerClient.Proofs.Channel.Turns

/-!
# Those who hold streams

As long as every number that is granted is new, whoever holds an open stream gets what comes for
its number, whatever others do with theirs, and nobody waits for a stream after the reader has
ended. Where a number is granted twice, neither holds.

## Main definitions

* `Channel.Stream.Released`: nobody waits for the stream
* `Channel.Moment.Serves`: a moment does to an open stream what its holder may expect

## Main results

* `Channel.Stream.Sound.released`: nobody waits for a closed stream
* `Channel.Registered.serves`: every moment serves every open stream that is registered
* `Channel.handles_registered`: the open streams are registered and served, if all numbers are new
-/

namespace LedgerClient.Channel

open Rpc (Frame Notice)

variable {config : Config} {past : List Moment} {c after : Channel} {id : Int} {index k : Nat}
  {act : Act} {s : Stream}

/-- Nobody waits for a stream: consumers get something at once, and so does each that is called;
where a consumer is in line, another one is called. -/
structure Stream.Released (s : Stream) : Prop where
  closed : s.isClosed = true
  receive : ∀ task, (s.receive task).2 ≠ .waits
  resume : ∀ task ∈ s.called, (s.resume task).2 ≠ .waits
  line : s.waiting ≠ [] → s.called ≠ []

/-- The stream is as it was, and registered. -/
def Keeps (after : Channel) (k : Nat) (s : Stream) : Prop :=
  after.streams[k]? = some s ∧ after.registered? s.id = some k

theorem Keeps.congr {d : Channel} (h : d.Keeps k s)
    (hsame : after.subscriptions = d.subscriptions) : after.Keeps k s := by
  have hregistry : after.registry = d.registry := congrArg Subscriptions.registry hsame
  have hstreams : after.streams = d.streams := congrArg Subscriptions.streams hsame
  rw [Keeps, hstreams, registered?_congr hregistry]
  exact h

/-- A moment does to an open stream what its holder may expect. -/
structure Moment.Serves (m : Moment) (k : Nat) (s : Stream) : Prop where
  registered : m.before.registered? s.id = some k
  /-- A notification of its number is offered to it. -/
  notified : ∀ (frame : Frame) (rest : List Frame) (notice : Notice) (next : Stream),
    m.act = .route frame rest → frame.id = none → frame.notice = some notice →
    notice.subscription = s.id → s.offer notice.result m.before.config.host = .ok next →
    m.after.streams[k]? = some next
  /-- The end of another stream does not concern it. -/
  unsubscribed : ∀ (index : Nat) (broken : Option String),
    m.act = .event (.unsubscribe index broken) → index ≠ k → m.after.Keeps k s
  /-- Neither does a caller of another operation, who may not get a stream. -/
  finished : ∀ (op : Nat) (wake : Wake), m.act = .event (.finish op wake) →
    (∀ o, m.before.operation? op = some o → o.stream? ≠ some k) → m.after.Keeps k s
  /-- If it closes, those who wait for that get a turn. -/
  watched : ∀ t, m.after.streams[k]? = some t → t.isClosed = true → ∀ task ∈ s.watchers,
    Turn.watcher task ∈ m.after.turns.drop m.before.turns.length

/-! ## Closed streams -/

section Closed

/-- Nobody waits for a stream that is closed. -/
theorem Stream.Sound.released (h : s.Sound) (hclosed : s.isClosed = true) : s.Released := by
  have hlook {t : Stream} (task : Nat) (hqueue : t.queue = s.queue)
      (houtcome : t.outcome = s.outcome) : (t.look task).2 ≠ .waits := by
    have hsame : t.isClosed = true := by
      rw [← hclosed, isClosed, isClosed, houtcome]
    have hshape : t.queue = t.notes.map .note ++ if t.isClosed then [.ending] else [] := by
      rw [notes_congr hqueue, hsame, hqueue, h.queue, hclosed]
    rcases look_cases task hshape with ⟨-, hopen, -⟩ | ⟨reply, rest, -, heq⟩ | ⟨-, -, heq⟩
    · exact absurd (hsame.symm.trans hopen) Bool.true_eq_false.mp
    · rw [heq]
      dsimp only
      split <;> intro heq <;> cases heq
    · rw [heq]
      dsimp only
      split <;> intro heq <;> cases heq
  refine ⟨hclosed, fun task => ?_, fun task htask => ?_, fun hwaiting hnone => ?_⟩
  · rw [Stream.receive]
    split
    · intro heq
      cases heq
    · exact hlook task rfl rfl
  · rw [Stream.resume, if_pos (List.contains_iff_mem.mpr htask)]
    exact hlook (t := { s with called := s.called.erase task }) task rfl rfl
  · have hline := h.line hwaiting
    rw [h.queue, hclosed, hnone, List.length_append] at hline
    exact absurd hline (by simp)

end Closed

/-! ## Open streams -/

section Open

variable (h : Registered c) (hs : c.streams[k]? = some s) (hopen : s.isClosed = false)
include h hs hopen

/-- A notification of the number of an open stream is offered to it. -/
theorem Registered.notified {frame : Frame} {rest : List Frame} {notice : Notice} {next : Stream}
    (hid : frame.id = none) (hnotice : frame.notice = some notice)
    (hsubscription : notice.subscription = s.id)
    (hoffer : s.offer notice.result c.config.host = .ok next) :
    (c.take frame rest).streams[k]? = some next := by
  have hlive := h.live k s hs hopen
  rw [← hsubscription] at hlive
  have hroute : c.route frame = c.notify notice.subscription notice.result := by
    rw [route, hid, hnotice]
  cases hnotify : c.notify notice.subscription notice.result with
  | error fault =>
    obtain ⟨index, t, hsome, ht, herror⟩ := notify_eq_error hnotify
    cases hlive.symm.trans hsome
    cases hs.symm.trans ht
    cases hoffer.symm.trans herror
  | ok after =>
    rw [streams_take (hroute.trans hnotify)]
    rcases notify_eq_ok hnotify with ⟨hnone, -⟩ | ⟨index, t, next', hsome, ht, hoffer', rfl⟩
    · exact absurd hs (hnone k s hlive)
    · cases hlive.symm.trans hsome
      cases hs.symm.trans ht
      cases hoffer.symm.trans hoffer'
      rw [streams_offered, getElem?_setStream, if_pos rfl, hs]
      rfl

/-- An open stream is not concerned when the number of another is given up. -/
theorem Registered.keeps {t : Stream} {f : Stream → Stream} (hfrees : Frees c index t.id)
    (hk : index ≠ k) : ((c.deregister t.id).modifyStream index f).Keeps k s := by
  have hne : s.id ≠ t.id := fun heq => hk (h.eq_of_frees hfrees hs hopen heq).symm
  constructor
  · rw [getElem?_modifyStream_some (c := c.deregister t.id) hs, if_neg hk]
  · rw [registered?_congr (registry_modifyStream f), registered?_deregister, if_neg hne]
    exact h.live k s hs hopen

theorem Registered.keeps_unsubscribe (hk : index ≠ k) (broken : Option String) :
    (c.unsubscribe index broken).1.Keeps k s := by
  rcases unsubscribe_cases c index broken with heq | ⟨t, ht, htopen, heq | ⟨method, params, heq⟩⟩
  · rw [heq]
    exact ⟨hs, h.live k s hs hopen⟩
  · rw [heq]
    exact h.keeps hs hopen (.inr ⟨t, ht, rfl, .inl htopen⟩) hk
  · rw [heq]
    have hkeeps := h.keeps hs hopen (f := Stream.silence) (.inr ⟨t, ht, rfl, .inl htopen⟩) hk
    exact hkeeps.congr (subscriptions_begin ..)

theorem Registered.keeps_finish {op : Nat} {wake : Wake}
    (hother : ∀ o, c.operation? op = some o → o.stream? ≠ some k) :
    (c.finish op wake).1.Keeps k s := by
  have hsame : c.Keeps k s := ⟨hs, h.live k s hs hopen⟩
  rcases finish_cases c op wake with
    heq | ⟨o, result, ho, -, -, ⟨heq, -⟩ | ⟨fault, index, -, hstream, heq⟩⟩
  · rw [heq]
    exact hsame
  · rw [heq]
    exact hsame.congr rfl
  · have hk : index ≠ k := fun hk => hother o ho (hk ▸ hstream)
    rw [heq]
    cases ht : c.streams[index]? with
    | none =>
      rw [Channel.discard, ht]
      exact hsame.congr rfl
    | some t =>
      have hrunning := List.mem_of_find?_eq_some ho
      have hkeeps := h.keeps hs hopen (f := Stream.close none)
        (.inr ⟨t, ht, rfl, .inr ⟨o, hrunning, hstream⟩⟩) hk
      exact hkeeps.congr (subscriptions_discard ht)

/-- **A moment does to an open stream what its holder may expect.** -/
theorem Registered.serves (hready : c.Ready act) : (Moment.mk c act).Serves k s := by
  refine ⟨h.live k s hs hopen, ?_, ?_, ?_, fun t ht hclosed task htask => ?_⟩
  · rintro frame rest notice next hact hid hnotice hsubscription hoffer
    cases hact
    exact h.notified hs hopen hid hnotice hsubscription hoffer
  · rintro index broken hact hk
    cases hact
    exact (h.keeps_unsubscribe hs hopen hk broken).congr rfl
  · rintro op wake hact hother
    cases hact
    exact (h.keeps_finish hs hopen hother).congr rfl
  · -- The stream was open before, so those who wait for its end wait still or have a turn.
    obtain ⟨new, hturns, hwait⟩ := rings_perform hready
    obtain ⟨t', ht', hrung⟩ := hwait k s hs
    cases ht.symm.trans ht'
    change Turn.watcher task ∈ (c.perform act).turns.drop c.turns.length
    rw [hturns, List.drop_left]
    rcases hrung hopen task htask with ⟨hstill, -⟩ | hnew
    · cases hstill.symm.trans hclosed
    · exact hnew

end Open

/-- **As long as all numbers are new, the open streams are the registered ones.** Each gets what
comes for its number, and is not concerned when another ends or is given up; when it closes, those
who wait for that go on. After the reader has ended, all streams are closed and nobody waits for
one. -/
theorem handles_registered (config : Config) (events : List Event)
    (hfresh : ∀ m ∈ history events { config }, m.Fresh) :
    (∀ m ∈ history events { config }, ∀ (k : Nat) (s : Stream), m.before.streams[k]? = some s →
      s.isClosed = false → m.Serves k s) ∧
    (∀ (k : Nat) (s : Stream), (Channel.after events { config }).streams[k]? = some s →
      s.isClosed = false → (Channel.after events { config }).registered? s.id = some k) ∧
    ((Channel.after events { config }).reader = .ended →
      ∀ s ∈ (Channel.after events { config }).streams, s.Released) := by
  have hreached := reached_after config events
  have hregistered := hreached.registered hfresh
  refine ⟨fun m hm k s hs hopen => ?_, hregistered.live, fun hended s hmem => ?_⟩
  · obtain ⟨earlier, later, hpast, hbefore, hready⟩ := hreached.before hm
    have hfirst := Reached.registered hbefore fun m' hm' =>
      hfresh m' (hpast ▸ List.mem_append_left _ hm')
    exact hfirst.serves hs hopen hready
  · obtain ⟨k, hs⟩ := List.mem_iff_getElem?.mp hmem
    refine (hreached.tallied hs).1.released ?_
    cases hclosed : s.isClosed with
    | true => rfl
    | false =>
      have hlive := hregistered.live k s hs hclosed
      rw [registered?, hregistered.ended hended] at hlive
      cases hlive

/-- Two subscriptions with numbers of their own, of which one is ended and the other is served. -/
theorem handles_registered_two :
    let events : List Event :=
      [.start, .subscribe Rpc.Feed.root {} false none, .subscribe Rpc.Feed.root {} false none,
        .accept (Utf8.encode "\x7b\"id\":1,\"result\":7\x7d"),
        .accept (Utf8.encode "\x7b\"id\":2,\"result\":8\x7d"),
        .finish 1 .answer, .finish 2 .answer, .unsubscribe 0 none, .fail "reset"]
    (∀ m ∈ history events { config := {} }, m.Fresh) ∧
      ∀ s ∈ (Channel.after events { config := {} }).streams, s.Released := by
  intro events
  have hall : (history events { config := {} }).all (fun m => decide m.Fresh) = true := by
    cbv
  have hfresh : ∀ m ∈ history events { config := {} }, m.Fresh := fun m hm =>
    of_decide_eq_true (List.all_eq_true.mp hall m hm)
  have hended : (Channel.after events { config := {} }).reader = .ended := by
    cbv
  obtain ⟨-, -, hreleased⟩ := handles_registered {} events hfresh
  exact ⟨hfresh, hreleased hended⟩

/-- **Where a number comes twice, a stream may stay open for ever.** Two subscribers have got their
streams, which are open, but only the second one is registered. The end of the reader does not
close the first one, and a consumer of it waits. -/
theorem not_handles_registered :
    let events : List Event :=
      [.start, .subscribe Rpc.Feed.root {} false none, .subscribe Rpc.Feed.root {} false none,
        .accept (Utf8.encode "\x7b\"id\":1,\"result\":7\x7d"),
        .accept (Utf8.encode "\x7b\"id\":2,\"result\":7\x7d")]
    let given := events ++ [.finish 1 .answer, .finish 2 .answer]
    (((Channel.after events { config := {} }).finish 1 .answer).2 = some (.stream 0) ∧
      ((Channel.after events { config := {} }).finish 2 .answer).2 = some (.stream 1)) ∧
      ∃ s, (Channel.after given { config := {} }).streams[0]? = some s ∧ s.isClosed = false ∧
        (Channel.after given { config := {} }).registered? s.id = some 1 ∧
        (Channel.after (given ++ [.fail "reset"]) { config := {} }).reader = .ended ∧
        (Channel.after (given ++ [.fail "reset"]) { config := {} }).streams[0]? = some s ∧
        (s.receive 0).2 = .waits := by
  intro events given
  refine ⟨⟨?_, ?_⟩,
    { id := 7, feed := Rpc.Feed.root, ending := "rootUnsubscribe", capacity := 1024
      overflow := .lag },
    ?_, rfl, ?_, ?_, ?_, rfl⟩
  · cbv
  · cbv
  · cbv
  · cbv
  · cbv
  · cbv

end LedgerClient.Channel
