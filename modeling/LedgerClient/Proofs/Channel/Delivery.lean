import LedgerClient.Proofs.Channel.History
import LedgerClient.Proofs.Channel.Tally

/-!
# What reaches a stream

In each moment of a run one thing at most happens to a stream, and it is a change that is due
there: a notification comes only while the reader is free, and then no stream holds one back.
Streams are never taken away, and the terms of a stream never change.

## Main definitions

* `Channel.Moment.arrived`, `returned`, `withheld`: what a moment brings to a stream, and what
  consumers take from it
* `Channel.Moment.Overruns`: a notification comes when as many wait as may
* `Channel.Moment.Makes`: the change that a moment makes to a stream
* `Channel.StopsAt`: the reader waits with a notification for a stream

## Main results

* `Channel.Leads.config_eq`: a channel keeps its configuration
* `Channel.Reached.held`: whoever holds a notification back has stalled the reader
* `Channel.Reached.exists_change`: a moment makes one change to a stream
* `Channel.new_of_getElem?_perform`: where a stream comes from
-/

namespace LedgerClient

/-- A text that is not of a shape is refused for its form, or since it cannot be read. -/
theorem Rpc.Shape.decode_eq_error {shape : Rpc.Shape} {text : Bytes} {host : Host} {fault : Fault}
    (h : shape.decode text host = .error fault) :
    fault = .codec .unexpectedShape ∨ ∃ flaw, fault = .misuse (.text flaw) := by
  unfold Rpc.Shape.decode at h
  cases hread : (Json.Document.read text host.nesting).using (shape.reply host) with
  | ok reply =>
    rw [hread] at h
    cases h
  | error obstacle =>
    rw [hread] at h
    cases obstacle with
    | form =>
      cases h
      exact .inl rfl
    | text flaw =>
      cases h
      exact .inr ⟨flaw, rfl⟩

namespace Channel

open Rpc (Frame Reply)

variable {config : Config} {past : List Moment} {c after : Channel} {m : Moment} {k : Nat}
  {s : Stream} {frame : Frame} {rest : List Frame}

/-- The decodable notifications in a frame that come to an open stream. -/
def arrivals (c : Channel) (frame : Frame) (k : Nat) : List Reply :=
  match frame.id, frame.notice, c.streams[k]? with
  | none, some notice, some s =>
    if c.registered? notice.subscription = some k ∧ s.isClosed = false then
      (s.feed.shape.decode notice.result c.config.host).toOption.toList
    else []
  | _, _, _ => []

/-- The notification that a consumer gets, if it gets one. -/
def Output.replies : Output → List Reply
  | .received got => got.replies
  | _ => []

namespace Moment

/-- What comes to a stream in a moment. -/
def arrived (m : Moment) (k : Nat) : List Reply :=
  match m.act with
  | .route frame _ => m.before.arrivals frame k
  | _ => []

/-- What a consumer of a stream gets in a moment. -/
def returned (m : Moment) (k : Nat) : List Reply :=
  match m.act with
  | .event (.receive index _) | .event (.resume index _) =>
    if index = k then m.output.replies else []
  | _ => []

/-- What a consumer takes in a moment that does not get it, since the owner has ended the
stream. -/
def withheld (m : Moment) (k : Nat) : List Reply :=
  match m.act with
  | .event (.resume index task) =>
    if index = k then (m.before.streams[k]?).elim [] (Stream.withheldFrom task) else []
  | _ => []

/-- A notification comes to a stream when as many wait as may. -/
def Overruns (m : Moment) (k : Nat) : Prop :=
  m.arrived k ≠ [] ∧ ∃ s, m.before.streams[k]? = some s ∧ (s.notes.length : Int) = s.capacity

/-- The change that a moment makes to a stream, which is due there, with what it brings to the
stream and takes from it. -/
structure Makes (m : Moment) (k : Nat) (s : Stream) (change : Stream.Change) : Prop where
  after : m.after.streams[k]? = some (change.apply s)
  due : change.Due s
  arrived : m.arrived k = change.arrived
  returned : m.returned k = change.returned s
  withheld : m.withheld k = change.withheld s
  held : (∃ event, m.act = .event event) → (change.apply s).held = s.held

/-- Nothing happens to a stream. -/
theorem Makes.none (hafter : m.after.streams[k]? = some s) (harrived : m.arrived k = [])
    (hreturned : m.returned k = []) (hwithheld : m.withheld k = []) : m.Makes k s .none :=
  ⟨hafter, trivial, harrived, hreturned, hwithheld, fun _ => rfl⟩

end Moment

/-! ## Frames -/

section Frames

theorem streams_take (h : c.route frame = .ok after) :
    (c.take frame rest).streams = after.streams := by
  rw [take, h]
  dsimp only
  split <;> rfl

theorem take_of_error {fault : Fault} (h : c.route frame = .error fault) :
    c.take frame rest = c.teardown s!"reader failed: {fault.message}" := by
  rw [take, h]
  rfl

/-- An answer changes no stream; it may register a new one. -/
theorem subscriptions_resolve (c : Channel) (id : Int) (frame : Frame) :
    (c.resolve id frame).subscriptions = c.subscriptions ∨
    ∃ number feed options, (c.resolve id frame).subscriptions =
      (c.register (c.newStream number feed options)).subscriptions := by
  unfold resolve answer
  split
  · exact .inl rfl
  · split
    · exact .inl rfl
    · exact .inl rfl
    · exact .inl rfl
    · split
      · exact .inl rfl
      · split
        · exact .inr ⟨_, _, _, rfl⟩
        · exact .inl rfl

theorem streams_resolve (c : Channel) (id : Int) (frame : Frame) :
    (c.resolve id frame).streams = c.streams ∨
    ∃ number feed options, (c.resolve id frame).streams =
      c.streams ++ [c.newStream number feed options] := by
  rcases subscriptions_resolve c id frame with heq | ⟨number, feed, options, heq⟩
  · exact .inl (congrArg Subscriptions.streams heq)
  · exact .inr ⟨number, feed, options, congrArg Subscriptions.streams heq⟩

theorem streams_reject (error : ServerFault) : (c.reject error).streams = c.streams :=
  congrArg Subscriptions.streams (subscriptions_reject error)

/-- When the reader ends, a stream is closed if it is registered. -/
theorem Moment.exists_change_teardown {reason : String} (hs : m.before.streams[k]? = some s)
    (hafter : m.after.streams = (m.before.teardown reason).streams) (harrived : m.arrived k = [])
    (hreturned : m.returned k = []) (hwithheld : m.withheld k = []) :
    ∃ change, m.Makes k s change := by
  have hstream := getElem?_teardown m.before reason k
  rw [← hafter, hs] at hstream
  split at hstream
  · exact ⟨.close (some (m.before.lastFault reason)), hstream, fun _ _ => nofun, harrived,
      hreturned, hwithheld, fun _ => Stream.held_close⟩
  · exact ⟨.none, .none hstream harrived hreturned hwithheld⟩

theorem arrivals_of_notice {notice : Rpc.Notice} (hid : frame.id = none)
    (hnotice : frame.notice = some notice) (hs : c.streams[k]? = some s) : c.arrivals frame k =
      if c.registered? notice.subscription = some k ∧ s.isClosed = false then
        (s.feed.shape.decode notice.result c.config.host).toOption.toList
      else [] := by
  rw [arrivals, hid, hnotice, hs]

theorem arrivals_of_answer {id : Int} (hid : frame.id = some id) : c.arrivals frame k = [] := by
  rw [arrivals, hid]

theorem arrivals_of_no_notice (hnotice : frame.notice = none) : c.arrivals frame k = [] := by
  rw [arrivals, hnotice]
  cases frame.id <;> rfl

/-- What a notification makes of a stream, when nothing is held back. -/
theorem exists_change_notify {notice : Rpc.Notice} (hid : frame.id = none)
    (hnotice : frame.notice = some notice) (hs : c.streams[k]? = some s) (hheld : s.held = none) :
    ∃ change, (Moment.mk c (.route frame rest)).Makes k s change := by
  have harrivals := arrivals_of_notice hid hnotice hs
  have hroute : c.route frame = c.notify notice.subscription notice.result := by
    rw [route, hid, hnotice]
  cases hnotify : c.notify notice.subscription notice.result with
  | error fault =>
    obtain ⟨index, other, hsome, hother, hoffer⟩ := notify_eq_error hnotify
    refine Moment.exists_change_teardown hs
      (congrArg Channel.streams (take_of_error (hroute.trans hnotify))) ?_ rfl rfl
    refine harrivals.trans ?_
    split
    · next hreg =>
      cases hsome.symm.trans hreg.1
      cases hother.symm.trans hs
      rw [(Stream.offer_eq_error hoffer).2]
      rfl
    · rfl
  | ok after =>
    have hstreams : (c.take frame rest).streams = after.streams :=
      streams_take (hroute.trans hnotify)
    rcases notify_eq_ok hnotify with ⟨hnone, rfl⟩ | ⟨index, other, next, hsome, hother, hoffer, rfl⟩
    · refine ⟨.none, .none (congrArg (·[k]?) hstreams |>.trans hs) ?_ rfl rfl⟩
      exact harrivals.trans (if_neg fun hreg => hnone k s hreg.1 hs)
    · have hafter : (c.take frame rest).streams[k]? = if index = k then some next else some s := by
        rw [hstreams, streams_offered, getElem?_setStream, hs]
        rfl
      by_cases hk : index = k
      · subst hk
        cases hother.symm.trans hs
        rw [if_pos rfl] at hafter
        rcases Stream.offer_cases hoffer with
          ⟨hclosed, rfl⟩ | ⟨hopen, ⟨reply, hdecode, rfl⟩ | ⟨fault, hdecode, rfl⟩⟩
        · refine ⟨.none, .none hafter ?_ rfl rfl⟩
          exact harrivals.trans (if_neg fun hreg => Bool.false_ne_true (hreg.2.symm.trans hclosed))
        · refine ⟨.arrive reply, hafter, ⟨hopen, hheld⟩, ?_, rfl, rfl, nofun⟩
          refine harrivals.trans ((if_pos ⟨hsome, hopen⟩).trans ?_)
          rw [hdecode]
          rfl
        · refine ⟨.close (some fault), hafter, fun id capacity hlagged => ?_, ?_, rfl, rfl, nofun⟩
          · cases hlagged
            rcases Rpc.Shape.decode_eq_error hdecode with hform | ⟨flaw, hflaw⟩
            · cases hform
            · cases hflaw
          · refine harrivals.trans ((if_pos ⟨hsome, hopen⟩).trans ?_)
            rw [hdecode]
            rfl
      · rw [if_neg hk] at hafter
        refine ⟨.none, .none hafter ?_ rfl rfl⟩
        exact harrivals.trans (if_neg fun hreg => hk (Option.some.inj (hsome.symm.trans hreg.1)))

/-- What a frame makes of a stream, when nothing is held back. -/
theorem exists_change_route (hs : c.streams[k]? = some s) (hheld : s.held = none) :
    ∃ change, (Moment.mk c (.route frame rest)).Makes k s change := by
  cases hid : frame.id with
  | some id =>
    have hroute : c.route frame = .ok (c.resolve id frame) := by
      rw [route, hid]
    refine ⟨.none, .none ?_ (arrivals_of_answer hid) rfl rfl⟩
    change (c.take frame rest).streams[k]? = some s
    rw [streams_take hroute]
    rcases streams_resolve c id frame with heq | ⟨number, feed, options, heq⟩
    · rw [heq, hs]
    · rw [heq, List.getElem?_append_left (List.getElem?_eq_some_iff.mp hs).1, hs]
  | none =>
    cases hnotice : frame.notice with
    | some notice => exact exists_change_notify hid hnotice hs hheld
    | none =>
      refine ⟨.none, .none ?_ (arrivals_of_no_notice hnotice) rfl rfl⟩
      change (c.take frame rest).streams[k]? = some s
      cases herror : frame.error with
      | some error =>
        have hroute : c.route frame = .ok (c.reject error) := by
          rw [route, hid, hnotice, herror]
        rw [streams_take hroute, streams_reject, hs]
      | none =>
        have hroute : c.route frame = .ok c := by
          rw [route, hid, hnotice, herror]
        rw [streams_take hroute, hs]

end Frames

/-! ## Moments -/

section Moments

/-- A change of one stream leaves the others as they are. -/
theorem getElem?_modifyStream_some (hs : c.streams[k]? = some s) (index : Nat)
    (f : Stream → Stream) :
    (c.modifyStream index f).streams[k]? = some (if index = k then f s else s) := by
  rw [getElem?_modifyStream, hs]
  split <;> rfl

/-- What a consumer gets from a stream that is there. -/
theorem output_consume (hs : c.streams[k]? = some s) (f : Stream → Stream × Received) :
    (c.consume k f).2.replies = (f s).2.replies := by
  rw [consume, hs]
  rfl

/-- What a consumer gets in an event of its own. -/
theorem returned_visit {event : Event} {index : Nat} {change : Stream.Change}
    (hvisit : event.visit? = some (index, change)) (hs : c.streams[k]? = some s) :
    (Moment.mk c (.event event)).returned k = if index = k then change.returned s else [] := by
  cases event <;> cases hvisit
  case receive task | resume task =>
    by_cases hk : index = k
    · subst hk
      exact (if_pos rfl).trans ((output_consume hs _).trans (if_pos rfl).symm)
    · exact (if_neg hk).trans (if_neg hk).symm
  all_goals exact (ite_self _).symm

theorem withheld_visit {event : Event} {index : Nat} {change : Stream.Change}
    (hvisit : event.visit? = some (index, change)) (hs : c.streams[k]? = some s) :
    (Moment.mk c (.event event)).withheld k = if index = k then change.withheld s else [] := by
  cases event <;> cases hvisit
  case resume task =>
    change (if index = k then (c.streams[k]?).elim [] _ else []) = _
    rw [hs]
    rfl
  all_goals exact (ite_self _).symm

/-- An event that is no consumer's takes nothing from a stream. -/
theorem taken_of_no_visit {event : Event} (hvisit : event.visit? = none) :
    (Moment.mk c (.event event)).returned k = [] ∧
      (Moment.mk c (.event event)).withheld k = [] := by
  cases event <;> first | exact ⟨rfl, rfl⟩ | cases hvisit

/-- A visit leaves alone what is held back. -/
theorem held_visit {event : Event} {index : Nat} {change : Stream.Change}
    (hvisit : event.visit? = some (index, change)) :
    change.Due s ∧ (change.apply s).held = s.held ∧ change.arrived = [] := by
  cases event <;> cases hvisit
  case receive task => exact ⟨trivial, Stream.sameBut_receive.held, rfl⟩
  case resume task => exact ⟨trivial, Stream.sameBut_resume.held, rfl⟩
  case leave task => exact ⟨trivial, Stream.sameBut_leave.held, rfl⟩
  case watch task => exact ⟨trivial, Stream.sameBut_watch.held, rfl⟩

/-- What an event makes of a stream. -/
theorem exists_change_event {event : Event} (hreads : event.reads = false)
    (hs : c.streams[k]? = some s) : ∃ change, (Moment.mk c (.event event)).Makes k s change := by
  have heffect := effect_step (c := c) hreads
  generalize hafter : (c.step event).1.subscriptions = after at heffect
  have hstreams : (c.step event).1.streams = after.streams := congrArg Subscriptions.streams hafter
  cases heffect with
  | same hvisit | shut hvisit | launch hvisit =>
    obtain ⟨hreturned, hwithheld⟩ := taken_of_no_visit (c := c) (k := k) hvisit
    exact ⟨.none, .none ((congrArg (·[k]?) hstreams).trans hs) rfl hreturned hwithheld⟩
  | teardown hvisit reason =>
    obtain ⟨hreturned, hwithheld⟩ := taken_of_no_visit (c := c) (k := k) hvisit
    exact Moment.exists_change_teardown hs hstreams rfl hreturned hwithheld
  | @visit index change hvisit =>
    have hstream := getElem?_modifyStream_some hs index change.apply
    have hreturned := returned_visit hvisit hs
    have hwithheld := withheld_visit hvisit hs
    obtain ⟨hdue, hheld, harrived⟩ := held_visit (s := s) hvisit
    change (c.modifyStream index change.apply).subscriptions.streams[k]? = _ at hstream
    rw [← hstreams] at hstream
    by_cases hk : index = k
    · rw [if_pos hk] at hstream hreturned hwithheld
      exact ⟨change, hstream, hdue, harrived.symm, hreturned, hwithheld, fun _ => hheld⟩
    · rw [if_neg hk] at hstream hreturned hwithheld
      exact ⟨.none, .none hstream rfl hreturned hwithheld⟩
  | @silence index broken other hevent hother hopen =>
    have hstream := getElem?_modifyStream_some (c := c.deregister other.id) hs index
      Stream.silence
    change ((c.deregister other.id).modifyStream index _).subscriptions.streams[k]? = _ at hstream
    rw [← hstreams] at hstream
    subst hevent
    split at hstream
    · next hk =>
      rw [hk, hs] at hother
      cases hother
      exact ⟨.silence, hstream, hopen, rfl, rfl, rfl, fun _ => Stream.held_close⟩
    · exact ⟨.none, .none hstream rfl rfl rfl⟩
  | @discard op index wake o other hevent ho hindex hother =>
    have hstream := getElem?_modifyStream_some (c := c.deregister other.id) hs index
      (Stream.close none)
    change ((c.deregister other.id).modifyStream index _).subscriptions.streams[k]? = _ at hstream
    rw [← hstreams] at hstream
    subst hevent
    split at hstream
    · exact ⟨.close none, hstream, fun _ _ => nofun, rfl, rfl, rfl, fun _ => Stream.held_close⟩
    · exact ⟨.none, .none hstream rfl rfl rfl⟩

/-- What a retry makes of a stream. -/
theorem streams_retry {id : Int} {index : Nat} (hstalled : c.reader = .stalled id index rest) :
    c.retry.streams = (c.modifyStream index Stream.proceed).streams := by
  rw [retry, hstalled]
  dsimp only
  split
  · rfl
  · exact streams_sweep _ _

theorem config_route (h : c.route frame = .ok after) : after.config = c.config := by
  unfold route at h
  split at h
  · cases h
    rcases subscriptions_resolve c _ frame with heq | ⟨number, feed, options, heq⟩
    · exact congrArg Subscriptions.config heq
    · exact congrArg Subscriptions.config heq
  · rcases notify_eq_ok h with ⟨-, rfl⟩ | ⟨index, s, next, -, -, -, rfl⟩
    · rfl
    · exact config_offered next
  · cases h
    exact congrArg Subscriptions.config (subscriptions_reject _)
  · cases h
    rfl

theorem config_take (frame : Frame) (rest : List Frame) :
    (c.take frame rest).config = c.config := by
  cases hroute : c.route frame with
  | error fault =>
    rw [take_of_error hroute]
    exact config_teardown _ _
  | ok after =>
    rw [take, hroute, ← config_route hroute]
    dsimp only
    split <;> rfl

theorem config_retry : c.retry.config = c.config := by
  unfold retry
  split
  · next id index rest hstalled =>
    have hproceeded : (c.modifyStream index Stream.proceed).config = c.config :=
      congrArg Subscriptions.config (subscriptions_modifyStream _)
    dsimp only
    split
    · exact hproceeded
    · refine (congrArg Subscriptions.config subscriptions_sweep).trans ?_
      split <;> exact hproceeded
  · rfl

/-- **A channel keeps its configuration.** -/
theorem Leads.config_eq {first : Channel} (h : Leads first past c) :
    c.config = first.config := by
  induction h with
  | start => rfl
  | perform act hready _ ih =>
    refine Eq.trans ?_ ih
    cases act with
    | event event => exact config_step hready
    | route frame rest => exact config_take frame rest
    | retry => exact config_retry

/-- **A moment makes one change to a stream, and it is due there.** -/
theorem Moment.exists_change {act : Act} (hs : c.streams[k]? = some s)
    (hheld : c.reader = .idle → s.held = none) (hready : c.Ready act) :
    ∃ change, (Moment.mk c act).Makes k s change := by
  cases act with
  | event event => exact exists_change_event hready hs
  | route frame rest => exact exists_change_route hs (hheld hready)
  | retry =>
    obtain ⟨id, index, rest, hstalled⟩ := hready
    have hstream := getElem?_modifyStream_some hs index Stream.proceed
    rw [← streams_retry hstalled] at hstream
    split at hstream
    · exact ⟨.retry, hstream, trivial, rfl, rfl, rfl, nofun⟩
    · exact ⟨.none, .none hstream rfl rfl rfl⟩

end Moments

/-! ## New streams -/

section New

/-- Routing a frame changes the number of streams by a new one at most. -/
theorem length_take : (c.take frame rest).streams.length = c.streams.length ∨
    ∃ number feed options, (c.take frame rest).streams =
      c.streams ++ [c.newStream number feed options] := by
  cases hroute : c.route frame with
  | error fault =>
    rw [take_of_error hroute]
    exact .inl (length_teardown _ _)
  | ok after =>
    rw [streams_take hroute]
    unfold route at hroute
    split at hroute
    · cases hroute
      rcases streams_resolve c _ frame with heq | hnew
      · rw [heq]
        exact .inl rfl
      · exact .inr hnew
    · rcases notify_eq_ok hroute with ⟨-, rfl⟩ | ⟨index, s, next, -, -, -, rfl⟩
      · exact .inl rfl
      · rw [streams_offered, length_setStream]
        exact .inl rfl
    · cases hroute
      rw [streams_reject]
      exact .inl rfl
    · cases hroute
      exact .inl rfl

/-- A stream that was not there before is new, and the last one. -/
theorem new_of_getElem?_perform {act : Act} (hready : c.Ready act) (hnone : c.streams[k]? = none)
    (hs : (c.perform act).streams[k]? = some s) : k = c.streams.length ∧
      (c.perform act).streams = c.streams ++ [s] ∧
      ∃ number feed options, s = c.newStream number feed options := by
  have hlen := List.getElem?_eq_none_iff.mp hnone
  have hlt := (List.getElem?_eq_some_iff.mp hs).1
  have hgrown : (c.perform act).streams.length = c.streams.length ∨
      ∃ number feed options, (c.perform act).streams =
        c.streams ++ [c.newStream number feed options] := by
    cases act with
    | event event => exact .inl (length_step hready)
    | route frame rest => exact length_take
    | retry =>
      obtain ⟨id, index, rest, hstalled⟩ := hready
      exact .inl ((congrArg List.length (streams_retry hstalled)).trans (length_modifyStream _))
  rcases hgrown with heq | ⟨number, feed, options, heq⟩
  · omega
  · rw [heq, List.length_append, List.length_singleton] at hlt
    have hk : k = c.streams.length := by omega
    rw [heq, hk, List.getElem?_concat_length] at hs
    cases hs
    exact ⟨hk, heq, number, feed, options, rfl⟩

end New

/-! ## What is held back -/

section Held

/-- The reader waits with a notification for a stream, or has ended. -/
def StopsAt (c : Channel) (k : Nat) : Prop :=
  (∃ id rest, c.reader = .stalled id k rest) ∨ c.reader = .ended

theorem StopsAt.not_idle (h : c.StopsAt k) : c.reader ≠ .idle := by
  intro hidle
  rcases h with ⟨id, rest, hstalled⟩ | hended
  · cases hidle.symm.trans hstalled
  · cases hidle.symm.trans hended

theorem StopsAt.hasBegun (h : c.StopsAt k) : c.reader.hasBegun = true := by
  rcases h with ⟨id, rest, hstalled⟩ | hended
  · rw [hstalled]
    rfl
  · rw [hended]
    rfl

/-- Where a frame makes a stream hold something back, the reader stalls or ends. -/
theorem held_take {t : Stream} (hs : c.streams[k]? = some s) (hheld : s.held = none)
    (ht : (c.take frame rest).streams[k]? = some t) (hsome : t.held.isSome = true) :
    (c.take frame rest).StopsAt k := by
  have hsame {t : Stream} (hkept : c.streams[k]? = some t) (hsome : t.held.isSome = true) :
      False := by
    cases hs.symm.trans hkept
    rw [hheld] at hsome
    cases hsome
  cases hroute : c.route frame with
  | error fault =>
    rw [take_of_error hroute]
    exact .inr rfl
  | ok after =>
    have htaken := hroute
    rw [streams_take hroute] at ht
    unfold route at hroute
    split at hroute
    · cases hroute
      rcases streams_resolve c _ frame with heq | ⟨number, feed, options, heq⟩
      · rw [heq] at ht
        exact (hsame ht hsome).elim
      · rw [heq, List.getElem?_append_left (List.getElem?_eq_some_iff.mp hs).1] at ht
        exact (hsame ht hsome).elim
    · next hid hnotice =>
      rcases notify_eq_ok hroute with ⟨-, rfl⟩ | ⟨index, other, next, -, hother, -, rfl⟩
      · exact (hsame ht hsome).elim
      · rw [streams_offered, getElem?_setStream, hs] at ht
        split at ht
        · next hk =>
          cases ht
          rw [take, htaken, offered, if_pos hsome, hk]
          exact .inl ⟨_, _, rfl⟩
        · exact (hsame (hs.trans ht) hsome).elim
    · cases hroute
      rw [streams_reject] at ht
      exact (hsame ht hsome).elim
    · cases hroute
      exact (hsame ht hsome).elim

/-- An event does not free a reader that waits. -/
theorem StopsAt.step {event : Event} (h : c.StopsAt k) (hreads : event.reads = false) :
    (c.step event).1.StopsAt k := by
  rcases reader_step (c := c) hreads with heq | ⟨-, -, heq⟩ | ⟨hfresh, -⟩
  · rw [StopsAt, heq]
    exact h
  · exact .inr heq
  · exact absurd h.hasBegun (Bool.eq_false_iff.mp hfresh)

/-- A retry frees the reader unless the stream still holds something back. -/
theorem held_retry {t : Stream} (hready : c.Ready .retry) (hs : c.streams[k]? = some s)
    (h : s.held.isSome = true → c.StopsAt k) (ht : c.retry.streams[k]? = some t)
    (hsome : t.held.isSome = true) : c.retry.StopsAt k := by
  obtain ⟨id, index, rest, hstalled⟩ := hready
  have hstream := getElem?_modifyStream_some hs index Stream.proceed
  rw [streams_retry hstalled, hstream] at ht
  split at ht
  · next hk =>
    cases ht
    subst hk
    have hreader : c.retry.reader = c.reader := by
      rw [Channel.retry, hstalled]
      dsimp only
      rw [hstream, if_pos rfl, Option.any_some, if_pos hsome]
      exact reader_modifyStream _ |>.trans hstalled
    exact .inl ⟨id, rest, hreader.trans hstalled⟩
  · next hk =>
    cases ht
    rcases h hsome with ⟨other, others, heq⟩ | heq
    · cases hstalled.symm.trans heq
      exact absurd rfl hk
    · cases hstalled.symm.trans heq

/-- **Whoever holds a notification back has stalled the reader.** -/
theorem Reached.held (h : Reached config past c) (hs : c.streams[k]? = some s)
    (hsome : s.held.isSome = true) : c.StopsAt k := by
  induction h generalizing k s with
  | start => cases hs
  | @perform past c act hready h ih =>
    cases hbefore : c.streams[k]? with
    | none =>
      obtain ⟨-, -, number, feed, options, rfl⟩ := new_of_getElem?_perform hready hbefore hs
      cases hsome
    | some t =>
      cases act with
      | event event =>
        obtain ⟨change, hmakes⟩ := exists_change_event hready hbefore
        cases hmakes.after.symm.trans hs
        -- An event makes no stream hold anything back.
        rw [hmakes.held ⟨event, rfl⟩] at hsome
        exact (ih hbefore hsome).step hready
      | route frame rest =>
        have hfree : t.held = none :=
          Option.not_isSome_iff_eq_none.mp fun hheld => (ih hbefore hheld).not_idle hready
        exact held_take hbefore hfree hs hsome
      | retry => exact held_retry hready hbefore (ih hbefore) hs hsome

/-- While the reader is free nothing is held back. -/
theorem Reached.held_eq_none (h : Reached config past c) (hs : c.streams[k]? = some s)
    (hidle : c.reader = .idle) : s.held = none :=
  Option.not_isSome_iff_eq_none.mp fun hsome => (h.held hs hsome).not_idle hidle

/-- Whatever happens to a stream that is there is due, and the stream stays. -/
theorem Reached.exists_change {act : Act} (h : Reached config past c) (hready : c.Ready act)
    (hs : c.streams[k]? = some s) : ∃ change, (Moment.mk c act).Makes k s change :=
  Moment.exists_change hs (h.held_eq_none hs) hready

end Held

end Channel

end LedgerClient
