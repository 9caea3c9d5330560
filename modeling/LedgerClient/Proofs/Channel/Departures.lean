import LedgerClient.Proofs.Channel.Messages
import LedgerClient.Proofs.Channel.Teardown

/-!
# Subscriptions that leave

A subscription leaves the registry when its owner ends its stream, when the stream closes on a
notification, when the caller who has asked for it gives up, and when the reader ends. In the first
case the client tells the service at once; in the next two a request is due, which is made in a
turn of its own; in the last nothing can be sent any more.

What is handed to the other side is not always taken. So the requests that are handed over are not
read off what was sent: they are what would be sent in the same moment if the other side took it.

## Main definitions

* `Channel.Stream.farewell`: the request that ends a subscription at the service
* `Channel.Moment.handed`, `Channel.Moment.farewells`: what is handed over in a moment, and the
  subscriptions that are ended by it
* `Channel.Moment.Departs`: what a moment does to the registry and to what is due

## Main results

* `Channel.sent_moment`: what is handed over is sent, unless the connection is broken
* `Channel.Reached.enrolled`: a number is registered for a stream that has it
* `Channel.Reached.departs`: what every moment does with the subscriptions that leave
-/

namespace LedgerClient.Channel

open Rpc (BatchCall Frame Param)

/-- The request that ends a subscription at the service: its method, and the number. -/
def Stream.farewell (s : Stream) : String × Int := (s.ending, s.id)

/-- The subscription that a request ends, if it names one. -/
def Outgoing.farewell? : Outgoing → Option (String × Int)
  | .single ⟨method, [.plain (.int number)], _⟩ => some (method, number)
  | _ => none

/-- Why the other side does not take what it is handed in an event, if so. -/
def Event.broken? : Event → Option String
  | .call _ _ _ broken | .subscribe _ _ _ broken | .batch _ _ broken | .release broken
  | .unsubscribe _ broken => broken
  | _ => none

/-- The event as it is if the other side takes whatever it is handed. -/
def Event.unbroken : Event → Event
  | .call method params signalled _ => .call method params signalled none
  | .subscribe feed options signalled _ => .subscribe feed options signalled none
  | .batch calls signalled _ => .batch calls signalled none
  | .release _ => .release none
  | .unsubscribe index _ => .unsubscribe index none
  | event => event

namespace Moment

/-- What is handed to the other side in a moment: what is sent if it is taken. -/
def handed (m : Moment) : List Outgoing :=
  match m.act with
  | .event event => (m.before.step event.unbroken).1.sent.drop m.before.sent.length
  | _ => []

/-- The subscriptions that the client ends at the service in a moment. A call that looks the same is
its caller's business. -/
def farewells (m : Moment) : List (String × Int) :=
  match m.act with
  | .event (.unsubscribe ..) | .event (.release _) => m.handed.filterMap Outgoing.farewell?
  | _ => []

/-- A subscription that is to be ended at the service has its turn. -/
def isRelease (m : Moment) : Bool :=
  match m.act with
  | .event (.release _) => true
  | _ => false

end Moment

variable {config : Config} {past : List Moment} {c d after : Channel} {m : Moment} {act : Act}
  {event : Event} {index k : Nat} {number : Int} {s : Stream} {frame : Frame} {rest : List Frame}
  {reason : String}

/-! ## What is handed over -/

section Handed

theorem hand_of_broken (outgoing : Outgoing) : hand outgoing (some reason) ≠ .ok () := by
  unfold hand
  cases outgoing.render <;> exact nofun

theorem sent_begin_of_broken (expected : Expected) (method : String) (params : List Param)
    (signalled : Bool) :
    (c.begin expected method params signalled (some reason)).1.sent = c.sent := by
  unfold begin
  split
  · rfl
  · dsimp only
    split
    · rfl
    · next htaken => exact absurd htaken (hand_of_broken _)

theorem sent_beginBatch_of_broken (calls : List BatchCall) (signalled : Bool) :
    (c.beginBatch calls signalled (some reason)).1.sent = c.sent := by
  unfold beginBatch
  split
  · rfl
  · rfl
  · dsimp only
    split
    · rfl
    · next htaken => exact absurd htaken (hand_of_broken _)

theorem sent_silence : ((c.deregister number).modifyStream index Stream.silence).sent = c.sent :=
  congrArg Requests.sent (requests_modifyStream (c := c.deregister number) Stream.silence)

/-- What is handed over and not taken is not sent. -/
theorem sent_step_of_broken (h : event.broken? = some reason) :
    (c.step event).1.sent = c.sent := by
  cases event <;> cases h
  case call | subscribe => exact sent_begin_of_broken _ _ _ _
  case batch => exact sent_beginBatch_of_broken _ _
  case release =>
    cases horphans : c.orphans with
    | nil => rw [step_release_nil horphans]
    | cons entry orphans =>
      rw [step_release_cons horphans]
      exact sent_begin_of_broken (c := { c with orphans }) _ _ _ _
  case unsubscribe index =>
    change (c.unsubscribe index (some reason)).1.sent = c.sent
    rcases unsubscribe_cases c index (some reason) with
      heq | ⟨s, -, -, heq | ⟨method, params, heq⟩⟩
    · rw [heq]
    · rw [heq, sent_silence]
    · rw [heq, sent_begin_of_broken, sent_silence]

/-- Nothing is sent while a frame is routed. -/
theorem sent_take (hidle : c.reader = .idle) : (c.take frame rest).sent = c.sent := by
  change (c.take frame rest).requests.sent = c.requests.sent
  cases hroute : c.route frame with
  | error fault =>
    rw [take_of_error hroute, requests_teardown, requests_foldl_fail]
    exact sent_foldl_fail _ _ _
  | ok next =>
    rw [requests_take_of_ok hroute]
    unfold route at hroute
    split at hroute
    · next id _ =>
      cases hroute
      rcases resolve_cases c id frame with ⟨heq, -⟩ | ⟨_, _, _, -, -, hrequests, -⟩
      · rw [heq]
      · rw [hrequests]
        rfl
    · rcases notify_eq_ok hroute with ⟨-, rfl⟩ | ⟨index, s, next, -, -, -, rfl⟩
      · rfl
      · rw [requests_offered]
    · cases hroute
      unfold reject
      split
      · rfl
      · rw [requests_foldl_fail]
        exact sent_foldl_fail _ _ _
    · cases hroute
      rfl

theorem sent_prefix (hready : c.Ready act) : c.sent <+: (c.perform act).sent := by
  change c.requests.sent <+: (c.perform act).requests.sent
  rcases requests_perform hready with ⟨_, _, _, _, -, -, -, hrequests, -⟩ | ⟨-, heffect⟩
  · rw [hrequests]
    exact List.prefix_refl _
  · generalize (c.perform act).requests = after at heffect ⊢
    cases heffect with
    | same | gathers | retires => exact List.prefix_refl _
    | fails => exact ⟨[], (List.append_nil _).trans (sent_foldl_fail ..).symm⟩
    | begins _ hbegins =>
      cases hbegins with
      | unsent => exact List.prefix_refl _
      | launched => exact List.prefix_append _ _

theorem reads_unbroken : event.unbroken.reads = event.reads := by
  cases event <;> rfl

theorem unbroken_of_none (h : event.broken? = none) : event.unbroken = event := by
  cases event <;> first | rfl | cases h; rfl

/-- **What is handed over is sent, unless the connection is broken.** -/
theorem sent_moment (hready : c.Ready act) :
    (Moment.mk c act).after.sent = c.sent ++ (Moment.mk c act).handed ∨
    (Moment.mk c act).after.sent = c.sent ∧
      ∃ event reason, act = .event event ∧ event.broken? = some reason := by
  cases act with
  | route frame rest => exact .inl ((sent_take hready).trans (List.append_nil _).symm)
  | retry =>
    refine .inl (Eq.trans ?_ (List.append_nil _).symm)
    exact congrArg Requests.sent (requests_retry hready)
  | event event =>
    cases hbroken : event.broken? with
    | some reason => exact .inr ⟨sent_step_of_broken hbroken, event, reason, rfl, hbroken⟩
    | none =>
      -- The event is what it is if all is taken, so what is new in `sent` is what is handed over.
      obtain ⟨new, hnew⟩ := sent_prefix hready
      refine .inl (hnew.symm.trans ?_)
      change c.sent ++ new = c.sent ++ (c.step event.unbroken).1.sent.drop c.sent.length
      rw [unbroken_of_none hbroken]
      change _ = c.sent ++ (c.perform (.event event)).sent.drop c.sent.length
      rw [← hnew, List.drop_left]

/-- A closed channel hands nothing over. -/
theorem handed_of_closed (hready : c.Ready act) (hclosed : c.closed = some reason) :
    (Moment.mk c act).handed = [] := by
  cases act with
  | event event =>
    have hreads : c.Ready (.event event.unbroken) := reads_unbroken.trans hready
    have hsame := (sent_perform_of_closed hreads hclosed).1
    change (c.perform (.event event.unbroken)).sent.drop c.sent.length = []
    rw [hsame, List.drop_length]
  | route | retry => rfl

theorem farewells_of_closed (hready : c.Ready act) (hclosed : c.closed = some reason) :
    (Moment.mk c act).farewells = [] := by
  unfold Moment.farewells
  split <;> first | rfl | rw [handed_of_closed hready hclosed]; rfl

/-- An open channel hands over the request that ends a subscription. -/
theorem sent_begin_farewell (hopen : c.closed = none) (method : String) (number : Int) :
    (c.begin .result method [.plain (.int number)] false none).1.sent =
      c.sent ++ [.single ⟨method, [.plain (.int number)], c.nextId⟩] := by
  have hdemand : c.demandOpen false = .ok () := by
    rw [demandOpen, hopen]
    rfl
  rw [begin, hdemand]
  rfl

theorem farewells_unsubscribe_of_sent {broken : Option String}
    (h : (c.unsubscribe index none).1.sent = c.sent) :
    (Moment.mk c (.event (.unsubscribe index broken))).farewells = [] := by
  change ((c.unsubscribe index none).1.sent.drop c.sent.length).filterMap _ = []
  rw [h, List.drop_length]
  rfl

/-- An owner whose end of a stream begins a request tells the service. -/
theorem farewells_unsubscribe_of_begin {method : String} {broken : Option String}
    (hopen : d.closed = none) (hsent : d.sent = c.sent)
    (h : (c.unsubscribe index none).1 =
      (d.begin .result method [.plain (.int number)] false none).1) :
    (Moment.mk c (.event (.unsubscribe index broken))).farewells = [(method, number)] := by
  change ((c.unsubscribe index none).1.sent.drop c.sent.length).filterMap _ = _
  rw [h, sent_begin_farewell hopen, hsent, List.drop_left]
  rfl

/-- The first subscription that is due is ended in its turn, unless the channel is closed. -/
theorem farewells_release (broken : Option String) :
    (Moment.mk c (.event (.release broken))).farewells =
      if c.closed = none then c.orphans.take 1 else [] := by
  split
  · next hopen =>
    change ((c.step (.release none)).1.sent.drop c.sent.length).filterMap _ = _
    cases horphans : c.orphans with
    | nil =>
      rw [step_release_nil horphans, List.drop_length]
      rfl
    | cons entry orphans =>
      rw [step_release_cons horphans, sent_begin_farewell (c := { c with orphans }) hopen,
        List.drop_left]
      rfl
  · next hclosed =>
    obtain ⟨reason, hreason⟩ := Option.ne_none_iff_exists'.mp hclosed
    have hready : c.Ready (.event (.release broken)) := rfl
    exact farewells_of_closed hready hreason

end Handed

/-! ## What is due -/

section Due

@[simp] theorem orphans_modifyStream (f : Stream → Stream) :
    (c.modifyStream index f).orphans = c.orphans := by
  unfold modifyStream
  split
  · rfl
  · exact orphans_setStream _

theorem orphans_begin (expected : Expected) (method : String) (params : List Param)
    (signalled : Bool) (broken : Option String) :
    (c.begin expected method params signalled broken).1.orphans = c.orphans := by
  rcases begin_cases c expected method params signalled broken with
    ⟨fault, heq⟩ | ⟨-, ⟨fault, heq⟩ | heq⟩ <;> rw [heq]

theorem orphans_beginBatch (calls : List BatchCall) (signalled : Bool) (broken : Option String) :
    (c.beginBatch calls signalled broken).1.orphans = c.orphans := by
  rcases beginBatch_cases c calls signalled broken with
    ⟨fault, heq⟩ | ⟨-, -, ⟨fault, heq⟩ | heq⟩ <;> rw [heq]

theorem orphans_foldl_fail (fault : Fault) (failing : List Nat) :
    (failing.foldl (fail fault) c).orphans = c.orphans := by
  induction failing generalizing c with
  | nil => rfl
  | cons id failing ih =>
    rw [List.foldl_cons, ih, fail]
    split <;> rfl

theorem orphans_teardown (c : Channel) (reason : String) :
    (c.teardown reason).orphans = c.orphans := by
  have hclosed (fault : Fault) (entries : List (Int × Nat)) (d : Channel) :
      (entries.foldl (fun d entry => d.modifyStream entry.2 (Stream.close (some fault)))
        d).orphans = d.orphans := by
    induction entries generalizing d with
    | nil => rfl
    | cons entry entries ih => rw [List.foldl_cons, ih, orphans_modifyStream]
  exact (hclosed _ _ _).trans (orphans_foldl_fail _ _)

theorem orphans_resolve (id : Int) : (c.resolve id frame).orphans = c.orphans := by
  unfold resolve answer
  repeat' split
  all_goals rfl

theorem orphans_reject (error : ServerFault) : (c.reject error).orphans = c.orphans := by
  unfold reject
  split
  · rfl
  · exact orphans_foldl_fail _ _

theorem exists_turns_setStream (index : Nat) (stream : Stream) :
    ∃ new, (c.setStream index stream).turns = c.turns ++ new := by
  unfold setStream
  split
  · exact ⟨[], (List.append_nil _).symm⟩
  · exact ⟨_, rfl⟩

theorem exists_turns_modifyStream (index : Nat) (f : Stream → Stream) :
    ∃ new, (c.modifyStream index f).turns = c.turns ++ new := by
  unfold modifyStream
  split
  · exact ⟨[], (List.append_nil _).symm⟩
  · exact exists_turns_setStream _ _

/-- What is due has a turn of its own. -/
theorem release_mem_turns_orphan (hs : d.streams[k]? = some s)
    (hturns : ∃ new, d.turns = c.turns ++ new) :
    Turn.release ∈ (d.orphan k).turns.drop c.turns.length := by
  obtain ⟨new, hnew⟩ := hturns
  have hlast : (d.orphan k).turns = c.turns ++ (new ++ [.release]) := by
    rw [orphan, hs, ← List.append_assoc, ← hnew]
  rw [hlast, List.drop_left]
  exact List.mem_append_right _ (List.mem_singleton_self _)

end Due

/-! ## One moment -/

section Moments

/-- A stream keeps the request that ends it. -/
theorem Reached.farewell_perform (h : Reached config past c) (hready : c.Ready act) {t : Stream}
    (hs : c.streams[k]? = some s) (ht : (c.perform act).streams[k]? = some t) :
    t.farewell = s.farewell := by
  obtain ⟨change, hmakes⟩ := h.exists_change hready hs
  cases hmakes.after.symm.trans ht
  have hterms := Stream.terms_apply change s
  exact congrArg₂ Prod.mk (congrArg Stream.Terms.ending hterms) (congrArg Stream.Terms.id hterms)

/-- **A number is registered for a stream that has it.** -/
theorem Reached.enrolled (h : Reached config past c) (hsome : c.registered? number = some k) :
    ∃ s, c.streams[k]? = some s ∧ s.id = number := by
  induction h with
  | start => cases hsome
  | @perform past c act hready h ih =>
    rcases (reregisters_perform hready).before hsome with hbefore | ⟨s, hid, rfl, hstreams⟩
    · obtain ⟨t, ht, hid⟩ := ih hbefore
      obtain ⟨change, hmakes⟩ := Reached.exists_change h hready ht
      have hafter : (c.perform act).streams[k]? = _ := hmakes.after
      have hfarewell := Reached.farewell_perform h hready ht hafter
      exact ⟨_, hafter, (congrArg Prod.snd hfarewell).trans hid⟩
    · exact ⟨s, by rw [hstreams, List.getElem?_concat_length], hid⟩

/-- What a moment does to the registry and to the requests that are due. -/
inductive Moment.Departs (m : Moment) : Prop
  /-- No subscription leaves. -/
  | stays (hregistry : m.after.registry = m.before.registry)
    (horphans : m.after.orphans = m.before.orphans) (hnone : m.farewells = [])
  /-- A subscription comes. -/
  | granted {s : Stream} (hregistry : m.after.registry = (m.before.register s).registry)
    (hstreams : m.after.streams = m.before.streams ++ [s])
    (horphans : m.after.orphans = m.before.orphans) (hnone : m.farewells = [])
  /-- All leave, since the reader ends. -/
  | ended (hregistry : m.after.registry = []) (hclosed : m.after.closed ≠ none)
    (horphans : m.after.orphans = m.before.orphans) (hnone : m.farewells = [])
  /-- A number is freed that was registered for no one, or the channel is closed. -/
  | freed {number : Int} (hregistry : m.after.registry = (m.before.deregister number).registry)
    (hfree : m.before.registered? number = none ∨ m.before.closed ≠ none)
    (horphans : m.after.orphans = m.before.orphans) (hnone : m.farewells = [])
  /-- A subscription leaves, and the service is told at once. -/
  | told {k : Nat} {s : Stream} (hs : m.before.streams[k]? = some s)
    (hsome : m.before.registered? s.id = some k)
    (hregistry : m.after.registry = (m.before.deregister s.id).registry)
    (horphans : m.after.orphans = m.before.orphans) (htold : m.farewells = [s.farewell])
  /-- A subscription leaves, and the service is to be told in a turn of its own. -/
  | due {k : Nat} {s : Stream} (hs : m.before.streams[k]? = some s)
    (hsome : m.before.registered? s.id = some k)
    (hregistry : m.after.registry = (m.before.deregister s.id).registry)
    (horphans : m.after.orphans = m.before.orphans ++ [s.farewell]) (hnone : m.farewells = [])
    (hturn : Turn.release ∈ m.after.turns.drop m.before.turns.length)
  /-- The service is told of the first subscription that is due, unless the channel is closed. -/
  | released {entry : String × Int} (hrelease : m.isRelease = true)
    (hregistry : m.after.registry = m.before.registry)
    (horphans : m.before.orphans = entry :: m.after.orphans)
    (htold : m.farewells = if m.before.closed = none then [entry] else [])

/-- What is due in a moment has a turn of its own, and stays due until it is released. -/
theorem Moment.Departs.orphans (h : m.Departs) :
    m.after.orphans = m.before.orphans ∨
    (∃ entry, m.after.orphans = m.before.orphans ++ [entry] ∧
      Turn.release ∈ m.after.turns.drop m.before.turns.length) ∨
    m.isRelease = true ∧ ∃ entry, m.before.orphans = entry :: m.after.orphans := by
  cases h with
  | stays _ horphans => exact .inl horphans
  | granted _ _ horphans => exact .inl horphans
  | ended _ _ horphans => exact .inl horphans
  | freed _ _ horphans => exact .inl horphans
  | told _ _ _ horphans => exact .inl horphans
  | due _ _ _ horphans _ hturn => exact .inr (.inl ⟨_, horphans, hturn⟩)
  | released hrelease _ horphans => exact .inr (.inr ⟨hrelease, _, horphans⟩)

/-- A subscription leaves that is to be ended at the service. -/
theorem Reached.departs_orphan (h : Reached config past c) (hready : c.Ready act)
    (hsome : c.registered? number = some k) (hs : d.streams[k]? = some s)
    (hregistry : d.registry = (c.deregister number).registry) (horphans : d.orphans = c.orphans)
    (hturns : ∃ new, d.turns = c.turns ++ new)
    (hsubscriptions : (c.perform act).subscriptions = (d.orphan k).subscriptions)
    (hdue : (c.perform act).orphans = (d.orphan k).orphans)
    (hlast : (c.perform act).turns = (d.orphan k).turns)
    (hnone : (Moment.mk c act).farewells = []) : (Moment.mk c act).Departs := by
  obtain ⟨t, ht, rfl⟩ := h.enrolled hsome
  rw [subscriptions_orphan] at hsubscriptions
  have hthere : (c.perform act).streams[k]? = some s :=
    (congrArg (fun t : Subscriptions => t.streams[k]?) hsubscriptions).trans hs
  have hfarewell := h.farewell_perform hready ht hthere
  have hleft := (congrArg Subscriptions.registry hsubscriptions).trans hregistry
  refine .due ht hsome hleft ?_ hnone ?_
  · change (c.perform act).orphans = c.orphans ++ [t.farewell]
    rw [hdue, orphans_orphan hs, horphans, ← hfarewell]
    rfl
  · change Turn.release ∈ (c.perform act).turns.drop c.turns.length
    rw [hlast]
    exact release_mem_turns_orphan hs hturns

/-- A stream that is swept out of the registry is due. -/
theorem Reached.departs_sweep (h : Reached config past c) (hready : c.Ready act)
    (hafter : c.perform act = d.sweep number index) (hregistry : d.registry = c.registry)
    (horphans : d.orphans = c.orphans) (hturns : ∃ new, d.turns = c.turns ++ new)
    (hnone : (Moment.mk c act).farewells = []) : (Moment.mk c act).Departs := by
  by_cases hswept : (d.streams[index]?.any Stream.isClosed && d.registered? number == some index)
  · rw [sweep, if_pos hswept] at hafter
    obtain ⟨hclosed, hsome⟩ := Bool.and_eq_true_iff.mp hswept
    cases hs : d.streams[index]? with
    | none =>
      rw [hs] at hclosed
      cases hclosed
    | some s =>
      have hregistered : c.registered? number = some index :=
        (registered?_congr hregistry number).symm.trans (beq_iff_eq.mp hsome)
      have hleft : (d.deregister number).registry = (c.deregister number).registry :=
        congrArg (Keyed.without Prod.fst number) hregistry
      have hstream : (d.deregister number).streams[index]? = some s := hs
      exact h.departs_orphan hready hregistered hstream hleft horphans hturns
        (congrArg subscriptions hafter) (congrArg Channel.orphans hafter)
        (congrArg Channel.turns hafter) hnone
  · rw [sweep, if_neg hswept] at hafter
    refine .stays ?_ ?_ hnone
    · exact (congrArg Channel.registry hafter).trans hregistry
    · exact (congrArg Channel.orphans hafter).trans horphans

/-- An event that is about no subscription. -/
theorem departs_of_same (hsame : (c.step event).1.subscriptions = c.subscriptions)
    (horphans : (c.step event).1.orphans = c.orphans)
    (hnone : (Moment.mk c (.event event)).farewells = []) :
    (Moment.mk c (.event event)).Departs :=
  .stays (congrArg Subscriptions.registry hsame) horphans hnone

/-- The service has its turn to be told of a subscription that is due. -/
theorem departs_release (broken : Option String) :
    (Moment.mk c (.event (.release broken))).Departs := by
  cases horphans : c.orphans with
  | nil =>
    have hstep := step_release_nil horphans broken
    have hnone : (Moment.mk c (.event (.release broken))).farewells = [] := by
      rw [farewells_release, horphans, List.take_nil, ite_self]
    refine departs_of_same ?_ ?_ hnone <;> rw [hstep]
  | cons entry orphans =>
    have hstep := step_release_cons horphans broken
    have htold : (Moment.mk c (.event (.release broken))).farewells =
        if c.closed = none then [entry] else [] := by
      rw [farewells_release, horphans]
      rfl
    refine .released rfl ?_ ?_ htold
    · change (c.step (.release broken)).1.subscriptions.registry = c.registry
      rw [hstep, subscriptions_begin]
      rfl
    · change c.orphans = entry :: (c.step (.release broken)).1.orphans
      rw [hstep, orphans_begin, horphans]

/-- An owner who ends an open stream tells the service, if the number is registered and the channel
is open. -/
theorem Reached.departs_unsubscribe (h : Reached config past c) (index : Nat)
    (broken : Option String) : (Moment.mk c (.event (.unsubscribe index broken))).Departs := by
  have hsilenced (number : Int) : ((c.deregister number).modifyStream index
      Stream.silence).registry = (c.deregister number).registry := registry_modifyStream _
  rcases unsubscribe_eq c index with ⟨-, heq⟩ | ⟨s, hs, hopen, ⟨hquiet, heq⟩ |
    ⟨k, other, hsome, hother, hchannel, htells⟩⟩
  · have hstep : c.step (.unsubscribe index broken) = (c, .nothing) := by
      rw [step, heq]
      rfl
    have hsent : (c.unsubscribe index none).1.sent = c.sent := by
      rw [heq]
    refine departs_of_same ?_ ?_ (farewells_unsubscribe_of_sent hsent) <;> rw [hstep]
  · have hafter : (c.step (.unsubscribe index broken)).1 =
        (c.deregister s.id).modifyStream index Stream.silence := congrArg Prod.fst (heq broken)
    have hsent : (c.unsubscribe index none).1.sent = c.sent := by
      rw [heq, sent_silence]
    have hregistry : (c.step (.unsubscribe index broken)).1.registry =
        (c.deregister s.id).registry :=
      (congrArg Channel.registry hafter).trans (hsilenced s.id)
    refine .freed hregistry ?_ ?_ (farewells_unsubscribe_of_sent hsent)
    · cases hsome : c.registered? s.id with
      | none => exact .inl rfl
      | some k =>
        obtain ⟨t, ht, -⟩ := h.enrolled hsome
        have hthere := getElem?_modifyStream_some (c := c.deregister s.id) ht index Stream.silence
        exact .inr (hquiet k _ hsome hthere)
    · exact (congrArg Channel.orphans hafter).trans (orphans_modifyStream _)
  · -- What happens is read off the event as it is, and what is handed over as if it were taken.
    obtain ⟨begun, heq, hbegun⟩ := htells broken
    obtain ⟨taken, htaken, htake⟩ := htells none
    have hafter : (c.step (.unsubscribe index broken)).1 = begun.1 := congrArg Prod.fst heq
    have hsubscriptions : (c.step (.unsubscribe index broken)).1.subscriptions =
        ((c.deregister s.id).modifyStream index Stream.silence).subscriptions := by
      rw [hafter, hbegun, subscriptions_begin]
    obtain ⟨t, ht, hid⟩ := h.enrolled hsome
    have hthere : (c.step (.unsubscribe index broken)).1.streams[k]? = some other :=
      (congrArg (fun t : Subscriptions => t.streams[k]?) hsubscriptions).trans hother
    have hready : c.Ready (.event (.unsubscribe index broken)) := rfl
    have hfarewell : other.farewell = t.farewell := h.farewell_perform hready ht hthere
    rw [← hid] at hsome
    refine .told ht hsome ?_ ?_ ?_
    · rw [hid]
      exact (congrArg Subscriptions.registry hsubscriptions).trans (hsilenced s.id)
    · rw [Moment.after]
      change (c.step (.unsubscribe index broken)).1.orphans = c.orphans
      rw [hafter, hbegun, orphans_begin, orphans_modifyStream]
      rfl
    · have hclosed : ((c.deregister s.id).modifyStream index Stream.silence).closed = none :=
        (closed_modifyStream ..).trans hchannel
      have hbegin := congrArg Prod.fst htaken
      rw [htake] at hbegin
      have hsame : other.id = s.id := (congrArg Prod.snd hfarewell).trans hid
      rw [farewells_unsubscribe_of_begin hclosed sent_silence hbegin, ← hfarewell,
        Stream.farewell, hsame]

/-- A stream that no one gets is closed and its number is free; if the number was registered and the
channel is open, the service is to be told. -/
theorem discard_cases (hs : c.streams[index]? = some s) :
    (c.registered? s.id = none ∨ c.closed ≠ none) ∧
      c.discard index = (c.deregister s.id).modifyStream index (Stream.close none) ∨
    ∃ k, c.registered? s.id = some k ∧
      c.discard index = ((c.deregister s.id).modifyStream index (Stream.close none)).orphan k := by
  unfold discard
  rw [hs]
  dsimp only
  split
  · next k hsome hopen => exact .inr ⟨k, hsome, rfl⟩
  · next hno =>
    refine .inl ⟨?_, rfl⟩
    by_contra! hboth
    obtain ⟨k, hsome⟩ := Option.ne_none_iff_exists'.mp hboth.1
    exact hno k hsome hboth.2

/-- The subscription of a caller who gives up is due. -/
theorem Reached.departs_finish (h : Reached config past c) (n : Nat) (wake : Wake) :
    (Moment.mk c (.event (.finish n wake))).Departs := by
  have hstep : (c.step (.finish n wake)).1 = (c.finish n wake).1 := rfl
  rcases finish_cases c n wake with
    heq | ⟨o, result, -, -, -, ⟨heq, -⟩ | ⟨fault, index, -, -, heq⟩⟩
  · rw [heq] at hstep
    refine departs_of_same ?_ ?_ rfl <;> rw [hstep]
  · rw [heq] at hstep
    refine departs_of_same ?_ ?_ rfl <;> rw [hstep] <;> rfl
  · rw [heq] at hstep
    cases hs : c.streams[index]? with
    | none =>
      have hsame : c.discard index = c := by
        rw [discard, hs]
      rw [hsame] at hstep
      refine departs_of_same ?_ ?_ rfl <;> rw [hstep] <;> rfl
    | some s =>
      rcases discard_cases hs with ⟨hfree, hdiscard⟩ | ⟨k, hsome, hdiscard⟩ <;>
        rw [hdiscard] at hstep
      · refine .freed ?_ hfree ?_ rfl
        · exact (congrArg Channel.registry hstep).trans (registry_modifyStream _)
        · exact (congrArg Channel.orphans hstep).trans (orphans_modifyStream _)
      · obtain ⟨t, ht, -⟩ := h.enrolled hsome
        have hready : c.Ready (.event (.finish n wake)) := rfl
        have hthere :=
          getElem?_modifyStream_some (c := c.deregister s.id) ht index (Stream.close none)
        have hturns := exists_turns_modifyStream (c := c.deregister s.id) index (Stream.close none)
        refine h.departs_orphan hready hsome hthere (registry_modifyStream _)
          (orphans_modifyStream _) hturns ?_ ?_ ?_ rfl
        · exact (congrArg subscriptions hstep).trans rfl
        · exact (congrArg Channel.orphans hstep).trans rfl
        · exact (congrArg Channel.turns hstep).trans rfl

/-- The end of the reader clears the registry. -/
theorem departs_of_teardown (hafter : c.perform act = c.teardown reason)
    (hnone : (Moment.mk c act).farewells = []) : (Moment.mk c act).Departs := by
  refine .ended ?_ ?_ ?_ hnone
  · exact congrArg Channel.registry hafter
  · rw [Moment.after, hafter, closed_teardown]
    exact Option.some_ne_none _
  · exact (congrArg Channel.orphans hafter).trans (orphans_teardown c reason)

theorem Reached.departs_event (h : Reached config past c) (hreads : event.reads = false) :
    (Moment.mk c (.event event)).Departs := by
  have hvisit {f : Stream → Stream} {index : Nat} (hnone : (Moment.mk c (.event event)).farewells =
      []) (hafter : (c.step event).1 = c.modifyStream index f) :
      (Moment.mk c (.event event)).Departs := by
    refine .stays ?_ ?_ hnone
    · exact (congrArg Channel.registry hafter).trans (registry_modifyStream f)
    · exact (congrArg Channel.orphans hafter).trans (orphans_modifyStream f)
  have hlaunch {reader : Reader} (hnone : (Moment.mk c (.event event)).farewells = [])
      (hafter : (c.step event).1 = { c with reader }) : (Moment.mk c (.event event)).Departs := by
    refine .stays ?_ ?_ hnone
    · exact (congrArg Channel.registry hafter).trans rfl
    · exact (congrArg Channel.orphans hafter).trans rfl
  cases event with
  | call | subscribe =>
    exact departs_of_same (subscriptions_begin ..) (orphans_begin ..) rfl
  | batch => exact departs_of_same (subscriptions_beginBatch ..) (orphans_beginBatch ..) rfl
  | release broken => exact departs_release broken
  | unsubscribe index broken => exact h.departs_unsubscribe index broken
  | gather => exact departs_of_same rfl rfl rfl
  | finish n wake => exact h.departs_finish n wake
  | accept | proceed => exact nomatch hreads
  | start =>
    obtain ⟨reader, heq⟩ := step_start_eq c
    exact hlaunch rfl heq
  | fail reason =>
    rcases step_fail_cases c reason with ⟨-, heq⟩ | ⟨reader, -, heq⟩
    · exact departs_of_teardown heq rfl
    · exact hlaunch rfl heq
  | crash reason =>
    rcases step_crash_cases c reason with ⟨-, heq⟩ | heq
    · exact departs_of_teardown heq rfl
    · exact hlaunch rfl (heq : _ = { c with reader := c.reader })
  | shut => exact .stays rfl rfl rfl
  | receive index task => exact hvisit rfl (consume_eq c index (Stream.receive task))
  | resume index task => exact hvisit rfl (consume_eq c index (Stream.resume task))
  | leave index task => exact hvisit (f := Stream.leave task) rfl rfl
  | watch index task => exact hvisit (f := Stream.watch task) rfl rfl

/-- A frame may bring a subscription, or close a stream whose subscription is due then. -/
theorem Reached.departs_route (h : Reached config past c) (hidle : c.reader = .idle) :
    (Moment.mk c (.route frame rest)).Departs := by
  cases hroute : c.route frame with
  | error fault => exact departs_of_teardown (take_of_error hroute) rfl
  | ok next =>
    have htaken : (c.take frame rest).registry = next.registry ∧
        (c.take frame rest).orphans = next.orphans := by
      rw [take, hroute]
      dsimp only
      split <;> exact ⟨rfl, rfl⟩
    have hsame (hregistry : next.registry = c.registry) (horphans : next.orphans = c.orphans) :
        (Moment.mk c (.route frame rest)).Departs :=
      .stays (htaken.1.trans hregistry) (htaken.2.trans horphans) rfl
    have hrouted := hroute
    unfold route at hrouted
    split at hrouted
    · next id _ =>
      cases hrouted
      rcases subscriptions_resolve c id frame with heq | ⟨number, feed, options, heq⟩
      · exact hsame (congrArg Subscriptions.registry heq) (orphans_resolve id)
      · refine .granted (s := c.newStream number feed options) ?_ ?_ ?_ rfl
        · exact htaken.1.trans (congrArg Subscriptions.registry heq)
        · exact (streams_take hroute).trans (congrArg Subscriptions.streams heq)
        · exact htaken.2.trans (orphans_resolve id)
    · next notice _ _ =>
      rcases notify_eq_ok hrouted with ⟨-, rfl⟩ | ⟨index, s, t, -, -, -, rfl⟩
      · exact hsame rfl rfl
      · by_cases hheld : t.held.isSome
        · refine hsame ?_ ?_ <;> rw [offered, if_pos hheld]
          · exact registry_setStream t
          · exact orphans_setStream t
        · have hoffered : c.offered notice.subscription index t =
            (c.setStream index t).sweep notice.subscription index := if_neg hheld
          have hidled : (c.offered notice.subscription index t).reader = .idle := by
            rw [hoffered, reader_sweep, reader_setStream, hidle]
          have hready : c.Ready (.route frame rest) := hidle
          exact h.departs_sweep hready
            ((take_of_ok hidled hroute).trans hoffered) (registry_setStream t)
            (orphans_setStream t) (exists_turns_setStream index t) rfl
    · cases hrouted
      exact hsame (congrArg Subscriptions.registry (subscriptions_reject _)) (orphans_reject _)
    · cases hrouted
      exact hsame rfl rfl

/-- **What every moment does with the subscriptions that leave.** -/
theorem Reached.departs (h : Reached config past c) (hready : c.Ready act) :
    (Moment.mk c act).Departs := by
  cases act with
  | event event => exact h.departs_event hready
  | route frame rest => exact h.departs_route hready
  | retry =>
    have hstill := hready
    obtain ⟨id, index, rest, hstalled⟩ := hstill
    have hafter : c.perform .retry = if (c.modifyStream index Stream.proceed).streams[index]?.any
        (·.held.isSome) then c.modifyStream index Stream.proceed else
          { c.modifyStream index Stream.proceed with reader := .idle }.sweep id index := by
      change c.retry = _
      rw [retry, hstalled]
    -- A stream that holds a notification stalls the reader again, and nothing leaves.
    split at hafter
    · refine .stays ?_ ?_ rfl
      · exact (congrArg Channel.registry hafter).trans (registry_modifyStream _)
      · exact (congrArg Channel.orphans hafter).trans (orphans_modifyStream _)
    · exact h.departs_sweep hready hafter (registry_modifyStream Stream.proceed)
        (orphans_modifyStream Stream.proceed) (exists_turns_modifyStream index Stream.proceed) rfl

end Moments

end LedgerClient.Channel
