import LedgerClient.Channel.Automaton
import LedgerClient.Proofs.Channel.Stream
import LedgerClient.Proofs.Keyed

/-!
# The parts of a channel

A channel has two sides. Requests wait for answers, and operations for requests; streams are
registered and filled. Nearly every function of a channel changes one side only, and what it does
there is said here once, so that no later proof opens it.

## Main definitions

* `Channel.Requests`, `Channel.Subscriptions`: the two sides of a channel
* `Channel.Effect`: what an event may do to subscriptions

## Main results

* `Channel.notify_eq_ok`: what comes of a notification
* `Channel.getElem?_teardown`: what comes of a stream when the reader ends
* `Channel.unsubscribe_cases`, `Channel.finish_cases`: what comes of the end of a subscription and
  of an operation
* `Channel.effect_step`: what an event does to subscriptions
-/

namespace LedgerClient.Channel

open Rpc (BatchCall Feed Frame Param Reply)

/-- The side of a channel that has to do with requests. -/
structure Requests where
  nextId : Nat
  pending : List (Nat × Expected)
  batches : List (List Nat)
  running : List Operation
  sent : List Outgoing

/-- The side of a channel that has to do with subscriptions. -/
structure Subscriptions where
  config : Config
  registry : List (Int × Nat)
  streams : List Stream
  closed : Option String
  reader : Reader

/-- What a channel knows of requests. -/
def requests (c : Channel) : Requests :=
  ⟨c.nextId, c.pending, c.batches, c.running, c.sent⟩

/-- What a channel knows of subscriptions. -/
def subscriptions (c : Channel) : Subscriptions :=
  ⟨c.config, c.registry, c.streams, c.closed, c.reader⟩

variable {c after : Channel} {id : Int} {index k : Nat}

/-! ## Streams -/

section Streams

@[simp] theorem requests_setStream (stream : Stream) :
    (c.setStream index stream).requests = c.requests := by
  unfold setStream
  split <;> rfl

@[simp] theorem requests_modifyStream (f : Stream → Stream) :
    (c.modifyStream index f).requests = c.requests := by
  unfold modifyStream
  split
  · rfl
  · exact requests_setStream _

theorem getElem?_setStream (stream : Stream) (k : Nat) : (c.setStream index stream).streams[k]? =
    if index = k then (c.streams[k]?).map fun _ => stream else c.streams[k]? := by
  unfold setStream
  split
  · next hnone =>
    split
    · next h => rw [← h, hnone, Option.map_none]
    · rfl
  · exact List.getElem?_set'

theorem getElem?_modifyStream (f : Stream → Stream) (k : Nat) :
    (c.modifyStream index f).streams[k]? =
      if index = k then (c.streams[k]?).map f else c.streams[k]? := by
  unfold modifyStream
  split
  · next hnone =>
    split
    · next h => rw [← h, hnone, Option.map_none]
    · rfl
  · next stream hsome =>
    rw [getElem?_setStream]
    split
    · next h => rw [← h, hsome, Option.map_some, Option.map_some]
    · rfl

@[simp] theorem reader_setStream (stream : Stream) :
    (c.setStream index stream).reader = c.reader := by
  unfold setStream
  split <;> rfl

@[simp] theorem reader_modifyStream (f : Stream → Stream) :
    (c.modifyStream index f).reader = c.reader := by
  unfold modifyStream
  split <;> simp

theorem length_setStream (stream : Stream) :
    (c.setStream index stream).streams.length = c.streams.length := by
  unfold setStream
  split
  · rfl
  · exact List.length_set

theorem length_modifyStream (f : Stream → Stream) :
    (c.modifyStream index f).streams.length = c.streams.length := by
  unfold modifyStream
  split
  · rfl
  · exact length_setStream _

/-- What else is known of subscriptions stays when a stream changes. -/
theorem subscriptions_setStream (stream : Stream) : (c.setStream index stream).subscriptions =
    { c.subscriptions with streams := (c.setStream index stream).streams } := by
  unfold setStream
  split <;> rfl

theorem subscriptions_modifyStream (f : Stream → Stream) :
    (c.modifyStream index f).subscriptions =
      { c.subscriptions with streams := (c.modifyStream index f).streams } := by
  unfold modifyStream
  split
  · rfl
  · exact subscriptions_setStream _

theorem registry_modifyStream (f : Stream → Stream) :
    (c.modifyStream index f).registry = c.registry :=
  congrArg Subscriptions.registry (subscriptions_modifyStream f)

theorem registry_setStream (stream : Stream) : (c.setStream index stream).registry = c.registry :=
  congrArg Subscriptions.registry (subscriptions_setStream stream)

theorem closed_setStream (index : Nat) (stream : Stream) :
    (c.setStream index stream).closed = c.closed :=
  congrArg Subscriptions.closed (subscriptions_setStream stream)

theorem closed_modifyStream (index : Nat) (f : Stream → Stream) :
    (c.modifyStream index f).closed = c.closed :=
  congrArg Subscriptions.closed (subscriptions_modifyStream f)

end Streams

/-! ## The registry -/

section Registry

theorem registered?_congr (h : after.registry = c.registry) (id : Int) :
    after.registered? id = c.registered? id := by
  rw [registered?, h, registered?]

theorem registered?_eq (c : Channel) (id : Int) :
    c.registered? id = (Keyed.find? Prod.fst id c.registry).map Prod.snd := by
  unfold registered? Keyed.find?
  induction c.registry with
  | nil => rfl
  | cons entry entries ih =>
    obtain ⟨n, k⟩ := entry
    rw [List.lookup_cons, List.find?_cons, ih]
    by_cases h : n = id
    · simp [h]
    · have hne : (id == n) = false := beq_false_of_ne (Ne.symm h)
      simp [h, hne]

theorem mem_registry (h : c.registered? id = some k) : (id, k) ∈ c.registry := by
  rw [registered?_eq] at h
  obtain ⟨entry, hfind, rfl⟩ := Option.map_eq_some_iff.mp h
  have hkey := List.find?_some hfind
  have hmem := List.mem_of_find?_eq_some hfind
  obtain ⟨n, k⟩ := entry
  cases of_decide_eq_true hkey
  exact hmem

theorem registered?_deregister (id n : Int) :
    (c.deregister id).registered? n = if n = id then none else c.registered? n := by
  rw [registered?_eq, registered?_eq]
  change (Keyed.find? Prod.fst n (Keyed.without Prod.fst id c.registry)).map Prod.snd = _
  split
  · next h =>
    rw [h, Keyed.find?_without]
    rfl
  · next h =>
    rw [Keyed.find?, Keyed.without, List.find?_filter, Keyed.find?]
    congr 2
    funext entry
    by_cases hn : entry.1 = n
    · simp [hn, h]
    · simp [hn]

theorem registered?_register (stream : Stream) (n : Int) : (c.register stream).registered? n =
    if stream.id = n then some c.streams.length else c.registered? n := by
  rw [registered?_eq, registered?_eq]
  change (Keyed.find? Prod.fst n (Keyed.put Prod.fst (stream.id, c.streams.length) c.registry)).map
    Prod.snd = _
  rw [Keyed.find?_put]
  split <;> rfl

@[simp] theorem requests_deregister : (c.deregister id).requests = c.requests := rfl

@[simp] theorem requests_orphan : (c.orphan index).requests = c.requests := by
  unfold orphan
  split <;> rfl

@[simp] theorem subscriptions_orphan : (c.orphan index).subscriptions = c.subscriptions := by
  unfold orphan
  split <;> rfl

@[simp] theorem requests_sweep : (c.sweep id index).requests = c.requests := by
  unfold sweep
  split
  · exact requests_orphan
  · rfl

theorem subscriptions_sweep : (c.sweep id index).subscriptions =
    if c.streams[index]?.any Stream.isClosed && c.registered? id == some index then
      (c.deregister id).subscriptions
    else c.subscriptions := by
  unfold sweep
  split
  · exact subscriptions_orphan
  · rfl

@[simp] theorem reader_sweep : (c.sweep id index).reader = c.reader := by
  unfold sweep orphan
  split
  · split <;> rfl
  · rfl

theorem streams_sweep (id : Int) (index : Nat) : (c.sweep id index).streams = c.streams := by
  refine (congrArg Subscriptions.streams subscriptions_sweep).trans ?_
  split <;> rfl

theorem closed_sweep (id : Int) (index : Nat) : (c.sweep id index).closed = c.closed := by
  refine (congrArg Subscriptions.closed subscriptions_sweep).trans ?_
  split <;> rfl

/-- A stream that no one has got is closed, and its number is free. -/
theorem subscriptions_discard {s : Stream} (h : c.streams[index]? = some s) :
    (c.discard index).subscriptions =
      ((c.deregister s.id).modifyStream index (Stream.close none)).subscriptions := by
  unfold discard
  rw [h]
  dsimp only
  split
  · exact subscriptions_orphan
  · rfl

@[simp] theorem requests_discard : (c.discard index).requests = c.requests := by
  unfold discard
  split
  · rfl
  · dsimp only
    split
    · rw [requests_orphan, requests_modifyStream, requests_deregister]
    · rw [requests_modifyStream, requests_deregister]

end Registry

/-! ## Requests -/

section Requests

@[simp] theorem subscriptions_fail (fault : Fault) (id : Nat) :
    (fail fault c id).subscriptions = c.subscriptions := by
  unfold fail
  split <;> rfl

@[simp] theorem subscriptions_foldl_fail (fault : Fault) (ids : List Nat) :
    (ids.foldl (fail fault) c).subscriptions = c.subscriptions := by
  induction ids generalizing c with
  | nil => rfl
  | cons id ids ih => rw [List.foldl_cons, ih, subscriptions_fail]

@[simp] theorem subscriptions_reject (error : ServerFault) :
    (c.reject error).subscriptions = c.subscriptions := by
  unfold reject
  split
  · rfl
  · exact subscriptions_foldl_fail _ _

@[simp] theorem subscriptions_begin (expected : Expected) (method : String) (params : List Param)
    (signalled : Bool) (broken : Option String) :
    (c.begin expected method params signalled broken).1.subscriptions = c.subscriptions := by
  unfold begin
  split
  · rfl
  · dsimp only
    split <;> rfl

@[simp] theorem subscriptions_beginBatch (calls : List BatchCall) (signalled : Bool)
    (broken : Option String) :
    (c.beginBatch calls signalled broken).1.subscriptions = c.subscriptions := by
  unfold beginBatch
  split
  · rfl
  · rfl
  · dsimp only
    split <;> rfl

end Requests

/-! ## The ends of subscriptions and operations -/

section Ends

/-- What comes of the end of a stream by its owner: an open stream is silenced, and its number is
free. If the number was registered and the channel is open, a request begins that tells the
service. -/
theorem unsubscribe_eq (c : Channel) (index : Nat) :
    (∀ s, c.streams[index]? = some s → s.isClosed = true) ∧
      (∀ broken, c.unsubscribe index broken = (c, none)) ∨
    ∃ s, c.streams[index]? = some s ∧ s.isClosed = false ∧
      ((∀ k other, c.registered? s.id = some k →
          ((c.deregister s.id).modifyStream index Stream.silence).streams[k]? = some other →
            c.closed ≠ none) ∧
        (∀ broken, c.unsubscribe index broken =
          ((c.deregister s.id).modifyStream index Stream.silence, none)) ∨
      ∃ k other, c.registered? s.id = some k ∧
        ((c.deregister s.id).modifyStream index Stream.silence).streams[k]? = some other ∧
        c.closed = none ∧ ∀ broken, ∃ begun, c.unsubscribe index broken = (begun.1, some begun.2) ∧
          begun = ((c.deregister s.id).modifyStream index Stream.silence).begin .result other.ending
            [.plain (.int s.id)] false broken) := by
  cases hs : c.streams[index]? with
  | none =>
    refine .inl ⟨fun s hsome => absurd hsome.symm (Option.some_ne_none s), fun broken => ?_⟩
    rw [unsubscribe, hs]
  | some s =>
    cases hclosed : s.isClosed with
    | true =>
      refine .inl ⟨fun other hother => ?_, fun broken => ?_⟩
      · rw [← Option.some.inj hother, hclosed]
      · rw [unsubscribe, hs]
        exact if_pos hclosed
    | false =>
      refine .inr ⟨s, rfl, hclosed, ?_⟩
      have hopen : ¬s.isClosed = true := Bool.eq_false_iff.mp hclosed
      by_cases htells : ∃ k other, c.registered? s.id = some k ∧
          ((c.deregister s.id).modifyStream index Stream.silence).streams[k]? = some other ∧
            c.closed = none
      · obtain ⟨k, other, hk, hother, hchannel⟩ := htells
        refine .inr ⟨k, other, hk, hother, hchannel, fun broken => ⟨_, ?_, rfl⟩⟩
        rw [unsubscribe, hs]
        dsimp only
        rw [if_neg hopen, hk, Option.bind_some, hother, hchannel]
      · refine .inl ⟨fun k other hk hother hchannel => htells ⟨k, other, hk, hother, hchannel⟩,
          fun broken => ?_⟩
        rw [unsubscribe, hs]
        dsimp only
        rw [if_neg hopen]
        split
        · next other hbound hchannel =>
          obtain ⟨k, hk, hother⟩ := Option.bind_eq_some_iff.mp hbound
          exact absurd ⟨k, other, hk, hother, hchannel⟩ htells
        · rfl

/-- A stream that its owner ends is silenced, and its number is free; then a request may begin
that tells the service. -/
theorem unsubscribe_cases (c : Channel) (index : Nat) (broken : Option String) :
    (c.unsubscribe index broken).1 = c ∨
    ∃ s, c.streams[index]? = some s ∧ s.isClosed = false ∧
      ((c.unsubscribe index broken).1 = (c.deregister s.id).modifyStream index Stream.silence ∨
      ∃ method params, (c.unsubscribe index broken).1 =
        (((c.deregister s.id).modifyStream index Stream.silence).begin .result method params false
          broken).1) := by
  rcases unsubscribe_eq c index with ⟨-, heq⟩ | ⟨s, hs, hopen, ⟨-, heq⟩ |
    ⟨k, other, -, -, -, htells⟩⟩
  · exact .inl (congrArg Prod.fst (heq broken))
  · exact .inr ⟨s, hs, hopen, .inl (congrArg Prod.fst (heq broken))⟩
  · obtain ⟨begun, heq, hbegun⟩ := htells broken
    refine .inr ⟨s, hs, hopen, .inr ⟨other.ending, [.plain (.int s.id)], ?_⟩⟩
    rw [heq, hbegun]

/-- Where no subscription is to be ended at the service, a release changes nothing. -/
theorem step_release_nil (h : c.orphans = []) (broken : Option String) :
    c.step (.release broken) = (c, .nothing) := by
  rw [step, release, h]
  rfl

/-- Otherwise a request begins that ends the first one. -/
theorem step_release_cons {entry : String × Int} {orphans : List (String × Int)}
    (h : c.orphans = entry :: orphans) (broken : Option String) :
    c.step (.release broken) =
      (({ c with orphans }.begin .result entry.1 [.plain (.int entry.2)] false broken).1,
        .begun ({ c with orphans }.begin .result entry.1 [.plain (.int entry.2)] false
          broken).2) := by
  rw [step, release, h]
  rfl

/-- An operation that ends is retired, and a stream that its caller does not get is discarded. -/
theorem finish_cases (c : Channel) (op : Nat) (wake : Wake) :
    c.finish op wake = (c, none) ∨
    ∃ o result, c.operation? op = some o ∧ o.verdict? wake = some result ∧
      (c.finish op wake).2 = some result ∧
      ((c.finish op wake).1 = c.retire o ∧ (∀ fault index, result = .failed fault →
        o.stream? ≠ some index) ∨
      ∃ fault index, result = .failed fault ∧ o.stream? = some index ∧
        (c.finish op wake).1 = (c.discard index).retire o) := by
  unfold finish
  split
  · exact .inl rfl
  · next o hfound =>
    split
    · exact .inl rfl
    · next result hverdict =>
      refine .inr ⟨o, result, hfound, hverdict, rfl, ?_⟩
      dsimp only
      split
      · next fault index hstream => exact .inr ⟨fault, index, rfl, hstream, rfl⟩
      · next hkept => exact .inl ⟨rfl, fun fault index hfault hstream => hkept _ _ hfault hstream⟩

end Ends

/-! ## Notifications -/

section Notifications

/-- A stream takes what it was offered; then the reader stalls, or a stream that has closed is
given up. -/
def offered (c : Channel) (id : Int) (index : Nat) (next : Stream) : Channel :=
  if next.held.isSome then { c.setStream index next with reader := .stalled id index [] }
  else (c.setStream index next).sweep id index

theorem streams_offered (next : Stream) :
    (c.offered id index next).streams = (c.setStream index next).streams := by
  unfold offered
  split
  · rfl
  · exact streams_sweep _ _

theorem config_offered (next : Stream) : (c.offered id index next).config = c.config := by
  have hset : (c.setStream index next).config = c.config :=
    congrArg Subscriptions.config (subscriptions_setStream next)
  unfold offered
  split
  · exact hset
  · refine (congrArg Subscriptions.config subscriptions_sweep).trans ?_
    split <;> exact hset

theorem requests_offered (next : Stream) : (c.offered id index next).requests = c.requests := by
  unfold offered
  split
  · exact requests_setStream _
  · exact requests_sweep.trans (requests_setStream _)

/-- A notification of a known subscription is offered to its stream. -/
theorem notify_eq_ok {text : Bytes} (h : c.notify id text = .ok after) :
    (∀ index s, c.registered? id = some index → c.streams[index]? ≠ some s) ∧ after = c ∨
    ∃ index s next, c.registered? id = some index ∧ c.streams[index]? = some s ∧
      s.offer text c.config.host = .ok next ∧ after = c.offered id index next := by
  unfold notify at h
  split at h
  · next hnone =>
    cases h
    refine .inl ⟨fun index s hsome => ?_, rfl⟩
    exact nomatch hnone.symm.trans hsome
  · next index hsome =>
    split at h
    · next hnone =>
      cases h
      refine .inl ⟨fun other s hother => ?_, rfl⟩
      cases hsome.symm.trans hother
      rw [hnone]
      exact nofun
    · next s hstream =>
      cases hoffer : s.offer text c.config.host with
      | error fault =>
        rw [hoffer] at h
        cases h
      | ok next =>
        rw [hoffer] at h
        refine .inr ⟨index, s, next, hsome, hstream, hoffer, ?_⟩
        rw [offered]
        change (if next.held.isSome then _ else _) = _ at h
        split at h
        · next hheld =>
          rw [if_pos hheld]
          cases h
          rfl
        · next hheld =>
          rw [if_neg hheld]
          cases h
          rfl

theorem notify_eq_error {text : Bytes} {fault : Fault} (h : c.notify id text = .error fault) :
    ∃ index s, c.registered? id = some index ∧ c.streams[index]? = some s ∧
      s.offer text c.config.host = .error fault := by
  unfold notify at h
  split at h
  · cases h
  · next index hsome =>
    split at h
    · cases h
    · next s hstream =>
      refine ⟨index, s, hsome, hstream, ?_⟩
      cases hoffer : s.offer text c.config.host with
      | error other =>
        rw [hoffer] at h
        cases h
        rfl
      | ok next =>
        rw [hoffer] at h
        change (if next.held.isSome then _ else _) = _ at h
        split at h <;> cases h

end Notifications

/-! ## The end of the reader -/

section Teardown

/-- The streams of a registry are closed one after the other; each of them once. -/
theorem getElem?_closeAll (fault : Fault) (registry : List (Int × Nat)) (c : Channel) (k : Nat) :
    (registry.foldl (fun c entry => c.modifyStream entry.2 (Stream.close (some fault)))
      c).streams[k]? = if k ∈ registry.map Prod.snd then
        (c.streams[k]?).map (Stream.close (some fault)) else c.streams[k]? := by
  induction registry generalizing c with
  | nil => rfl
  | cons entry entries ih =>
    rw [List.foldl_cons, ih, getElem?_modifyStream]
    by_cases hk : entry.2 = k
    · rw [if_pos hk, List.map_cons, hk, if_pos (List.mem_cons_self ..)]
      split
      · rw [Option.map_map]
        congr 1
        funext s
        exact Stream.close_close
      · rfl
    · rw [if_neg hk]
      have hiff : k ∈ (entry :: entries).map Prod.snd ↔ k ∈ entries.map Prod.snd := by
        rw [List.map_cons, List.mem_cons, or_iff_right (Ne.symm hk)]
      simp only [hiff]

theorem requests_closeAll (fault : Fault) (registry : List (Int × Nat)) (c : Channel) :
    (registry.foldl (fun c entry => c.modifyStream entry.2 (Stream.close (some fault)))
      c).requests = c.requests := by
  induction registry generalizing c with
  | nil => rfl
  | cons entry entries ih => rw [List.foldl_cons, ih, requests_modifyStream]

/-- The fault that everything fails with when the reader ends. -/
def lastFault (c : Channel) (reason : String) : Fault :=
  .transport (c.closed.getD reason) none

/-- **When the reader ends, every registered stream is closed with the reason.** -/
theorem getElem?_teardown (c : Channel) (reason : String) (k : Nat) :
    (c.teardown reason).streams[k]? = if k ∈ c.registry.map Prod.snd then
      (c.streams[k]?).map (Stream.close (some (c.lastFault reason))) else c.streams[k]? := by
  have hfailed := subscriptions_foldl_fail (c := c) (c.lastFault reason) (c.pending.map (·.1))
  have hregistry : ((c.pending.map (·.1)).foldl (fail (c.lastFault reason)) c).registry =
    c.registry := congrArg Subscriptions.registry hfailed
  have hstreams : ((c.pending.map (·.1)).foldl (fail (c.lastFault reason)) c).streams =
    c.streams := congrArg Subscriptions.streams hfailed
  have hclosed := getElem?_closeAll (c.lastFault reason)
    ((c.pending.map (·.1)).foldl (fail (c.lastFault reason)) c).registry
    ((c.pending.map (·.1)).foldl (fail (c.lastFault reason)) c) k
  rw [hregistry, hstreams] at hclosed
  rw [← hclosed, ← hregistry]
  rfl

theorem length_closeAll (fault : Fault) (registry : List (Int × Nat)) (c : Channel) :
    (registry.foldl (fun c entry => c.modifyStream entry.2 (Stream.close (some fault)))
      c).streams.length = c.streams.length := by
  induction registry generalizing c with
  | nil => rfl
  | cons entry entries ih => rw [List.foldl_cons, ih, length_modifyStream]

theorem config_closeAll (fault : Fault) (registry : List (Int × Nat)) (c : Channel) :
    (registry.foldl (fun c entry => c.modifyStream entry.2 (Stream.close (some fault)))
      c).config = c.config := by
  induction registry generalizing c with
  | nil => rfl
  | cons entry entries ih =>
    rw [List.foldl_cons, ih]
    exact congrArg Subscriptions.config (subscriptions_modifyStream _)

theorem config_teardown (c : Channel) (reason : String) :
    (c.teardown reason).config = c.config :=
  (config_closeAll ..).trans
    (congrArg Subscriptions.config (subscriptions_foldl_fail (c.lastFault reason) _))

theorem length_teardown (c : Channel) (reason : String) :
    (c.teardown reason).streams.length = c.streams.length :=
  (length_closeAll ..).trans
    (congrArg (·.streams.length) (subscriptions_foldl_fail (c.lastFault reason) _))

theorem requests_teardown (c : Channel) (reason : String) : (c.teardown reason).requests =
    ((c.pending.map (·.1)).foldl (fail (c.lastFault reason)) c).requests :=
  requests_closeAll _ _ _

@[simp] theorem closed_teardown (c : Channel) (reason : String) :
    (c.teardown reason).closed = some (c.closed.getD reason) := rfl

theorem closed_teardown_of_closed {reason : String} (hclosed : c.closed = some reason)
    (other : String) :
    (c.teardown other).closed = some reason := by
  rw [closed_teardown, hclosed]
  rfl

end Teardown

/-! ## Events -/

section Events

/-- The event reads a message, or goes on with one. -/
def Event.reads : Event → Bool
  | .accept _ | .proceed => true
  | _ => false

/-- The connection or the reader fails. -/
def Event.fails : Event → Bool
  | .fail _ | .crash _ => true
  | _ => false

/-- What a consumer or a watcher does to a stream. -/
def Event.visit? : Event → Option (Nat × Stream.Change)
  | .receive index task => some (index, .receive task)
  | .resume index task => some (index, .resume task)
  | .leave index task => some (index, .leave task)
  | .watch index task => some (index, .watch task)
  | _ => none

/-- What an event in which nothing is read may do to subscriptions. -/
inductive Effect (c : Channel) (event : Event) : Subscriptions → Prop
  | same (hvisit : event.visit? = none) : Effect c event c.subscriptions
  | shut (hvisit : event.visit? = none) :
    Effect c event { c.subscriptions with closed := some (c.closed.getD "client closed") }
  /-- The reader begins, or is dropped before it does. -/
  | launch (hvisit : event.visit? = none) (reader : Reader) (hfresh : c.reader.hasBegun = false)
    (hreader : c.closed = none ∧ reader = .idle ∨ c.closed ≠ none ∧ reader = .dropped) :
    Effect c event { c.subscriptions with reader }
  | teardown (hvisit : event.visit? = none) (reason : String)
    (hstep : (c.step event).1 = c.teardown reason) (hfails : event.fails = true)
    (hbegun : c.reader.hasBegun = true) :
    Effect c event (c.teardown reason).subscriptions
  /-- A consumer or a watcher comes or leaves. -/
  | visit {index : Nat} {change : Stream.Change} (hvisit : event.visit? = some (index, change)) :
    Effect c event (c.modifyStream index change.apply).subscriptions
  /-- The owner of an open stream ends it. -/
  | silence {index : Nat} {broken : Option String} {s : Stream}
    (hevent : event = .unsubscribe index broken) (hs : c.streams[index]? = some s)
    (hopen : s.isClosed = false) :
    Effect c event ((c.deregister s.id).modifyStream index Stream.silence).subscriptions
  /-- The caller of an operation does not get its stream. -/
  | discard {op index : Nat} {wake : Wake} {o : Operation} {s : Stream}
    (hevent : event = .finish op wake) (ho : c.operation? op = some o)
    (hstream : o.stream? = some index) (hs : c.streams[index]? = some s) :
    Effect c event ((c.deregister s.id).modifyStream index (Stream.close none)).subscriptions

/-- A consumer changes one stream at most. -/
theorem consume_eq (c : Channel) (index : Nat) (f : Stream → Stream × Received) :
    (c.consume index f).1 = c.modifyStream index fun s => (f s).1 := by
  rw [consume, modifyStream]
  cases c.streams[index]? <;> rfl

/-- A failure ends a reader that has begun. -/
theorem step_fail (h : c.reader.hasBegun = true) (reason : String) :
    (c.step (.fail reason)).1 = c.teardown reason :=
  if_pos h

theorem step_crash (h : c.reader.hasBegun = true) (reason : String) :
    (c.step (.crash reason)).1 = c.crash reason :=
  if_pos h

/-- Where the reader begins, nothing else changes. -/
theorem step_start_eq (c : Channel) : ∃ reader, (c.step .start).1 = { c with reader } := by
  change ∃ reader, c.start = _
  unfold start
  split
  · exact ⟨.idle, rfl⟩
  · exact ⟨c.reader, rfl⟩

/-- A failure that does not end the reader changes nothing else. -/
theorem step_fail_cases (c : Channel) (reason : String) :
    c.reader.hasBegun = true ∧ (c.step (.fail reason)).1 = c.teardown reason ∨
      ∃ reader : Reader, reader.hasBegun = false ∧
        (c.step (.fail reason)).1 = { c with reader } := by
  change _ ∧ c.halt reason = _ ∨ ∃ reader : Reader, _ ∧ c.halt reason = _
  unfold halt
  split
  · next hbegun => exact .inl ⟨hbegun, rfl⟩
  · next hfresh =>
    split
    · exact .inr ⟨.dropped, rfl, rfl⟩
    · exact .inr ⟨c.reader, Bool.eq_false_iff.mpr hfresh, rfl⟩

theorem step_crash_cases (c : Channel) (reason : String) :
    c.reader.hasBegun = true ∧ (c.step (.crash reason)).1 = c.crash reason ∨
      (c.step (.crash reason)).1 = c := by
  by_cases hbegun : c.reader.hasBegun = true
  · exact .inl ⟨hbegun, step_crash hbegun reason⟩
  · exact .inr (if_neg hbegun)

/-- Where subscriptions stay the same. -/
theorem Effect.of_same {event : Event} (hvisit : event.visit? = none)
    (h : after.subscriptions = c.subscriptions) : Effect c event after.subscriptions := by
  rw [h]
  exact .same hvisit

theorem Effect.release (c : Channel) (broken : Option String) :
    Effect c (.release broken) (c.release broken).1.subscriptions := by
  unfold Channel.release
  split
  · exact .same rfl
  · exact .of_same rfl (subscriptions_begin ..)

theorem Effect.unsubscribe (c : Channel) (index : Nat) (broken : Option String) :
    Effect c (.unsubscribe index broken) (c.unsubscribe index broken).1.subscriptions := by
  rcases unsubscribe_cases c index broken with heq | ⟨s, hs, hopen, heq | ⟨method, params, heq⟩⟩
  · rw [heq]
    exact .same rfl
  · rw [heq]
    exact .silence rfl hs hopen
  · rw [heq, subscriptions_begin]
    exact .silence rfl hs hopen

theorem Effect.finish (c : Channel) (op : Nat) (wake : Wake) :
    Effect c (.finish op wake) (c.finish op wake).1.subscriptions := by
  rcases finish_cases c op wake with
    heq | ⟨o, result, ho, -, -, ⟨heq, -⟩ | ⟨fault, index, -, hstream, heq⟩⟩
  · rw [heq]
    exact .same rfl
  · rw [heq]
    exact .same rfl
  · rw [heq]
    change Effect c _ (c.discard index).subscriptions
    cases hs : c.streams[index]? with
    | none =>
      rw [Channel.discard, hs]
      exact .same rfl
    | some s =>
      rw [subscriptions_discard hs]
      exact .discard rfl ho hstream hs

theorem Effect.start (c : Channel) : Effect c .start c.start.subscriptions := by
  unfold Channel.start
  split
  · next hfresh hopen => exact .launch rfl .idle (by rw [hfresh]; rfl) (.inl ⟨hopen, rfl⟩)
  · exact .same rfl

/-- A failure ends a reader that has begun, and drops one that has not, if the channel is closed. -/
theorem Effect.fail (c : Channel) (reason : String) :
    Effect c (.fail reason) (c.step (.fail reason)).1.subscriptions := by
  by_cases hbegun : c.reader.hasBegun = true
  · rw [step_fail hbegun]
    exact .teardown rfl reason (step_fail hbegun reason) rfl hbegun
  · change Effect c _ (c.halt reason).subscriptions
    rw [halt, if_neg hbegun]
    split
    · next hclosed =>
      exact .launch rfl .dropped (Bool.eq_false_iff.mpr hbegun)
        (.inr ⟨Option.isSome_iff_ne_none.mp hclosed, rfl⟩)
    · exact .same rfl

theorem Effect.crash (c : Channel) (reason : String) :
    Effect c (.crash reason) (c.step (.crash reason)).1.subscriptions := by
  rcases step_crash_cases c reason with ⟨hbegun, heq⟩ | heq
  · rw [heq]
    exact .teardown rfl _ heq rfl hbegun
  · rw [heq]
    exact .same rfl

/-- **What an event does to subscriptions.** -/
theorem effect_step {event : Event} (h : event.reads = false) :
    Effect c event (c.step event).1.subscriptions := by
  have hvisit {index : Nat} (change : Stream.Change)
      (hevent : event.visit? = some (index, change))
      (heq : (c.step event).1 = c.modifyStream index change.apply) :
      Effect c event (c.step event).1.subscriptions := by
    rw [heq]
    exact .visit hevent
  cases event with
  | call | subscribe => exact .of_same rfl (subscriptions_begin ..)
  | batch => exact .of_same rfl (subscriptions_beginBatch ..)
  | release broken => exact Effect.release c broken
  | unsubscribe index broken => exact Effect.unsubscribe c index broken
  | gather => exact .same rfl
  | finish op wake => exact Effect.finish c op wake
  | accept | proceed => exact nomatch h
  | start => exact Effect.start c
  | fail reason => exact Effect.fail c reason
  | crash reason => exact Effect.crash c reason
  | shut => exact .shut rfl
  | receive index task => exact hvisit (.receive task) rfl (consume_eq ..)
  | resume index task => exact hvisit (.resume task) rfl (consume_eq ..)
  | leave index task => exact hvisit (.leave task) rfl rfl
  | watch index task => exact hvisit (.watch task) rfl rfl

/-- An event in which nothing is read leaves a reader that has begun as it is, unless it is a
failure; one that has not begun may begin, or be dropped. -/
theorem reader_step {event : Event} (h : event.reads = false) :
    (c.step event).1.reader = c.reader ∨
      (event.fails = true ∧ c.reader.hasBegun = true ∧ (c.step event).1.reader = .ended) ∨
      c.reader.hasBegun = false ∧
        ((c.step event).1.reader = .idle ∨ (c.step event).1.reader = .dropped) := by
  have heffect := effect_step (c := c) h
  change (c.step event).1.subscriptions.reader = _ ∨
    (_ ∧ _ ∧ (c.step event).1.subscriptions.reader = _) ∨
    _ ∧ ((c.step event).1.subscriptions.reader = _ ∨ (c.step event).1.subscriptions.reader = _)
  generalize (c.step event).1.subscriptions = after at heffect ⊢
  cases heffect with
  | same | shut => exact .inl rfl
  | launch _ reader hfresh hreader =>
    exact .inr (.inr ⟨hfresh, hreader.imp And.right And.right⟩)
  | teardown _ _ _ hfails hbegun => exact .inr (.inl ⟨hfails, hbegun, rfl⟩)
  | visit | silence | discard => exact .inl (reader_modifyStream _)

theorem length_step {event : Event} (h : event.reads = false) :
    (c.step event).1.streams.length = c.streams.length := by
  have heffect := effect_step (c := c) h
  change (c.step event).1.subscriptions.streams.length = _
  generalize (c.step event).1.subscriptions = after at heffect ⊢
  cases heffect with
  | same | shut | launch => rfl
  | teardown => exact length_teardown _ _
  | visit | silence | discard => exact length_modifyStream _

theorem config_step {event : Event} (h : event.reads = false) :
    (c.step event).1.config = c.config := by
  have heffect := effect_step (c := c) h
  change (c.step event).1.subscriptions.config = _
  generalize (c.step event).1.subscriptions = after at heffect ⊢
  cases heffect with
  | same | shut | launch => rfl
  | teardown => exact config_teardown _ _
  | visit | silence | discard => exact congrArg Subscriptions.config (subscriptions_modifyStream _)

end Events

end LedgerClient.Channel
