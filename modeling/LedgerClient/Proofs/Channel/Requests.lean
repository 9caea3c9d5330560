import LedgerClient.Proofs.Channel.Delivery
import LedgerClient.Proofs.Rpc.Batch

/-!
# What becomes of requests

A moment answers one pending request by a frame, or it begins an operation, fails pending requests,
puts the settlements of a batch together or retires an operation. Only a frame gives a request what
the service has answered.

## Main definitions

* `Channel.Requests.settle`, `launch`, `retire`, …: what is done to requests
* `Channel.Requests.Launches`: how an operation is launched
* `Channel.Requests.Effect`: what a moment may do to requests besides answering one
* `Channel.Fits`: what a frame may settle a request with
* `Channel.Answers`: an act answers a request

## Main results

* `Channel.requests_perform`: what becomes of requests in a moment
-/

namespace LedgerClient.Channel

open Rpc (BatchCall Frame Param)

/-- The ids of what is sent. -/
def Outgoing.ids : Outgoing → List Int
  | .single request => [request.id]
  | .batch requests => requests.map (·.id)

/-- The request is part of a batch. -/
def Expected.isEntry : Expected → Bool
  | .entry => true
  | _ => false

/-- The numbers of the subscriptions whose streams there are. -/
def numbers (c : Channel) : List Int := c.streams.map Stream.id

/-- The number of a subscription that a frame grants. -/
def granted? (host : Host) (frame : Frame) : Option Int :=
  match Rpc.Shape.int.decode frame.result host with
  | .ok reply => match reply.value with
    | .int number => some number
    | _ => none
  | .error _ => none

namespace Requests

/-- A request is pending. -/
def isPending (r : Requests) (id : Nat) : Bool :=
  r.pending.any (·.1 == id)

/-- Something has come of a request, which is pending no more. -/
def settle (id : Nat) (settlement : Settlement) (r : Requests) : Requests :=
  { r with
    pending := Keyed.without Prod.fst id r.pending
    running := r.running.map fun op =>
      if op.ids.contains id then op.settle id settlement else op }

/-- A request fails if it is pending. -/
def fail (fault : Fault) (r : Requests) (id : Nat) : Requests :=
  if r.isPending id then r.settle id (.fault fault) else r

/-- The settlements of an operation are put together. -/
def gather (op : Nat) (r : Requests) : Requests :=
  { r with running := r.running.map fun o => if o.id == op then o.gather else o }

/-- An operation ends. -/
def retire (op : Operation) (r : Requests) : Requests :=
  { r with
    pending := r.pending.filter fun entry => !op.ids.contains entry.1
    batches := if op.isBatch then r.batches.erase op.ids else r.batches
    running := r.running.filter fun other => other.id != op.id }

/-- An operation begins. -/
def launch (op : Operation) (expected : Expected) (outgoing : Outgoing) (r : Requests) :
    Requests :=
  { r with
    nextId := r.nextId + op.ids.length
    pending := r.pending ++ op.ids.map fun id => (id, expected)
    batches := if op.isBatch then r.batches ++ [op.ids] else r.batches
    running := r.running ++ [op]
    sent := r.sent ++ [outgoing] }

/-- A new operation takes the ids that come next; nothing has come of its requests yet. -/
structure Launches (next : Nat) (op : Operation) (expected : Expected) (outgoing : Outgoing) :
    Prop where
  first : op.id = next
  ids : op.ids = (List.range op.ids.length).map (next + ·)
  nonempty : op.ids ≠ []
  single : op.isBatch = false → op.ids = [op.id]
  settled : op.settled = []
  answered : op.answered = false
  kind : op.isBatch = expected.isEntry
  sent : outgoing.ids = op.ids.map (↑·)

/-- What may come of an operation that is not refused: it may use up ids and not be sent, or it is
launched. -/
inductive Begins (r : Requests) : Requests → Prop
  | unsent (n : Nat) : Begins r { r with nextId := r.nextId + n }
  | launched {op : Operation} {expected : Expected} {outgoing : Outgoing}
    (h : Launches r.nextId op expected outgoing) : Begins r (r.launch op expected outgoing)

/-- What a moment may do to requests besides answering one of them. An operation begins only if
the channel is open, and requests fail only if the reader has begun: all that are pending, or those
of a batch. -/
inductive Effect (isOpen hasBegun : Prop) (r : Requests) : Requests → Prop
  | same : Effect isOpen hasBegun r r
  | begins {after : Requests} (hopen : isOpen) (h : Begins r after) :
    Effect isOpen hasBegun r after
  | fails {fault : Fault} (hbegun : hasBegun) (hfault : ∀ error, fault ≠ .server error)
    (ids : List Nat) (hwhole : ids = r.pending.map Prod.fst ∨ ids ∈ r.batches) :
    Effect isOpen hasBegun r (ids.foldl (fail fault) r)
  | gathers (op : Nat) : Effect isOpen hasBegun r (r.gather op)
  | retires {op : Operation} (hop : op ∈ r.running) : Effect isOpen hasBegun r (r.retire op)

end Requests

/-- What a frame may settle a request with. -/
def Fits (host : Host) (numbers : List Int) (isEntry : Bool) (frame : Frame) :
    Settlement → Prop
  | .entry entry => isEntry = true ∧ entry = frame.entry
  | .text text => isEntry = false ∧ frame.error = none ∧ text = frame.result
  | .stream k => isEntry = false ∧ frame.error = none ∧
    ∃ number, granted? host frame = some number ∧ numbers[k]? = some number
  | .fault fault => isEntry = false ∧ ∀ error, fault = .server error → frame.error = some error

variable {config : Config} {past : List Moment} {c after : Channel} {frame : Frame}
  {rest : List Frame}

/-! ## Beginnings -/

section Beginnings

theorem launches_single (next : Nat) (expected : Expected) (method : String) (params : List Param)
    (hkind : expected.isEntry = false) : Requests.Launches next
      { id := next, ids := [next], isBatch := false } expected (.single ⟨method, params, next⟩) :=
  ⟨rfl, rfl, List.cons_ne_nil _ _, fun _ => rfl, rfl, rfl, hkind.symm, rfl⟩

theorem launches_batch (next : Nat) {calls : List BatchCall} (hcalls : calls ≠ []) :
    Requests.Launches next
      { id := next, ids := (List.range calls.length).map (next + ·), isBatch := true } .entry
      (.batch (Rpc.requests next calls)) := by
  refine ⟨rfl, ?_, ?_, nofun, rfl, rfl, rfl, Rpc.map_id_requests next calls⟩
  · rw [List.length_map, List.length_range]
  · rw [Ne, List.map_eq_nil_iff, List.range_eq_nil, List.length_eq_zero_iff]
    exact hcalls

/-- Nothing begins while the channel is closed. -/
theorem demandOpen_eq_ok {signalled : Bool} (h : c.demandOpen signalled = .ok ()) :
    c.closed = none := by
  unfold demandOpen at h
  split at h
  · cases h
  · assumption

/-- What comes of an operation of one request: it is refused, or uses up an id and is not sent, or
it is launched. -/
theorem begin_cases (c : Channel) (expected : Expected) (method : String) (params : List Param)
    (signalled : Bool) (broken : Option String) :
    (∃ fault, c.begin expected method params signalled broken = (c, .error fault)) ∨
    c.closed = none ∧
      ((∃ fault, c.begin expected method params signalled broken =
        ({ c with nextId := c.nextId + 1 }, .error fault)) ∨
      c.begin expected method params signalled broken =
        ({ c with
          nextId := c.nextId + 1
          pending := c.pending ++ [(c.nextId, expected)]
          running := c.running ++ [{ id := c.nextId, ids := [c.nextId], isBatch := false }]
          sent := c.sent ++ [.single ⟨method, params, c.nextId⟩] }, .ok c.nextId)) := by
  unfold begin
  split
  · exact .inl ⟨_, rfl⟩
  · next hopen =>
    refine .inr ⟨demandOpen_eq_ok hopen, ?_⟩
    dsimp only
    split
    · exact .inl ⟨_, rfl⟩
    · exact .inr rfl

/-- A request that has a text is sent on a channel that is open and not broken. -/
theorem sent_begin {signalled : Bool} {text : String} (expected : Expected) (method : String)
    (params : List Param) (hopen : c.demandOpen signalled = .ok ())
    (hrender : Outgoing.render (.single ⟨method, params, c.nextId⟩) = .ok text) :
    (c.begin expected method params signalled none).1.sent =
      c.sent ++ [.single ⟨method, params, c.nextId⟩] := by
  unfold begin hand
  rw [hopen]
  dsimp only
  rw [hrender]
  rfl

/-- Otherwise the operation fails, and nothing more is sent. -/
theorem begin_unsent {signalled : Bool} {broken : Option String} (expected : Expected)
    (method : String) (params : List Param)
    (h : ¬(c.demandOpen signalled = .ok () ∧ broken = none)) :
    (c.begin expected method params signalled broken).1.sent = c.sent ∧
      ∃ fault, (c.begin expected method params signalled broken).2 = .error fault := by
  unfold begin hand
  split
  · next fault _ => exact ⟨rfl, fault, rfl⟩
  · next hopen =>
    obtain ⟨reason, rfl⟩ := Option.ne_none_iff_exists'.mp fun hbroken => h ⟨hopen, hbroken⟩
    dsimp only
    cases Outgoing.render (.single ⟨method, params, c.nextId⟩) with
    | error fault => exact ⟨rfl, fault, rfl⟩
    | ok text => exact ⟨rfl, .transport reason none, rfl⟩

/-- What comes of a batch: it is refused, or uses up ids and is not sent, or it is launched. -/
theorem beginBatch_cases (c : Channel) (calls : List BatchCall) (signalled : Bool)
    (broken : Option String) :
    (∃ fault, c.beginBatch calls signalled broken = (c, .error fault)) ∨
    calls ≠ [] ∧ c.closed = none ∧
      ((∃ fault, c.beginBatch calls signalled broken =
        ({ c with nextId := c.nextId + calls.length }, .error fault)) ∨
      c.beginBatch calls signalled broken =
        (let ids := (List.range calls.length).map (c.nextId + ·)
        { c with
          nextId := c.nextId + calls.length
          pending := c.pending ++ ids.map fun id => (id, .entry)
          batches := c.batches ++ [ids]
          running := c.running ++ [{ id := c.nextId, ids, isBatch := true }]
          sent := c.sent ++ [.batch (Rpc.requests c.nextId calls)] }, .ok c.nextId)) := by
  unfold beginBatch
  split
  · exact .inl ⟨_, rfl⟩
  · exact .inl ⟨_, rfl⟩
  · next hcalls hopen =>
    refine .inr ⟨(Rpc.demandBatch_eq_ok.mp hcalls).1, demandOpen_eq_ok hopen, ?_⟩
    dsimp only
    split
    · exact .inl ⟨_, rfl⟩
    · exact .inr rfl

theorem effect_begin {begun : Prop} (expected : Expected) (method : String) (params : List Param)
    (signalled : Bool) (broken : Option String) (hkind : expected.isEntry = false) :
    c.requests.Effect (c.closed = none) begun
      (c.begin expected method params signalled broken).1.requests := by
  rcases begin_cases c expected method params signalled broken with
    ⟨fault, heq⟩ | ⟨hopen, ⟨fault, heq⟩ | heq⟩
  · rw [heq]
    exact .same
  · rw [heq]
    exact .begins hopen (.unsent 1)
  · rw [heq]
    exact .begins hopen (.launched (launches_single _ _ method params hkind))

theorem effect_beginBatch {begun : Prop} (calls : List BatchCall) (signalled : Bool)
    (broken : Option String) :
    c.requests.Effect (c.closed = none) begun (c.beginBatch calls signalled broken).1.requests := by
  rcases beginBatch_cases c calls signalled broken with
    ⟨fault, heq⟩ | ⟨hcalls, hopen, ⟨fault, heq⟩ | heq⟩
  · rw [heq]
    exact .same
  · rw [heq]
    exact .begins hopen (.unsent _)
  · have hlaunched := Requests.Begins.launched (r := c.requests) (launches_batch c.nextId hcalls)
    rw [Requests.launch, List.length_map, List.length_range] at hlaunched
    rw [heq]
    exact .begins hopen hlaunched

end Beginnings

/-! ## Failures -/

section Failures

theorem requests_fail (fault : Fault) (id : Nat) :
    (fail fault c id).requests = c.requests.fail fault id := by
  rw [fail, Requests.fail]
  change _ = if c.isPending id then _ else _
  split <;> rfl

theorem requests_foldl_fail (fault : Fault) (ids : List Nat) :
    (ids.foldl (fail fault) c).requests = ids.foldl (Requests.fail fault) c.requests := by
  induction ids generalizing c with
  | nil => rfl
  | cons id ids ih => rw [List.foldl_cons, List.foldl_cons, ih, requests_fail]

theorem effect_teardown (hbegun : c.reader.hasBegun = true) (reason : String) :
    c.requests.Effect (c.closed = none) (c.reader.hasBegun = true)
      (c.teardown reason).requests := by
  have hfault (error : ServerFault) : c.lastFault reason ≠ .server error := nofun
  rw [requests_teardown, requests_foldl_fail]
  exact .fails hbegun hfault _ (.inl rfl)

theorem effect_reject (hbegun : c.reader.hasBegun = true) (error : ServerFault) :
    c.requests.Effect (c.closed = none) (c.reader.hasBegun = true) (c.reject error).requests := by
  unfold reject
  split
  · exact .same
  · next ids hwaiting =>
    have hfault (other : ServerFault) : Fault.batchRejected error ≠ .server other := nofun
    rw [requests_foldl_fail]
    exact .fails hbegun hfault _ (.inr (List.mem_of_find?_eq_some hwaiting))

end Failures

/-! ## Answers -/

section Answers

/-- A text of another shape is no error of the service. -/
theorem decode_ne_server {shape : Rpc.Shape} {text : Bytes} {host : Host} {fault : Fault}
    (h : shape.decode text host = .error fault) (error : ServerFault) : fault ≠ .server error := by
  rcases Rpc.Shape.decode_eq_error h with rfl | ⟨flaw, rfl⟩ <;> exact nofun

/-- An answer settles its request with what the frame says. -/
theorem answer_cases (c : Channel) (id : Nat) (expected : Expected) (frame : Frame) :
    ∃ settlement, (c.answer id expected frame).requests =
        { c.requests with
          running := c.running.map fun op =>
            if op.ids.contains id then op.settle id settlement else op } ∧
      Fits c.config.host (c.answer id expected frame).numbers expected.isEntry frame settlement ∧
      ∀ k, settlement = .stream k → k = c.streams.length := by
  unfold answer
  split
  · exact ⟨_, rfl, ⟨rfl, rfl⟩, nofun⟩
  · next expected _ _ error hentry herror =>
    refine ⟨_, rfl, ⟨?_, fun other hother => ?_⟩, nofun⟩
    · cases expected with
      | entry => exact absurd rfl hentry
      | _ => rfl
    · cases hother
      exact herror
  · next herror => exact ⟨_, rfl, ⟨rfl, herror, rfl⟩, nofun⟩
  · next feed options herror =>
    split
    · next fault hdecode =>
      have hfault (error : ServerFault) : fault ≠ .server error := decode_ne_server hdecode error
      exact ⟨_, rfl, ⟨rfl, fun error heq => absurd heq (hfault error)⟩, nofun⟩
    · next reply hdecode =>
      split
      · next number hnumber =>
        refine ⟨_, rfl, ⟨rfl, herror, number, ?_, ?_⟩, fun k hk => (Settlement.stream.inj hk).symm⟩
        · rw [granted?, hdecode]
          dsimp only
          rw [hnumber]
        · change ((c.streams ++ [_]).map Stream.id)[c.streams.length]? = some number
          rw [← List.length_map (f := Stream.id), List.map_append, List.map_singleton,
            List.getElem?_concat_length]
          rfl
      · exact ⟨_, rfl, ⟨rfl, fun error => nofun⟩, nofun⟩

/-- The id of a frame is the id of the pending request that it answers, if there is one. -/
theorem resolve_cases (c : Channel) (id : Int) (frame : Frame) :
    c.resolve id frame = c ∧ (∀ n : Nat, (n : Int) = id → c.isPending n = false) ∨
    ∃ (n : Nat) (expected : Expected) (settlement : Settlement), (n : Int) = id ∧
      (n, expected) ∈ c.pending ∧
      (c.resolve id frame).requests = c.requests.settle n settlement ∧
      Fits c.config.host (c.resolve id frame).numbers expected.isEntry frame settlement ∧
      ∀ k, settlement = .stream k → k = c.streams.length := by
  unfold resolve
  split
  · next hnone =>
    refine .inl ⟨rfl, fun n hn => ?_⟩
    rw [isPending, List.any_eq_false]
    intro entry hentry hkey
    have hne := List.find?_eq_none.mp hnone entry hentry
    rw [beq_iff_eq.mp hkey, hn] at hne
    exact hne (decide_eq_true rfl)
  · next n expected hfind =>
    obtain ⟨settlement, hrequests, hfits, hnew⟩ := answer_cases (c.forget n) n expected frame
    have hn := List.find?_some hfind
    exact .inr ⟨n, expected, settlement, of_decide_eq_true hn, List.mem_of_find?_eq_some hfind,
      hrequests, hfits, hnew⟩

end Answers

/-! ## Moments -/

section Moments

/-- The frame with which a moment answers a pending request, if it does. -/
def Moment.answer? (m : Moment) (id : Nat) : Option Frame :=
  match m.act with
  | .route frame _ =>
    if frame.id = some (id : Int) ∧ m.before.isPending id then some frame else none
  | _ => none

theorem requests_consume (c : Channel) (index : Nat) (f : Stream → Stream × Received) :
    (c.consume index f).1.requests = c.requests := by
  rw [consume_eq]
  exact requests_modifyStream _

/-- Where a caller goes on, an operation that runs ends, or nothing happens. -/
theorem requests_finish (c : Channel) (op : Nat) (wake : Wake) :
    (c.finish op wake).1.requests = c.requests ∨
    ∃ o ∈ c.running, (c.finish op wake).1.requests = c.requests.retire o := by
  rcases finish_cases c op wake with
    heq | ⟨o, result, ho, -, -, ⟨heq, -⟩ | ⟨fault, index, -, -, heq⟩⟩
  · exact .inl (by rw [heq])
  · exact .inr ⟨o, List.mem_of_find?_eq_some ho, congrArg requests heq⟩
  · have hdiscard : (c.discard index).requests = c.requests := requests_discard
    refine .inr ⟨o, List.mem_of_find?_eq_some ho, ?_⟩
    rw [heq, ← hdiscard]
    rfl

theorem effect_release {begun : Prop} (c : Channel) (broken : Option String) :
    c.requests.Effect (c.closed = none) begun (c.release broken).1.requests := by
  unfold release
  split
  · exact .same
  · next method id orphans _ =>
    exact effect_begin (c := { c with orphans }) _ _ _ _ _ rfl

theorem effect_unsubscribe {begun : Prop} (c : Channel) (index : Nat) (broken : Option String) :
    c.requests.Effect (c.closed = none) begun (c.unsubscribe index broken).1.requests := by
  rcases unsubscribe_cases c index broken with heq | ⟨s, -, -, heq | ⟨method, params, heq⟩⟩
  · rw [heq]
    exact .same
  · rw [heq, requests_modifyStream]
    exact .same
  · have hclosed : ((c.deregister s.id).modifyStream index Stream.silence).closed = c.closed :=
      congrArg Subscriptions.closed (subscriptions_modifyStream _)
    have hbegins : Requests.Effect _ begun _ _ :=
      effect_begin (c := (c.deregister s.id).modifyStream index Stream.silence)
        .result method params false broken rfl
    rw [requests_modifyStream, requests_deregister, hclosed] at hbegins
    rw [heq]
    exact hbegins

/-- What an event in which nothing is read does to requests. -/
theorem requests_step {event : Event} (h : event.reads = false) :
    c.requests.Effect (c.closed = none) (c.reader.hasBegun = true)
      (c.step event).1.requests := by
  have hsame {after : Channel} (heq : after.requests = c.requests) :
      c.requests.Effect (c.closed = none) (c.reader.hasBegun = true) after.requests := by
    rw [heq]
    exact .same
  cases event with
  | call | subscribe => exact effect_begin _ _ _ _ _ rfl
  | batch => exact effect_beginBatch _ _ _
  | release broken => exact effect_release c broken
  | unsubscribe index broken => exact effect_unsubscribe c index broken
  | gather op => exact .gathers op
  | finish op wake =>
    rcases requests_finish c op wake with heq | ⟨o, ho, heq⟩
    · exact hsame heq
    · exact heq.symm ▸ .retires ho
  | accept | proceed => exact nomatch h
  | start =>
    obtain ⟨reader, heq⟩ := step_start_eq c
    exact hsame ((congrArg requests heq).trans rfl)
  | fail reason =>
    rcases step_fail_cases c reason with ⟨hbegun, heq⟩ | ⟨reader, -, heq⟩
    · exact heq.symm ▸ effect_teardown hbegun reason
    · exact hsame ((congrArg requests heq).trans rfl)
  | crash reason =>
    rcases step_crash_cases c reason with ⟨hbegun, heq⟩ | heq
    · exact heq.symm ▸ effect_teardown hbegun _
    · exact hsame (congrArg requests heq)
  | shut => exact .same
  | receive index task | resume index task => exact hsame (requests_consume _ _ _)
  | leave index task | watch index task => exact hsame (requests_modifyStream _)

theorem take_of_ok (hidle : after.reader = .idle) (h : c.route frame = .ok after) :
    c.take frame rest = after := by
  rw [take, h]
  dsimp only
  rw [hidle]

theorem requests_take_of_ok (h : c.route frame = .ok after) :
    (c.take frame rest).requests = after.requests := by
  rw [take, h]
  dsimp only
  split <;> rfl

theorem requests_retry (h : c.Ready .retry) : c.retry.requests = c.requests := by
  obtain ⟨id, index, rest, hstalled⟩ := h
  rw [retry, hstalled]
  dsimp only
  split
  · exact requests_modifyStream _
  · exact requests_sweep.trans (requests_modifyStream _)

/-- An act answers a pending request by a frame with its id, and no other request. -/
structure Answers (c : Channel) (act : Act) (id : Nat) (expected : Expected) (frame : Frame)
    (settlement : Settlement) : Prop where
  answer : (Moment.mk c act).answer? id = some frame
  others : ∀ other, other ≠ id → (Moment.mk c act).answer? other = none
  pending : (id, expected) ∈ c.pending
  requests : (c.perform act).requests = c.requests.settle id settlement
  fits : Fits c.config.host (c.perform act).numbers expected.isEntry frame settlement
  stream : ∀ k, settlement = .stream k → k = c.streams.length

/-- A frame with an id answers the pending request of that id, if there is one. -/
theorem answers_route {id : Int} (hidle : c.reader = .idle) (hid : frame.id = some id) :
    (∃ n expected settlement, Answers c (.route frame rest) n expected frame settlement) ∨
    (∀ n, (Moment.mk c (.route frame rest)).answer? n = none) ∧
      c.perform (.route frame rest) = c := by
  have hroute : c.route frame = .ok (c.resolve id frame) := by
    rw [route, hid]
  have htaken : c.perform (.route frame rest) = c.resolve id frame :=
    take_of_ok (reader_resolve.trans hidle) hroute
  rcases resolve_cases c id frame with ⟨heq, hunknown⟩ |
    ⟨n, expected, settlement, rfl, hpending, hrequests, hfits, hnew⟩
  · refine .inr ⟨fun n => if_neg fun hanswer => ?_, htaken.trans heq⟩
    have hn := hunknown n (Option.some.inj (hanswer.1.symm.trans hid))
    rw [hn] at hanswer
    cases hanswer.2
  · have hknown : c.isPending n = true :=
      List.any_eq_true.mpr ⟨(n, expected), hpending, beq_self_eq_true n⟩
    rw [← htaken] at hrequests hfits
    refine .inl ⟨n, expected, settlement, if_pos ⟨hid, hknown⟩, fun other hother => ?_, hpending,
      hrequests, hfits, hnew⟩
    refine if_neg fun hanswer => hother ?_
    exact Int.ofNat.inj (Option.some.inj (hanswer.1.symm.trans hid))

/-- A frame without an id may reject a batch, or end the reader. -/
theorem effect_take (hidle : c.reader = .idle) (hid : frame.id = none) :
    c.requests.Effect (c.closed = none) (c.reader.hasBegun = true)
      (c.take frame rest).requests := by
  have hbegun : c.reader.hasBegun = true := by
    rw [hidle]
    rfl
  cases hroute : c.route frame with
  | error fault =>
    rw [take_of_error hroute]
    exact effect_teardown hbegun _
  | ok after =>
    rw [requests_take_of_ok hroute]
    unfold route at hroute
    split at hroute
    · next hsome => cases hid.symm.trans hsome
    · rcases notify_eq_ok hroute with ⟨-, rfl⟩ | ⟨index, s, next, -, -, -, rfl⟩
      · exact .same
      · rw [requests_offered]
        exact .same
    · cases hroute
      exact effect_reject hbegun _
    · cases hroute
      exact .same

/-- **What becomes of requests in a moment.** It answers one of them by a frame with its id, or it
answers none. -/
theorem requests_perform {act : Act} (hready : c.Ready act) :
    (∃ id expected frame settlement, Answers c act id expected frame settlement) ∨
    (∀ id, (Moment.mk c act).answer? id = none) ∧
      c.requests.Effect (c.closed = none) (c.reader.hasBegun = true) (c.perform act).requests := by
  cases act with
  | event event => exact .inr ⟨fun _ => rfl, requests_step hready⟩
  | retry =>
    refine .inr ⟨fun _ => rfl, ?_⟩
    change c.requests.Effect _ _ c.retry.requests
    rw [requests_retry hready]
    exact .same
  | route frame rest =>
    cases hid : frame.id with
    | some id =>
      rcases answers_route hready hid with
        ⟨n, expected, settlement, hanswers⟩ | ⟨hnone, heq⟩
      · exact .inl ⟨n, expected, frame, settlement, hanswers⟩
      · refine .inr ⟨hnone, ?_⟩
        rw [heq]
        exact .same
    | none =>
      refine .inr ⟨fun id => if_neg fun hanswer => ?_, effect_take hready hid⟩
      cases hid.symm.trans hanswer.1

end Moments

end LedgerClient.Channel
