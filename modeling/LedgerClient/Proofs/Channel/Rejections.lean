import LedgerClient.Proofs.Channel.Correlation
import LedgerClient.Proofs.Channel.Teardown

/-!
# Rejected batches

A service that refuses a batch outright answers it with one error that has no id. Which batch such
an error is for can be told by order only, and the channel gives it to the oldest batch that waits.
Where the service answers batches in order, all batches before the one that it answers are answered
or given up, so the oldest batch that waits is the right one, if that one still waits. If its caller
has given up, the error falls on a later batch.

## Main definitions

* `Rpc.Frame.rejection?`: the error of a frame that is for no request
* `Channel.batchesSent`: the batches that were sent
* `Channel.Served`: a service answers batches in order
* `Channel.Attended`: batches that are answered in order, and what they are told

## Main results

* `Channel.attended_step`: where no error without id is read, no batch is told of one
* `Channel.Ordered.waitingBatch?`: the oldest batch that waits is the next to be answered, if that
  waits
* `Channel.batch_rejected`: which answers a batch may be told of
-/

namespace LedgerClient

/-- The error of a frame that has no id and is no notification. -/
def Rpc.Frame.rejection? (frame : Rpc.Frame) : Option ServerFault :=
  if frame.id.isNone && frame.notice.isNone then frame.error else none

namespace Channel

open Rpc (BatchCall Frame Param)

variable {config : Config} {c d : Channel} {r r' r'' : Requests} {frame : Frame}
  {frames : List Frame} {error : ServerFault} {id : Nat} {op : Operation}

/-- The ids of the requests of a batch that is sent. -/
def Outgoing.batch? : Outgoing → Option (List Nat)
  | .single _ => none
  | .batch requests => some (requests.map (·.id.toNat))

/-- The batches that were sent, in order. -/
def Requests.batchesSent (r : Requests) : List (List Nat) :=
  r.sent.filterMap Outgoing.batch?

/-- The batches that were sent, in order. -/
def batchesSent (c : Channel) : List (List Nat) :=
  c.requests.batchesSent

/-- How a service answers a batch: with a list of frames, or with one error without id. The error
is awaited if a request of the batch is pending when it comes. -/
inductive Ruling
  | entries
  | rejection (error : ServerFault) (awaited : Bool)

/-- A service answers batches in the order in which they were sent: each with frames that have ids,
those of its requests among them, or with one error without id. It sends no other error without
id. -/
inductive Served (config : Config) : List Ruling → List Event → Prop
  | start : Served config [] []
  | other {rulings : List Ruling} {events : List Event} {event : Event}
    (h : Served config rulings events)
    (hread : ∀ f ∈ (Channel.after events { config }).incoming event, f.rejection? = none) :
    Served config rulings (events ++ [event])
  | entries {rulings : List Ruling} {events : List Event} {text : Bytes} {frames : List Frame}
    {ids : List Nat} (h : Served config rulings events)
    (hnext : (Channel.after events { config }).batchesSent[rulings.length]? = some ids)
    (hidle : (Channel.after events { config }).reader = .idle)
    (hread : Rpc.Payload.read text config.host = .ok (.batch frames))
    (hids : ∀ f ∈ frames, f.id ≠ none) (hall : ∀ id ∈ ids, ∃ f ∈ frames, f.id = some (id : Int)) :
    Served config (rulings ++ [.entries]) (events ++ [.accept text])
  | rejection {rulings : List Ruling} {events : List Event} {text : Bytes} {frame : Frame}
    {error : ServerFault} {ids : List Nat} (h : Served config rulings events)
    (hnext : (Channel.after events { config }).batchesSent[rulings.length]? = some ids)
    (hidle : (Channel.after events { config }).reader = .idle)
    (hread : Rpc.Payload.read text config.host = .ok (.single frame))
    (herror : frame.rejection? = some error) :
    Served config
      (rulings ++ [.rejection error (ids.any (Channel.after events { config }).isPending)])
      (events ++ [.accept text])

theorem Served.quiet {rulings : List Ruling} {events : List Event} {event : Event}
    (h : Served config rulings events) (hreads : event.reads = false) :
    Served config rulings (events ++ [event]) := by
  refine h.other ?_
  cases event with
  | accept | proceed => cases hreads
  | _ => exact nofun

/-- Batches with ids in order, below a number. -/
structure Numbered (batches : List (List Nat)) (next : Nat) : Prop where
  apart : batches.Pairwise fun ids later => ∀ id ∈ ids, ∀ other ∈ later, id < other
  below : ∀ ids ∈ batches, ∀ id ∈ ids, id < next

/-- An answer to a batch, or to one before it that was not awaited. -/
def Ruled (rulings : List Ruling) (batches : List (List Nat)) (ids : List Nat)
    (error : ServerFault) : Prop :=
  ∃ (j k : Nat) (awaited : Bool), batches[j]? = some ids ∧ k ≤ j ∧
    rulings[k]? = some (.rejection error awaited) ∧ (awaited = true → k = j)

theorem Ruled.append {rulings : List Ruling} {batches : List (List Nat)} {ids : List Nat}
    (h : Ruled rulings batches ids error) (more : List (List Nat)) :
    Ruled rulings (batches ++ more) ids error := by
  obtain ⟨j, k, awaited, hids, hk, hruling, hawaited⟩ := h
  refine ⟨j, k, awaited, ?_, hk, hruling, hawaited⟩
  rw [List.getElem?_append_left (List.getElem?_eq_some_iff.mp hids).1]
  exact hids

theorem Ruled.concat {rulings : List Ruling} {batches : List (List Nat)} {ids : List Nat}
    (h : Ruled rulings batches ids error) (ruling : Ruling) :
    Ruled (rulings ++ [ruling]) batches ids error := by
  obtain ⟨j, k, awaited, hids, hk, hruling, hawaited⟩ := h
  refine ⟨j, k, awaited, hids, hk, ?_, hawaited⟩
  rw [List.getElem?_append_left (List.getElem?_eq_some_iff.mp hruling).1]
  exact hruling

/-- Batches that are answered in order: none that was answered waits any more, and those that wait
run in the order in which they were sent. -/
structure Ordered (rulings : List Ruling) (r : Requests) : Prop where
  count : rulings.length ≤ r.batchesSent.length
  numbered : Numbered r.batchesSent r.nextId
  batches : r.batches.Sublist r.batchesSent
  waits : ∀ ids ∈ r.batchesSent, ∀ id ∈ ids, r.isPending id = true → ids ∈ r.batches
  answered : ∀ (k : Nat) (ids : List Nat), k < rulings.length → r.batchesSent[k]? = some ids →
    ∀ id ∈ ids, r.isPending id = false

/-- Batches that are answered in order, and what they are told. -/
structure Attended (rulings : List Ruling) (r : Requests) : Prop extends Ordered rulings r where
  ruled : ∀ op ∈ r.running, ∀ id error, (id, .fault (.batchRejected error)) ∈ op.settled →
    Ruled rulings r.batchesSent op.ids error

/-! ## Batches while nothing rejects them -/

section Steps

variable {rulings : List Ruling}

/-- Requests that are settled are pending no more, and nothing else changes. -/
theorem Ordered.settled (h : Ordered rulings r) (hnext : r.nextId ≤ r'.nextId)
    (hsent : r'.sent = r.sent) (hbatches : r'.batches = r.batches)
    (hpending : ∀ id, r'.isPending id = true → r.isPending id = true) : Ordered rulings r' := by
  have hsame : r'.batchesSent = r.batchesSent := by
    rw [Requests.batchesSent, hsent, Requests.batchesSent]
  constructor <;> rw [hsame]
  · exact h.count
  · exact ⟨h.numbered.apart, fun ids hids id hid =>
      Nat.lt_of_lt_of_le (h.numbered.below ids hids id hid) hnext⟩
  · rw [hbatches]
    exact h.batches
  · intro ids hids id hid hwaits
    rw [hbatches]
    exact h.waits ids hids id hid (hpending id hwaits)
  · intro k ids hk hids id hid
    exact Bool.eq_false_iff.mpr fun hwaits =>
      Bool.false_ne_true ((h.answered k ids hk hids id hid).symm.trans (hpending id hwaits))

namespace Attended

theorem settle {settlement : Settlement} (h : Attended rulings r)
    (hsettlement : ∀ error, settlement ≠ .fault (.batchRejected error)) (id : Nat) :
    Attended rulings (r.settle id settlement) := by
  refine ⟨h.settled (Nat.le_refl _) rfl rfl fun n hn => ?_, fun told htold n error hmem => ?_⟩
  · rw [isPending_settle, Bool.and_eq_true] at hn
    exact hn.1
  · obtain ⟨op, hop, rfl⟩ := List.mem_map.mp htold
    split at hmem
    · rcases List.mem_append.mp hmem with hold | hnew
      · rw [if_pos ‹_›]
        exact h.ruled op hop n error hold
      · cases List.mem_singleton.mp hnew
        exact absurd rfl (hsettlement error)
    · rw [if_neg ‹_›]
      exact h.ruled op hop n error hmem

theorem fails {fault : Fault} (h : Attended rulings r)
    (hfault : ∀ error, fault ≠ .batchRejected error) (ids : List Nat) :
    Attended rulings (ids.foldl (Requests.fail fault) r) := by
  induction ids generalizing r with
  | nil => exact h
  | cons id ids ih =>
    refine ih ?_
    rw [Requests.fail]
    split
    · exact h.settle (fun error heq => hfault error (Settlement.fault.inj heq)) id
    · exact h

theorem gather (h : Attended rulings r) (n : Nat) : Attended rulings (r.gather n) := by
  refine ⟨h.settled (Nat.le_refl _) rfl rfl fun _ => id, fun told htold id error hmem => ?_⟩
  obtain ⟨op, hop, rfl⟩ := List.mem_map.mp htold
  split at hmem
  · rw [if_pos ‹_›]
    exact h.ruled op hop id error hmem
  · rw [if_neg ‹_›]
    exact h.ruled op hop id error hmem

theorem unsent (h : Attended rulings r) (n : Nat) :
    Attended rulings { r with nextId := r.nextId + n } :=
  ⟨h.settled (Nat.le_add_right _ _) rfl rfl fun _ => id, h.ruled⟩

theorem retire (h : Attended rulings r) (op : Operation) : Attended rulings (r.retire op) := by
  have hpending (id : Nat) (hid : (r.retire op).isPending id = true) :
      r.isPending id = true ∧ id ∉ op.ids := by
    obtain ⟨expected, hmem⟩ := isPending_iff.mp hid
    obtain ⟨hmem, hnot⟩ := List.mem_filter.mp hmem
    refine ⟨isPending_iff.mpr ⟨expected, hmem⟩, fun hown => ?_⟩
    rw [List.contains_iff_mem.mpr hown] at hnot
    cases hnot
  refine ⟨⟨h.count, h.numbered, ?_, fun ids hids id hid hwaits => ?_,
    fun k ids hk hids id hid => ?_⟩, fun told htold => h.ruled told (List.mem_filter.mp htold).1⟩
  · refine List.Sublist.trans ?_ h.batches
    rw [Requests.retire]
    dsimp only
    split
    · exact List.erase_sublist
    · exact List.Sublist.refl _
  · obtain ⟨hwaits, hnot⟩ := hpending id hwaits
    have hmem := h.waits ids hids id hid hwaits
    rw [Requests.retire]
    dsimp only
    split
    · refine (List.mem_erase_of_ne ?_).mpr hmem
      rintro rfl
      exact hnot hid
    · exact hmem
  · exact Bool.eq_false_iff.mpr fun hwaits =>
      Bool.false_ne_true ((h.answered k ids hk hids id hid).symm.trans (hpending id hwaits).1)

end Attended

/-! ### A batch that is launched -/

section Launches

variable {expected : Expected} {outgoing : Outgoing}

/-- The batches sent grow by the operation, if it is a batch. -/
theorem batchesSent_launch (r : Requests) (expected : Expected)
    (hbatch : outgoing.batch? = if op.isBatch then some op.ids else none) :
    (r.launch op expected outgoing).batchesSent =
      r.batchesSent ++ if op.isBatch then [op.ids] else [] := by
  rw [Requests.batchesSent, Requests.launch]
  dsimp only
  rw [List.filterMap_append, List.filterMap_cons, hbatch]
  cases op.isBatch <;> rfl

/-- So do those that run. -/
theorem batches_launch (r : Requests) (expected : Expected) (outgoing : Outgoing) :
    (r.launch op expected outgoing).batches =
      r.batches ++ if op.isBatch then [op.ids] else [] := by
  rw [Requests.launch]
  dsimp only
  split
  · rfl
  · exact (List.append_nil _).symm

theorem mem_launched {ids : List Nat} (hids : ids ∈ if op.isBatch then [op.ids] else []) :
    ids = op.ids := by
  split at hids
  · exact List.mem_singleton.mp hids
  · cases hids

/-- A batch that is launched has ids above all others. -/
theorem Numbered.launch (h : Numbered r.batchesSent r.nextId)
    (hlaunches : Requests.Launches r.nextId op expected outgoing) :
    Numbered (r.batchesSent ++ if op.isBatch then [op.ids] else [])
      (r.nextId + op.ids.length) := by
  constructor
  · refine List.pairwise_append.mpr
      ⟨h.apart, ?_, fun ids hids later hlater id hid other hother => ?_⟩
    · split
      · exact List.pairwise_singleton _ _
      · exact .nil
    · rw [mem_launched hlater] at hother
      exact Nat.lt_of_lt_of_le (h.below ids hids id hid) (hlaunches.bound hother).1
  · intro ids hids id hid
    rcases List.mem_append.mp hids with hids | hids
    · exact Nat.lt_add_right _ (h.below ids hids id hid)
    · rw [mem_launched hids] at hid
      exact (hlaunches.bound hid).2

theorem Ordered.launch (h : Ordered rulings r)
    (hlaunches : Requests.Launches r.nextId op expected outgoing)
    (hbatch : outgoing.batch? = if op.isBatch then some op.ids else none) :
    Ordered rulings (r.launch op expected outgoing) := by
  -- The ids of batches that were sent before are not those of this one.
  have hold {ids : List Nat} (hids : ids ∈ r.batchesSent) {id : Nat} (hid : id ∈ ids)
      (hwaits : (r.launch op expected outgoing).isPending id = true) : r.isPending id = true :=
    hlaunches.isPending_of_lt (h.numbered.below ids hids id hid) hwaits
  constructor <;> rw [batchesSent_launch r expected hbatch]
  · rw [List.length_append]
    exact Nat.le_add_right_of_le h.count
  · exact h.numbered.launch hlaunches
  · rw [batches_launch]
    exact h.batches.append_right _
  · intro ids hids id hid hwaits
    rw [batches_launch]
    rcases List.mem_append.mp hids with hids | hids
    · exact List.mem_append_left _ (h.waits ids hids id hid (hold hids hid hwaits))
    · exact List.mem_append_right _ hids
  · intro k ids hk hids id hid
    rw [List.getElem?_append_left (Nat.lt_of_lt_of_le hk h.count)] at hids
    exact Bool.eq_false_iff.mpr fun hwaits => Bool.false_ne_true
      ((h.answered k ids hk hids id hid).symm.trans
        (hold (List.mem_of_getElem? hids) hid hwaits))

theorem Attended.launch (h : Attended rulings r)
    (hlaunches : Requests.Launches r.nextId op expected outgoing)
    (hbatch : outgoing.batch? = if op.isBatch then some op.ids else none) :
    Attended rulings (r.launch op expected outgoing) := by
  refine ⟨h.toOrdered.launch hlaunches hbatch, fun told htold id error hmem => ?_⟩
  rw [batchesSent_launch r expected hbatch]
  rcases List.mem_append.mp htold with hbefore | hlaunched
  · exact (h.ruled told hbefore id error hmem).append _
  · cases List.mem_singleton.mp hlaunched
    rw [hlaunches.settled] at hmem
    cases hmem

end Launches

/-! ### Events -/

theorem attended_begin (h : Attended rulings c.requests) (expected : Expected) (method : String)
    (params : List Param) (signalled : Bool) (broken : Option String)
    (hkind : expected.isEntry = false) :
    Attended rulings (c.begin expected method params signalled broken).1.requests := by
  unfold begin
  split
  · exact h
  · dsimp only
    split
    · exact h.unsent 1
    · exact h.launch (launches_single _ _ method params hkind) rfl

theorem attended_beginBatch (h : Attended rulings c.requests) (calls : List BatchCall)
    (signalled : Bool) (broken : Option String) :
    Attended rulings (c.beginBatch calls signalled broken).1.requests := by
  unfold beginBatch
  split
  · exact h
  · exact h
  · next hcalls _ =>
    dsimp only
    split
    · exact h.unsent _
    · have hids := congrArg (List.map Int.toNat) (Rpc.map_id_requests c.nextId calls)
      rw [List.map_map, List.map_map] at hids
      have hlaunched := h.launch (launches_batch c.nextId (Rpc.demandBatch_eq_ok.mp hcalls).1)
        (congrArg some (hids.trans (List.map_id _)))
      rw [Requests.launch, List.length_map, List.length_range, List.map_map] at hlaunched
      rw [List.map_map]
      exact hlaunched

theorem attended_teardown (h : Attended rulings c.requests) (reason : String) :
    Attended rulings (c.teardown reason).requests := by
  have hfault (error : ServerFault) : c.lastFault reason ≠ .batchRejected error := nofun
  rw [requests_teardown, requests_foldl_fail]
  exact h.fails hfault _

/-- An answer is no rejection. -/
theorem attended_resolve (h : Attended rulings c.requests) (id : Int) (frame : Frame) :
    Attended rulings (c.resolve id frame).requests := by
  unfold resolve
  split
  · exact h
  · next n expected _ =>
    have hsettle {settlement : Settlement}
        (hsettlement : ∀ error, settlement ≠ .fault (.batchRejected error)) :
        Attended rulings (c.requests.settle n settlement) := h.settle hsettlement n
    unfold answer
    split
    · exact hsettle fun error => nofun
    · exact hsettle fun error => nofun
    · exact hsettle fun error => nofun
    · split
      · next fault hdecode =>
        refine hsettle fun error heq => ?_
        rcases Rpc.Shape.decode_eq_error hdecode with rfl | ⟨flaw, rfl⟩ <;> cases heq
      · split
        · exact hsettle fun error => nofun
        · exact hsettle fun error => nofun

theorem attended_route (h : Attended rulings c.requests) (hrejection : frame.rejection? = none)
    (hroute : c.route frame = .ok d) : Attended rulings d.requests := by
  unfold route at hroute
  split at hroute
  · cases hroute
    exact attended_resolve h _ _
  · rcases notify_eq_ok hroute with ⟨-, rfl⟩ | ⟨index, s, next, -, -, -, rfl⟩
    · exact h
    · rwa [requests_offered]
  · next hid hnotice herror =>
    rw [Rpc.Frame.rejection?, hid, hnotice, herror] at hrejection
    cases hrejection
  · cases hroute
    exact h

theorem attended_routeAll (h : Attended rulings c.requests)
    (hframes : ∀ f ∈ frames, f.rejection? = none) :
    Attended rulings (routeAll frames c).requests := by
  induction frames generalizing c with
  | nil => exact h
  | cons frame frames ih =>
    obtain ⟨hframe, hframes⟩ := List.forall_mem_cons.mp hframes
    rw [routeAll]
    split
    · exact attended_teardown h _
    · next after hroute =>
      have hrouted := attended_route h hframe hroute
      split
      · exact hrouted
      · exact ih hrouted hframes

/-- Where an event leaves requests as they are, so it does what batches are told. -/
theorem Attended.congr (h : Attended rulings c.requests) (heq : d.requests = c.requests) :
    Attended rulings d.requests := by
  rwa [heq]

theorem attended_release (h : Attended rulings c.requests) (broken : Option String) :
    Attended rulings (c.release broken).1.requests := by
  unfold release
  split
  · exact h
  · next method id orphans _ =>
    exact attended_begin (c := { c with orphans }) h _ _ _ _ _ rfl

theorem attended_unsubscribe (h : Attended rulings c.requests) (index : Nat)
    (broken : Option String) : Attended rulings (c.unsubscribe index broken).1.requests := by
  rcases unsubscribe_cases c index broken with heq | ⟨s, -, -, heq | ⟨method, params, heq⟩⟩
  · exact h.congr (congrArg requests heq)
  · rw [heq]
    exact h.congr (requests_modifyStream _)
  · rw [heq]
    exact attended_begin (c := (c.deregister s.id).modifyStream index Stream.silence)
      (h.congr (requests_modifyStream _)) .result method params false broken rfl

theorem attended_finish (h : Attended rulings c.requests) (n : Nat) (wake : Wake) :
    Attended rulings (c.finish n wake).1.requests := by
  rcases requests_finish c n wake with heq | ⟨o, -, heq⟩
  · exact h.congr heq
  · rw [heq]
    exact h.retire o

theorem attended_accept {text : Bytes} (h : Attended rulings c.requests)
    (hread : ∀ f ∈ c.incoming (.accept text), f.rejection? = none) :
    Attended rulings (c.step (.accept text)).1.requests := by
  rw [incoming] at hread
  rw [step]
  cases hreader : c.reader with
  | idle =>
    change Attended rulings (c.accept text).requests
    rw [accept]
    cases hpayload : Rpc.Payload.read text c.config.host with
    | ok payload =>
      rw [hreader, hpayload] at hread
      exact attended_routeAll h hread
    | error fault =>
      cases fault with
      | misuse cause => exact attended_teardown h _
      | _ => exact h
  | _ => exact h

theorem attended_proceed (h : Attended rulings c.requests)
    (hread : ∀ f ∈ c.incoming .proceed, f.rejection? = none) :
    Attended rulings c.proceed.requests := by
  rw [incoming] at hread
  unfold proceed
  cases hreader : c.reader with
  | stalled id index rest =>
    rw [hreader] at hread
    dsimp only
    split
    · exact h.congr (requests_modifyStream _)
    · exact attended_routeAll (h.congr (requests_sweep.trans (requests_modifyStream _))) hread
  | _ => exact h

/-- **Where no error without id is read, no batch is told of one.** -/
theorem attended_step {event : Event} (h : Attended rulings c.requests)
    (hread : ∀ f ∈ c.incoming event, f.rejection? = none) :
    Attended rulings (c.step event).1.requests := by
  cases event with
  | call | subscribe => exact attended_begin h _ _ _ _ _ rfl
  | batch => exact attended_beginBatch h _ _ _
  | release broken => exact attended_release h broken
  | unsubscribe index broken => exact attended_unsubscribe h index broken
  | gather op => exact h.gather op
  | finish op wake => exact attended_finish h op wake
  | accept text => exact attended_accept h hread
  | proceed => exact attended_proceed h hread
  | start =>
    obtain ⟨reader, heq⟩ := step_start_eq c
    exact h.congr ((congrArg requests heq).trans rfl)
  | fail reason =>
    rcases step_fail_cases c reason with ⟨-, heq⟩ | ⟨reader, -, heq⟩
    · exact heq ▸ attended_teardown h reason
    · exact h.congr ((congrArg requests heq).trans rfl)
  | crash reason =>
    rcases step_crash_cases c reason with ⟨-, heq⟩ | heq
    · exact heq ▸ attended_teardown h _
    · exact h.congr (congrArg requests heq)
  | shut => exact h
  | receive index task | resume index task => exact h.congr (requests_consume _ _ _)
  | leave index task | watch index task => exact h.congr (requests_modifyStream _)

end Steps

/-! ## Answers to batches -/

section Answers

variable {rulings : List Ruling} {ids next : List Nat}

/-- An error without id is for the oldest batch that waits. -/
theorem route_rejection (c : Channel) (h : frame.rejection? = some error) :
    c.route frame = .ok (c.reject error) := by
  rw [Rpc.Frame.rejection?] at h
  split at h
  · next hnone =>
    rw [Bool.and_eq_true, Option.isNone_iff_eq_none, Option.isNone_iff_eq_none] at hnone
    rw [route, hnone.1, hnone.2, h]
  · cases h

/-- A batch of which nothing is pending is answered. -/
theorem Ordered.concat (h : Ordered rulings r) (hnext : r.batchesSent[rulings.length]? = some ids)
    (hnone : ∀ id ∈ ids, r.isPending id = false) (ruling : Ruling) :
    Ordered (rulings ++ [ruling]) r := by
  refine ⟨?_, h.numbered, h.batches, h.waits, fun k other hk hother id hid => ?_⟩
  · rw [List.length_append]
    exact (List.getElem?_eq_some_iff.mp hnext).1
  · rw [List.length_append, List.length_singleton] at hk
    rcases Nat.lt_or_eq_of_le (Nat.le_of_lt_succ hk) with hbefore | rfl
    · exact h.answered k other hbefore hother id hid
    · cases hnext.symm.trans hother
      exact hnone id hid

theorem Attended.concat (h : Attended rulings r) (hnext : r.batchesSent[rulings.length]? = some ids)
    (hnone : ∀ id ∈ ids, r.isPending id = false) (ruling : Ruling) :
    Attended (rulings ++ [ruling]) r :=
  ⟨h.toOrdered.concat hnext hnone ruling,
    fun op hop id error hmem => (h.ruled op hop id error hmem).concat ruling⟩

/-- A frame with an id takes the request of that id from those that are pending. -/
theorem resolve_sent_pending (c : Channel) (n : Int) (frame : Frame) :
    (c.resolve n frame).sent = c.sent ∧ ∀ id : Nat, (c.resolve n frame).isPending id = true →
      c.isPending id = true ∧ (id : Int) ≠ n := by
  rcases resolve_cases c n frame with ⟨heq, hunknown⟩ |
    ⟨k, expected, settlement, rfl, -, hrequests, -⟩
  · rw [heq]
    exact ⟨rfl, fun id h => ⟨h, fun hid => Bool.false_ne_true ((hunknown id hid).symm.trans h)⟩⟩
  · refine ⟨congrArg Requests.sent hrequests, fun id h => ?_⟩
    change (c.resolve k frame).requests.isPending id = true at h
    rw [hrequests, isPending_settle, Bool.and_eq_true, bne_iff_ne] at h
    exact ⟨h.1, fun hid => h.2 (Int.ofNat.inj hid)⟩

/-- Nothing is pending that frames with ids have answered. -/
theorem routeAll_sent_pending (hidle : c.reader = .idle) (hids : ∀ f ∈ frames, f.id ≠ none) :
    (routeAll frames c).sent = c.sent ∧ ∀ id : Nat, (routeAll frames c).isPending id = true →
      c.isPending id = true ∧ ∀ f ∈ frames, f.id ≠ some (id : Int) := by
  induction frames generalizing c with
  | nil => exact ⟨rfl, fun id h => ⟨h, nofun⟩⟩
  | cons frame frames ih =>
    obtain ⟨hframe, hframes⟩ := List.forall_mem_cons.mp hids
    obtain ⟨n, hn⟩ := Option.ne_none_iff_exists'.mp hframe
    have hroute : c.route frame = .ok (c.resolve n frame) := by rw [route, hn]
    have hreader : (c.resolve n frame).reader = .idle := reader_resolve.trans hidle
    obtain ⟨hsent, hpending⟩ := resolve_sent_pending c n frame
    obtain ⟨hsent', hpending'⟩ := ih hreader hframes
    rw [routeAll_of_idle hroute hreader]
    refine ⟨hsent'.trans hsent, fun id h => ?_⟩
    obtain ⟨hwaits, hothers⟩ := hpending' id h
    obtain ⟨hwaits, hne⟩ := hpending id hwaits
    refine ⟨hwaits, List.forall_mem_cons.mpr ⟨fun hid => hne ?_, hothers⟩⟩
    exact Option.some.inj (hid.symm.trans hn)

theorem attended_entries {text : Bytes} (h : Attended rulings c.requests)
    (hnext : c.batchesSent[rulings.length]? = some ids) (hidle : c.reader = .idle)
    (hread : Rpc.Payload.read text c.config.host = .ok (.batch frames))
    (hids : ∀ f ∈ frames, f.id ≠ none)
    (hall : ∀ id ∈ ids, ∃ f ∈ frames, f.id = some (id : Int)) :
    Attended (rulings ++ [.entries]) (c.step (.accept text)).1.requests := by
  have hstep : (c.step (.accept text)).1 = routeAll frames c := by
    rw [step, hidle, accept, hread]
    rfl
  have hframes : ∀ f ∈ frames, f.rejection? = none := by
    intro f hf
    obtain ⟨n, hn⟩ := Option.ne_none_iff_exists'.mp (hids f hf)
    rw [Rpc.Frame.rejection?, hn]
    rfl
  obtain ⟨hsent, hpending⟩ := routeAll_sent_pending hidle hids
  have hafter : (routeAll frames c).requests.batchesSent[rulings.length]? = some ids := by
    change ((routeAll frames c).sent.filterMap Outgoing.batch?)[_]? = _
    rw [hsent]
    exact hnext
  rw [hstep]
  refine (attended_routeAll h hframes).concat hafter (fun id hid => ?_) _
  obtain ⟨f, hf, hfid⟩ := hall id hid
  exact Bool.eq_false_iff.mpr fun hwaits => (hpending id hwaits).2 f hf hfid

/-- The oldest batch that waits is the next to be answered, if that waits. -/
theorem Ordered.waitingBatch? (h : Ordered rulings c.requests)
    (hwaiting : c.waitingBatch? = some ids) :
    ∃ j, c.batchesSent[j]? = some ids ∧ rulings.length ≤ j ∧
      ∀ next, c.batchesSent[rulings.length]? = some next → next.any c.isPending = true →
        rulings.length = j := by
  have hmem : ids ∈ c.batches := List.mem_of_find?_eq_some hwaiting
  have hpending := List.find?_some (p := fun ids : List Nat => ids.any c.isPending) hwaiting
  obtain ⟨id, hid, hwaits⟩ := List.any_eq_true.mp hpending
  obtain ⟨j, hj⟩ := List.getElem?_of_mem (h.batches.subset hmem)
  have hle : rulings.length ≤ j := Nat.le_of_not_lt fun hlt =>
    Bool.false_ne_true ((h.answered j ids hlt hj id hid).symm.trans hwaits)
  refine ⟨j, hj, hle, fun next hnext hany => ?_⟩
  obtain ⟨n, hn, hwaits'⟩ := List.any_eq_true.mp hany
  have hrunning := h.waits next (List.mem_of_getElem? hnext) n hn hwaits'
  refine Nat.le_antisymm hle (Nat.le_of_not_lt fun hlt => ?_)
  -- The next batch was sent before this one, so it comes first among those that run.
  have hbefore : ∀ id ∈ next, ∀ other ∈ ids, id < other := by
    have hapart := List.pairwise_iff_getElem.mp h.numbered.apart
    obtain ⟨hk, rfl⟩ := List.getElem?_eq_some_iff.mp hnext
    obtain ⟨hjlt, rfl⟩ := List.getElem?_eq_some_iff.mp hj
    exact hapart _ _ hk hjlt hlt
  obtain ⟨-, older, younger, hsplit, hnone⟩ := List.find?_eq_some_iff_append.mp hwaiting
  have hapart := h.numbered.apart.sublist h.batches
  change next ∈ c.batches at hrunning
  change c.batches.Pairwise _ at hapart
  rw [hsplit] at hrunning hapart
  rcases List.mem_append.mp hrunning with holder | hmem
  · have hquiet := hnone next holder
    rw [hany] at hquiet
    cases hquiet
  · rcases List.mem_cons.mp hmem with rfl | hyounger
    · exact Nat.lt_irrefl n (hbefore n hn n hn)
    · have hapart := (List.pairwise_cons.mp (List.pairwise_append.mp hapart).2.1).1 next hyounger
      exact Nat.lt_asymm (hbefore n hn id hid) (hapart id hid n hn)

section Rejected

variable {past : List Moment}

theorem batchesSent_foldl_fail (fault : Fault) (ids : List Nat) (r : Requests) :
    (ids.foldl (Requests.fail fault) r).batchesSent = r.batchesSent := by
  rw [Requests.batchesSent, sent_foldl_fail, Requests.batchesSent]

/-- If the next batch waits, it is the one that is rejected; so it is answered. -/
theorem Ordered.reject {j : Nat} (h : Ordered rulings r)
    (hnext : r.batchesSent[rulings.length]? = some next) (hj : r.batchesSent[j]? = some ids)
    (hawaited : next.any r.isPending = true → rulings.length = j) (fault : Fault)
    (ruling : Ruling) :
    Ordered (rulings ++ [ruling]) (ids.foldl (Requests.fail fault) r) := by
  have hordered : Ordered rulings (ids.foldl (Requests.fail fault) r) := by
    refine h.settled (Nat.le_of_eq (nextId_foldl_fail fault ids r).symm)
      (sent_foldl_fail fault ids r) ?_ fun id hid => ?_
    · rw [foldl_fail_eq]
    · rw [isPending_foldl_fail, Bool.and_eq_true] at hid
      exact hid.1
  refine hordered.concat ((batchesSent_foldl_fail fault ids r).symm ▸ hnext) (fun id hid => ?_) _
  rw [isPending_foldl_fail]
  cases hwaits : r.isPending id with
  | false => rfl
  | true =>
    rw [← hawaited (List.any_eq_true.mpr ⟨id, hid, hwaits⟩)] at hj
    cases hj.symm.trans hnext
    rw [List.contains_iff_mem.mpr hid]
    rfl

/-- Who is told of a rejection is the batch that is rejected. -/
theorem Reached.ids_of_told {batch told : Operation} {fault : Fault}
    {more : List (Nat × Settlement)} (hreached : Reached config past c) (hop : op ∈ c.running)
    (hbatch : batch ∈ c.running) (htell : op.Fails fault batch.ids c.requests told)
    (hmore : told.settled = op.settled ++ more) (hnew : more ≠ []) : op.ids = batch.ids := by
  refine Decidable.byContradiction fun hne => ?_
  have huntold := htell.untold fun n hn hmine => absurd
    (congrArg Operation.ids (hreached.accounted.unique hop hbatch hmine hn)) hne
  rw [huntold, List.self_eq_append_right] at hmore
  exact hnew hmore

/-- An error without id answers the next batch. The batch that is told so is the oldest one that
waits. -/
theorem attended_reject (h : Attended rulings c.requests)
    (hreached : Reached config past c) (hnext : c.batchesSent[rulings.length]? = some next)
    (error : ServerFault) :
    Attended (rulings ++ [.rejection error (next.any c.isPending)]) (c.reject error).requests := by
  cases hwaiting : c.waitingBatch? with
  | none =>
    have hsame : c.reject error = c := by rw [reject, hwaiting]
    rw [hsame]
    refine h.concat hnext (fun id hid => Bool.eq_false_iff.mpr fun hwaits => ?_) _
    have hmem := h.waits next (List.mem_of_getElem? hnext) id hid hwaits
    exact List.find?_eq_none.mp hwaiting next hmem (List.any_eq_true.mpr ⟨id, hid, hwaits⟩)
  | some ids =>
    obtain ⟨j, hj, hle, hawaited⟩ := h.toOrdered.waitingBatch? hwaiting
    have hrequests : (c.reject error).requests =
        ids.foldl (Requests.fail (.batchRejected error)) c.requests := by
      rw [reject, hwaiting]
      exact requests_foldl_fail _ _
    rw [hrequests]
    refine ⟨h.toOrdered.reject hnext hj (hawaited next hnext) _ _,
      fun told htold id other hmem => ?_⟩
    obtain ⟨tell, hrunning, htell⟩ := exists_fails (.batchRejected error) ids c.requests
    rw [hrunning] at htold
    obtain ⟨op, hop, rfl⟩ := List.mem_map.mp htold
    obtain ⟨more, hmore, hfaults, -⟩ := (htell op).settled
    rw [batchesSent_foldl_fail, (htell op).sameIds]
    rw [hmore] at hmem
    rcases List.mem_append.mp hmem with hold | hnew
    · exact (h.ruled op hop id other hold).concat _
    · cases hfaults _ hnew
      have hbatch : ids ∈ c.requests.batches := List.mem_of_find?_eq_some hwaiting
      rw [hreached.awaits.batches] at hbatch
      obtain ⟨batch, hrejected, rfl⟩ := List.mem_map.mp hbatch
      rw [hreached.ids_of_told hop (List.mem_filter.mp hrejected).1 (htell op) hmore
        (List.ne_nil_of_mem hnew)]
      exact ⟨j, rulings.length, _, hj, hle, List.getElem?_concat_length, hawaited next hnext⟩

end Rejected

/-- An error without id that is awaited fails its own batch. -/
theorem Attended.reject_awaited {past : List Moment} (h : Attended rulings c.requests)
    (hreached : Reached config past c) (hnext : c.batchesSent[rulings.length]? = some ids)
    (hid : id ∈ ids) (hwaits : c.isPending id = true) (error : ServerFault) :
    ∃ o ∈ c.running, o.ids = ids ∧
      (((c.reject error).gather o.id).finish o.id .answer).2 =
        some (.failed (.batchRejected error)) := by
  have hany : ids.any c.isPending = true := List.any_eq_true.mpr ⟨id, hid, hwaits⟩
  have hbatch : ids ∈ c.requests.batches := h.waits ids (List.mem_of_getElem? hnext) id hid hwaits
  cases hwaiting : c.waitingBatch? with
  | none => exact absurd hany (List.find?_eq_none.mp hwaiting ids hbatch)
  | some other =>
    obtain ⟨j, hj, -, hawaited⟩ := h.toOrdered.waitingBatch? hwaiting
    rw [← hawaited ids hnext hany] at hj
    cases hj.symm.trans hnext
    rw [hreached.awaits.batches] at hbatch
    obtain ⟨o, ho, rfl⟩ := List.mem_map.mp hbatch
    have ho := (List.mem_filter.mp ho).1
    obtain ⟨tell, hrunning, htell⟩ := exists_fails (.batchRejected error) o.ids c.requests
    have hafter : (c.reject error).running = c.running.map tell := by
      rw [reject, hwaiting]
      exact (congrArg Requests.running (requests_foldl_fail _ _)).trans hrunning
    refine ⟨o, ho, rfl, ?_⟩
    have htold : tell o ∈ (c.reject error).running := hafter ▸ List.mem_map_of_mem ho
    rw [← (htell o).sameId]
    refine finish_gather_of_told htold fun told htold hsame => ?_
    change told ∈ (c.reject error).running at htold
    rw [hafter] at htold
    obtain ⟨first, hfirst, rfl⟩ := List.mem_map.mp htold
    rw [(htell first).sameId, (htell o).sameId] at hsame
    cases hreached.accounted.eq_of_id ho hfirst hsame
    exact (htell o).firstFault hid hid hwaits (hreached.awaits.unfailed o ho id hid hwaits)

/-- **What is known of batches while they are answered in order.** -/
theorem Served.attended {events : List Event} (h : Served config rulings events) :
    Attended rulings (Channel.after events { config }).requests := by
  have hafter (events : List Event) (event : Event) :
      Channel.after (events ++ [event]) { config } =
        ((Channel.after events { config }).step event).1 := by
    rw [Channel.after, List.foldl_append]
    rfl
  induction h with
  | start =>
    refine ⟨⟨Nat.le_refl _, ⟨.nil, ?_⟩, List.Sublist.refl _, ?_, ?_⟩, ?_⟩
    · exact fun _ hmem => absurd hmem List.not_mem_nil
    · exact fun _ hmem => absurd hmem List.not_mem_nil
    · exact fun _ _ hk => absurd hk (Nat.not_lt_zero _)
    · exact fun _ hmem => absurd hmem List.not_mem_nil
  | other _ hread ih =>
    rw [hafter]
    exact attended_step ih hread
  | entries _ hnext hidle hread hids hall ih =>
    rw [hafter]
    refine attended_entries ih hnext hidle ?_ hids hall
    rwa [Leads.config_eq (leads_after _ _)]
  | @rejection rulings events text frame error ids _ hnext hidle hread herror ih =>
    have hstep : ((Channel.after events { config }).step (.accept text)).1 =
        routeAll [frame] (Channel.after events { config }) := by
      rw [step, hidle, accept, Leads.config_eq (leads_after _ _), hread]
      rfl
    have hrouted := route_rejection (Channel.after events { config }) herror
    have hrejected : routeAll [frame] (Channel.after events { config }) =
        (Channel.after events { config }).reject error := by
      have hreader := (reader_reject error).trans hidle
      rw [routeAll_of_idle hrouted hreader, routeAll_nil hreader]
    rw [hafter, hstep, hrejected]
    exact attended_reject ih (reached_after config events) hnext error

/-- A caller that is told of a rejection has a request that was rejected. -/
theorem mem_settled_of_rejected {wake : Wake}
    (h : op.verdict? wake = some (.failed (.batchRejected error))) :
    ∃ id, (id, .fault (.batchRejected error)) ∈ op.settled := by
  have hresult : op.result = .failed (.batchRejected error) := by
    unfold Operation.verdict? at h
    split at h
    · cases h
    · cases h
    · split at h
      · exact Option.some.inj h
      · split at h <;> cases h
  unfold Operation.result at hresult
  split at hresult
  · next fault hfault =>
    cases hresult
    exact mem_of_firstFault hfault
  · split at hresult
    · cases hresult
    · split at hresult <;> cases hresult

end Answers

/-- **Which answers a batch may be told of.** A service answers batches in the order in which they
were sent, each with a list of frames that answers all its requests or with one error without id. A
batch that is told of such an error is told of the answer to itself, or of the answer to an earlier
batch that no one awaited any more. An error that comes while a request of its own batch is pending
fails that batch. -/
theorem batch_rejected (config : Config) (rulings : List Ruling) (events : List Event)
    (h : Served config rulings events) :
    let c := Channel.after events { config }
    (∀ op wake error, (c.finish op wake).2 = some (.failed (.batchRejected error)) →
      ∃ o ∈ c.running, o.id = op ∧ ∃ (j k : Nat) (awaited : Bool),
        c.batchesSent[j]? = some o.ids ∧ k ≤ j ∧
        rulings[k]? = some (.rejection error awaited) ∧ (awaited = true → k = j)) ∧
    ∀ frame error ids id, c.reader = .idle → frame.rejection? = some error →
      c.batchesSent[rulings.length]? = some ids → id ∈ ids → c.isPending id = true →
      ∃ after, c.route frame = .ok after ∧ ∃ o ∈ c.running, o.ids = ids ∧
        ((after.gather o.id).finish o.id .answer).2 = some (.failed (.batchRejected error)) := by
  intro c
  have hattended : Attended rulings c.requests := h.attended
  have hreached : Reached config (history events { config }) c := reached_after config events
  constructor
  · intro op wake error hfinish
    rcases finish_cases c op wake with heq | ⟨o, result, ho, hverdict, hresult, -⟩
    · rw [heq] at hfinish
      cases hfinish
    · cases hresult.symm.trans hfinish
      have hmem := List.mem_of_find?_eq_some ho
      have hid := List.find?_some (p := fun other : Operation => other.id == op) ho
      obtain ⟨id, hrejected⟩ := mem_settled_of_rejected hverdict
      exact ⟨o, hmem, beq_iff_eq.mp hid, hattended.ruled o hmem id error hrejected⟩
  · intro frame error ids id hidle hrejection hnext hid hwaits
    exact ⟨_, route_rejection c hrejection,
      hattended.reject_awaited hreached hnext hid hwaits error⟩

/-- A batch is rejected while its caller waits. -/
theorem batch_rejected_awaited :
    let error : ServerFault := ⟨-3, "no", .null⟩
    let events : List Event := [.start, .batch [⟨"getSlot", [], Rpc.Shape.anything⟩] false none,
      .accept (Utf8.encode "\x7b\"error\":\x7b\"code\":-3,\"message\":\"no\"\x7d\x7d"), .gather 1]
    Served {} [.rejection error true] events ∧
      ∃ o ∈ (Channel.after events { config := {} }).running, o.id = 1 ∧
        ∃ (j k : Nat) (awaited : Bool),
          (Channel.after events { config := {} }).batchesSent[j]? = some o.ids ∧ k ≤ j ∧
          [Ruling.rejection error true][k]? = some (.rejection error awaited) ∧
          (awaited = true → k = j) := by
  intro error events
  have hsent : Served {} [] [.start, .batch [⟨"getSlot", [], Rpc.Shape.anything⟩] false none] :=
    (Served.start.quiet rfl).quiet rfl
  have hread : Rpc.Payload.read (Utf8.encode
      "\x7b\"error\":\x7b\"code\":-3,\"message\":\"no\"\x7d\x7d") =
        .ok (.single { error := some error }) := by
    unfold error
    cbv
  have hnext : (Channel.after [.start, .batch [⟨"getSlot", [], Rpc.Shape.anything⟩] false none]
      { config := {} }).batchesSent[0]? = some [1] := rfl
  have hserved : Served {} [.rejection error true] events :=
    (hsent.rejection hnext rfl hread rfl).quiet rfl
  have hfinish : ((Channel.after events { config := {} }).finish 1 .answer).2 =
      some (.failed (.batchRejected error)) := by
    unfold events error
    cbv
  exact ⟨hserved, (batch_rejected {} _ _ hserved).1 1 .answer error hfinish⟩

/-- The caller of a batch gives up, and then the batch is rejected: the next one fails, to which the
service has not answered. -/
theorem batch_rejected_for_another :
    let error : ServerFault := ⟨-3, "no", .null⟩
    let calls : List BatchCall := [⟨"getSlot", [], Rpc.Shape.anything⟩]
    let events : List Event := [.start, .batch calls false none, .finish 1 .signal,
      .batch calls false none,
      .accept (Utf8.encode "\x7b\"error\":\x7b\"code\":-3,\"message\":\"no\"\x7d\x7d"), .gather 2]
    Served {} [.rejection error false] events ∧
      (Channel.after events { config := {} }).batchesSent = [[1], [2]] ∧
      ((Channel.after events { config := {} }).finish 2 .answer).2 =
        some (.failed (.batchRejected error)) := by
  intro error calls events
  have hread : Rpc.Payload.read (Utf8.encode
      "\x7b\"error\":\x7b\"code\":-3,\"message\":\"no\"\x7d\x7d") =
        .ok (.single { error := some error }) := by
    unfold error
    cbv
  have hfirst : Served {} [] [.start, .batch calls false none] :=
    (Served.start.quiet rfl).quiet rfl
  have hsecond : Served {} []
      [.start, .batch calls false none, .finish 1 .signal, .batch calls false none] :=
    (hfirst.quiet rfl).quiet rfl
  have hnext : (Channel.after
      [.start, .batch calls false none, .finish 1 .signal, .batch calls false none]
      { config := {} }).batchesSent[0]? = some [1] := rfl
  refine ⟨(hsecond.rejection hnext rfl hread rfl).quiet rfl, ?_, ?_⟩
  · unfold events calls
    cbv
  · unfold events calls error
    cbv

end Channel

end LedgerClient
