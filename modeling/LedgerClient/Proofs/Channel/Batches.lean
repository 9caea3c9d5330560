import Mathlib.Data.List.Basic
import Mathlib.Data.Option.Basic
import LedgerClient.Channel.Session
import LedgerClient.Proofs.Channel.Rejections
import LedgerClient.Proofs.Http.Batch

/-!
# A batch over the channel and over HTTP

Both clients read the same list of frames, in different ways. Over HTTP the list is taken as a
whole: the last frame of each id counts, and what has no id is skipped. The channel routes frame by
frame: the first frame of each id counts, and an error without id rejects the batch as long as one
of its requests is pending. So the outcomes agree for lists that have no such error and say the
same thing first and last, and for no others.

## Main definitions

* `Rpc.Rejects`: a list of frames rejects the batch that waits for it
* `Channel.Quiet`: nothing is under way
* `Channel.Alone`: a batch is all that runs
* `Channel.Hears`: what a batch that runs is told by frames

## Main results

* `Channel.Alone.routeAll`: a batch that runs alone is told what the frames say
* `Channel.finish_batch_iff`: when a batch gives over the channel what it gives over HTTP
-/

namespace LedgerClient

namespace Rpc

variable {ids left : List Nat} {frame : Frame} {frames : List Frame} {error other : ServerFault}

/-- The first frame with an id. -/
def Payload.firstWith (id : Nat) (frames : List Frame) : Option Frame :=
  frames.find? fun frame => frame.id == some (id : Int)

theorem Payload.firstWith_cons (id : Nat) (frame : Frame) (frames : List Frame) :
    firstWith id (frame :: frames) =
      if frame.id = some (id : Int) then some frame else firstWith id frames := by
  by_cases h : frame.id = some (id : Int) <;> simp [firstWith, h]

theorem Payload.exists_firstWith {id : Nat} (h : ∃ frame ∈ frames, frame.id = some (id : Int)) :
    ∃ frame, firstWith id frames = some frame := by
  obtain ⟨frame, hmem, hid⟩ := h
  refine Option.isSome_iff_exists.mp (List.find?_isSome.mpr ⟨frame, hmem, ?_⟩)
  exact beq_iff_eq.mpr hid

/-- The first error without id comes before an answer to each of these requests. -/
def Rejects (ids : List Nat) (frames : List Frame) (error : ServerFault) : Prop :=
  ∃ before frame behind, frames = before ++ frame :: behind ∧
    (∀ f ∈ before, f.rejection? = none) ∧ frame.rejection? = some error ∧
    ∃ id ∈ ids, ∀ f ∈ before, f.id ≠ some (id : Int)

theorem rejects_cons_of_some (h : frame.rejection? = some other) :
    Rejects left (frame :: frames) error ↔ error = other ∧ left ≠ [] := by
  constructor
  · rintro ⟨before, first, behind, heq, hbefore, hfirst, id, hid, -⟩
    cases before with
    | nil =>
      cases heq
      exact ⟨Option.some.inj (hfirst.symm.trans h), List.ne_nil_of_mem hid⟩
    | cons f before =>
      cases heq
      exact nomatch h.symm.trans (hbefore _ List.mem_cons_self)
  · rintro ⟨rfl, hleft⟩
    obtain ⟨id, hid⟩ := List.exists_mem_of_ne_nil left hleft
    exact ⟨[], frame, frames, rfl, nofun, h, id, hid, nofun⟩

theorem rejects_cons_of_none (h : frame.rejection? = none) :
    Rejects left (frame :: frames) error ↔
      Rejects (left.filter fun id => frame.id ≠ some (id : Int)) frames error := by
  constructor
  · rintro ⟨before, first, behind, heq, hbefore, hfirst, id, hid, hmissing⟩
    cases before with
    | nil =>
      cases heq
      exact nomatch h.symm.trans hfirst
    | cons f before =>
      cases heq
      obtain ⟨hfid, hmissing⟩ := List.forall_mem_cons.mp hmissing
      exact ⟨before, first, behind, rfl, (List.forall_mem_cons.mp hbefore).2, hfirst, id,
        List.mem_filter.mpr ⟨hid, decide_eq_true hfid⟩, hmissing⟩
  · rintro ⟨before, first, behind, rfl, hbefore, hfirst, id, hid, hmissing⟩
    obtain ⟨hid, hfid⟩ := List.mem_filter.mp hid
    exact ⟨frame :: before, first, behind, rfl, List.forall_mem_cons.mpr ⟨h, hbefore⟩, hfirst, id,
      hid, List.forall_mem_cons.mpr ⟨of_decide_eq_true hfid, hmissing⟩⟩

theorem not_rejects_nil : ¬Rejects left [] error := by
  rintro ⟨before, first, behind, heq, -⟩
  simp at heq

theorem not_rejects_of_nil : ¬Rejects [] frames error := by
  rintro ⟨-, -, -, -, -, -, id, hid, -⟩
  cases hid

end Rpc

namespace Channel

open Rpc (BatchCall Entry Frame Rejects)

variable {c : Channel} {op told : Operation} {left : List Nat} {frame : Frame}
  {frames : List Frame} {error : ServerFault} {id : Nat}

/-- Nothing is under way. -/
structure Quiet (c : Channel) : Prop where
  opened : c.closed = none
  idle : c.reader = .idle
  pending : c.pending = []
  batches : c.batches = []
  running : c.running = []
  registry : c.registry = []

/-- A batch is all that runs, and these of its requests are pending. -/
structure Alone (c : Channel) (op : Operation) (left : List Nat) : Prop where
  idle : c.reader = .idle
  registry : c.registry = []
  pending : c.pending = left.map fun id => (id, .entry)
  batches : c.batches = [op.ids]
  running : c.running = [op]
  isBatch : op.isBatch = true
  own : left ⊆ op.ids

/-- What a batch is told by frames while these of its requests are pending: what rejects it, or
the first frame for each of them. -/
structure Hears (left : List Nat) (frames : List Frame) (op told : Operation) : Prop where
  id : told.id = op.id
  ids : told.ids = op.ids
  rejected : Operation.firstFault op.settled = none → ∀ error, Rejects left frames error →
    Operation.firstFault told.settled = some (.batchRejected error)
  answered : (∀ error, ¬Rejects left frames error) →
    Operation.firstFault told.settled = Operation.firstFault op.settled ∧
    ∀ id, told.settled.lookup id = (op.settled.lookup id).or
      (if id ∈ left then (Rpc.Payload.firstWith id frames).map fun frame => .entry frame.entry
        else none)

/-! ## One frame -/

section Frames

theorem Alone.isPending_iff (h : c.Alone op left) : c.isPending id = true ↔ id ∈ left := by
  simp [isPending, h.pending]

/-- A frame answers a request of the batch. -/
theorem Alone.route_answer (h : c.Alone op left) (hid : frame.id = some (id : Int))
    (hleft : id ∈ left) : ∃ after, c.route frame = .ok after ∧
      after.Alone (op.settle id (.entry frame.entry)) (left.filter fun n => n ≠ id) := by
  have hfind : c.pending.find? (fun entry => (entry.1 : Int) = id) = some (id, .entry) := by
    obtain ⟨entry, hentry⟩ := Option.isSome_iff_exists.mp
      (List.find?_isSome (p := fun entry : Nat × Expected => decide ((entry.1 : Int) = id)).mpr
        ⟨(id, Expected.entry), h.pending ▸ List.mem_map_of_mem hleft, decide_eq_true rfl⟩)
    have hkey : decide ((entry.1 : Int) = id) = true :=
      List.find?_some (p := fun entry : Nat × Expected => decide ((entry.1 : Int) = id)) hentry
    have hmem := List.mem_of_find?_eq_some hentry
    rw [h.pending] at hmem
    obtain ⟨n, -, rfl⟩ := List.mem_map.mp hmem
    cases Int.ofNat_inj.mp (of_decide_eq_true hkey)
    exact hentry
  have hroute : c.route frame = .ok ((c.forget id).settle id (.entry frame.entry)) := by
    rw [route, hid]
    dsimp only
    rw [resolve, hfind]
    rfl
  refine ⟨_, hroute, h.idle, h.registry, ?_, h.batches, ?_, h.isBatch, ?_⟩
  · change Keyed.without Prod.fst id c.pending = _
    rw [h.pending, Keyed.without, List.filter_map]
    rfl
  · change c.running.map _ = _
    rw [h.running, List.map_singleton, if_pos (List.contains_iff_mem.mpr (h.own hleft))]
  · exact fun n hn => h.own (List.mem_filter.mp hn).1

/-- A frame that concerns no request of the batch changes nothing. -/
theorem Alone.route_other (h : c.Alone op left) (hrejection : frame.rejection? = none)
    (hid : ∀ id ∈ left, frame.id ≠ some (id : Int)) : c.route frame = .ok c := by
  unfold route
  split
  · next id hsome =>
    have hfind : c.pending.find? (fun entry => (entry.1 : Int) = id) = none := by
      rw [h.pending, List.find?_eq_none]
      intro entry hentry hkey
      obtain ⟨n, hn, rfl⟩ := List.mem_map.mp hentry
      exact hid n hn (hsome.trans (congrArg some (of_decide_eq_true hkey).symm))
    rw [resolve, hfind]
  · next hnone hnotice => rw [notify, registered?, h.registry]; rfl
  · next hnone hnotice herror =>
    rw [Frame.rejection?, hnone, hnotice, herror] at hrejection
    cases hrejection
  · rfl

theorem Alone.waitingBatch? (h : c.Alone op left) :
    c.waitingBatch? = if left = [] then none else some op.ids := by
  have hany : op.ids.any c.isPending = true ↔ left ≠ [] := by
    rw [List.any_eq_true]
    constructor
    · rintro ⟨id, -, hpending⟩
      exact List.ne_nil_of_mem (h.isPending_iff.mp hpending)
    · intro hleft
      obtain ⟨id, hid⟩ := List.exists_mem_of_ne_nil left hleft
      exact ⟨id, h.own hid, h.isPending_iff.mpr hid⟩
  rw [Channel.waitingBatch?, h.batches]
  split
  · next hleft => exact List.find?_cons_of_neg fun hpending => hany.mp hpending hleft
  · next hleft => exact List.find?_cons_of_pos (hany.mpr hleft)

theorem Alone.reject (h : c.Alone op left) (hleft : left ≠ []) (error : ServerFault) :
    ∃ told, (c.reject error).Alone told [] ∧ told.id = op.id ∧ told.ids = op.ids ∧
      (Operation.firstFault op.settled = none →
        Operation.firstFault told.settled = some (.batchRejected error)) := by
  have heq : c.reject error = op.ids.foldl (fail (.batchRejected error)) c := by
    rw [Channel.reject, h.waitingBatch?, if_neg hleft]
  have hsame := subscriptions_reject (c := c) error
  obtain ⟨tell, hrunning, htell⟩ := exists_fails (.batchRejected error) op.ids c.requests
  obtain ⟨id, hid⟩ := List.exists_mem_of_ne_nil left hleft
  have hall : ∀ entry ∈ c.pending, entry.1 ∈ op.ids := by
    rw [h.pending]
    intro entry hentry
    obtain ⟨n, hn, rfl⟩ := List.mem_map.mp hentry
    exact h.own hn
  have hrequests : (c.reject error).requests =
      op.ids.foldl (Requests.fail (.batchRejected error)) c.requests := by
    rw [heq, requests_foldl_fail]
  refine ⟨tell op, ⟨?_, ?_, ?_, ?_, ?_, (htell op).sameKind.trans h.isBatch,
    List.nil_subset _⟩,
    (htell op).sameId, (htell op).sameIds,
    (htell op).firstFault (h.own hid) (h.own hid) (h.isPending_iff.mpr hid)⟩
  · exact (congrArg Subscriptions.reader hsame).trans h.idle
  · exact (congrArg Subscriptions.registry hsame).trans h.registry
  · exact (congrArg Requests.pending hrequests).trans (pending_foldl_fail hall)
  · have hbatches := congrArg Requests.batches (hrequests.trans foldl_fail_eq)
    rw [(htell op).sameIds, ← h.batches]
    exact hbatches
  · have htold := (congrArg Requests.running hrequests).trans hrunning
    change (c.reject error).running = c.running.map tell at htold
    rw [htold, h.running, List.map_singleton]

theorem Alone.reject_nil (h : c.Alone op []) (error : ServerFault) : c.reject error = c := by
  rw [Channel.reject, h.waitingBatch?, if_pos rfl]

end Frames

/-! ## All frames -/

section Lists

theorem hears_nil (op : Operation) : Hears left [] op op := by
  refine ⟨rfl, rfl, fun _ error hrejects => absurd hrejects Rpc.not_rejects_nil, fun _ => ⟨rfl, ?_⟩⟩
  intro id
  simp [Rpc.Payload.firstWith]

/-- Where nothing is pending, no frame counts. -/
theorem Hears.of_nil {others : List Frame} (h : Hears [] frames op told) :
    Hears [] others op told := by
  refine ⟨h.id, h.ids, fun _ error hrejects => absurd hrejects Rpc.not_rejects_of_nil, fun _ => ?_⟩
  obtain ⟨hfault, hlookup⟩ := h.answered fun _ => Rpc.not_rejects_of_nil
  exact ⟨hfault, fun id => by simpa using hlookup id⟩

/-- A frame that concerns no request of the batch does not count. -/
theorem Hears.skip (h : Hears left frames op told) (hrejection : frame.rejection? = none)
    (hid : ∀ id ∈ left, frame.id ≠ some (id : Int)) : Hears left (frame :: frames) op told := by
  have hleft : left.filter (fun id : Nat => frame.id ≠ some (id : Int)) = left :=
    List.filter_eq_self.mpr fun id hmem => decide_eq_true (hid id hmem)
  have hrejects (error : ServerFault) :
      Rejects left (frame :: frames) error ↔ Rejects left frames error := by
    rw [Rpc.rejects_cons_of_none hrejection, hleft]
  refine ⟨h.id, h.ids, fun hnone error => ?_, fun hnone => ?_⟩
  · rw [hrejects]
    exact h.rejected hnone error
  · simp only [hrejects] at hnone
    obtain ⟨hfault, hlookup⟩ := h.answered hnone
    refine ⟨hfault, fun id => ?_⟩
    rw [hlookup id]
    split
    · next hmem => rw [Rpc.Payload.firstWith_cons, if_neg (hid id hmem)]
    · rfl

/-- The first frame of a pending request counts. -/
theorem Hears.answer (hid : frame.id = some (id : Int)) (hleft : id ∈ left)
    (h : Hears (left.filter fun n => n ≠ id) frames (op.settle id (.entry frame.entry)) told) :
    Hears left (frame :: frames) op told := by
  have hrejection : frame.rejection? = none := by
    rw [Frame.rejection?, hid]
    rfl
  have hothers : left.filter (fun n : Nat => frame.id ≠ some (n : Int)) =
      left.filter fun n => n ≠ id := by
    refine List.filter_congr fun n _ => decide_eq_decide.mpr (not_congr ?_)
    rw [hid, Option.some.injEq, Int.ofNat_inj, eq_comm]
  have hrejects (error : ServerFault) : Rejects left (frame :: frames) error ↔
      Rejects (left.filter fun n => n ≠ id) frames error := by
    rw [Rpc.rejects_cons_of_none hrejection, hothers]
  have hsettled : Operation.firstFault (op.settle id (.entry frame.entry)).settled =
      Operation.firstFault op.settled := by
    change Operation.firstFault (op.settled ++ _) = _
    rw [firstFault_append]
    exact Option.or_none
  refine ⟨h.id, h.ids, fun hnone error => ?_, fun hnone => ?_⟩
  · rw [hrejects]
    exact h.rejected (hsettled.trans hnone) error
  · simp only [hrejects] at hnone
    obtain ⟨hfault, hlookup⟩ := h.answered hnone
    refine ⟨hfault.trans hsettled, fun n => ?_⟩
    have hbefore : (op.settle id (.entry frame.entry)).settled.lookup n =
        (op.settled.lookup n).or (if n = id then some (.entry frame.entry) else none) := by
      change (op.settled ++ [(id, _)]).lookup n = _
      rw [List.lookup_append, List.lookup_cons, List.lookup_nil]
      by_cases hn : n = id
      · simp [hn]
      · simp [hn, beq_false_of_ne hn]
    rw [hlookup n, hbefore, Option.or_assoc, Rpc.Payload.firstWith_cons, hid]
    congr 1
    by_cases hn : n = id
    · subst hn
      simp [hleft]
    · have hne : ¬(id : Int) = n := by omega
      simp [hn, hne]

/-- A rejection counts while requests are pending. -/
theorem hears_rejection (hrejection : frame.rejection? = some error) (hleft : left ≠ [])
    (hid : told.id = op.id) (hids : told.ids = op.ids)
    (hfault : Operation.firstFault op.settled = none →
      Operation.firstFault told.settled = some (.batchRejected error)) :
    Hears left (frame :: frames) op told := by
  refine ⟨hid, hids, fun hnone other hrejects => ?_, fun hrejects => ?_⟩
  · obtain ⟨rfl, -⟩ := (Rpc.rejects_cons_of_some hrejection).mp hrejects
    exact hfault hnone
  · exact absurd ((Rpc.rejects_cons_of_some hrejection).mpr ⟨rfl, hleft⟩) (hrejects error)

/-- **A batch that runs alone is told what the frames say.** -/
theorem Alone.routeAll (h : c.Alone op left) (frames : List Frame) : ∃ told left',
    (routeAll frames c).Alone told left' ∧ Hears left frames op told := by
  induction frames generalizing c op left with
  | nil =>
    rw [routeAll_nil h.idle]
    exact ⟨op, left, h, hears_nil op⟩
  | cons frame frames ih =>
    cases hrejection : frame.rejection? with
    | some error =>
      have hroute := c.route_rejection hrejection
      by_cases hleft : left = []
      · subst hleft
        rw [h.reject_nil error] at hroute
        obtain ⟨told, left', htold, hhears⟩ := ih h
        rw [routeAll_of_idle hroute h.idle]
        exact ⟨told, left', htold, hhears.of_nil⟩
      · obtain ⟨rejected, hrejected, hid, hids, hfault⟩ := h.reject hleft error
        obtain ⟨told, left', htold, hhears⟩ := ih hrejected
        have hsame := (hhears.answered fun _ => Rpc.not_rejects_of_nil).1
        rw [routeAll_of_idle hroute hrejected.idle]
        exact ⟨told, left', htold, hears_rejection hrejection hleft (hhears.id.trans hid)
          (hhears.ids.trans hids) fun hnone => hsame.trans (hfault hnone)⟩
    | none =>
      by_cases hanswers : ∃ id ∈ left, frame.id = some (id : Int)
      · obtain ⟨id, hleft, hid⟩ := hanswers
        obtain ⟨after, hroute, hafter⟩ := h.route_answer hid hleft
        obtain ⟨told, left', htold, hhears⟩ := ih hafter
        rw [routeAll_of_idle hroute hafter.idle]
        exact ⟨told, left', htold, .answer hid hleft hhears⟩
      · have hother : ∀ id ∈ left, frame.id ≠ some (id : Int) := fun id hmem heq =>
          hanswers ⟨id, hmem, heq⟩
        obtain ⟨told, left', htold, hhears⟩ := ih h
        rw [routeAll_of_idle (h.route_other hrejection hother) h.idle]
        exact ⟨told, left', htold, hhears.skip hrejection hother⟩

end Lists

/-! ## The batch as a whole -/

section Whole

variable {calls : List BatchCall} {ids : List Nat} {entries : List Entry}

/-- A batch that begins when nothing is under way runs alone. -/
theorem Quiet.beginBatch {text : String} (h : c.Quiet)
    (hlimit : Rpc.demandBatch calls c.config.batchLimit = .ok ())
    (hrender : Rpc.Request.renderAll (Rpc.requests c.nextId calls) = .ok text) :
    let ids := (List.range calls.length).map (c.nextId + ·)
    ∃ after, c.beginBatch calls false none = (after, .ok c.nextId) ∧
      after.Alone { id := c.nextId, ids, isBatch := true } ids := by
  intro ids
  have hopen : c.demandOpen false = .ok () := by
    rw [demandOpen, h.opened]
    rfl
  have hhand : hand (.batch (Rpc.requests c.nextId calls)) none = .ok () := by
    rw [hand]
    change (Rpc.Request.renderAll (Rpc.requests c.nextId calls) >>= _) = _
    rw [hrender]
    rfl
  refine ⟨{ c with
    nextId := c.nextId + calls.length
    pending := c.pending ++ ids.map fun id => (id, .entry)
    batches := c.batches ++ [ids]
    running := c.running ++ [{ id := c.nextId, ids, isBatch := true }]
    sent := c.sent ++ [.batch (Rpc.requests c.nextId calls)] }, ?_, ?_⟩
  · unfold Channel.beginBatch
    rw [hlimit, hopen]
    dsimp only
    rw [hhand]
  · refine ⟨h.idle, h.registry, ?_, ?_, ?_, rfl, List.Subset.refl _⟩
    · simp [h.pending]
    · simp [h.batches]
    · simp [h.running]

/-- A batch of which enough has come is told its result. -/
theorem Alone.finish (h : c.Alone op left) (hcomplete : op.isComplete = true) :
    ((c.gather op.id).finish op.id .answer).2 = some op.result := by
  have hoperation : (c.gather op.id).operation? op.id = some op.gather := by
    simp [operation?, gather, h.running, Operation.gather]
  have hverdict : op.gather.verdict? .answer = some op.result := by
    simp [Operation.verdict?, Operation.gather, hcomplete, Operation.result, Operation.entries]
  unfold Channel.finish
  rw [hoperation]
  dsimp only
  rw [hverdict]

/-- A batch that is rejected fails. -/
theorem Hears.result_rejected (h : Hears left frames op told) (hnew : op.settled = [])
    (hrejects : Rejects left frames error) :
    told.isComplete = true ∧ told.result = .failed (.batchRejected error) := by
  have hfault := h.rejected (by rw [hnew]; rfl) error hrejects
  simp [Operation.isComplete, Operation.result, hfault]

/-- A batch that is not rejected is told the first frame for each request. -/
theorem Hears.result_answered (h : Hears left frames op told) (hnew : op.settled = [])
    (hbatch : told.isBatch = true) (hids : told.ids = left)
    (hnone : ∀ error, ¬Rejects left frames error)
    (hall : ∀ id ∈ left, ∃ frame ∈ frames, frame.id = some (id : Int)) :
    told.isComplete = true ∧ ∃ entries, told.result = .entries entries ∧
      entries.map some = left.map fun id => (Rpc.Payload.firstWith id frames).map Frame.entry := by
  obtain ⟨hfault, hlookup⟩ := h.answered hnone
  rw [hnew] at hfault
  have hfound (id : Nat) (hid : id ∈ left) : ∃ frame, Rpc.Payload.firstWith id frames = some frame ∧
      told.settled.lookup id = some (.entry frame.entry) := by
    obtain ⟨first, hfirst⟩ := Rpc.Payload.exists_firstWith (hall id hid)
    refine ⟨first, hfirst, ?_⟩
    rw [hlookup id, hnew, if_pos hid, hfirst]
    rfl
  constructor
  · rw [Operation.isComplete, hids, Bool.or_eq_true, List.all_eq_true]
    right
    intro id hid
    obtain ⟨frame, -, hsettled⟩ := hfound id hid
    exact List.any_eq_true.mpr ⟨_, mem_of_lookup hsettled, beq_self_eq_true id⟩
  · refine ⟨told.entries, by simp [Operation.result, hfault, Operation.firstFault, hbatch], ?_⟩
    rw [Operation.entries, hids, map_some_filterMap]
    · refine List.map_congr_left fun id hid => ?_
      obtain ⟨frame, hfirst, hsettled⟩ := hfound id hid
      rw [hsettled, hfirst]
      rfl
    · intro id hid
      obtain ⟨frame, -, hsettled⟩ := hfound id hid
      exact ⟨frame.entry, by rw [hsettled]⟩

/-- What the HTTP client makes of a body that is a list of frames. -/
theorem batch_http {client : Http.Client} {circumstances : Http.Circumstances}
    {response : Http.Response} {text : String} {body : Bytes}
    (hlimit : Rpc.demandBatch calls client.config.batchLimit = .ok ())
    (hrender : Rpc.Request.renderAll (Rpc.requests client.nextId calls) = .ok text)
    (hsent : circumstances.cancellation ≠ .before)
    (hdelivery : circumstances.delivery = .response response)
    (hbody : response.body (some client.config.responseLimit) = .ok body)
    (hread : Rpc.Payload.read body client.config.host = .ok (.batch frames)) :
    (client.batch calls circumstances).2.outcome =
      some (Rpc.Payload.entries frames ((List.range calls.length).map (client.nextId + ·)) >>=
        Rpc.readBatch client.config.host calls) := by
  have houtcome := Http.Client.outcome_of_answered hlimit hrender
    ⟨hsent, response, body, hdelivery, hbody, hread⟩
  exact congrArg (Option.map (· >>= Rpc.readBatch client.config.host calls)) houtcome

end Whole

/-- **When a batch gives over the channel what it gives over HTTP.** Nothing else is under way, both
clients give their requests the same ids, and both read the same list of frames, in which each id
occurs. Over HTTP the batch gives the last frame of each id. Over the channel it gives the first
frame of each id, unless an error without id comes before every request is answered; that error
rejects it. So both give the same exactly if there is no such error and the first and the last frame
of each id say the same. -/
theorem finish_batch_iff {client : Http.Client} {calls : List BatchCall}
    {circumstances : Http.Circumstances} {response : Http.Response} {text : String} {body : Bytes}
    (hquiet : c.Quiet) (hids : client.nextId = c.nextId)
    (hlimit : Rpc.demandBatch calls c.config.batchLimit = .ok ())
    (hlimits : Rpc.demandBatch calls client.config.batchLimit = .ok ())
    (hrender : Rpc.Request.renderAll (Rpc.requests c.nextId calls) = .ok text)
    (hsent : circumstances.cancellation ≠ .before)
    (hdelivery : circumstances.delivery = .response response)
    (hbody : response.body (some client.config.responseLimit) = .ok body)
    (hread : Rpc.Payload.read body c.config.host = .ok (.batch frames))
    (hreads : Rpc.Payload.read body client.config.host = .ok (.batch frames))
    (hall : ∀ id ∈ (List.range calls.length).map (c.nextId + ·),
      ∃ frame ∈ frames, frame.id = some (id : Int)) :
    let ids := (List.range calls.length).map (c.nextId + ·)
    let run := Channel.after [.batch calls false none, .accept body, .gather c.nextId] c
    ∃ result entries, (run.finish c.nextId .answer).2 = some result ∧
      (client.batch calls circumstances).2.outcome =
        some (Rpc.readBatch client.config.host calls entries) ∧
      entries.map some = ids.map (fun id => (Rpc.Payload.lastWith id frames).map Frame.entry) ∧
      (∀ error, Rejects ids frames error → result = .failed (.batchRejected error)) ∧
      ((∀ error, ¬Rejects ids frames error) → ∃ firsts, result = .entries firsts ∧
        firsts.map some = ids.map fun id => (Rpc.Payload.firstWith id frames).map Frame.entry) ∧
      (result = .entries entries ↔ (∀ error, ¬Rejects ids frames error) ∧
        ∀ id ∈ ids, (Rpc.Payload.firstWith id frames).map Frame.entry =
          (Rpc.Payload.lastWith id frames).map Frame.entry) := by
  intro ids run
  obtain ⟨begun, hbegun, halone⟩ := hquiet.beginBatch hlimit hrender
  obtain ⟨told, left, htold, hhears⟩ := halone.routeAll frames
  have hrun : run = (Channel.routeAll frames begun).gather c.nextId := by
    have hconfig : (c.beginBatch calls false none).1.config = c.config :=
      (Leads.start.step (.batch calls false none)).config_eq
    rw [hbegun] at hconfig
    change ((((c.beginBatch calls false none).1.step (.accept body)).1).gather c.nextId) = _
    rw [hbegun, step, halone.idle, accept, hconfig, hread]
    rfl
  obtain ⟨entries, hentries, hlast⟩ := Rpc.Payload.entries_eq_ok hall
  have hhttp : (client.batch calls circumstances).2.outcome =
      some (Rpc.readBatch client.config.host calls entries) := by
    rw [← hids] at hrender hentries
    rw [batch_http hlimits hrender hsent hdelivery hbody hreads, hentries]
    rfl
  have hfinish (hcomplete : told.isComplete = true) :
      (run.finish c.nextId .answer).2 = some told.result := by
    have hid : told.id = c.nextId := hhears.id
    rw [hrun, ← hid]
    exact htold.finish hcomplete
  by_cases hrejects : ∃ error, Rejects ids frames error
  · obtain ⟨error, herror⟩ := hrejects
    obtain ⟨hcomplete, hresult⟩ := hhears.result_rejected rfl herror
    refine ⟨_, entries, hfinish hcomplete, hhttp, hlast, fun other hother => ?_,
      fun hnone => absurd herror (hnone error), ?_⟩
    · exact (hhears.result_rejected rfl hother).2
    · rw [hresult]
      constructor
      · intro hsame
        cases hsame
      · intro hagree
        exact absurd herror (hagree.1 error)
  · have hnone : ∀ error, ¬Rejects ids frames error := fun error herror => hrejects ⟨error, herror⟩
    obtain ⟨hcomplete, firsts, hresult, hfirsts⟩ :=
      hhears.result_answered rfl htold.isBatch hhears.ids hnone hall
    have hinj : Function.Injective (List.map (some : Entry → Option Entry)) :=
      List.map_injective_iff.mpr (Option.some_injective _)
    refine ⟨_, entries, hfinish hcomplete, hhttp, hlast,
      fun error herror => absurd herror (hnone error), fun _ => ⟨firsts, hresult, hfirsts⟩, ?_⟩
    rw [hresult, Result.entries.injEq, and_iff_right hnone]
    rw [← hinj.eq_iff, hfirsts, hlast, List.map_inj_left]

/-- A batch of one call is answered after a frame that concerns no one. -/
theorem finish_batch_iff_one_call :
    let calls : List BatchCall := [⟨"getSlot", [], Rpc.Shape.anything⟩]
    let body := Utf8.encode "[\x7b\"id\":7,\"result\":4\x7d,\x7b\"id\":1,\"result\":5\x7d]"
    let client : Http.Client := { config := {} }
    let circumstances : Http.Circumstances := { delivery := .response ⟨200, [body]⟩ }
    let channel : Channel := { config := {}, reader := .idle }
    let run := Channel.after [.batch calls false none, .accept body, .gather 1] channel
    ∃ entries, (run.finish 1 .answer).2 = some (.entries entries) ∧
      (client.batch calls circumstances).2.outcome =
        some (Rpc.readBatch client.config.host calls entries) := by
  intro calls body client circumstances channel run
  have hread : Rpc.Payload.read body client.config.host = .ok (.batch
      [{ id := some 7, result := Utf8.encode "4" },
        { id := some 1, result := Utf8.encode "5" }]) := by
    unfold body client
    cbv
  obtain ⟨text, hrender⟩ : ∃ text, Rpc.Request.renderAll (Rpc.requests 1 calls) = .ok text :=
    ⟨_, rfl⟩
  have hquiet : Quiet channel := ⟨rfl, rfl, rfl, rfl, rfl, rfl⟩
  have hids : client.nextId = channel.nextId := rfl
  have hsent : circumstances.cancellation ≠ .before := by simp [circumstances]
  have hone : ∀ id ∈ (List.range calls.length).map (1 + ·), id = 1 := by simp [calls]
  obtain ⟨result, entries, hfinish, hhttp, -, -, -, hiff⟩ :=
    finish_batch_iff hquiet hids rfl rfl hrender hsent rfl rfl hread hread fun id hid =>
      ⟨_, List.mem_cons_of_mem _ List.mem_cons_self, by rw [hone id hid]; rfl⟩
  refine ⟨entries, ?_, hhttp⟩
  rw [← hiff.mpr ⟨?_, ?_⟩]
  · exact hfinish
  · intro error
    rw [Rpc.rejects_cons_of_none rfl, Rpc.rejects_cons_of_none rfl]
    exact Rpc.not_rejects_nil
  · intro id hid
    rw [hone id hid]
    rfl

/-- An error without id rejects a batch over the channel that is answered over HTTP. -/
theorem finish_batch_rejected :
    let calls : List BatchCall := [⟨"getSlot", [], Rpc.Shape.anything⟩]
    let body := Utf8.encode
      "[\x7b\"error\":\x7b\"code\":-3,\"message\":\"no\"\x7d\x7d,\x7b\"id\":1,\"result\":5\x7d]"
    let client : Http.Client := { config := {} }
    let circumstances : Http.Circumstances := { delivery := .response ⟨200, [body]⟩ }
    let run := Channel.after [.start, .batch calls false none, .accept body, .gather 1]
      { config := {} }
    (run.finish 1 .answer).2 = some (.failed (.batchRejected ⟨-3, "no", .null⟩)) ∧
      (client.batch calls circumstances).2.outcome = some (.ok [.ok (.plain (.int 5))]) := by
  intro calls body client circumstances run
  have hread : Rpc.Payload.read body client.config.host = .ok (.batch
      [{ error := some ⟨-3, "no", .null⟩ }, { id := some 1, result := Utf8.encode "5" }]) := by
    unfold body client
    cbv
  obtain ⟨text, hrender⟩ : ∃ text, Rpc.Request.renderAll (Rpc.requests 1 calls) = .ok text :=
    ⟨_, rfl⟩
  constructor
  · unfold run body calls
    cbv
  · have hsent : circumstances.cancellation ≠ .before := by simp [circumstances]
    rw [batch_http rfl hrender hsent rfl rfl hread]
    cbv

end Channel

end LedgerClient
